import Aquarium.Entries

/-!
# TOML values

The values of a TOML document.  A table remembers how it came about, because that decides whether
it may still be extended: a table from a header or in braces is complete, while a table that only
exists because something inside it was named is not.
-/

namespace Aquarium

namespace Toml

/-- How a table came about. -/
inductive Origin where
  /-- Its own header, or the document itself. -/
  | header
  /-- The header of a table inside it. -/
  | implied
  /-- A dotted key. -/
  | dotted
  /-- Braces. -/
  | inline
deriving DecidableEq

end Toml

/-- A TOML value.  Of a date only the fact that it is one is kept. -/
inductive Toml where
  | string (s : String)
  | integer (n : Int)
  | float (v : Float)
  | boolean (b : Bool)
  | date
  | array (items : List Toml)
  | table (origin : Toml.Origin) (entries : List (String × Toml))
  /-- Tables with the same header in double brackets. -/
  | tables (items : List Toml)

namespace Toml

/-! ## Reaching into tables -/

/-- The origin of a table that has to be made on the way to a place inside it. -/
def newOrigin (dotted : Bool) : Origin := if dotted then .dotted else .implied

/-- Whether a table may be entered on the way to a place inside it: never one in braces, and by a
dotted key none with a header of its own. -/
def mayEnter (dotted : Bool) : Origin → Bool
  | .inline => false
  | .header => !dotted
  | .implied | .dotted => true

/-- Changes the table at the end of a path.  Tables that are missing on the way are made, and of
several tables with the same header the last one is meant. -/
def alter (dotted : Bool) (change : Toml → Option Toml) : List String → Toml → Option Toml
  | [], t => change t
  | key :: path, .table origin entries =>
      let next : Option Toml := match entries.lookup key with
        | none => alter dotted change path (.table (newOrigin dotted) [])
        | some (.table o es) =>
            if mayEnter dotted o then alter dotted change path (.table o es) else none
        | some (.tables items) =>
            match items.getLast? with
            | some last =>
                (alter dotted change path last).map fun t => .tables (items.dropLast ++ [t])
            | none => none
        | some _ => none
      next.map fun t => .table origin (Entries.put key t entries)
  | _ :: _, _ => none

/-- Adds an entry to a table.  A key can be given once, and the tables of dotted keys take
entries from dotted keys only. -/
def addEntry (dotted : Bool) (key : String) (value : Toml) : Toml → Option Toml
  | .table origin entries =>
      if dotted = (origin == .dotted) ∧ (entries.lookup key).isNone then
        some (.table origin (entries ++ [(key, value)]))
      else none
  | _ => none

/-- Adds a value under a dotted key, the last part of which is given apart. -/
def insert (path : List String) (key : String) (value : Toml) (t : Toml) : Option Toml :=
  alter true (addEntry (!path.isEmpty) key value) path t

/-- Adds several values under their keys in order. -/
def insertAll (t : Toml) (pairs : List ((List String × String) × Toml)) : Option Toml :=
  pairs.foldlM (fun t ((path, key), value) => insert path key value t) t

end Toml

end Aquarium
