/-!
# Named entries

A directory and a table are lists of values with their names.  A value is found with `List.lookup`;
what is put under a name takes the place of the value that is found there.
-/

namespace Aquarium.Entries

/-- Puts a value under a name, in place of the one that was there. -/
def put {α : Type} (name : String) (value : α) : List (String × α) → List (String × α)
  | [] => [(name, value)]
  | (n, v) :: rest => if n = name then (name, value) :: rest else (n, v) :: put name value rest

end Aquarium.Entries
