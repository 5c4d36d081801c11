import Aquarium.Fault

/-!
# Queues

What enters first leaves first.  A queue is the list of its items, oldest first.
-/

namespace Aquarium

/-- Items in the order in which they will leave. -/
structure Queue (α : Type) where
  items : List α := []
deriving DecidableEq

namespace Queue

variable {α : Type}

/-- Appends an item. -/
def write (q : Queue α) (a : α) : Queue α := ⟨q.items ++ [a]⟩

/-- Appends several items in order. -/
def writeAll (q : Queue α) (as : List α) : Queue α := ⟨q.items ++ as⟩

/-- Takes the oldest item. -/
def read (q : Queue α) : Except Fault (α × Queue α) :=
  match q.items with
  | a :: rest => .ok (a, ⟨rest⟩)
  | [] => .error .emptyQueue

/-- Takes all items. -/
def drain (q : Queue α) : List α × Queue α := (q.items, {})

/-- The number of items. -/
def size (q : Queue α) : Nat := q.items.length

/-- Whether there is no item. -/
def isEmpty (q : Queue α) : Bool := q.items.isEmpty

end Queue

end Aquarium
