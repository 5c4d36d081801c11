import Aquarium.Fault
import Aquarium.Number.Remainder

/-!
# Arithmetic

The operators that take two values off the stack and put one back.  Comparisons answer one or
zero.
-/

namespace Aquarium

/-- A binary operator of the language. -/
inductive Operator where
  | add
  | sub
  | mul
  | div
  | mod
  | eq
  | gt
  | lt
deriving DecidableEq

namespace Operator

/-- The operator a character stands for. -/
def ofChar? : Char → Option Operator
  | '+' => some .add
  | '-' => some .sub
  | '*' => some .mul
  | ',' => some .div
  | '%' => some .mod
  | '=' => some .eq
  | ')' => some .gt
  | '(' => some .lt
  | _ => none

/-- The name of an operator. -/
def name : Operator → String
  | .add => "Add"
  | .sub => "Sub"
  | .mul => "Mul"
  | .div => "Div"
  | .mod => "Mod"
  | .eq => "Eq"
  | .gt => "Gt"
  | .lt => "Lt"

/-- One for true and zero for false. -/
def truth (b : Bool) : Float := Number.ofNat (if b then 1 else 0)

/-- The value of `y op x`, where `x` was on top of the stack. -/
def eval (op : Operator) (y x : Float) : Except Fault Float :=
  match op with
  | .add => .ok (Number.add y x)
  | .sub => .ok (Number.sub y x)
  | .mul => .ok (Number.mul y x)
  | .div => if Number.isZero x then .error .divisionByZero else .ok (Number.div y x)
  | .mod => if Number.isZero x then .error .divisionByZero else .ok (Number.modulo y x)
  | .eq => .ok (truth (Number.equal y x))
  | .gt => .ok (truth (Number.less x y))
  | .lt => .ok (truth (Number.less y x))

end Operator

end Aquarium
