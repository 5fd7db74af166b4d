import DiceNotation.Numeral

/-!
# Operators

The four operators, and the levels of dice notation: a sum is a chain of
products, a product is a chain of atoms, and an atom stands by itself.
-/

namespace DiceNotation

inductive Level where
  | sum
  | product
  | atom
  deriving DecidableEq, Repr

inductive Operator where
  | add
  | sub
  | mul
  | div
  deriving DecidableEq, Repr

namespace Operator

def symbol : Operator → Char
  | .add => '+'
  | .sub => '-'
  | .mul => '*'
  | .div => '/'

def level : Operator → Level
  | .add | .sub => .sum
  | .mul | .div => .product

/--
The value over the unbounded integers.  Division truncates toward zero, and there
is none by zero.
-/
def value? : Operator → Int → Int → Option Int
  | .add, left, right => some (left + right)
  | .sub, left, right => some (left - right)
  | .mul, left, right => some (left * right)
  | .div, left, right => if right = 0 then none else some (left.tdiv right)

end Operator

end DiceNotation
