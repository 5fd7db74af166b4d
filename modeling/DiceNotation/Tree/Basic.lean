import DiceNotation.Operator

/-!
# Trees

Dice notation as a tree.  A sum or product is built from the left: a chain, an
operator and one more operand make a longer chain.  A tree may hold any operator
at either level, any number, and any text in place of dice.
-/

namespace DiceNotation

inductive Tree : Level → Type where
  | int (value : Int64) : Tree .atom
  | dice (text : String) : Tree .atom
  | group (inner : Tree .sum) : Tree .atom
  | ofAtom (atom : Tree .atom) : Tree .product
  | times (left : Tree .product) (op : Operator) (right : Tree .atom) : Tree .product
  | ofTerm (term : Tree .product) : Tree .sum
  | plus (left : Tree .sum) (op : Operator) (right : Tree .product) : Tree .sum
  deriving DecidableEq, Repr

abbrev Expression := Tree .sum

abbrev Term := Tree .product

abbrev Atom := Tree .atom

def Term.extend (term : Term) (operands : List (Operator × Atom)) : Term :=
  operands.foldl (fun left operand => .times left operand.1 operand.2) term

def Expression.extend (expression : Expression) (operands : List (Operator × Term)) : Expression :=
  operands.foldl (fun left operand => .plus left operand.1 operand.2) expression

/-- The operands of a product: the first one, and the others in front of `rest`. -/
def Term.operands : Term → List (Operator × Atom) → Atom × List (Operator × Atom)
  | .ofAtom atom, rest => (atom, rest)
  | .times left op right, rest => operands left ((op, right) :: rest)

def Expression.operands : Expression → List (Operator × Term) → Term × List (Operator × Term)
  | .ofTerm term, rest => (term, rest)
  | .plus left op right, rest => operands left ((op, right) :: rest)

end DiceNotation
