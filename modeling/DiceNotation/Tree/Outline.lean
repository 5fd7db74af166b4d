import DiceNotation.Text.Quoted
import DiceNotation.Tree.Basic

/-!
# Outlines

A tree on a single line, with the names of its parts, as it is logged when it has
been read.  Parentheses are a part, so they are seen there even where they make no
difference to a roll.
-/

namespace DiceNotation

def Operator.name : Operator → String
  | .add => "Add"
  | .sub => "Sub"
  | .mul => "Mul"
  | .div => "Div"

namespace Tree

def outlineChain (name first : String) (others : List String) : String :=
  name ++ " \x7b left: " ++ first ++ ", right: [" ++ ", ".intercalate others ++ "] \x7d"

def outlineOperand (op : Operator) (operand : String) : String :=
  "(" ++ op.name ++ ", " ++ operand ++ ")"

/-- The outline of a chain that goes on with `others`.  An atom does not go on. -/
def outlineWith : {level : Level} → Tree level → List String → String
  | _, .int value, _ => "Modifier(" ++ Numeral.write value ++ ")"
  | _, .dice text, _ => "RollExpr(DiceRoll(" ++ Text.quote text ++ "))"
  | _, .group inner, _ => "SubExpression(" ++ inner.outlineWith [] ++ ")"
  | _, .ofAtom atom, others => outlineChain "Term" (atom.outlineWith []) others
  | _, .times left op right, others =>
      left.outlineWith (outlineOperand op (right.outlineWith []) :: others)
  | _, .ofTerm term, others => outlineChain "Expression" (term.outlineWith []) others
  | _, .plus left op right, others =>
      left.outlineWith (outlineOperand op (right.outlineWith []) :: others)

def outline {level : Level} (tree : Tree level) : String := tree.outlineWith []

theorem length_lt_outlineChain (name first : String) (others : List String) :
    first.length < (outlineChain name first others).length := by
  simp only [outlineChain, String.length_append]
  have hleft : " \x7b left: ".length = 9 := rfl
  omega

theorem length_outline_lt_group (tree : Expression) :
    (outline tree).length < (outline (.ofTerm (.ofAtom (.group tree)))).length :=
  calc (outline tree).length
      < ("SubExpression(" ++ outline tree ++ ")").length := by
        simp only [String.length_append]
        have hopen : "SubExpression(".length = 14 := rfl
        omega
    _ < (outlineChain "Term" ("SubExpression(" ++ outline tree ++ ")") []).length :=
        length_lt_outlineChain _ _ _
    _ < (outlineChain "Expression"
          (outlineChain "Term" ("SubExpression(" ++ outline tree ++ ")") []) []).length :=
        length_lt_outlineChain _ _ _

end Tree

def Expression.notice (expression : Expression) : String :=
  "DEBUG parsed roll: " ++ expression.outline

theorem notice_group_ne (tree : Expression) :
    Expression.notice (.ofTerm (.ofAtom (.group tree))) ≠ tree.notice := by
  intro h
  have hlength := congrArg String.length h
  change ("DEBUG parsed roll: " ++ _).length = ("DEBUG parsed roll: " ++ tree.outline).length
    at hlength
  rw [String.length_append, String.length_append] at hlength
  exact Nat.ne_of_gt tree.length_outline_lt_group (Nat.add_left_cancel hlength)

end DiceNotation
