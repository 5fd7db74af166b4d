import DiceNotation.ReadError
import DiceNotation.Token.Scan
import DiceNotation.Tree.Basic

/-!
# Reading expressions

A text is read token by token.  Between two tokens the reader knows whether an
operand or an operator comes next, and for every open group what stands to the
left of the place in it: a sum that waits for its next product, and a product
that waits for its next atom.
-/

namespace DiceNotation

/-- What an operand of a group will be joined to. -/
structure Pending where
  sum? : Option (Expression × Operator)
  product? : Option (Term × Operator)
  deriving DecidableEq, Repr

namespace Pending

def empty : Pending := ⟨none, none⟩

def joinProduct (product? : Option (Term × Operator)) (atom : Atom) : Term :=
  match product? with
  | none => .ofAtom atom
  | some (left, op) => .times left op atom

def joinSum (sum? : Option (Expression × Operator)) (term : Term) : Expression :=
  match sum? with
  | none => .ofTerm term
  | some (left, op) => .plus left op term

end Pending

/-- The state of the reader; `outer` are the groups around the current one, innermost first. -/
inductive Reader where
  | operand (pending : Pending) (outer : List Pending)
  | operator (sum? : Option (Expression × Operator)) (term : Term) (outer : List Pending)
  deriving DecidableEq, Repr

namespace Reader

def start : Reader := .operand .empty []

def afterAtom (pending : Pending) (atom : Atom) (outer : List Pending) : Reader :=
  .operator pending.sum? (Pending.joinProduct pending.product? atom) outer

def step : Reader → Word → Except ReadProblem Reader
  | .operand pending outer, word =>
      match word.kind with
      | .integer =>
          match Numeral.read word.text.toList with
          | .ok value => .ok (afterAtom pending (.int value) outer)
          | .error _ => .error .invalidInteger
      | .dice => .ok (afterAtom pending (.dice word.text) outer)
      | .leftParen => .ok (.operand .empty (pending :: outer))
      | found => .error (.unexpected found .operand)
  | .operator sum? term outer, word =>
      match word.kind.operator? with
      | some op =>
          if op.level = .product then
            .ok (.operand ⟨sum?, some (term, op)⟩ outer)
          else
            .ok (.operand ⟨some (Pending.joinSum sum? term, op), none⟩ outer)
      | none =>
          match outer with
          | [] => .error .trailingInput
          | pending :: outer =>
              if word.kind = .rightParen then
                .ok (afterAtom pending (.group (Pending.joinSum sum? term)) outer)
              else
                .error (.unexpected word.kind .closing)

def finish : Reader → Except ReadProblem Expression
  | .operand _ _ => .error (.unexpectedEnd .operand)
  | .operator sum? term [] => .ok (Pending.joinSum sum? term)
  | .operator _ _ (_ :: _) => .error (.unexpectedEnd .closing)

def run (stop : Nat) : Reader → List Token → Except ReadError Expression
  | reader, [] =>
      match reader.finish with
      | .ok expression => .ok expression
      | .error problem => .error ⟨problem, stop, stop, ""⟩
  | reader, token :: rest =>
      match reader.step token.word with
      | .ok next => run stop next rest
      | .error problem => .error ⟨problem, token.start, token.stop, token.text⟩

end Reader

def Expression.read (text : String) : Except ReadError Expression :=
  Reader.start.run text.utf8ByteSize (Token.scan text)

end DiceNotation
