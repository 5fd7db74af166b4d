import DiceNotation.Operator

/-!
# Tokens

A token is a piece of a text together with its place there.  Places count the
bytes of the UTF-8 encoding.
-/

namespace DiceNotation

inductive TokenKind where
  | integer
  | dice
  | leftParen
  | rightParen
  | plus
  | minus
  | star
  | slash
  /-- A piece of text that is no token of the written form. -/
  | unknown
  deriving DecidableEq, Repr

namespace TokenKind

def label : TokenKind → String
  | .integer => "<integer>"
  | .dice => "<dice>"
  | .leftParen => "'('"
  | .rightParen => "')'"
  | .plus => "'+'"
  | .minus => "'-'"
  | .star => "'*'"
  | .slash => "'/'"
  | .unknown => "<error>"

def operator? : TokenKind → Option Operator
  | .plus => some .add
  | .minus => some .sub
  | .star => some .mul
  | .slash => some .div
  | _ => none

def ofOperator : Operator → TokenKind
  | .add => .plus
  | .sub => .minus
  | .mul => .star
  | .div => .slash

theorem operator?_eq_some_iff {kind : TokenKind} {op : Operator} :
    kind.operator? = some op ↔ kind = ofOperator op := by
  cases kind <;> cases op <;> simp [operator?, ofOperator]

end TokenKind

structure Token where
  kind : TokenKind
  start : Nat
  text : String
  deriving DecidableEq, Repr

def Token.stop (token : Token) : Nat := token.start + token.text.utf8ByteSize

structure Word where
  kind : TokenKind
  text : String
  deriving DecidableEq, Repr

def Token.word (token : Token) : Word := ⟨token.kind, token.text⟩

def Word.ofOperator (op : Operator) : Word := ⟨.ofOperator op, op.symbol.toString⟩

end DiceNotation
