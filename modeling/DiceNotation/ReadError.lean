import DiceNotation.Text.Quoted
import DiceNotation.Token.Basic

/-!
# Reading errors

What is wrong with a text that is not dice notation, and where.  An error
concerns one token, or the end of the text; in the latter case its slice is
empty and its place is the length of the text.
-/

namespace DiceNotation

structure Expected where
  first : TokenKind
  others : List TokenKind
  deriving DecidableEq, Repr

namespace Expected

def series : TokenKind → List TokenKind → String
  | kind, [] => "or " ++ kind.label
  | kind, next :: rest => kind.label ++ ", " ++ series next rest

def describe : Expected → String
  | ⟨first, []⟩ => first.label
  | ⟨first, [second]⟩ => first.label ++ " or " ++ second.label
  | ⟨first, others⟩ => series first others

def operand : Expected := ⟨.integer, [.dice, .leftParen]⟩

def closing : Expected := ⟨.rightParen, []⟩

end Expected

inductive ReadProblem where
  | unexpectedToken (found : TokenKind) (expected : Expected)
  | unexpectedEnd (expected : Expected)
  | unexpectedText (expected : Expected)
  | invalidInteger
  | trailingInput
  deriving DecidableEq, Repr

namespace ReadProblem

def describe : ReadProblem → String
  | .unexpectedToken found expected =>
      "unexpected token: found " ++ found.label ++ ", expected " ++ expected.describe
  | .unexpectedEnd expected => "unexpected end of input, expected " ++ expected.describe
  | .unexpectedText expected => "expected " ++ expected.describe
  | .invalidInteger => "integer is out of range"
  | .trailingInput => "unexpected input after the end of the roll"

/-- A token that cannot stand at a place.  Of a piece that is no token only the text is shown. -/
def unexpected (found : TokenKind) (expected : Expected) : ReadProblem :=
  if found = .unknown then .unexpectedText expected else .unexpectedToken found expected

end ReadProblem

structure ReadError where
  problem : ReadProblem
  start : Nat
  stop : Nat
  slice : String
  deriving DecidableEq, Repr

def ReadError.message (error : ReadError) : String :=
  "error at position " ++ error.start.repr ++ " (" ++ Text.quote error.slice ++ "): " ++
    error.problem.describe

end DiceNotation
