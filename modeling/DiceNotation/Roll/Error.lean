import DiceNotation.Dice
import DiceNotation.Text.Quoted

/-!
# Rolling errors

Why a roll has no total.
-/

namespace DiceNotation

inductive RollError where
  | cancelled
  | tooManyRolls
  | zeroDivision
  | overflow
  | invalidDice (text : String) (cause : DiceError)
  | invalidSides (sides : Int64)
  | invalidCount (count : Int64)
  deriving DecidableEq, Repr

def RollError.message : RollError → String
  | .cancelled => "roll was cancelled"
  | .tooManyRolls => "too many dice rolled"
  | .zeroDivision => "cannot divide by zero"
  | .overflow => "integer overflow while rolling"
  | .invalidDice text cause =>
      "invalid dice roll " ++ Text.quote text ++ ": " ++ cause.message
  | .invalidSides sides =>
      "dice must have at least one side, found " ++ Numeral.write sides
  | .invalidCount count =>
      "cannot roll a negative number of dice (" ++ Numeral.write count ++ ")"

end DiceNotation
