import DiceNotation.Dice
import DiceNotation.Operator

/-!
# Events of a roll

What the log of a roll records, and its lines.
-/

namespace DiceNotation

inductive Event where
  | thrown (dice : Dice) (total : Int64)
  | applied (left : Int64) (op : Operator) (right : Int64)
  | cancelled (rolls : Nat)
  /-- Cancelled inside a sum, after so many of its dice. -/
  | cancelledAmong (done count : Nat)
  deriving DecidableEq, Repr

def Event.line : Event → String
  | .thrown dice total =>
      "DEBUG rolled " ++ Numeral.write dice.count ++ dice.mode.letter ++
        Numeral.write dice.sides ++ " = " ++ Numeral.write total
  | .applied left op right =>
      "TRACE " ++ Numeral.write left ++ " " ++ op.symbol.toString ++ " " ++ Numeral.write right
  | .cancelled rolls => "TRACE roll cancelled after " ++ rolls.repr ++ " dice"
  | .cancelledAmong done count =>
      "TRACE roll cancelled after " ++ done.repr ++ " of " ++ count.repr ++ " dice"

namespace Event

theorem line_thrown (dice : Dice) (total : Int64) :
    (thrown dice total).line =
      "DEBUG rolled " ++ Numeral.write dice.count ++ dice.mode.letter ++
        Numeral.write dice.sides ++ " = " ++ Numeral.write total :=
  rfl

theorem line_applied (left : Int64) (op : Operator) (right : Int64) :
    (applied left op right).line =
      "TRACE " ++ Numeral.write left ++ " " ++ op.symbol.toString ++ " " ++ Numeral.write right :=
  rfl

theorem line_cancelled (rolls : Nat) :
    (cancelled rolls).line = "TRACE roll cancelled after " ++ rolls.repr ++ " dice" :=
  rfl

theorem line_cancelledAmong (done count : Nat) :
    (cancelledAmong done count).line =
      "TRACE roll cancelled after " ++ done.repr ++ " of " ++ count.repr ++ " dice" :=
  rfl

end Event

end DiceNotation
