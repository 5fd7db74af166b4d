import DiceNotation.Source.Basic

/-!
# A counting source

Numbers that go up by a constant step, wrapped into the sides of each die.  The
numbers themselves have 64 bits and wrap around.
-/

namespace DiceNotation

structure Counting where
  current : UInt64
  step : UInt64
  deriving DecidableEq, Repr

namespace Counting

def draw (sides : Sides) (source : Counting) : Draw Counting where
  value := (source.current - 1).toNat % sides.count + 1
  rest := { source with current := source.current + source.step }
  used := 1

instance : Source Counting where
  single := draw
  summand := draw

end Counting

end DiceNotation
