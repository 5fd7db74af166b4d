import DiceNotation.Source.Basic

/-!
# A cycling source

Given values in order, over and over, whatever the sides of the dice are.
-/

namespace DiceNotation

/-- The values of a round, and those of the current round that are left. -/
structure Cycle where
  first : Nat
  others : List Nat
  left : List Nat
  deriving DecidableEq, Repr

namespace Cycle

def ofList? : List Nat → Option Cycle
  | [] => none
  | first :: others => some ⟨first, others, first :: others⟩

def draw (_ : Sides) (source : Cycle) : Draw Cycle :=
  match source.left with
  | [] => ⟨source.first, { source with left := source.others }, 1⟩
  | value :: left => ⟨value, { source with left := left }, 1⟩

instance : Source Cycle where
  single := draw
  summand := draw

end Cycle

end DiceNotation
