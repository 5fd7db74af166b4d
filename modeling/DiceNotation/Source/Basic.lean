import DiceNotation.Flag

/-!
# Sources of die values

Where the values of dice come from.  A source is asked for one value at a time,
either for a die that stands alone or for a die of a sum.  It may raise flags
along with a value.
-/

namespace DiceNotation

structure Sides where
  count : Nat
  pos : 0 < count
  small : count < UInt64.size
  deriving DecidableEq, Repr

def Sides.ofInt? (sides : Int64) : Option Sides :=
  if h : 1 ≤ sides.toInt then
    have hlt := sides.toInt_lt
    some ⟨sides.toInt.toNat, by omega, by simp only [UInt64.size]; omega⟩
  else
    none

theorem Sides.ofInt?_eq_none_iff {sides : Int64} : ofInt? sides = none ↔ sides.toInt < 1 := by
  unfold ofInt?
  split <;> simp <;> omega

theorem Sides.count_of_ofInt? {sides : Int64} {size : Sides} (h : ofInt? sides = some size) :
    (size.count : Int) = sides.toInt := by
  unfold ofInt? at h
  split at h
  case isTrue hsides =>
      cases h
      exact Int.toNat_of_nonneg (by omega)
  case isFalse => cases h

theorem Sides.exists_of_one_le {sides : Int64} (h : 1 ≤ sides.toInt) :
    ∃ size : Sides, ofInt? sides = some size ∧ (size.count : Int) = sides.toInt := by
  cases hsize : ofInt? sides with
  | none => exact absurd (ofInt?_eq_none_iff.1 hsize) (Int.not_lt.2 h)
  | some size => exact ⟨size, rfl, count_of_ofInt? hsize⟩

/-- A value, the source behind it, and how many raw values the source used up for it. -/
structure Draw (σ : Type) where
  value : Nat
  rest : σ
  used : Nat
  deriving DecidableEq, Repr

class Source (σ : Type) where
  single : Sides → σ → Draw σ
  summand : Sides → σ → Draw σ
  /-- The flags that the source raises in the state in which it is behind a value. -/
  alarms : σ → List Flag := fun _ => []

end DiceNotation
