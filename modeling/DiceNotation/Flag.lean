/-!
# Flags

A flag is raised once and for all.  Several names and a table may share one, so
what is passed around is the place of the flag in a store.
-/

namespace DiceNotation

abbrev Flag := Nat

structure Flags where
  marks : Array Bool
  deriving DecidableEq, Repr

namespace Flags

def size (flags : Flags) : Nat := flags.marks.size

def isRaised (flags : Flags) (flag : Flag) : Bool := flags.marks.getD flag false

def raise (flags : Flags) (flag : Flag) : Flags := ⟨flags.marks.setIfInBounds flag true⟩

def raiseAll (flags : Flags) (raised : List Flag) : Flags := raised.foldl raise flags

def fresh (flags : Flags) : Flag × Flags := (flags.size, ⟨flags.marks.push false⟩)

@[simp] theorem size_raise (flags : Flags) (flag : Flag) :
    (flags.raise flag).size = flags.size := by
  simp [size, raise]

@[simp] theorem size_fresh (flags : Flags) : flags.fresh.2.size = flags.size + 1 := by
  simp [size, fresh]

theorem isRaised_raise (flags : Flags) (flag other : Flag) :
    (flags.raise flag).isRaised other =
      (flags.isRaised other || decide (other = flag ∧ flag < flags.size)) := by
  simp only [isRaised, raise, size, Array.getD_eq_getD_getElem?, Array.getElem?_setIfInBounds]
  by_cases h : flag = other
  · subst h
    by_cases hs : flag < flags.marks.size <;> simp [hs]
  · simp [h, Ne.symm h]

@[simp] theorem size_raiseAll (flags : Flags) (raised : List Flag) :
    (flags.raiseAll raised).size = flags.size := by
  induction raised generalizing flags with
  | nil => rfl
  | cons flag raised ih => exact (ih (flags.raise flag)).trans (size_raise flags flag)

theorem isRaised_raiseAll_iff {flags : Flags} {raised : List Flag} {flag : Flag} :
    (flags.raiseAll raised).isRaised flag = true ↔
      flags.isRaised flag = true ∨ flag ∈ raised ∧ flag < flags.size := by
  induction raised generalizing flags with
  | nil => simp [raiseAll]
  | cons other raised ih =>
      change ((flags.raise other).raiseAll raised).isRaised flag = true ↔ _
      rw [ih, isRaised_raise, size_raise]
      grind

theorem isRaised_raiseAll {flags : Flags} {flag : Flag} (h : flags.isRaised flag = true)
    (raised : List Flag) : (flags.raiseAll raised).isRaised flag = true :=
  isRaised_raiseAll_iff.2 (.inl h)

@[simp] theorem isRaised_fresh (flags : Flags) (flag : Flag) :
    flags.fresh.2.isRaised flag = flags.isRaised flag := by
  simp only [isRaised, fresh, Array.getD_eq_getD_getElem?, Array.getElem?_push]
  split <;> simp_all

end Flags

end DiceNotation
