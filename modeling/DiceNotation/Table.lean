import DiceNotation.Source.Basic

/-!
# The table

Where dice are thrown: the source of their values, how many dice may be and have
been thrown, and the flags, one of which cancels the throws at this table when
it is raised.
-/

namespace DiceNotation

def defaultBudget : Nat := 1000

structure Table (σ : Type) where
  budget? : Option Nat
  rolls : Nat
  source : σ
  flags : Flags
  held : Flag
  deriving DecidableEq, Repr

namespace Table

variable {σ : Type}

def fresh (budget? : Option Nat) (source : σ) : Table σ where
  budget? := budget?
  rolls := 0
  source := source
  flags := ⟨#[false]⟩
  held := 0

def isCancelled (table : Table σ) : Bool := table.flags.isRaised table.held

/-- Counts further dice, unless that takes the number above the budget or above 64 bits. -/
def charge? (table : Table σ) (dice : Nat) : Option (Table σ) :=
  let rolls := table.rolls + dice
  if rolls < UInt64.size ∧ ∀ budget ∈ table.budget?, rolls ≤ budget then
    some { table with rolls := rolls }
  else
    none

def accept [Source σ] (table : Table σ) (draw : Draw σ) : Table σ :=
  { table with
    source := draw.rest
    flags := table.flags.raiseAll (Source.alarms draw.rest) }

theorem charge?_eq_some_iff {table charged : Table σ} {dice : Nat} :
    table.charge? dice = some charged ↔
      table.rolls + dice < UInt64.size ∧ (∀ budget ∈ table.budget?, table.rolls + dice ≤ budget) ∧
        charged = { table with rolls := table.rolls + dice } := by
  simp only [charge?]
  split
  case isTrue h =>
      rw [Option.some.injEq]
      exact ⟨fun heq => ⟨h.1, h.2, heq.symm⟩, fun heq => heq.2.2.symm⟩
  case isFalse h =>
      constructor
      · intro hs
        cases hs
      · exact fun heq => absurd ⟨heq.1, heq.2.1⟩ h

theorem isCancelled_of_charge? {table charged : Table σ} {dice : Nat}
    (hcharge : table.charge? dice = some charged) (h : table.isCancelled = true) :
    charged.isCancelled = true := by
  obtain ⟨-, -, rfl⟩ := charge?_eq_some_iff.1 hcharge
  exact h

theorem isCancelled_accept [Source σ] {table : Table σ} (draw : Draw σ)
    (h : table.isCancelled = true) : (table.accept draw).isCancelled = true :=
  Flags.isRaised_raiseAll h _

end Table

end DiceNotation
