import DiceNotation.Roll.Basic

/-!
# Throwing dice

All dice of a throw are counted before the first one is thrown.  A sum checks
for cancellation at every 256th die, right behind the value of that die, and the
three dice of a middle throw are not interrupted.
-/

namespace DiceNotation

namespace Roll

variable {σ : Type} [Source σ]

/-- Checks behind the value of a die that has `done` dice of the sum in front of it. -/
def checkAmong (done count : Nat) : Roll σ Unit :=
  if 0 < done ∧ done % 256 = 0 then
    guarded fun _ => .cancelledAmong done count
  else
    pure ()

/-- Adds `left` more dice to a total of `done` dice. -/
def addDice (sides : Sides) : (done left total : Nat) → Roll σ Nat
  | _, 0, total => pure total
  | done, left + 1, total => do
      let value ← receive (Source.summand sides)
      checkAmong done (done + (left + 1))
      let total ← fit (total + value)
      addDice sides (done + 1) left total

theorem addDice_succ (sides : Sides) (done left total : Nat) :
    (addDice sides done (left + 1) total : Roll σ Nat) =
      .receiving (Source.summand sides) fun value =>
        checkAmong done (done + (left + 1)) >>= fun _ =>
          fit (total + value) >>= addDice sides (done + 1) left :=
  rfl

def median (a b c : Nat) : Nat := max (min a b) (min (max a b) c)

def throwMiddle (sides : Sides) : Roll σ Nat := do
  let a ← receive (Source.single sides)
  let b ← receive (Source.single sides)
  let c ← receive (Source.single sides)
  fit (median a b c)

end Roll

namespace Dice

def size (dice : Dice) : Nat :=
  match dice.mode with
  | .standard => dice.count.toInt.toNat
  | .middle => 3

def total {σ : Type} [Source σ] (dice : Dice) (sides : Sides) : Roll σ Nat :=
  match dice.mode with
  | .standard => Roll.addDice sides 0 dice.size 0
  | .middle => Roll.throwMiddle sides

def roll {σ : Type} [Source σ] (dice : Dice) : Roll σ Int64 := do
  Roll.check
  match Sides.ofInt? dice.sides with
  | none => Roll.fail (.invalidSides dice.sides)
  | some sides =>
      if dice.mode = .standard ∧ dice.count.toInt < 0 then
        Roll.fail (.invalidCount dice.count)
      Roll.charge dice.size
      let total := Int64.ofNat (← dice.total sides)
      Roll.record (.thrown dice total)
      return total

end Dice

end DiceNotation
