import DiceNotation.Roll.Throw
import DiceNotation.Tree.Basic

/-!
# Rolling trees

A tree is rolled from left to right.  Cancellation is checked in front of every
operand of a chain and of all dice, and the operands of an operator are recorded
before it is applied.
-/

namespace DiceNotation

def Operator.apply (op : Operator) (left right : Int64) : Except RollError Int64 :=
  match op.value? left.toInt right.toInt with
  | none => .error .zeroDivision
  | some value =>
      match narrow? value with
      | none => .error .overflow
      | some number => .ok number

theorem Operator.apply_eq_ok_iff {op : Operator} {left right result : Int64} :
    op.apply left right = .ok result ↔
      op.value? left.toInt right.toInt = some result.toInt := by
  unfold apply
  cases hvalue : op.value? left.toInt right.toInt with
  | none => simp
  | some value =>
      rw [Option.some.injEq, eq_comm (a := value), ← narrow?_eq_some_iff]
      cases hnumber : narrow? value <;> simp [hnumber]

def Dice.ofLeaf (text : String) : Except RollError Dice :=
  (Dice.read text).mapError (.invalidDice text)

def Roll.leaf {σ : Type} [Source σ] (text : String) : Roll σ Int64 := do
  Roll.check
  let dice ← Roll.ofExcept (Dice.ofLeaf text)
  dice.roll

def Roll.leaves {σ : Type} [Source σ] : List String → Roll σ (List Int64)
  | [] => pure []
  | text :: texts => do
      let total ← Roll.leaf text
      let totals ← Roll.leaves texts
      return total :: totals

def Roll.operand {σ : Type} (total : Int64) (op : Operator) (operand : Roll σ Int64) :
    Roll σ Int64 := do
  Roll.check
  let value ← operand
  Roll.record (.applied total op value)
  Roll.ofExcept (op.apply total value)

def Tree.roll {σ : Type} [Source σ] {level : Level} : Tree level → Roll σ Int64
  | .int value => pure value
  | .dice text => Roll.leaf text
  | .group inner => inner.roll
  | .ofAtom atom => do
      Roll.check
      atom.roll
  | .times left op right => do
      let total ← left.roll
      Roll.operand total op right.roll
  | .ofTerm term => do
      Roll.check
      term.roll
  | .plus left op right => do
      let total ← left.roll
      Roll.operand total op right.roll

namespace Dice

variable {σ : Type} [Source σ]

theorem outcome_leaf_of_read {text : String} {dice : Dice} (h : Dice.read text = .ok dice)
    (play : Play σ) : (Roll.leaf text).outcome play = dice.roll.outcome play := by
  have hleaf : Dice.ofLeaf text = .ok dice := congrArg (Except.mapError _) h
  unfold Roll.leaf
  rw [Roll.outcome_checked, hleaf]
  cases hraised : play.table.isCancelled with
  | true =>
      unfold roll
      rw [Roll.outcome_checked, hraised]
      rfl
  | false => rfl

theorem outcome_leaf_of_unread {text : String} {cause : DiceError}
    (h : Dice.read text = .error cause) (play : Play σ) :
    (Roll.leaf text).outcome play =
      if play.table.isCancelled then
        (.error .cancelled, { play with log := play.log.push (.cancelled play.table.rolls) })
      else
        (.error (.invalidDice text cause), play) := by
  have hleaf : Dice.ofLeaf text = .error (.invalidDice text cause) :=
    congrArg (Except.mapError _) h
  unfold Roll.leaf
  rw [Roll.outcome_checked, hleaf]
  rfl

end Dice

namespace Roll

variable {σ : Type} [Source σ]

theorem outcome_operand (total : Int64) (op : Operator) (roll : Roll σ Int64) (play : Play σ) :
    (operand total op roll).outcome play =
      if play.table.isCancelled then
        (.error .cancelled, { play with log := play.log.push (.cancelled play.table.rolls) })
      else
        match roll.outcome play with
        | (.ok value, behind) =>
            (op.apply total value,
              { behind with log := behind.log.push (.applied total op value) })
        | (.error error, behind) => (.error error, behind) := by
  rw [operand, outcome_checked, outcome_bind]
  simp only [outcome_bind, outcome_record, outcome_ofExcept]
  rcases roll.outcome play with ⟨_ | value, behind⟩ <;> rfl

theorem outcome_operand_congr {roll other : Roll σ Int64} {play : Play σ}
    (h : play.table.isCancelled = false → other.outcome play = roll.outcome play)
    (total : Int64) (op : Operator) :
    (operand total op other).outcome play = (operand total op roll).outcome play := by
  rw [operand, operand, outcome_checked, outcome_checked]
  split
  case isTrue => rfl
  case isFalse hfree => exact outcome_bind_congr (h (by simpa using hfree)) fun _ _ _ => rfl

end Roll

end DiceNotation
