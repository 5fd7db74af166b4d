import DiceNotation.Roll.Error
import DiceNotation.Roll.Event
import DiceNotation.Table

/-!
# Rolls

A roll is a program of actions at a table: it records events, checks the flag of
the table, counts dice and takes values from the source, on which the actions
that follow may depend.  It may fail, and what it did to the table and to the
log stays when it fails.
-/

namespace DiceNotation

structure Play (σ : Type) where
  table : Table σ
  log : Array Event
  deriving DecidableEq, Repr

inductive Roll (σ α : Type) where
  | finished (value : α)
  | failed (error : RollError)
  | recording (event : Event) (next : Roll σ α)
  /--
  Goes on unless the flag of the table is raised.  If it is, the roll records an
  event, with the number of dice that have been counted, and fails.
  -/
  | guarding (event : Nat → Event) (next : Roll σ α)
  | charging (dice : Nat) (next : Roll σ α)
  | receiving (draw : σ → Draw σ) (next : Nat → Roll σ α)

namespace Roll

variable {σ α β : Type}

def bind : Roll σ α → (α → Roll σ β) → Roll σ β
  | .finished value, next => next value
  | .failed error, _ => .failed error
  | .recording event roll, next => .recording event (roll.bind next)
  | .guarding event roll, next => .guarding event (roll.bind next)
  | .charging dice roll, next => .charging dice (roll.bind next)
  | .receiving draw roll, next => .receiving draw fun value => (roll value).bind next

instance : Monad (Roll σ) where
  pure := .finished
  bind := bind

def fail (error : RollError) : Roll σ α := .failed error

def ofExcept : Except RollError α → Roll σ α
  | .ok value => .finished value
  | .error error => .failed error

def record (event : Event) : Roll σ Unit := .recording event (.finished ())

def guarded (event : Nat → Event) : Roll σ Unit := .guarding event (.finished ())

def check : Roll σ Unit := guarded .cancelled

def charge (dice : Nat) : Roll σ Unit := .charging dice (.finished ())

def receive (draw : σ → Draw σ) : Roll σ Nat := .receiving draw .finished

def fit (total : Nat) : Roll σ Nat :=
  if total ≤ Int64.maxValue.toInt.toNat then pure total else fail .overflow

/-! ## Outcomes -/

section

variable [Source σ]

def outcome : Roll σ α → Play σ → Except RollError α × Play σ
  | .finished value, play => (.ok value, play)
  | .failed error, play => (.error error, play)
  | .recording event next, play => next.outcome { play with log := play.log.push event }
  | .guarding event next, play =>
      if play.table.isCancelled then
        (.error .cancelled, { play with log := play.log.push (event play.table.rolls) })
      else
        next.outcome play
  | .charging dice next, play =>
      match play.table.charge? dice with
      | none => (.error .tooManyRolls, play)
      | some table => next.outcome { play with table := table }
  | .receiving draw next, play =>
      let drawn := draw play.table.source
      (next drawn.value).outcome { play with table := play.table.accept drawn }

def outcomeAt (roll : Roll σ α) (table : Table σ) : Except RollError α × Play σ :=
  roll.outcome ⟨table, #[]⟩

@[simp] theorem outcome_pure (value : α) (play : Play σ) :
    (pure value : Roll σ α).outcome play = (.ok value, play) :=
  rfl

@[simp] theorem outcome_fail (error : RollError) (play : Play σ) :
    (fail error : Roll σ α).outcome play = (.error error, play) :=
  rfl

@[simp] theorem outcome_ofExcept (result : Except RollError α) (play : Play σ) :
    (ofExcept result : Roll σ α).outcome play = (result, play) := by
  cases result <;> rfl

@[simp] theorem outcome_record (event : Event) (play : Play σ) :
    (record event).outcome play = (.ok (), { play with log := play.log.push event }) :=
  rfl

theorem outcome_bind (roll : Roll σ α) (next : α → Roll σ β) (play : Play σ) :
    (roll >>= next).outcome play =
      match roll.outcome play with
      | (.ok value, play) => (next value).outcome play
      | (.error error, play) => (.error error, play) := by
  change (roll.bind next).outcome play = _
  induction roll generalizing play with
  | finished value => rfl
  | failed error => rfl
  | recording event roll ih => exact ih _
  | guarding event roll ih =>
      simp only [bind, outcome]
      split
      · rfl
      · exact ih play
  | charging dice roll ih =>
      simp only [bind, outcome]
      split
      · rfl
      · exact ih _
  | receiving draw roll ih => exact ih _ _

theorem outcome_bind_of_ok {roll : Roll σ α} {play behind : Play σ} {value : α}
    (h : roll.outcome play = (.ok value, behind)) (next : α → Roll σ β) :
    (roll >>= next).outcome play = (next value).outcome behind := by
  rw [outcome_bind, h]

theorem outcome_bind_of_error {roll : Roll σ α} {play behind : Play σ} {error : RollError}
    (h : roll.outcome play = (.error error, behind)) (next : α → Roll σ β) :
    (roll >>= next).outcome play = (.error error, behind) := by
  rw [outcome_bind, h]

theorem outcome_bind_congr {roll other : Roll σ α} {next after : α → Roll σ β} {play : Play σ}
    (hroll : other.outcome play = roll.outcome play)
    (hnext : ∀ value behind, roll.outcome play = (.ok value, behind) →
      (after value).outcome behind = (next value).outcome behind) :
    (other >>= after).outcome play = (roll >>= next).outcome play := by
  rcases h : roll.outcome play with ⟨error | value, behind⟩
  · rw [outcome_bind_of_error h, outcome_bind_of_error (hroll.trans h)]
  · rw [outcome_bind_of_ok h, outcome_bind_of_ok (hroll.trans h)]
    exact hnext value behind h

theorem outcome_guarded (event : Nat → Event) (play : Play σ) :
    (guarded event).outcome play =
      if play.table.isCancelled then
        (.error .cancelled, { play with log := play.log.push (event play.table.rolls) })
      else
        (.ok (), play) :=
  rfl

theorem outcome_checked (next : Unit → Roll σ α) (play : Play σ) :
    (check >>= next).outcome play =
      if play.table.isCancelled then
        (.error .cancelled, { play with log := play.log.push (.cancelled play.table.rolls) })
      else
        (next ()).outcome play :=
  rfl

theorem outcome_receive (draw : σ → Draw σ) (play : Play σ) :
    (receive draw).outcome play =
      (.ok (draw play.table.source).value,
        { play with table := play.table.accept (draw play.table.source) }) :=
  rfl

theorem outcome_fit (total : Nat) (play : Play σ) :
    (fit total).outcome play =
      (if total ≤ Int64.maxValue.toInt.toNat then .ok total else .error .overflow, play) := by
  unfold fit
  split <;> rfl

end

end Roll

end DiceNotation
