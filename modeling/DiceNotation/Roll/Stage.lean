import DiceNotation.Roll.Basic

/-!
# Stages of rolls

A roll goes on from stage to stage, with one action in between, until it comes to
an end.  The stage that it ends with holds its outcome.
-/

namespace DiceNotation

/-- What is left of a roll, the state of play, and how many values have been taken so far. -/
structure Stage (σ α : Type) where
  roll : Roll σ α
  play : Play σ
  taken : Nat

namespace Stage

variable {σ α β : Type} [Source σ]

def start (roll : Roll σ α) (play : Play σ) : Stage σ α := ⟨roll, play, 0⟩

def table (stage : Stage σ α) : Table σ := stage.play.table

def outcome (stage : Stage σ α) : Except RollError α × Play σ := stage.roll.outcome stage.play

inductive Next : Stage σ α → Stage σ α → Prop where
  | record {event : Event} {rest : Roll σ α} {play : Play σ} {taken : Nat} :
      Next ⟨.recording event rest, play, taken⟩
        ⟨rest, { play with log := play.log.push event }, taken⟩
  | stop {event : Nat → Event} {rest : Roll σ α} {play : Play σ} {taken : Nat}
      (hcancelled : play.table.isCancelled = true) :
      Next ⟨.guarding event rest, play, taken⟩
        ⟨.failed .cancelled, { play with log := play.log.push (event play.table.rolls) }, taken⟩
  | pass {event : Nat → Event} {rest : Roll σ α} {play : Play σ} {taken : Nat}
      (hfree : play.table.isCancelled = false) :
      Next ⟨.guarding event rest, play, taken⟩ ⟨rest, play, taken⟩
  | refuse {dice : Nat} {rest : Roll σ α} {play : Play σ} {taken : Nat}
      (hcharge : play.table.charge? dice = none) :
      Next ⟨.charging dice rest, play, taken⟩ ⟨.failed .tooManyRolls, play, taken⟩
  | charge {dice : Nat} {rest : Roll σ α} {play : Play σ} {taken : Nat} {charged : Table σ}
      (hcharge : play.table.charge? dice = some charged) :
      Next ⟨.charging dice rest, play, taken⟩ ⟨rest, { play with table := charged }, taken⟩
  | receive {draw : σ → Draw σ} {rest : Nat → Roll σ α} {play : Play σ} {taken : Nat} :
      Next ⟨.receiving draw rest, play, taken⟩
        ⟨rest (draw play.table.source).value,
          { play with table := play.table.accept (draw play.table.source) }, taken + 1⟩

inductive Reaches : Stage σ α → Stage σ α → Prop where
  | refl (stage : Stage σ α) : Reaches stage stage
  | next {stage next last : Stage σ α} (hnext : stage.Next next)
      (hlast : Reaches next last) : Reaches stage last

theorem Reaches.trans {first second third : Stage σ α} (h : first.Reaches second)
    (hthird : second.Reaches third) : first.Reaches third := by
  induction h with
  | refl => exact hthird
  | next hnext _ ih => exact .next hnext (ih hthird)

theorem Reaches.induction {Keeps : Stage σ α → Prop} {first last : Stage σ α}
    (hstep : ∀ {stage next : Stage σ α}, stage.Next next → Keeps stage → Keeps next)
    (h : first.Reaches last) (hfirst : Keeps first) : Keeps last := by
  induction h with
  | refl => exact hfirst
  | next hnext _ ih => exact ih (hstep hnext hfirst)

def bind (stage : Stage σ α) (next : α → Roll σ β) : Stage σ β :=
  ⟨stage.roll >>= next, stage.play, stage.taken⟩

theorem Next.bind {stage other : Stage σ α} (h : stage.Next other) (next : α → Roll σ β) :
    (stage.bind next).Next (other.bind next) := by
  cases h with
  | record => exact .record
  | stop hcancelled => exact .stop hcancelled
  | pass hfree => exact .pass hfree
  | refuse hcharge => exact .refuse hcharge
  | charge hcharge => exact .charge hcharge
  | receive => exact .receive

theorem Reaches.bind {first last : Stage σ α} (h : first.Reaches last) (next : α → Roll σ β) :
    (first.bind next).Reaches (last.bind next) := by
  induction h with
  | refl => exact .refl _
  | next hnext _ ih => exact .next (hnext.bind next) ih

theorem Next.outcome_eq {stage next : Stage σ α} (h : stage.Next next) :
    stage.outcome = next.outcome := by
  cases h with
  | record => rfl
  | stop hcancelled => exact if_pos hcancelled
  | pass hfree => exact if_neg (Bool.eq_false_iff.1 hfree)
  | refuse hcharge => simp only [outcome, Roll.outcome, hcharge]
  | charge hcharge => simp only [outcome, Roll.outcome, hcharge]
  | receive => rfl

theorem Reaches.outcome_eq {first last : Stage σ α} (h : first.Reaches last) :
    first.outcome = last.outcome := by
  induction h with
  | refl => rfl
  | next hnext _ ih => exact hnext.outcome_eq.trans ih

def Ends (stage : Stage σ α) : Prop :=
  ∃ total, stage.Reaches ⟨.ofExcept stage.outcome.1, stage.outcome.2, total⟩

theorem Next.ends {stage next : Stage σ α} (hnext : stage.Next next) (h : next.Ends) :
    stage.Ends := by
  obtain ⟨total, hend⟩ := h
  rw [← hnext.outcome_eq] at hend
  exact ⟨total, .next hnext hend⟩

theorem ends (stage : Stage σ α) : stage.Ends := by
  obtain ⟨roll, play, taken⟩ := stage
  have hfailed : ∀ error play taken, (⟨.failed error, play, taken⟩ : Stage σ α).Ends :=
    fun error play taken => ⟨taken, .refl _⟩
  induction roll generalizing play taken with
  | finished value => exact ⟨taken, .refl _⟩
  | failed error => exact hfailed error play taken
  | recording event rest ih => exact Next.record.ends (ih _ taken)
  | guarding event rest ih =>
      cases hcancelled : play.table.isCancelled with
      | true => exact (Next.stop hcancelled).ends (hfailed _ _ taken)
      | false => exact (Next.pass hcancelled).ends (ih play taken)
  | charging dice rest ih =>
      cases hcharge : play.table.charge? dice with
      | none => exact (Next.refuse hcharge).ends (hfailed _ play taken)
      | some charged => exact (Next.charge hcharge).ends (ih _ taken)
  | receiving draw rest ih => exact Next.receive.ends (ih _ _ (taken + 1))

end Stage

end DiceNotation
