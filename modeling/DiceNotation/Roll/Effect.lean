import DiceNotation.Roll.Evaluation
import DiceNotation.Roll.Stage

/-!
# Effects of rolls

What a roll comes to and the table behind it, apart from what it records.  A log
is written and never read, so it has no part in either of them.
-/

namespace DiceNotation.Roll

variable {σ α β : Type} [Source σ]

def effect (roll : Roll σ α) (table : Table σ) : Except RollError α × Table σ :=
  ((roll.outcomeAt table).1, (roll.outcomeAt table).2.table)

private theorem outcome_other_log (roll : Roll σ α) (table : Table σ) (log other : Array Event) :
    (roll.outcome ⟨table, log⟩).1 = (roll.outcome ⟨table, other⟩).1 ∧
      (roll.outcome ⟨table, log⟩).2.table = (roll.outcome ⟨table, other⟩).2.table := by
  induction roll generalizing table log other with
  | finished value => exact ⟨rfl, rfl⟩
  | failed error => exact ⟨rfl, rfl⟩
  | recording event next ih => exact ih table _ _
  | guarding event next ih =>
      simp only [outcome]
      split
      · exact ⟨rfl, rfl⟩
      · exact ih table _ _
  | charging dice next ih =>
      simp only [outcome]
      split
      · exact ⟨rfl, rfl⟩
      · exact ih _ _ _
  | receiving draw next ih => exact ih _ _ _ _

theorem effect_eq_outcome (roll : Roll σ α) (play : Play σ) :
    roll.effect play.table = ((roll.outcome play).1, (roll.outcome play).2.table) :=
  Prod.ext (outcome_other_log roll play.table #[] play.log).1
    (outcome_other_log roll play.table #[] play.log).2

@[simp] theorem effect_pure (value : α) (table : Table σ) :
    (pure value : Roll σ α).effect table = (.ok value, table) :=
  rfl

@[simp] theorem effect_fail (error : RollError) (table : Table σ) :
    (fail error : Roll σ α).effect table = (.error error, table) :=
  rfl

@[simp] theorem effect_ofExcept (result : Except RollError α) (table : Table σ) :
    (ofExcept result : Roll σ α).effect table = (result, table) := by
  cases result <;> rfl

@[simp] theorem effect_record (event : Event) (table : Table σ) :
    (record event).effect table = (.ok (), table) :=
  rfl

theorem effect_check (table : Table σ) :
    check.effect table = (if table.isCancelled then .error .cancelled else .ok (), table) := by
  unfold effect outcomeAt check
  rw [outcome_guarded]
  split <;> rfl

theorem effect_bind (roll : Roll σ α) (next : α → Roll σ β) (table : Table σ) :
    (roll >>= next).effect table =
      match roll.effect table with
      | (.ok value, table) => (next value).effect table
      | (.error error, table) => (.error error, table) := by
  unfold effect outcomeAt
  rw [outcome_bind]
  rcases roll.outcome ⟨table, #[]⟩ with ⟨_ | value, play⟩
  · rfl
  · exact (effect_eq_outcome (next value) play).symm

theorem effect_bind_eq_ok_iff {roll : Roll σ α} {next : α → Roll σ β} {table behind : Table σ}
    {result : β} :
    (roll >>= next).effect table = (.ok result, behind) ↔
      ∃ value between, roll.effect table = (.ok value, between) ∧
        (next value).effect between = (.ok result, behind) := by
  rw [effect_bind]
  rcases roll.effect table with ⟨_ | value, between⟩
  · simp
  · constructor
    · exact fun h => ⟨value, between, rfl, h⟩
    · rintro ⟨_, _, ⟨⟩, h⟩
      exact h

theorem effect_check_eq_ok_iff {table behind : Table σ} {result : Unit} :
    check.effect table = (.ok result, behind) ↔ table.isCancelled = false ∧ table = behind := by
  rw [effect_check]
  cases table.isCancelled <;> simp

theorem effect_checked_eq_ok_iff {roll : Roll σ β} {table behind : Table σ} {result : β} :
    (check >>= fun _ => roll).effect table = (.ok result, behind) ↔
      table.isCancelled = false ∧ roll.effect table = (.ok result, behind) := by
  simp only [effect_bind_eq_ok_iff, effect_check_eq_ok_iff]
  constructor
  · rintro ⟨_, _, ⟨hfree, rfl⟩, h⟩
    exact ⟨hfree, h⟩
  · rintro ⟨hfree, h⟩
    exact ⟨(), table, ⟨hfree, rfl⟩, h⟩

theorem effect_check_bind_of_cancelled {table : Table σ} (h : table.isCancelled = true)
    (next : Unit → Roll σ β) : (check >>= next).effect table = (.error .cancelled, table) := by
  rw [effect_bind, effect_check, h]
  rfl

theorem effect_bind_of_error {roll : Roll σ α} {table behind : Table σ} {error : RollError}
    (h : roll.effect table = (.error error, behind)) (next : α → Roll σ β) :
    (roll >>= next).effect table = (.error error, behind) := by
  rw [effect_bind, h]

/--
A roll changes a table by counting dice and by taking values, so that what both
of them keep is kept by every roll.
-/
theorem effect_induction (Keeps : Table σ → Table σ → Prop) (hrefl : ∀ table, Keeps table table)
    (htrans : ∀ {first second third}, Keeps first second → Keeps second third →
      Keeps first third)
    (hcharge : ∀ {table charged dice}, table.charge? dice = some charged → Keeps table charged)
    (haccept : ∀ table draw, Keeps table (table.accept draw)) (roll : Roll σ α)
    (table : Table σ) : Keeps table (roll.effect table).2 := by
  have hstep : ∀ {stage next : Stage σ α}, stage.Next next → Keeps table stage.table →
      Keeps table next.table := by
    intro stage next hnext hkeeps
    cases hnext with
    | charge hcharged => exact htrans hkeeps (hcharge hcharged)
    | receive => exact htrans hkeeps (haccept _ _)
    | _ => exact hkeeps
  obtain ⟨total, hend⟩ := (Stage.start roll ⟨table, #[]⟩).ends
  exact hend.induction hstep (hrefl table)

theorem isCancelled_effect {table : Table σ} (h : table.isCancelled = true) (roll : Roll σ α) :
    (roll.effect table).2.isCancelled = true :=
  effect_induction (fun table behind => table.isCancelled = true → behind.isCancelled = true)
    (fun _ => id) (fun first second h => second (first h)) Table.isCancelled_of_charge?
    (fun _ draw => Table.isCancelled_accept draw) roll table h

theorem isCancelled_eq_false_of_effect {roll : Roll σ α} {table behind : Table σ}
    {result : Except RollError α} (h : roll.effect table = (result, behind))
    (hfree : behind.isCancelled = false) : table.isCancelled = false := by
  rw [← Bool.not_eq_true]
  intro hraised
  have hbehind := isCancelled_effect hraised roll
  rw [h, hfree] at hbehind
  cases hbehind

end DiceNotation.Roll

namespace DiceNotation.Dice

theorem effect_leaf_of_read {σ : Type} [Source σ] {text : String} {dice : Dice}
    (h : read text = .ok dice) (table : Table σ) :
    (Roll.leaf text).effect table = dice.roll.effect table := by
  unfold Roll.effect Roll.outcomeAt
  rw [outcome_leaf_of_read h]

end DiceNotation.Dice
