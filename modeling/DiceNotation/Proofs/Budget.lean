import DiceNotation.Roll.Evaluation
import DiceNotation.Roll.Stage
import DiceNotation.Source.Counting

/-!
# Budgets

Two runs of a roll, one with a budget and one without, go through the same stages
as long as the number of dice stays within the budget.  Once it would not, the
run with the budget fails, and everything else is left as it is.
-/

namespace DiceNotation

variable {σ α : Type}

def Table.withBudget (table : Table σ) (budget? : Option Nat) : Table σ :=
  { table with budget? := budget? }

def Play.withBudget (play : Play σ) (budget? : Option Nat) : Play σ :=
  { play with table := play.table.withBudget budget? }

def Stage.withBudget (stage : Stage σ α) (budget? : Option Nat) : Stage σ α :=
  { stage with play := stage.play.withBudget budget? }

def Roll.outcomeWith [Source σ] (roll : Roll σ α) (budget? : Option Nat) (play : Play σ) :
    Except RollError α × Play σ :=
  roll.outcome (play.withBudget budget?)

namespace Table

theorem rolls_le_of_charge? {table charged : Table σ} {dice : Nat}
    (h : table.charge? dice = some charged) : table.rolls ≤ charged.rolls := by
  obtain ⟨-, -, rfl⟩ := charge?_eq_some_iff.1 h
  exact Nat.le_add_right table.rolls dice

theorem charge?_withBudget_of_le {table charged : Table σ} {dice limit : Nat}
    (h : table.charge? dice = some charged) (hle : charged.rolls ≤ limit) :
    (table.withBudget (some limit)).charge? dice = some (charged.withBudget (some limit)) := by
  obtain ⟨hsmall, -, rfl⟩ := charge?_eq_some_iff.1 h
  refine charge?_eq_some_iff.2 ⟨hsmall, ?_, rfl⟩
  intro budget hbudget
  cases hbudget
  exact hle

theorem charge?_withBudget_of_lt {table charged : Table σ} {dice limit : Nat}
    (h : table.charge? dice = some charged) (hlt : limit < charged.rolls) :
    (table.withBudget (some limit)).charge? dice = none := by
  obtain ⟨-, -, rfl⟩ := charge?_eq_some_iff.1 h
  rw [Option.eq_none_iff_forall_not_mem]
  intro other hother
  obtain ⟨-, hle, -⟩ := charge?_eq_some_iff.1 hother
  exact absurd (hle limit rfl) (Nat.not_le.2 hlt)

theorem charge?_withBudget_eq_none {table : Table σ} {dice : Nat} (hfree : table.budget? = none)
    (h : table.charge? dice = none) (budget? : Option Nat) :
    (table.withBudget budget?).charge? dice = none := by
  rw [Option.eq_none_iff_forall_not_mem]
  intro charged hcharged
  obtain ⟨hsmall, -, -⟩ := charge?_eq_some_iff.1 hcharged
  have hcharge : table.charge? dice = some { table with rolls := table.rolls + dice } := by
    refine charge?_eq_some_iff.2 ⟨hsmall, ?_, rfl⟩
    rw [hfree]
    intro budget hbudget
    cases hbudget
  rw [h] at hcharge
  cases hcharge

end Table

namespace Stage

variable [Source σ]

theorem Next.budget?_eq {stage next : Stage σ α} (h : stage.Next next) :
    next.table.budget? = stage.table.budget? := by
  cases h with
  | charge hcharge =>
      obtain ⟨-, -, rfl⟩ := Table.charge?_eq_some_iff.1 hcharge
      rfl
  | _ => rfl

theorem Next.rolls_le {stage next : Stage σ α} (h : stage.Next next) :
    stage.table.rolls ≤ next.table.rolls := by
  cases h with
  | charge hcharge => exact Table.rolls_le_of_charge? hcharge
  | _ => exact Nat.le_refl _

theorem Next.withBudget {stage next : Stage σ α} {limit : Nat} (h : stage.Next next)
    (hfree : stage.table.budget? = none) (hle : next.table.rolls ≤ limit) :
    (stage.withBudget (some limit)).Next (next.withBudget (some limit)) := by
  cases h with
  | record => exact .record
  | stop hcancelled => exact .stop hcancelled
  | pass hdown => exact .pass hdown
  | refuse hcharge => exact .refuse (Table.charge?_withBudget_eq_none hfree hcharge (some limit))
  | charge hcharge => exact .charge (Table.charge?_withBudget_of_le hcharge hle)
  | receive => exact .receive

theorem Reaches.rolls_le {first last : Stage σ α} (h : first.Reaches last) :
    first.table.rolls ≤ last.table.rolls := by
  induction h with
  | refl => exact Nat.le_refl _
  | next hnext _ ih => exact Nat.le_trans hnext.rolls_le ih

theorem Reaches.withBudget {first last : Stage σ α} {limit : Nat} (h : first.Reaches last)
    (hfree : first.table.budget? = none) (hle : last.table.rolls ≤ limit) :
    (first.withBudget (some limit)).Reaches (last.withBudget (some limit)) := by
  induction h with
  | refl stage => exact .refl _
  | next hnext hlast ih =>
      have hbetween := Nat.le_trans hlast.rolls_le hle
      exact .next (hnext.withBudget hfree hbetween) (ih (hnext.budget?_eq.trans hfree) hle)

/-- The stage at which a roll is about to count the first dice that are above a limit. -/
structure IsLastWithin (first : Stage σ α) (limit : Nat) (stage : Stage σ α) : Prop where
  reaches : first.Reaches stage
  within : ∀ {earlier}, first.Reaches earlier → earlier.Reaches stage →
    earlier.table.rolls ≤ limit
  counts : ∃ dice rest charged, stage.roll = .charging dice rest ∧
    stage.table.charge? dice = some charged ∧ limit < charged.rolls

theorem Reaches.exists_isLastWithin {first last : Stage σ α} {limit : Nat}
    (h : first.Reaches last) (hfirst : first.table.rolls ≤ limit)
    (hlast : limit < last.table.rolls) : ∃ stage, first.IsLastWithin limit stage := by
  induction h with
  | refl => exact absurd hfirst (Nat.not_le.2 hlast)
  | @next stage next last hnext _ ih =>
      rcases Nat.lt_or_ge limit next.table.rolls with hlt | hge
      · refine ⟨stage, .refl stage, fun _ hearlier => Nat.le_trans hearlier.rolls_le hfirst, ?_⟩
        cases hnext with
        | charge hcharge => exact ⟨_, _, _, rfl, hcharge, hlt⟩
        | _ => exact absurd hfirst (Nat.not_le.2 hlt)
      · obtain ⟨last, hreaches, hwithin, hcounts⟩ := ih hge hlast
        exact ⟨last, .next hnext hreaches,
          fun _ hearlier => Nat.le_trans hearlier.rolls_le (hwithin hreaches (.refl last)), hcounts⟩

theorem IsLastWithin.outcome_withBudget {first stage : Stage σ α} {limit : Nat}
    (h : first.IsLastWithin limit stage) (hfree : first.table.budget? = none) :
    (first.withBudget (some limit)).outcome =
      (.error .tooManyRolls, stage.play.withBudget (some limit)) := by
  obtain ⟨hreaches, hwithin, dice, rest, charged, hroll, hcharge, hlt⟩ := h
  have hbounded := hreaches.withBudget hfree (hwithin hreaches (.refl stage))
  have hrefused := Table.charge?_withBudget_of_lt hcharge hlt
  obtain ⟨roll, play, taken⟩ := stage
  obtain rfl := hroll
  exact (hbounded.trans (.next (.refuse hrefused) (.refl _))).outcome_eq

end Stage

namespace Roll

variable [Source σ]

theorem outcomeWith_of_le {roll : Roll σ α} {play : Play σ} {limit : Nat}
    (h : (roll.outcomeWith none play).2.table.rolls ≤ limit) :
    roll.outcomeWith (some limit) play =
      ((roll.outcomeWith none play).1,
        (roll.outcomeWith none play).2.withBudget (some limit)) := by
  obtain ⟨total, hend⟩ := (Stage.start roll (play.withBudget none)).ends
  have hbounded := (hend.withBudget rfl h).outcome_eq
  exact hbounded.trans (outcome_ofExcept _ _)

theorem outcomeWith_of_lt {roll : Roll σ α} {play : Play σ} {limit : Nat}
    (hstart : play.table.rolls ≤ limit)
    (h : limit < (roll.outcomeWith none play).2.table.rolls) :
    ∃ stage, (Stage.start roll (play.withBudget none)).IsLastWithin limit stage ∧
      roll.outcomeWith (some limit) play =
        (.error .tooManyRolls, stage.play.withBudget (some limit)) := by
  obtain ⟨total, hend⟩ := (Stage.start roll (play.withBudget none)).ends
  obtain ⟨stage, hstage⟩ := hend.exists_isLastWithin hstart h
  exact ⟨stage, hstage, hstage.outcome_withBudget rfl⟩

theorem outcomeWith_mono {roll : Roll σ α} {play : Play σ} {limit more : Nat}
    (hstart : play.table.rolls ≤ limit) (hle : limit ≤ more)
    (h : (roll.outcomeWith (some limit) play).1 ≠ .error .tooManyRolls) :
    roll.outcomeWith (some more) play =
      ((roll.outcomeWith (some limit) play).1,
        (roll.outcomeWith (some limit) play).2.withBudget (some more)) := by
  rcases Nat.lt_or_ge limit (roll.outcomeWith none play).2.table.rolls with hlt | hge
  · obtain ⟨stage, -, hcut⟩ := outcomeWith_of_lt hstart hlt
    rw [hcut] at h
    exact absurd rfl h
  · rw [outcomeWith_of_le hge, outcomeWith_of_le (Nat.le_trans hge hle)]
    rfl

end Roll

/--
If the run without a budget counts dice within the limit only, the run with the
limit as its budget has the same outcome.  Otherwise it fails, and leaves
everything as the other one had it in front of the first dice above the limit.
So a greater budget changes nothing about a run that does not fail in this way.
-/
theorem Tree.budget_only_cuts_off [Source σ] {level : Level} (tree : Tree level) (play : Play σ)
    (limit : Nat) (hstart : play.table.rolls ≤ limit) :
    ((tree.roll.outcomeWith none play).2.table.rolls ≤ limit →
      tree.roll.outcomeWith (some limit) play =
        ((tree.roll.outcomeWith none play).1,
          (tree.roll.outcomeWith none play).2.withBudget (some limit))) ∧
    (limit < (tree.roll.outcomeWith none play).2.table.rolls →
      ∃ stage, (Stage.start tree.roll (play.withBudget none)).IsLastWithin limit stage ∧
        tree.roll.outcomeWith (some limit) play =
          (.error .tooManyRolls, stage.play.withBudget (some limit))) ∧
    ∀ more, limit ≤ more →
      (tree.roll.outcomeWith (some limit) play).1 ≠ .error .tooManyRolls →
        tree.roll.outcomeWith (some more) play =
          ((tree.roll.outcomeWith (some limit) play).1,
            (tree.roll.outcomeWith (some limit) play).2.withBudget (some more)) := by
  refine ⟨?_, ?_, ?_⟩
  · intro hle
    exact Roll.outcomeWith_of_le hle
  · intro hlt
    exact Roll.outcomeWith_of_lt hstart hlt
  · intro more hmore hresult
    exact Roll.outcomeWith_mono hstart hmore hresult

private def difference : Expression :=
  .plus (.ofTerm (.ofAtom (.dice "2d6"))) .sub (.ofAtom (.dice "1d20"))

private def unused : Play Counting := ⟨.fresh none ⟨3, 1⟩, #[]⟩

theorem Tree.budget_only_cuts_off_difference :
    (∃ stage, (Stage.start difference.roll unused).IsLastWithin 2 stage ∧
      difference.roll.outcomeWith (some 2) unused =
        (.error .tooManyRolls, stage.play.withBudget (some 2))) ∧
      difference.roll.outcomeWith (some 3) unused =
        (.ok 2, (difference.roll.outcome unused).2.withBudget (some 3)) ∧
      difference.roll.outcomeWith (some 1000) unused =
        (.ok 2, (difference.roll.outcome unused).2.withBudget (some 1000)) := by
  have hcut := Tree.budget_only_cuts_off difference unused 2 (by decide)
  have hwithin := Tree.budget_only_cuts_off difference unused 3 (by decide)
  have hfree : (difference.roll.outcomeWith none unused).1 = .ok 2 := by rfl
  have hequal := hwithin.1 (by decide)
  rw [hfree] at hequal
  have hmore := hwithin.2.2 1000 (by decide) (by rw [hequal]; exact fun h => by cases h)
  rw [hequal] at hmore
  exact ⟨hcut.2.1 (by decide), hequal, hmore⟩

end DiceNotation
