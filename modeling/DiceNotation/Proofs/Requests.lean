import DiceNotation.Proofs.Accounting
import DiceNotation.Proofs.Summing

/-!
# Requests of dice

Dice are refused before they are counted, for the first of four causes, or all of
them are counted and then thrown.  A throw counts no further dice, and the table
behind it is the one behind the values that it has taken.
-/

namespace DiceNotation

variable {σ α : Type}

namespace Table

def counting (table : Table σ) (dice : Nat) : Table σ :=
  { table with rolls := table.rolls + dice }

theorem charge?_of_isWithin {table : Table σ} {dice : Nat} (h : (table.counting dice).IsWithin) :
    table.charge? dice = some (table.counting dice) :=
  charge?_eq_some_iff.2 ⟨h.1, h.2, rfl⟩

theorem charge?_of_not_isWithin {table : Table σ} {dice : Nat}
    (h : ¬(table.counting dice).IsWithin) : table.charge? dice = none := by
  rw [Option.eq_none_iff_forall_not_mem]
  intro charged hcharged
  obtain ⟨hsmall, hbudget, -⟩ := charge?_eq_some_iff.1 hcharged
  exact h ⟨hsmall, hbudget⟩

variable [Source σ]

def behindValues (table : Table σ) (draw : σ → Draw σ) : Nat → Table σ
  | 0 => table
  | taken + 1 =>
      (table.behindValues draw taken).accept (draw (table.behindValues draw taken).source)

def value (table : Table σ) (draw : σ → Draw σ) (index : Nat) : Nat :=
  (draw (table.behindValues draw index).source).value

theorem behindSummands_eq (table : Table σ) (sides : Sides) (taken : Nat) :
    table.behindSummands sides taken = table.behindValues (Source.summand sides) taken := by
  induction taken with
  | zero => rfl
  | succ taken ih => rw [behindSummands, behindValues, ih]

theorem summand_eq (table : Table σ) (sides : Sides) (index : Nat) :
    table.summand sides index = table.value (Source.summand sides) index := by
  rw [summand, behindSummands_eq, value]

theorem behindValues_counting (table : Table σ) (draw : σ → Draw σ) (dice taken : Nat) :
    (table.counting dice).behindValues draw taken =
      (table.behindValues draw taken).counting dice := by
  induction taken with
  | zero => rfl
  | succ taken ih =>
      rw [behindValues, ih]
      rfl

theorem value_counting (table : Table σ) (draw : σ → Draw σ) (dice index : Nat) :
    (table.counting dice).value draw index = table.value draw index := by
  rw [value, behindValues_counting]
  rfl

theorem sum_counting (table : Table σ) (sides : Sides) (dice count : Nat) :
    (table.counting dice).sum sides count = table.sum sides count := by
  refine Finset.sum_congr rfl fun index _ => ?_
  rw [summand_eq, summand_eq, value_counting]

theorem rolls_behindValues (table : Table σ) (draw : σ → Draw σ) (taken : Nat) :
    (table.behindValues draw taken).rolls = table.rolls := by
  induction taken with
  | zero => rfl
  | succ taken ih => exact ih

end Table

variable [Source σ]

namespace Roll

theorem EndsBehind.effect_eq {roll : Roll σ α} {play behind : Play σ} {taken : Nat}
    {result : Except RollError α} (h : roll.EndsBehind play taken result behind) :
    roll.effect play.table = (result, behind.table) := by
  rw [effect_eq_outcome, h.outcome_eq]

variable {play : Play σ} {sides : Sides}

theorem addDice_endsBehind (play : Play σ) (sides : Sides) (count : Nat) :
    ∃ taken result log, (addDice sides 0 count 0).EndsBehind play taken result
        ⟨play.table.behindValues (Source.summand sides) taken, log⟩ ∧
      (256 < count ∧ result = .error .cancelled ∨
        Int64.maxValue.toInt < play.table.sum sides count ∧ result = .error .overflow ∨
        play.table.sum sides count ≤ Int64.maxValue.toInt ∧
          result = .ok (play.table.sum sides count) ∧ taken = count) := by
  by_cases hstop : play.table.stopIndex sides < count ∧
      play.table.stopIndex sides ≤ play.table.excessIndex sides
  case pos =>
      obtain ⟨index, hindex, hend⟩ := addDice_endsBehind_stopIndex hstop
      rw [Table.behindSummands_eq] at hend
      -- The first check of the flag stands behind 256 values.
      have hcount : 256 ≤ index := by
        rw [← Nat.cast_le (α := ℕ∞), ← hindex, Table.stopIndex_eq, coe_le_least_iff]
        rintro other hother ⟨hpos, hmod, -⟩
        omega
      have hlt : index < count := Nat.cast_lt.1 (hindex ▸ hstop.1)
      exact ⟨_, _, _, hend, .inl ⟨Nat.lt_of_le_of_lt hcount hlt, rfl⟩⟩
  case neg =>
      by_cases hexcess : play.table.excessIndex sides < count
      case pos =>
          obtain ⟨index, -, hend⟩ := addDice_endsBehind_excessIndex hstop hexcess
          rw [Table.behindSummands_eq] at hend
          exact ⟨_, _, _, hend, .inr (.inl ⟨Table.excessIndex_lt_iff.1 hexcess, rfl⟩)⟩
      case neg =>
          have hend := addDice_endsBehind_sum hstop hexcess
          rw [Table.behindSummands_eq] at hend
          rw [Table.excessIndex_lt_iff, not_lt] at hexcess
          exact ⟨_, _, _, hend, .inr (.inr ⟨hexcess, rfl, rfl⟩)⟩

omit [Source σ] in
theorem fit_eq_ofExcept (total : Nat) :
    (fit total : Roll σ Nat) =
      .ofExcept (if (total : Int) ≤ Int64.maxValue.toInt then .ok total else .error .overflow) := by
  have hmax := Int64.toInt_maxValue
  unfold fit
  split
  case isTrue h =>
      rw [if_pos (by omega)]
      rfl
  case isFalse h =>
      rw [if_neg (by omega)]
      rfl

theorem throwMiddle_endsBehind (play : Play σ) (sides : Sides) :
    let value := play.table.value (Source.single sides)
    let total := median (value 0) (value 1) (value 2)
    (throwMiddle sides).EndsBehind play 3
      (if (total : Int) ≤ Int64.maxValue.toInt then .ok total else .error .overflow)
      ⟨play.table.behindValues (Source.single sides) 3, play.log⟩ := by
  intro value total
  refine .of_reaches ?_
  rw [← fit_eq_ofExcept]
  exact .next .receive (.next .receive (.next .receive (.refl _)))

end Roll

namespace Dice

/-! ## Refusal -/

/-- Why dice are refused at a table.  Each cause is looked for only if there is none before it. -/
inductive Refused (dice : Dice) (table : Table σ) : RollError → Prop where
  | cancelled (h : table.isCancelled = true) : Refused dice table .cancelled
  | invalidSides (hfree : table.isCancelled = false) (h : dice.sides.toInt < 1) :
      Refused dice table (.invalidSides dice.sides)
  | invalidCount (hfree : table.isCancelled = false) (hsides : 1 ≤ dice.sides.toInt)
      (hmode : dice.mode = .standard) (h : dice.count.toInt < 0) :
      Refused dice table (.invalidCount dice.count)
  | tooManyRolls (hfree : table.isCancelled = false) (hsides : 1 ≤ dice.sides.toInt)
      (hcount : dice.mode = .standard → 0 ≤ dice.count.toInt)
      (h : ¬(table.counting dice.size).IsWithin) : Refused dice table .tooManyRolls

structure Accepted (dice : Dice) (table : Table σ) (sides : Sides) : Prop where
  isFree : table.isCancelled = false
  ofInt?_eq : Sides.ofInt? dice.sides = some sides
  count_nonneg : dice.mode = .standard → 0 ≤ dice.count.toInt
  isWithin : (table.counting dice.size).IsWithin

omit [Source σ] in
theorem refused_or_accepted (dice : Dice) (table : Table σ) :
    (∃ error, dice.Refused table error) ∨ ∃ sides, dice.Accepted table sides := by
  cases hcancelled : table.isCancelled with
  | true => exact .inl ⟨_, .cancelled hcancelled⟩
  | false =>
      rcases Int.lt_or_le dice.sides.toInt 1 with hlow | hsides
      · exact .inl ⟨_, .invalidSides hcancelled hlow⟩
      · obtain ⟨sides, hsome, -⟩ := Sides.exists_of_one_le hsides
        by_cases hcount : dice.mode = .standard → 0 ≤ dice.count.toInt
        case neg =>
            rw [Classical.not_imp, Int.not_le] at hcount
            exact .inl ⟨_, .invalidCount hcancelled hsides hcount.1 hcount.2⟩
        case pos =>
            by_cases hwithin : (table.counting dice.size).IsWithin
            · exact .inr ⟨sides, hcancelled, hsome, hcount, hwithin⟩
            · exact .inl ⟨_, .tooManyRolls hcancelled hsides hcount hwithin⟩

def announce (dice : Dice) (total : Nat) : Roll σ Int64 := do
  let total := Int64.ofNat total
  Roll.record (.thrown dice total)
  return total

theorem roll_reaches {dice : Dice} {play : Play σ} {sides : Sides}
    (hfree : play.table.isCancelled = false) (hsides : Sides.ofInt? dice.sides = some sides) :
    (Stage.start dice.roll play).Reaches
      ⟨if dice.mode = .standard ∧ dice.count.toInt < 0 then
          .failed (.invalidCount dice.count)
        else
          .charging dice.size (dice.total sides >>= dice.announce), play, 0⟩ := by
  refine .next (.pass hfree) ?_
  rw [hsides]
  change (⟨if _ then _ else _, play, 0⟩ : Stage σ Int64).Reaches _
  split
  · exact .refl _
  · exact .refl _

theorem Refused.endsBehind {dice : Dice} {error : RollError} (play : Play σ)
    (h : dice.Refused play.table error) :
    ∃ log, dice.roll.EndsBehind play 0 (.error error) ⟨play.table, log⟩ := by
  cases h with
  | cancelled hcancelled => exact ⟨_, .of_reaches (.next (.stop hcancelled) (.refl _))⟩
  | invalidSides hfree hsides =>
      refine ⟨play.log, .of_reaches (.next (.pass hfree) ?_)⟩
      rw [Sides.ofInt?_eq_none_iff.2 hsides]
      exact .refl _
  | invalidCount hfree hsides hmode hcount =>
      obtain ⟨sides, hsome, -⟩ := Sides.exists_of_one_le hsides
      have hroll := roll_reaches hfree hsome
      rw [if_pos ⟨hmode, hcount⟩] at hroll
      exact ⟨play.log, .of_reaches hroll⟩
  | tooManyRolls hfree hsides hcount hwithin =>
      obtain ⟨sides, hsome, -⟩ := Sides.exists_of_one_le hsides
      have hroll := roll_reaches hfree hsome
      rw [if_neg fun hnegative => Int.not_lt.2 (hcount hnegative.1) hnegative.2] at hroll
      have hrefuse := Table.charge?_of_not_isWithin hwithin
      exact ⟨play.log, .of_reaches (hroll.trans (.next (.refuse hrefuse) (.refl _)))⟩

theorem Accepted.reaches {dice : Dice} {play : Play σ} {sides : Sides}
    (h : dice.Accepted play.table sides) :
    (Stage.start dice.roll play).Reaches
      ⟨dice.total sides >>= dice.announce,
        { play with table := play.table.counting dice.size }, 0⟩ := by
  have hroll := roll_reaches h.isFree h.ofInt?_eq
  rw [if_neg fun hnegative => Int.not_lt.2 (h.count_nonneg hnegative.1) hnegative.2] at hroll
  have hcharge := Table.charge?_of_isWithin h.isWithin
  exact hroll.trans (.next (.charge hcharge) (.refl _))

section

variable {dice : Dice} {behind : Play σ} {sides : Sides} {taken : Nat} (play : Play σ)
  (h : dice.Accepted play.table sides)

include h

theorem Accepted.endsBehind_ok {total : Nat}
    (hend : (dice.total sides).EndsBehind { play with table := play.table.counting dice.size }
      taken (.ok total) behind) :
    dice.roll.EndsBehind play taken (.ok (Int64.ofNat total))
      { behind with log := behind.log.push (.thrown dice (Int64.ofNat total)) } := by
  have htotal := hend.reaches.bind dice.announce
  exact .of_reaches (h.reaches.trans (htotal.trans (.next .record (.refl _))))

theorem Accepted.endsBehind_error {error : RollError}
    (hend : (dice.total sides).EndsBehind { play with table := play.table.counting dice.size }
      taken (.error error) behind) :
    dice.roll.EndsBehind play taken (.error error) behind :=
  .of_reaches (h.reaches.trans (hend.reaches.bind dice.announce))

end

/-! ## Results -/

def draw (dice : Dice) (sides : Sides) : σ → Draw σ :=
  match dice.mode with
  | .standard => Source.summand sides
  | .middle => Source.single sides

def exactTotal (dice : Dice) (table : Table σ) (sides : Sides) : Nat :=
  match dice.mode with
  | .standard => table.sum sides dice.size
  | .middle =>
      let value := table.value (Source.single sides)
      Roll.median (value 0) (value 1) (value 2)

/-- What accepted dice may come to, behind so many values. -/
inductive IsResult (dice : Dice) (table : Table σ) (sides : Sides) :
    Nat → Except RollError Int64 → Prop where
  | total {total : Int64} (h : total.toInt = dice.exactTotal table sides) :
      IsResult dice table sides dice.size (.ok total)
  | overflow {taken : Nat} (h : Int64.maxValue.toInt < dice.exactTotal table sides) :
      IsResult dice table sides taken (.error .overflow)
  | cancelled {taken : Nat} (hmode : dice.mode = .standard) (hcount : 256 < dice.count.toInt) :
      IsResult dice table sides taken (.error .cancelled)

theorem exactTotal_counting (dice : Dice) (table : Table σ) (sides : Sides) (count : Nat) :
    dice.exactTotal (table.counting count) sides = dice.exactTotal table sides := by
  unfold exactTotal
  split
  · rw [Table.sum_counting]
  · simp only [Table.value_counting]

theorem total_endsBehind (dice : Dice) (play : Play σ) (sides : Sides) :
    ∃ taken result log, (dice.total sides).EndsBehind play taken result
        ⟨play.table.behindValues (dice.draw sides) taken, log⟩ ∧
      (dice.mode = .standard ∧ 256 < dice.count.toInt ∧ result = .error .cancelled ∨
        Int64.maxValue.toInt < dice.exactTotal play.table sides ∧ result = .error .overflow ∨
        dice.exactTotal play.table sides ≤ Int64.maxValue.toInt ∧
          result = .ok (dice.exactTotal play.table sides) ∧ taken = dice.size) := by
  unfold total draw exactTotal
  cases hmode : dice.mode with
  | standard =>
      obtain ⟨taken, result, log, hend, hresult⟩ := Roll.addDice_endsBehind play sides dice.size
      refine ⟨taken, result, log, hend, hresult.imp_left fun hcancelled => ?_⟩
      have hsize : dice.size = dice.count.toInt.toNat := by simp only [size, hmode]
      exact ⟨rfl, by omega, hcancelled.2⟩
  | middle =>
      refine ⟨3, _, play.log, Roll.throwMiddle_endsBehind play sides, .inr ?_⟩
      dsimp only
      split
      case isTrue hfits => exact .inr ⟨hfits, rfl, by simp only [size, hmode]⟩
      case isFalse hwide => exact .inl ⟨Int.not_le.1 hwide, rfl⟩

theorem Accepted.endsBehind {dice : Dice} {sides : Sides} (play : Play σ)
    (h : dice.Accepted play.table sides) :
    ∃ taken result log, dice.roll.EndsBehind play taken result
        ⟨(play.table.behindValues (dice.draw sides) taken).counting dice.size, log⟩ ∧
      dice.IsResult play.table sides taken result := by
  obtain ⟨taken, result, log, hend, hresult⟩ :=
    dice.total_endsBehind { play with table := play.table.counting dice.size } sides
  rw [Table.behindValues_counting] at hend
  rw [exactTotal_counting] at hresult
  rcases hresult with ⟨hmode, hcount, rfl⟩ | ⟨hwide, rfl⟩ | ⟨hfits, rfl, rfl⟩
  · exact ⟨taken, _, log, h.endsBehind_error play hend, .cancelled hmode hcount⟩
  · exact ⟨taken, _, log, h.endsBehind_error play hend, .overflow hwide⟩
  · exact ⟨dice.size, _, _, h.endsBehind_ok play hend, .total (toInt_ofNat hfits)⟩

theorem effect_roll_of_middle {dice : Dice} (hmode : dice.mode = .middle) (count : Int64)
    (table : Table σ) :
    ({ dice with count := count }).roll.effect table = dice.roll.effect table := by
  obtain ⟨mode, other, sides⟩ := dice
  obtain rfl : mode = .middle := hmode
  unfold roll
  rw [Roll.effect_bind, Roll.effect_bind]
  cases Sides.ofInt? sides <;> simp [Roll.effect_bind, total, size]

omit [Source σ] in
theorem Accepted.not_refused {dice : Dice} {table : Table σ} {sides : Sides}
    (h : dice.Accepted table sides) (error : RollError) : ¬dice.Refused table error := by
  intro hrefused
  cases hrefused with
  | cancelled hcancelled => exact Bool.eq_false_iff.1 h.isFree hcancelled
  | invalidSides _ hsides =>
      rw [← Sides.ofInt?_eq_none_iff, h.ofInt?_eq] at hsides
      cases hsides
  | invalidCount _ _ hmode hcount => exact Int.not_lt.2 (h.count_nonneg hmode) hcount
  | tooManyRolls _ _ _ hwithin => exact hwithin h.isWithin

theorem Refused.effect_eq {dice : Dice} {table : Table σ} {error : RollError}
    (h : dice.Refused table error) : dice.roll.effect table = (.error error, table) := by
  obtain ⟨_, hend⟩ := endsBehind ⟨table, #[]⟩ h
  exact hend.effect_eq

theorem Accepted.effect_eq {dice : Dice} {table : Table σ} {sides : Sides}
    (h : dice.Accepted table sides) :
    ∃ taken result, dice.roll.effect table =
        (result, (table.behindValues (dice.draw sides) taken).counting dice.size) ∧
      dice.IsResult table sides taken result := by
  obtain ⟨taken, result, _, hend, hresult⟩ := endsBehind ⟨table, #[]⟩ h
  exact ⟨taken, result, hend.effect_eq, hresult⟩

theorem Accepted.rolls_eq {dice : Dice} {table : Table σ} {sides : Sides}
    (h : dice.Accepted table sides) :
    (dice.roll.effect table).2.rolls = table.rolls + dice.size := by
  obtain ⟨taken, result, heffect, -⟩ := h.effect_eq
  rw [heffect]
  exact congrArg (· + dice.size) (table.rolls_behindValues _ taken)

theorem Refused.unique {dice : Dice} {table : Table σ} {error other : RollError}
    (h : dice.Refused table error) (hother : dice.Refused table other) : other = error := by
  have heffect := hother.effect_eq.symm.trans h.effect_eq
  exact Except.error.inj (congrArg Prod.fst heffect)

/--
Dice are refused for the first cause there is, and then nothing changes at the
table and no value is taken.  Otherwise they are all counted, whatever they come
to, and they fail only if their total does not fit or if they are cancelled among
more than 256 dice of a sum.  The count of middle dice does not matter.
-/
theorem refused_or_counted (dice : Dice) (play : Play σ) :
    ∃ taken result behind, dice.roll.EndsBehind play taken result behind ∧
      (∀ error, dice.Refused play.table error →
        result = .error error ∧ taken = 0 ∧ behind.table = play.table) ∧
      ((∀ error, ¬dice.Refused play.table error) →
        behind.table.rolls = play.table.rolls + dice.size ∧
        ∀ error, result = .error error → error = .overflow ∨
          error = .cancelled ∧ dice.mode = .standard ∧ 256 < dice.count.toInt) ∧
      (result = .error .tooManyRolls ↔ dice.Refused play.table .tooManyRolls) ∧
      (dice.mode = .middle → ∀ count : Int64,
        ({ dice with count := count }).roll.effect play.table = (result, behind.table)) := by
  have hmiddle : ∀ {taken result behind}, dice.roll.EndsBehind play taken result behind →
      dice.mode = .middle → ∀ count : Int64,
        ({ dice with count := count }).roll.effect play.table = (result, behind.table) := by
    intro taken result behind hend hmode count
    rw [effect_roll_of_middle hmode, hend.effect_eq]
  rcases dice.refused_or_accepted play.table with ⟨error, hrefused⟩ | ⟨sides, haccepted⟩
  · obtain ⟨log, hend⟩ := hrefused.endsBehind play
    refine ⟨0, _, _, hend, ?_, ?_, ?_, hmiddle hend⟩
    · rintro other hother
      exact ⟨congrArg Except.error (hother.unique hrefused), rfl, rfl⟩
    · exact fun hnone => absurd hrefused (hnone error)
    · constructor
      · rintro ⟨⟩
        exact hrefused
      · exact fun hother => congrArg Except.error (hother.unique hrefused)
  · obtain ⟨taken, result, log, hend, hresult⟩ := haccepted.endsBehind play
    refine ⟨taken, result, _, hend, ?_, ?_, ?_, hmiddle hend⟩
    · exact fun error hrefused => absurd hrefused (haccepted.not_refused error)
    · intro _
      have hrolls := play.table.rolls_behindValues (dice.draw sides) taken
      refine ⟨congrArg (· + dice.size) hrolls, ?_⟩
      rintro error rfl
      cases hresult with
      | overflow => exact .inl rfl
      | cancelled hmode hcount => exact .inr ⟨rfl, hmode, hcount⟩
    · constructor
      · rintro rfl
        cases hresult
      · exact fun hrefused => absurd hrefused (haccepted.not_refused _)

private def scarce : Play Counting := ⟨.fresh (some 5) ⟨1, 1⟩, #[]⟩

theorem refused_or_counted_scarce :
    (∃ log, (standard 6 4).roll.EndsBehind scarce 0 (.error .tooManyRolls) ⟨scarce.table, log⟩) ∧
      ((standard 5 4).roll.outcome scarce).2.table.rolls = 5 := by
  constructor
  · obtain ⟨taken, result, behind, hend, hrefused, -⟩ := refused_or_counted (standard 6 4) scarce
    have hwide : ¬(scarce.table.counting 6).IsWithin := fun h => absurd (h.2 5 rfl) (by decide)
    obtain ⟨rfl, rfl, htable⟩ := hrefused _ (.tooManyRolls rfl (by decide) (by decide) hwide)
    exact ⟨behind.log, htable ▸ hend⟩
  · obtain ⟨taken, result, behind, hend, -, hcounted, -⟩ :=
      refused_or_counted (standard 5 4) scarce
    have hwithin : (scarce.table.counting 5).IsWithin :=
      ⟨by decide, fun budget hbudget => by cases hbudget; decide⟩
    have haccepted : (standard 5 4).Accepted scarce.table ⟨4, by decide, by decide⟩ :=
      ⟨rfl, rfl, by decide, hwithin⟩
    rw [hend.outcome_eq]
    exact (hcounted haccepted.not_refused).1

end Dice

end DiceNotation
