import DiceNotation.Roll.Stage
import DiceNotation.Roll.Throw
import DiceNotation.Source.Counting
import DiceNotation.Source.Fused
import Mathlib.Algebra.BigOperators.Intervals
import Mathlib.Algebra.Order.BigOperators.Group.Finset
import Mathlib.Data.ENat.Lattice

/-!
# Sums of dice

A sum takes value after value until it has them all.  There are two ways for it to
end before: a check finds the flag up, or a value takes the sum out of range.  The
one that comes first ends it, and behind the same value it is the check.
-/

namespace DiceNotation

/-- The least number that has a property, and infinity if none has it. -/
noncomputable def least (p : Nat → Prop) : ℕ∞ := ⨅ (n : Nat) (_ : p n), (n : ℕ∞)

section

variable {p : Nat → Prop} {n : Nat}

theorem coe_le_least_iff : (n : ℕ∞) ≤ least p ↔ ∀ i < n, ¬p i := by
  simp only [least, le_iInf_iff, Nat.cast_le]
  constructor
  · intro h i hi hp
    exact absurd (h i hp) (Nat.not_le.2 hi)
  · intro h i hp
    exact Nat.not_lt.1 fun hi => h i hi hp

theorem least_lt_coe_iff : least p < (n : ℕ∞) ↔ ∃ i < n, p i := by
  rw [← not_le, coe_le_least_iff]
  simp

theorem exists_least_eq (h : least p < (n : ℕ∞)) :
    ∃ i < n, least p = i ∧ p i ∧ ∀ j < i, ¬p j := by
  classical
  obtain ⟨other, hother, hp⟩ := least_lt_coe_iff.1 h
  have hexists : ∃ i, p i := ⟨other, hp⟩
  have hfirst : ∀ j < Nat.find hexists, ¬p j := fun j hj => Nat.find_min hexists hj
  have hle : least p ≤ Nat.find hexists := iInf₂_le _ (Nat.find_spec hexists)
  refine ⟨Nat.find hexists, ?_, le_antisymm hle (coe_le_least_iff.2 hfirst),
    Nat.find_spec hexists, hfirst⟩
  exact Nat.lt_of_le_of_lt (Nat.find_min' hexists hp) hother

end

variable {σ : Type}

namespace Roll

theorem fit_bind_of_le {β : Type} {total : Nat} (h : total ≤ Int64.maxValue.toInt.toNat)
    (next : Nat → Roll σ β) : fit total >>= next = next total := by
  rw [fit, if_pos h]
  rfl

theorem fit_bind_of_lt {β : Type} {total : Nat} (h : Int64.maxValue.toInt.toNat < total)
    (next : Nat → Roll σ β) : fit total >>= next = .failed .overflow := by
  rw [fit, if_neg (Nat.not_le.2 h)]
  rfl

end Roll

variable [Source σ]

namespace Table

def behindSummands (table : Table σ) (sides : Sides) : Nat → Table σ
  | 0 => table
  | taken + 1 =>
      (table.behindSummands sides taken).accept
        (Source.summand sides (table.behindSummands sides taken).source)

def summand (table : Table σ) (sides : Sides) (index : Nat) : Nat :=
  (Source.summand sides (table.behindSummands sides index).source).value

def sum (table : Table σ) (sides : Sides) (count : Nat) : Nat :=
  ∑ index ∈ Finset.range count, table.summand sides index

noncomputable def cancelledBehind (table : Table σ) (sides : Sides) : ℕ∞ :=
  least fun taken => (table.behindSummands sides taken).isCancelled = true

/-- The index of the die whose check finds the flag up: checks are at multiples of 256. -/
noncomputable def stopIndex (table : Table σ) (sides : Sides) : ℕ∞ :=
  least fun index => 256 ∣ index ∧ 256 ≤ index ∧ table.cancelledBehind sides - 1 ≤ index

noncomputable def excessIndex (table : Table σ) (sides : Sides) : ℕ∞ :=
  least fun index => Int64.maxValue.toInt < table.sum sides (index + 1)

def StopsAt (table : Table σ) (sides : Sides) (index : Nat) : Prop :=
  0 < index ∧ index % 256 = 0 ∧ (table.behindSummands sides (index + 1)).isCancelled = true

theorem isCancelled_behindSummands_mono {table : Table σ} {sides : Sides} {taken more : Nat}
    (h : (table.behindSummands sides taken).isCancelled = true) (hle : taken ≤ more) :
    (table.behindSummands sides more).isCancelled = true := by
  induction hle with
  | refl => exact h
  | step _ ih => exact isCancelled_accept _ ih

theorem cancelledBehind_le_iff {table : Table σ} {sides : Sides} {taken : Nat} :
    table.cancelledBehind sides ≤ (taken : ℕ∞) ↔
      (table.behindSummands sides taken).isCancelled = true := by
  rw [← ENat.lt_add_one_iff (ENat.natCast_ne_top taken), ← Nat.cast_succ, cancelledBehind,
    least_lt_coe_iff]
  constructor
  · rintro ⟨i, hi, hcancelled⟩
    exact isCancelled_behindSummands_mono hcancelled (Nat.le_of_lt_succ hi)
  · exact fun h => ⟨taken, Nat.lt_succ_self taken, h⟩

theorem stopIndex_eq (table : Table σ) (sides : Sides) :
    table.stopIndex sides = least (table.StopsAt sides) := by
  refine congrArg least (funext fun index => propext ?_)
  rw [tsub_le_iff_right, ← Nat.cast_succ, cancelledBehind_le_iff]
  unfold StopsAt
  constructor
  · rintro ⟨hdvd, hle, h⟩
    exact ⟨by omega, Nat.mod_eq_zero_of_dvd hdvd, h⟩
  · rintro ⟨hpos, hmod, h⟩
    have hdvd := Nat.dvd_of_mod_eq_zero hmod
    exact ⟨hdvd, Nat.le_of_dvd hpos hdvd, h⟩

theorem sum_succ (table : Table σ) (sides : Sides) (count : Nat) :
    table.sum sides (count + 1) = table.sum sides count + table.summand sides count :=
  Finset.sum_range_succ _ _

theorem sum_mono (table : Table σ) (sides : Sides) : Monotone (table.sum sides) :=
  fun _ _ h => Finset.sum_le_sum_of_subset (Finset.range_mono h)

end Table

namespace Roll

/-- The roll takes this many values, and comes to this result in this state of play. -/
structure EndsBehind {α : Type} (roll : Roll σ α) (play : Play σ) (taken : Nat)
    (result : Except RollError α) (behind : Play σ) : Prop where
  outcome_eq : roll.outcome play = (result, behind)
  reaches : (Stage.start roll play).Reaches ⟨.ofExcept result, behind, taken⟩

theorem EndsBehind.of_reaches {α : Type} {roll : Roll σ α} {play behind : Play σ} {taken : Nat}
    {result : Except RollError α}
    (h : (Stage.start roll play).Reaches ⟨.ofExcept result, behind, taken⟩) :
    roll.EndsBehind play taken result behind :=
  ⟨h.outcome_eq.trans (outcome_ofExcept result behind), h⟩

theorem checkAmong_reaches_stop {β : Type} {done count taken : Nat} {play : Play σ}
    (hcheck : 0 < done ∧ done % 256 = 0) (hcancelled : play.table.isCancelled = true)
    (next : Unit → Roll σ β) :
    (⟨checkAmong done count >>= next, play, taken⟩ : Stage σ β).Reaches
      ⟨.failed .cancelled, { play with log := play.log.push (.cancelledAmong done count) },
        taken⟩ := by
  rw [checkAmong, if_pos hcheck]
  exact .next (.stop hcancelled) (.refl _)

theorem checkAmong_reaches_pass {β : Type} {done count taken : Nat} {play : Play σ}
    (h : ¬(0 < done ∧ done % 256 = 0 ∧ play.table.isCancelled = true))
    (next : Unit → Roll σ β) :
    (⟨checkAmong done count >>= next, play, taken⟩ : Stage σ β).Reaches ⟨next (), play, taken⟩ := by
  unfold checkAmong
  split
  case isTrue hcheck =>
      have hfree : play.table.isCancelled = false := by
        rw [← Bool.not_eq_true]
        exact fun hcancelled => h ⟨hcheck.1, hcheck.2, hcancelled⟩
      exact .next (.pass hfree) (.refl _)
  case isFalse => exact .refl _

def playBehind (play : Play σ) (sides : Sides) (taken : Nat) : Play σ :=
  { play with table := play.table.behindSummands sides taken }

variable {play : Play σ} {sides : Sides}

theorem addDice_reaches_check (play : Play σ) (sides : Sides) (done left total : Nat) :
    (⟨addDice sides done (left + 1) total, playBehind play sides done, done⟩ : Stage σ Nat).Reaches
      ⟨checkAmong done (done + (left + 1)) >>= fun _ =>
          fit (total + play.table.summand sides done) >>= addDice sides (done + 1) left,
        playBehind play sides (done + 1), done + 1⟩ := by
  rw [addDice_succ]
  exact .next .receive (.refl _)

theorem addDice_reaches_fit {done : Nat} (h : ¬play.table.StopsAt sides done)
    (left total : Nat) :
    (⟨addDice sides done (left + 1) total, playBehind play sides done, done⟩ : Stage σ Nat).Reaches
      ⟨fit (total + play.table.summand sides done) >>= addDice sides (done + 1) left,
        playBehind play sides (done + 1), done + 1⟩ :=
  have hplay : ¬(0 < done ∧ done % 256 = 0 ∧
      (playBehind play sides (done + 1)).table.isCancelled = true) := h
  (addDice_reaches_check play sides done left total).trans (checkAmong_reaches_pass hplay _)

theorem addDice_reaches {count : Nat}
    (hfree : ∀ index < count, ¬play.table.StopsAt sides index)
    (hfits : play.table.sum sides count ≤ Int64.maxValue.toInt.toNat) (left : Nat) :
    (Stage.start (addDice sides 0 (count + left) 0) play).Reaches
      ⟨addDice sides count left (play.table.sum sides count), playBehind play sides count,
        count⟩ := by
  induction count generalizing left with
  | zero =>
      rw [Nat.zero_add]
      exact .refl _
  | succ count ih =>
      have hle : play.table.sum sides count ≤ Int64.maxValue.toInt.toNat :=
        Nat.le_trans (play.table.sum_mono sides count.le_succ) hfits
      have hbefore := ih (fun index hindex => hfree index (Nat.lt_succ_of_lt hindex)) hle (left + 1)
      rw [Table.sum_succ] at hfits ⊢
      have hfit := addDice_reaches_fit (hfree count count.lt_succ_self) left
        (play.table.sum sides count)
      rw [fit_bind_of_le hfits] at hfit
      rw [Nat.succ_add_eq_add_succ]
      exact hbefore.trans hfit

theorem addDice_endsBehind_stop {index count : Nat} (hindex : index < count)
    (hfree : ∀ before < index, ¬play.table.StopsAt sides before)
    (hfits : play.table.sum sides index ≤ Int64.maxValue.toInt.toNat)
    (hstop : play.table.StopsAt sides index) :
    (addDice sides 0 count 0).EndsBehind play (index + 1) (.error .cancelled)
      ⟨play.table.behindSummands sides (index + 1),
        play.log.push (.cancelledAmong index count)⟩ := by
  obtain ⟨left, rfl⟩ := Nat.exists_eq_add_of_lt hindex
  obtain ⟨hpos, hmod, hcancelled⟩ := hstop
  have hcheck := addDice_reaches_check play sides index left (play.table.sum sides index)
  exact .of_reaches ((addDice_reaches hfree hfits (left + 1)).trans
    (hcheck.trans (checkAmong_reaches_stop ⟨hpos, hmod⟩ hcancelled _)))

theorem addDice_endsBehind_excess {index count : Nat} (hindex : index < count)
    (hfree : ∀ before ≤ index, ¬play.table.StopsAt sides before)
    (hfits : play.table.sum sides index ≤ Int64.maxValue.toInt.toNat)
    (hexcess : Int64.maxValue.toInt.toNat < play.table.sum sides (index + 1)) :
    (addDice sides 0 count 0).EndsBehind play (index + 1) (.error .overflow)
      ⟨play.table.behindSummands sides (index + 1), play.log⟩ := by
  obtain ⟨left, rfl⟩ := Nat.exists_eq_add_of_lt hindex
  have hbefore :=
    addDice_reaches (fun before hlt => hfree before (Nat.le_of_lt hlt)) hfits (left + 1)
  have hfit := addDice_reaches_fit (hfree index (Nat.le_refl index)) left
    (play.table.sum sides index)
  rw [Table.sum_succ] at hexcess
  rw [fit_bind_of_lt hexcess] at hfit
  exact .of_reaches (hbefore.trans hfit)

theorem addDice_endsBehind_total {count : Nat}
    (hfree : ∀ index < count, ¬play.table.StopsAt sides index)
    (hfits : play.table.sum sides count ≤ Int64.maxValue.toInt.toNat) :
    (addDice sides 0 count 0).EndsBehind play count (.ok (play.table.sum sides count))
      ⟨play.table.behindSummands sides count, play.log⟩ :=
  .of_reaches (addDice_reaches hfree hfits 0)

end Roll

/-! ## The first exit -/

namespace Table

variable {table : Table σ} {sides : Sides} {count : Nat}

theorem lt_sum_iff :
    Int64.maxValue.toInt < table.sum sides count ↔
      Int64.maxValue.toInt.toNat < table.sum sides count := by
  have hmax := Int64.toInt_maxValue
  omega

theorem excessIndex_lt_iff :
    table.excessIndex sides < (count : ℕ∞) ↔ Int64.maxValue.toInt < table.sum sides count := by
  rw [excessIndex, least_lt_coe_iff]
  constructor
  · rintro ⟨index, hindex, hexcess⟩
    exact hexcess.trans_le (Int.ofNat_le.2 (table.sum_mono sides hindex))
  · intro hwide
    cases count with
    | zero =>
        have hmax := Int64.toInt_maxValue
        simp only [sum, Finset.range_zero, Finset.sum_empty] at hwide
        omega
    | succ count => exact ⟨count, count.lt_succ_self, hwide⟩

theorem sum_le_of_le_excessIndex (h : (count : ℕ∞) ≤ table.excessIndex sides) :
    table.sum sides count ≤ Int64.maxValue.toInt.toNat := by
  rw [← not_lt, excessIndex_lt_iff, lt_sum_iff] at h
  exact Nat.not_lt.1 h

theorem not_stopsAt_of_le_stopIndex (h : (count : ℕ∞) ≤ table.stopIndex sides) :
    ∀ index < count, ¬table.StopsAt sides index := by
  rw [stopIndex_eq] at h
  exact coe_le_least_iff.1 h

end Table

namespace Roll

variable {play : Play σ} {sides : Sides} {count : Nat}

theorem addDice_endsBehind_stopIndex
    (h : play.table.stopIndex sides < count ∧
      play.table.stopIndex sides ≤ play.table.excessIndex sides) :
    ∃ index : Nat, play.table.stopIndex sides = index ∧
      (addDice sides 0 count 0).EndsBehind play (index + 1) (.error .cancelled)
        ⟨play.table.behindSummands sides (index + 1),
          play.log.push (.cancelledAmong index count)⟩ := by
  rw [Table.stopIndex_eq] at h ⊢
  obtain ⟨index, hindex, hindexed, hstops, hfree⟩ := exists_least_eq h.1
  have hfits := Table.sum_le_of_le_excessIndex (hindexed.symm.trans_le h.2)
  exact ⟨index, hindexed, addDice_endsBehind_stop hindex hfree hfits hstops⟩

theorem addDice_endsBehind_excessIndex
    (hstop : ¬(play.table.stopIndex sides < count ∧
      play.table.stopIndex sides ≤ play.table.excessIndex sides))
    (hexcess : play.table.excessIndex sides < count) :
    ∃ index : Nat, play.table.excessIndex sides = index ∧
      (addDice sides 0 count 0).EndsBehind play (index + 1) (.error .overflow)
        ⟨play.table.behindSummands sides (index + 1), play.log⟩ := by
  have hfirst : play.table.excessIndex sides < play.table.stopIndex sides :=
    not_le.1 fun hle => hstop ⟨hle.trans_lt hexcess, hle⟩
  obtain ⟨index, hindex, hindexed, hwide, -⟩ := exists_least_eq hexcess
  refine ⟨index, hindexed, addDice_endsBehind_excess hindex ?_ ?_ (Table.lt_sum_iff.1 hwide)⟩
  · have hnext : ((index + 1 : Nat) : ℕ∞) ≤ play.table.stopIndex sides :=
      Order.add_one_le_of_lt (hindexed.symm.trans_lt hfirst)
    exact fun before hle => Table.not_stopsAt_of_le_stopIndex hnext before (Nat.lt_succ_of_le hle)
  · exact Table.sum_le_of_le_excessIndex hindexed.symm.le

theorem addDice_endsBehind_sum
    (hstop : ¬(play.table.stopIndex sides < count ∧
      play.table.stopIndex sides ≤ play.table.excessIndex sides))
    (hexcess : ¬play.table.excessIndex sides < count) :
    (addDice sides 0 count 0).EndsBehind play count (.ok (play.table.sum sides count))
      ⟨play.table.behindSummands sides count, play.log⟩ := by
  have hfits := not_lt.1 hexcess
  have hfree : (count : ℕ∞) ≤ play.table.stopIndex sides :=
    not_lt.1 fun hlt => hstop ⟨hlt, hlt.le.trans hfits⟩
  exact addDice_endsBehind_total (Table.not_stopsAt_of_le_stopIndex hfree)
    (Table.sum_le_of_le_excessIndex hfits)

theorem addDice_result (play : Play σ) (sides : Sides) (count : Nat) :
    ((addDice sides 0 count 0).outcome play).1 = .error .cancelled ∨
      Int64.maxValue.toInt < play.table.sum sides count ∧
        ((addDice sides 0 count 0).outcome play).1 = .error .overflow ∨
      (play.table.sum sides count : Int) ≤ Int64.maxValue.toInt ∧
        ((addDice sides 0 count 0).outcome play).1 = .ok (play.table.sum sides count) := by
  by_cases hstop : play.table.stopIndex sides < count ∧
      play.table.stopIndex sides ≤ play.table.excessIndex sides
  case pos =>
      obtain ⟨index, -, hend⟩ := addDice_endsBehind_stopIndex hstop
      exact .inl (congrArg Prod.fst hend.outcome_eq)
  case neg =>
      by_cases hexcess : play.table.excessIndex sides < count
      case pos =>
          obtain ⟨index, -, hend⟩ := addDice_endsBehind_excessIndex hstop hexcess
          exact .inr (.inl ⟨Table.excessIndex_lt_iff.1 hexcess, congrArg Prod.fst hend.outcome_eq⟩)
      case neg =>
          have hend := addDice_endsBehind_sum hstop hexcess
          rw [Table.excessIndex_lt_iff, not_lt] at hexcess
          exact .inr (.inr ⟨hexcess, congrArg Prod.fst hend.outcome_eq⟩)

end Roll

/--
A sum is cancelled behind the first value with a check that finds the flag up,
unless it is out of range before that value is taken.  It overflows behind the
first value that takes it out of range, unless it is cancelled there or before.
Otherwise it comes to the exact sum of all its values.  So it overflows only if
the exact sum is out of range, and then it does unless it is cancelled.
-/
theorem sum_ends_at_first_exit (sides : Sides) (count : Nat) (play : Play σ) :
    let stop := play.table.stopIndex sides
    let excess := play.table.excessIndex sides
    let dice : Roll σ Nat := Roll.addDice sides 0 count 0
    (stop < count ∧ stop ≤ excess → ∃ index : Nat, stop = index ∧
      dice.EndsBehind play (index + 1) (.error .cancelled)
        ⟨play.table.behindSummands sides (index + 1),
          play.log.push (.cancelledAmong index count)⟩) ∧
    (¬(stop < count ∧ stop ≤ excess) → excess < count → ∃ index : Nat, excess = index ∧
      dice.EndsBehind play (index + 1) (.error .overflow)
        ⟨play.table.behindSummands sides (index + 1), play.log⟩) ∧
    (¬(stop < count ∧ stop ≤ excess) → ¬excess < count →
      dice.EndsBehind play count (.ok (play.table.sum sides count))
        ⟨play.table.behindSummands sides count, play.log⟩) ∧
    ((dice.outcome play).1 ≠ .error .cancelled →
      ((dice.outcome play).1 = .error .overflow ↔
        Int64.maxValue.toInt < play.table.sum sides count)) ∧
    ∀ total, (dice.outcome play).1 = .ok total →
      total = play.table.sum sides count ∧ total ≤ Int64.maxValue.toInt := by
  intro stop excess dice
  refine ⟨Roll.addDice_endsBehind_stopIndex, Roll.addDice_endsBehind_excessIndex,
    Roll.addDice_endsBehind_sum, ?_, ?_⟩
  · intro hfree
    obtain hcancelled | ⟨hwide, hresult⟩ | ⟨hfits, hresult⟩ := Roll.addDice_result play sides count
    · exact absurd hcancelled hfree
    · exact iff_of_true hresult hwide
    · rw [hresult]
      exact iff_of_false (by simp) (not_lt.2 hfits)
  · intro total htotal
    obtain hresult | ⟨-, hresult⟩ | ⟨hfits, hresult⟩ := Roll.addDice_result play sides count
    · cases hresult.symm.trans htotal
    · cases hresult.symm.trans htotal
    · obtain rfl := Except.ok.inj (hresult.symm.trans htotal)
      exact ⟨rfl, hfits⟩

private def tenth : Play (Fused Counting) := ⟨.fresh none ⟨⟨1, 1⟩, 0, some 10, 0⟩, #[]⟩

private def six : Sides := ⟨6, by decide, by decide⟩

/-- The check behind the tenth value is the one of the 257th. -/
theorem sum_ends_at_first_exit_cancelled :
    (Roll.addDice six 0 10000 0).EndsBehind tenth 257 (.error .cancelled)
      ⟨tenth.table.behindSummands six 257, #[.cancelledAmong 256 10000]⟩ := by
  have hraised : (tenth.table.behindSummands six 10).isCancelled = true := by rfl
  have hstops : tenth.table.StopsAt six 256 :=
    ⟨by decide, by decide, Table.isCancelled_behindSummands_mono hraised (by decide)⟩
  have hstop : tenth.table.stopIndex six = (256 : Nat) := by
    rw [Table.stopIndex_eq]
    refine le_antisymm (iInf₂_le 256 hstops) (coe_le_least_iff.2 ?_)
    rintro index hindex ⟨hpos, hmod, -⟩
    omega
  have hsummand : ∀ index, tenth.table.summand six index ≤ 6 := fun index =>
    Nat.succ_le_of_lt (Nat.mod_lt _ six.pos)
  have hfirst : ((256 : Nat) : ℕ∞) ≤ tenth.table.excessIndex six := by
    refine coe_le_least_iff.2 fun index hindex => ?_
    have hsum : tenth.table.sum six (index + 1) ≤ (Finset.range (index + 1)).card • 6 :=
      Finset.sum_le_card_nsmul _ _ 6 fun i _ => hsummand i
    rw [Finset.card_range, smul_eq_mul] at hsum
    have hmax := Int64.toInt_maxValue
    omega
  obtain ⟨index, hindex, hend⟩ := (sum_ends_at_first_exit six 10000 tenth).1
    ⟨hstop ▸ Nat.cast_lt.2 (by decide), hstop ▸ hfirst⟩
  obtain rfl : 256 = index := Nat.cast_injective (hstop.symm.trans hindex)
  exact hend

end DiceNotation
