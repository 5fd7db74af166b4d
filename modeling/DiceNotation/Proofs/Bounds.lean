import DiceNotation.Proofs.Median
import DiceNotation.Source.Generator

/-!
# Bounds of totals

If the values of dice are numbers of their sides, a sum of dice is at least their
number and at most this many times the number of sides, middle dice come to a
number of a side, and only totals that need not fit overflow.
-/

namespace DiceNotation

variable {σ : Type}

/-- A source whose values are numbers of the sides of the dice. -/
class KeepsToSides (σ : Type) [Source σ] : Prop where
  single_mem : ∀ (sides : Sides) (source : σ),
    (Source.single sides source).value ∈ Set.Icc 1 sides.count
  summand_mem : ∀ (sides : Sides) (source : σ),
    (Source.summand sides source).value ∈ Set.Icc 1 sides.count

/-- A source that makes its values from words, whichever these are, that the zones accept. -/
class Sampled (σ : Type) [Source σ] : Prop where
  single_eq : ∀ (sides : Sides) (source : σ), ∃ word : UInt64,
    Generator.value? (Generator.singleZone sides) sides word =
      some (Source.single sides source).value
  summand_eq : ∀ (sides : Sides) (source : σ), ∃ word : UInt64,
    Generator.value? (Generator.summandZone sides) sides word =
      some (Source.summand sides source).value

namespace Generator

theorem value?_mem {zone value : Nat} {sides : Sides} {word : UInt64}
    (h : value? zone sides word = some value) : value ∈ Set.Icc 1 sides.count := by
  simp only [value?] at h
  split at h
  case isFalse => cases h
  case isTrue =>
      cases h
      have hword : word.toNat * sides.count < UInt64.size * sides.count :=
        Nat.mul_lt_mul_of_pos_right word.toNat_lt sides.pos
      have hhigh := Nat.div_lt_of_lt_mul hword
      exact ⟨Nat.le_add_left 1 _, hhigh⟩

theorem exists_word_of_sample (zone : Nat) (sides : Sides) (source : Generator) :
    ∃ word, value? zone sides word = some (sample zone sides source).value := by
  induction source using sample.induct zone sides with
  | case1 source value haccepted =>
      unfold sample
      split
      case h_1 other hother => exact ⟨source.word, hother⟩
      case h_2 hrejected => cases haccepted.symm.trans hrejected
  | case2 source hrejected ih =>
      unfold sample
      split
      case h_1 value haccepted => cases haccepted.symm.trans hrejected
      case h_2 => exact ih

instance : Sampled Generator where
  single_eq sides := exists_word_of_sample (singleZone sides) sides
  summand_eq sides := exists_word_of_sample (summandZone sides) sides

end Generator

theorem Counting.value_draw_mem (sides : Sides) (source : Counting) :
    (source.draw sides).value ∈ Set.Icc 1 sides.count :=
  ⟨Nat.le_add_left 1 _, Nat.mod_lt _ sides.pos⟩

instance : KeepsToSides Counting where
  single_mem := Counting.value_draw_mem
  summand_mem := Counting.value_draw_mem

instance [Source σ] [Sampled σ] : KeepsToSides σ where
  single_mem sides source :=
    (Sampled.single_eq sides source).elim fun _ => Generator.value?_mem
  summand_mem sides source :=
    (Sampled.summand_eq sides source).elim fun _ => Generator.value?_mem

instance [Source σ] [KeepsToSides σ] : KeepsToSides (Fused σ) where
  single_mem sides fuse := KeepsToSides.single_mem sides fuse.source
  summand_mem sides fuse := KeepsToSides.summand_mem sides fuse.source

variable [Source σ]

namespace Dice

def DrawsSides (dice : Dice) (table : Table σ) : Prop :=
  ∀ sides, Sides.ofInt? dice.sides = some sides → ∀ index < dice.size,
    table.value (dice.draw sides) index ∈ Set.Icc 1 sides.count

theorem drawsSides [KeepsToSides σ] (dice : Dice) (table : Table σ) : dice.DrawsSides table := by
  have hdraw : ∀ (sides : Sides) (source : σ),
      (dice.draw sides source).value ∈ Set.Icc 1 sides.count := by
    intro sides source
    unfold draw
    cases dice.mode with
    | standard => exact KeepsToSides.summand_mem sides source
    | middle => exact KeepsToSides.single_mem sides source
  exact fun sides _ index _ => hdraw sides _

section

variable {dice : Dice} {table : Table σ} {sides : Sides} (h : dice.Accepted table sides)
  (hvalues : dice.DrawsSides table)

include h hvalues

theorem Accepted.exactTotal_standard (hmode : dice.mode = .standard) :
    dice.count.toInt ≤ dice.exactTotal table sides ∧
      dice.exactTotal table sides ≤ dice.count.toInt * dice.sides.toInt := by
  have hcount : (dice.size : Int) = dice.count.toInt := by
    rw [size, hmode]
    exact Int.toNat_of_nonneg (h.count_nonneg hmode)
  have hsummand : ∀ index ∈ Finset.range dice.size,
      table.summand sides index ∈ Set.Icc 1 sides.count := by
    intro index hindex
    have hvalue := hvalues sides h.ofInt?_eq index (Finset.mem_range.1 hindex)
    rw [draw, hmode] at hvalue
    rw [Table.summand_eq]
    exact hvalue
  -- The sum lies between as many ones and as many numbers of sides.
  have hlower := Finset.card_nsmul_le_sum _ _ 1 fun index hindex => (hsummand index hindex).1
  have hupper := Finset.sum_le_card_nsmul _ _ sides.count
    fun index hindex => (hsummand index hindex).2
  rw [Finset.card_range, smul_eq_mul] at hlower hupper
  rw [exactTotal, hmode, ← hcount, ← Sides.count_of_ofInt? h.ofInt?_eq]
  exact ⟨Int.ofNat_le.2 ((Nat.mul_one dice.size).symm.trans_le hlower), Int.ofNat_le.2 hupper⟩

theorem Accepted.exactTotal_middle (hmode : dice.mode = .middle) :
    1 ≤ (dice.exactTotal table sides : Int) ∧
      dice.exactTotal table sides ≤ dice.sides.toInt := by
  have hsize : dice.size = 3 := by rw [size, hmode]
  have hmem : dice.exactTotal table sides ∈ table.values (Source.single sides) 3 := by
    rw [exactTotal, hmode]
    exact (isMedian_median _ _ _).mem
  obtain ⟨index, hindex, hvalue⟩ := List.mem_map.1 hmem
  have hrange := hvalues sides h.ofInt?_eq index (hsize ▸ List.mem_range.1 hindex)
  rw [draw, hmode] at hrange
  rw [← hvalue, ← Sides.count_of_ofInt? h.ofInt?_eq]
  exact ⟨Int.ofNat_le.2 hrange.1, Int.ofNat_le.2 hrange.2⟩

end

/-- A total of the dice is within their bounds, and only one that need not fit overflows. -/
structure IsBounded (dice : Dice) (result : Except RollError Int64) : Prop where
  standard : dice.mode = .standard → ∀ total, result = .ok total →
    dice.count.toInt ≤ total.toInt ∧ total.toInt ≤ dice.count.toInt * dice.sides.toInt
  middle : dice.mode = .middle → ∀ total, result = .ok total →
    1 ≤ total.toInt ∧ total.toInt ≤ dice.sides.toInt
  fits : dice.mode = .middle ∨ dice.count.toInt * dice.sides.toInt ≤ Int64.maxValue.toInt →
    result ≠ .error .overflow

theorem isBounded_error {dice : Dice} {error : RollError} (h : error ≠ .overflow) :
    dice.IsBounded (.error error) where
  standard _ _ htotal := by cases htotal
  middle _ _ htotal := by cases htotal
  fits _ hoverflow := h (Except.error.inj hoverflow)

theorem Accepted.isBounded {dice : Dice} {table : Table σ} {sides : Sides} {taken : Nat}
    {result : Except RollError Int64} (h : dice.Accepted table sides)
    (hvalues : dice.DrawsSides table) (hresult : dice.IsResult table sides taken result) :
    dice.IsBounded result := by
  cases hresult with
  | total htotal =>
      refine ⟨?_, ?_, fun _ hoverflow => by cases hoverflow⟩
      · rintro hmode _ ⟨⟩
        rw [htotal]
        exact h.exactTotal_standard hvalues hmode
      · rintro hmode _ ⟨⟩
        rw [htotal]
        exact h.exactTotal_middle hvalues hmode
  | overflow hwide =>
      refine ⟨fun _ _ h => (by cases h), fun _ _ h => (by cases h), fun hnarrow => ?_⟩
      have hfits : (dice.exactTotal table sides : Int) ≤ Int64.maxValue.toInt := by
        cases hmode : dice.mode with
        | standard =>
            have hproduct := hnarrow.resolve_left (by simp [hmode])
            exact (h.exactTotal_standard hvalues hmode).2.trans hproduct
        | middle => exact (h.exactTotal_middle hvalues hmode).2.trans dice.sides.toInt_le
      exact absurd hwide (not_lt.2 hfits)
  | cancelled => exact isBounded_error (by simp)

theorem isBounded_roll {dice : Dice} {table : Table σ} (h : dice.DrawsSides table) :
    dice.IsBounded (dice.roll.effect table).1 := by
  rcases dice.refused_or_accepted table with ⟨error, hrefused⟩ | ⟨sides, haccepted⟩
  · rw [hrefused.effect_eq]
    exact isBounded_error (by rintro rfl; cases hrefused)
  · obtain ⟨_, _, heffect, hresult⟩ := haccepted.effect_eq
    rw [heffect]
    exact haccepted.isBounded h hresult

/--
As long as the values that dice take are numbers of their sides, their total is
within the bounds of the dice, and a total that must fit does not overflow.  This
goes for dice that are asked for as for the dice of a leaf.  It goes for all dice
if the source counts, whatever its step is, or if it makes its values from words,
and a fuse makes no difference.
-/
theorem totals_are_bounded :
    (∀ {σ : Type} [Source σ] (dice : Dice) (table : Table σ), dice.DrawsSides table →
      dice.IsBounded (dice.roll.effect table).1 ∧
      ∀ text, Dice.read text = .ok dice → dice.IsBounded ((Roll.leaf text).effect table).1) ∧
    (∀ {σ : Type} [Source σ] [KeepsToSides σ], KeepsToSides (Fused σ) ∧
      ∀ (dice : Dice) (table : Table σ), dice.DrawsSides table) ∧
    KeepsToSides Counting ∧ Sampled Generator ∧
    ∀ {σ : Type} [Source σ] [Sampled σ], KeepsToSides σ := by
  refine ⟨?_, ⟨inferInstance, drawsSides⟩, inferInstance, inferInstance, inferInstance⟩
  intro σ _ dice table hvalues
  refine ⟨isBounded_roll hvalues, fun text hread => ?_⟩
  rw [effect_leaf_of_read hread]
  exact isBounded_roll hvalues

/-- The numbers of the source go down from zero, that is, from the greatest one. -/
private def falling : Table (Fused Counting) := .fresh none ⟨⟨0, -1⟩, 0, none, 0⟩

private def given : Table Cycle := .fresh none ⟨6, [1], []⟩

theorem totals_are_bounded_falling :
    (standard 300 6).IsBounded ((Roll.leaf "300D06").effect falling).1 ∧
      (standard 2 6).IsBounded ((standard 2 6).roll.effect given).1 ∧
      KeepsToSides Generator := by
  obtain ⟨hbounded, hkeeps, -, -, hsampled⟩ := totals_are_bounded
  have hgiven : (standard 2 6).DrawsSides given := by
    rintro sides hsides index hindex
    cases hsides
    have hindices : index = 0 ∨ index = 1 := by
      change index < 2 at hindex
      omega
    rcases hindices with rfl | rfl <;> exact ⟨by decide, by decide⟩
  exact ⟨(hbounded _ falling (hkeeps.2 _ _)).2 "300D06" rfl, (hbounded _ given hgiven).1, hsampled⟩

end Dice

end DiceNotation
