import DiceNotation.Proofs.Bounds
import Mathlib.Algebra.Order.Floor.Div
import Mathlib.Data.Set.Card

/-!
# Fair dice

The words that a zone accepts for one value are those whose multiples by the
number of sides fall into a stretch of numbers as long as the zone.  If the
number of sides divides this length, every stretch holds the same number of
multiples, so all values are equally likely.  It does for both zones.
-/

namespace DiceNotation.Generator

theorem value?_eq_some_iff {zone value : Nat} {sides : Sides} {word : UInt64}
    (h : zone < UInt64.size) :
    value? zone sides word = some (value + 1) ↔
      value * UInt64.size ≤ word.toNat * sides.count ∧
        word.toNat * sides.count < value * UInt64.size + (zone + 1) := by
  simp only [value?, UInt64.size] at h ⊢
  generalize word.toNat * sides.count = product
  split
  case isTrue hlow =>
      rw [Option.some.injEq]
      omega
  case isFalse hhigh =>
      simp only [reduceCtorEq, false_iff]
      omega

theorem ceilDiv_add_mul {sides : Nat} (hsides : 0 < sides) (place share : Nat) :
    (place + share * sides) ⌈/⌉ sides = place ⌈/⌉ sides + share := by
  rw [Nat.ceilDiv_eq_add_pred_div, Nat.ceilDiv_eq_add_pred_div, ← Nat.add_mul_div_right _ _ hsides]
  congr 1
  omega

/-- Of the multiples of the sides, a stretch of `share` times their number holds `share`. -/
theorem multiple_mem_iff {sides : Nat} (hsides : 0 < sides) (place share factor : Nat) :
    (place ≤ factor * sides ∧ factor * sides < place + share * sides) ↔
      factor ∈ Set.Ico (place ⌈/⌉ sides) (place ⌈/⌉ sides + share) := by
  have hfrom : ∀ other, other ≤ factor * sides ↔ other ⌈/⌉ sides ≤ factor := by
    intro other
    rw [ceilDiv_le_iff_le_mul hsides, Nat.mul_comm]
  rw [Set.mem_Ico, ← not_le, hfrom, hfrom, ceilDiv_add_mul hsides, not_le]

theorem ncard_words (start share : Nat) (h : start + share ≤ UInt64.size) :
    {word : UInt64 | word.toNat ∈ Set.Ico start (start + share)}.ncard = share := by
  have himage : UInt64.toNat '' {word | word.toNat ∈ Set.Ico start (start + share)} =
      Finset.Ico start (start + share) := by
    rw [Finset.coe_Ico]
    ext number
    constructor
    · rintro ⟨word, hword, rfl⟩
      exact hword
    · intro hnumber
      have hword : (UInt64.ofNat number).toNat = number :=
        UInt64.toNat_ofNat_of_lt (Nat.lt_of_lt_of_le hnumber.2 h)
      refine ⟨UInt64.ofNat number, ?_, hword⟩
      change (UInt64.ofNat number).toNat ∈ Set.Ico start (start + share)
      rwa [hword]
  have hinjective : Function.Injective UInt64.toNat := fun _ _ => UInt64.toNat_inj.1
  rw [← Set.ncard_image_of_injective _ hinjective, himage, Set.ncard_coe_finset, Nat.card_Ico,
    Nat.add_sub_cancel_left]

/--
The words that the zone accepts stand for numbers of the sides only, and equally
many of them for each of these numbers.
-/
structure IsFair (zone : Nat) (sides : Sides) (share : Nat) : Prop where
  value_mem : ∀ word value, value? zone sides word = some value → value ∈ Set.Icc 1 sides.count
  share_pos : 0 < share
  ncard_eq : ∀ value ∈ Set.Icc 1 sides.count,
    {word : UInt64 | value? zone sides word = some value}.ncard = share

theorem isFair_of_length {zone share : Nat} {sides : Sides}
    (hlength : zone + 1 = share * sides.count) (hzone : zone < UInt64.size) :
    IsFair zone sides share := by
  refine ⟨fun word value => value?_mem, ?_, ?_⟩
  · refine Nat.pos_of_ne_zero ?_
    rintro rfl
    omega
  · rintro value ⟨hpos, hle⟩
    obtain ⟨value, rfl⟩ := Nat.exists_eq_add_of_le' hpos
    -- the stretch of the last value ends at the product of all sides and all words
    have hend : value * UInt64.size + share * sides.count ≤ sides.count * UInt64.size := by
      calc value * UInt64.size + share * sides.count
          ≤ value * UInt64.size + UInt64.size := by omega
        _ = (value + 1) * UInt64.size := (Nat.succ_mul _ _).symm
        _ ≤ sides.count * UInt64.size := Nat.mul_le_mul_right _ hle
    have hwords : (value * UInt64.size) ⌈/⌉ sides.count + share ≤ UInt64.size := by
      rwa [← ceilDiv_add_mul sides.pos, ceilDiv_le_iff_le_mul sides.pos]
    simp only [value?_eq_some_iff hzone, hlength, multiple_mem_iff sides.pos]
    exact ncard_words _ _ hwords

theorem singleZone_length (sides : Sides) :
    singleZone sides + 1 = 2 ^ (63 - sides.count.log2) * sides.count := by
  have hpos : 0 < sides.count * 2 ^ (63 - sides.count.log2) :=
    Nat.mul_pos sides.pos (Nat.two_pow_pos _)
  rw [singleZone, Nat.shiftLeft_eq, Nat.mul_comm (2 ^ _)]
  exact Nat.sub_add_cancel hpos

theorem singleZone_lt (sides : Sides) : singleZone sides < UInt64.size := by
  have hlog : sides.count.log2 < 64 :=
    (Nat.log2_lt (Nat.ne_of_gt sides.pos)).2 sides.small
  have hcount : sides.count < 2 ^ (sides.count.log2 + 1) := Nat.lt_log2_self
  calc singleZone sides < singleZone sides + 1 := Nat.lt_succ_self _
    _ = 2 ^ (63 - sides.count.log2) * sides.count := singleZone_length sides
    _ ≤ 2 ^ (63 - sides.count.log2) * 2 ^ (sides.count.log2 + 1) :=
        Nat.mul_le_mul_left _ (Nat.le_of_lt hcount)
    _ = 2 ^ 64 := by
        rw [← Nat.pow_add]
        congr 1
        omega

theorem summandZone_length (sides : Sides) :
    summandZone sides + 1 = UInt64.size / sides.count * sides.count := by
  have hmod := Nat.mod_eq_sub_mod (Nat.le_of_lt sides.small)
  have hlt := Nat.mod_lt UInt64.size sides.pos
  have hsize := Nat.div_add_mod' UInt64.size sides.count
  have hsmall := sides.small
  rw [summandZone, ← hmod]
  omega

theorem summandZone_lt (sides : Sides) : summandZone sides < UInt64.size := by
  have hpos : 0 < UInt64.size := Nat.two_pow_pos 64
  rw [summandZone]
  omega

/-- The draw takes the value of the first word that the zone accepts, behind so many others. -/
structure IsSampled (zone : Nat) (sides : Sides) (source : Generator) (draw : Draw Generator)
    (rejected : Nat) : Prop where
  rejects : ∀ index < rejected, value? zone sides (next^[index] source).word = none
  accepts : value? zone sides (next^[rejected] source).word = some draw.value
  rest_eq : draw.rest = next^[rejected + 1] source
  used_eq : draw.used = rejected + 1

section

variable {zone value : Nat} {sides : Sides} {source : Generator}

theorem sample_of_accepted (h : value? zone sides source.word = some value) :
    sample zone sides source = ⟨value, source.next, 1⟩ := by
  unfold sample
  split
  case h_1 other hother => rw [Option.some.inj (hother.symm.trans h)]
  case h_2 hrejected => cases h.symm.trans hrejected

theorem sample_of_rejected (h : value? zone sides source.word = none) :
    sample zone sides source =
      { sample zone sides source.next with
        used := (sample zone sides source.next).used + 1 } := by
  rw [sample]
  split
  case h_1 value haccepted => cases h.symm.trans haccepted
  case h_2 => rfl

theorem IsSampled.of_next {draw : Draw Generator} {rejected : Nat}
    (h : value? zone sides source.word = none)
    (hnext : IsSampled zone sides source.next draw rejected) :
    IsSampled zone sides source { draw with used := draw.used + 1 } (rejected + 1) where
  rejects index hindex := by
    cases index with
    | zero => exact h
    | succ index => exact hnext.rejects index (Nat.lt_of_succ_lt_succ hindex)
  accepts := hnext.accepts
  rest_eq := hnext.rest_eq
  used_eq := congrArg (· + 1) hnext.used_eq

end

theorem exists_isSampled (zone : Nat) (sides : Sides) (source : Generator) :
    ∃ rejected, IsSampled zone sides source (sample zone sides source) rejected := by
  induction source using sample.induct zone sides with
  | case1 source value haccepted =>
      rw [sample_of_accepted haccepted]
      exact ⟨0, fun index hindex => absurd hindex (Nat.not_lt_zero index), haccepted, rfl, rfl⟩
  | case2 source hrejected ih =>
      obtain ⟨rejected, hsampled⟩ := ih
      rw [sample_of_rejected hrejected]
      exact ⟨rejected + 1, hsampled.of_next hrejected⟩

/--
A die that stands alone and a die of a sum take the value of the first word that
their zones accept.  Each zone accepts words for numbers of the sides only, and
the same number of words for each of them, although there are words that one zone
accepts and the other does not.
-/
theorem generated_dice_are_fair :
    (∀ (sides : Sides) (source : Generator),
      (∃ rejected,
        IsSampled (singleZone sides) sides source (Source.single sides source) rejected) ∧
      ∃ rejected,
        IsSampled (summandZone sides) sides source (Source.summand sides source) rejected) ∧
    (∀ sides : Sides, IsFair (singleZone sides) sides (2 ^ (63 - sides.count.log2)) ∧
      IsFair (summandZone sides) sides (UInt64.size / sides.count)) ∧
    ∃ (sides : Sides) (word : UInt64), value? (singleZone sides) sides word = none ∧
      value? (summandZone sides) sides word ≠ none := by
  refine ⟨fun sides source => ⟨exists_isSampled _ sides source, exists_isSampled _ sides source⟩,
    fun sides => ⟨?_, ?_⟩, ⟨⟨6, by decide, by decide⟩, 3074457345618258601, ?_, ?_⟩⟩
  · exact isFair_of_length (singleZone_length sides) (singleZone_lt sides)
  · exact isFair_of_length (summandZone_length sides) (summandZone_lt sides)
  · decide
  · decide

end DiceNotation.Generator
