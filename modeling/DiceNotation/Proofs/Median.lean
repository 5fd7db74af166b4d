import DiceNotation.Proofs.Requests
import DiceNotation.Source.Cycle

/-!
# Middle dice

The middle one of three values is their median: two of them at least are not
above it, and two are not below it.  Middle dice take three values in any case,
and come to the median unless it is too wide.
-/

namespace DiceNotation

/-- One of three values, with two of them up to it and two from it on. -/
structure IsMedian (m : Nat) (values : List Nat) : Prop where
  mem : m ∈ values
  below : 2 ≤ values.countP (· ≤ m)
  above : 2 ≤ values.countP (m ≤ ·)

theorem countP_add_countP_le {values : List Nat} {p q : Nat → Bool}
    (h : ∀ v ∈ values, p v → q v = false) :
    values.countP p + values.countP q ≤ values.length := by
  rw [List.length_eq_countP_add_countP p]
  refine Nat.add_le_add_left (List.countP_mono_left ?_) _
  intro v hv hq
  simp only [decide_eq_true_eq]
  intro hp
  rw [h v hv hp] at hq
  cases hq

theorem le_of_countP {values : List Nat} {m n : Nat} (hlength : values.length = 3)
    (hbelow : 2 ≤ values.countP (· ≤ m)) (habove : 2 ≤ values.countP (n ≤ ·)) : n ≤ m := by
  by_contra hlt
  have hdisjoint : values.countP (· ≤ m) + values.countP (n ≤ ·) ≤ values.length := by
    refine countP_add_countP_le fun v _ hv => ?_
    simp only [decide_eq_true_eq, decide_eq_false_iff_not] at hv ⊢
    omega
  omega

theorem IsMedian.unique {values : List Nat} {m n : Nat} (hlength : values.length = 3)
    (hm : IsMedian m values) (hn : IsMedian n values) : m = n :=
  Nat.le_antisymm (le_of_countP hlength hn.below hm.above)
    (le_of_countP hlength hm.below hn.above)

theorem IsMedian.perm {values others : List Nat} {m : Nat} (h : IsMedian m values)
    (hperm : others.Perm values) : IsMedian m others where
  mem := hperm.mem_iff.2 h.mem
  below := by rw [hperm.countP_eq]; exact h.below
  above := by rw [hperm.countP_eq]; exact h.above

theorem IsMedian.eq_greatest_iff {values : List Nat} {m top : Nat} (h : IsMedian m values)
    (hlength : values.length = 3) (htop : top ∈ values) (hgreatest : ∀ v ∈ values, v ≤ top) :
    m = top ↔ 2 ≤ values.count top := by
  have hcount : values.count top = values.countP (top ≤ ·) := by
    refine List.countP_congr fun v hv => ?_
    have hle := hgreatest v hv
    simp only [beq_iff_eq, decide_eq_true_eq]
    omega
  rw [hcount]
  constructor
  · rintro rfl
    exact h.above
  · intro habove
    exact Nat.le_antisymm (hgreatest m h.mem) (le_of_countP hlength h.below habove)

theorem isMedian_median (a b c : Nat) : IsMedian (Roll.median a b c) [a, b, c] := by
  refine ⟨?_, ?_, ?_⟩ <;> simp only [Roll.median, List.mem_cons, List.countP_cons] <;> grind

variable {σ : Type} [Source σ]

def Table.values (table : Table σ) (draw : σ → Draw σ) (count : Nat) : List Nat :=
  (List.range count).map (table.value draw)

namespace Dice

theorem Accepted.endsBehind_middle {dice : Dice} {sides : Sides} {m : Nat} (play : Play σ)
    (h : dice.Accepted play.table sides) (hmode : dice.mode = .middle)
    (hm : IsMedian m (play.table.values (Source.single sides) 3)) :
    ∃ log, dice.roll.EndsBehind play 3
      (if (m : Int) ≤ Int64.maxValue.toInt then .ok (Int64.ofNat m) else .error .overflow)
      ⟨(play.table.behindValues (Source.single sides) 3).counting dice.size, log⟩ := by
  have hmedian : m = Roll.median _ _ _ := hm.unique rfl (isMedian_median _ _ _)
  have htotal : (dice.total sides : Roll σ Nat) = Roll.throwMiddle sides := by
    rw [Dice.total, hmode]
  have hend :=
    Roll.throwMiddle_endsBehind { play with table := play.table.counting dice.size } sides
  simp only [Table.value_counting, Table.behindValues_counting, ← hmedian, ← htotal] at hend
  split
  case isTrue hfits =>
      rw [if_pos hfits] at hend
      exact ⟨_, h.endsBehind_ok play hend⟩
  case isFalse hwide =>
      rw [if_neg hwide] at hend
      exact ⟨_, h.endsBehind_error play hend⟩

theorem Accepted.effect_middle {dice : Dice} {table : Table σ} {sides : Sides} {m : Nat}
    (h : dice.Accepted table sides) (hmode : dice.mode = .middle)
    (hm : IsMedian m (table.values (Source.single sides) 3)) :
    (dice.roll.effect table).1 =
      if (m : Int) ≤ Int64.maxValue.toInt then .ok (Int64.ofNat m) else .error .overflow := by
  obtain ⟨_, hend⟩ := endsBehind_middle ⟨table, #[]⟩ h hmode hm
  rw [hend.effect_eq]

/--
Middle dice that are accepted take three values and come to the median of these,
whatever their count is, unless the median is too wide.  Neither a greater value
than the median nor a flag that goes up makes a difference, nor does the order of
the values.  The median is the greatest of them only if that is there twice, and
it has the bounds that the values have.
-/
theorem middle_dice_come_to_the_median (count sides : Int64) (play : Play σ)
    (hfree : play.table.isCancelled = false) (hsides : 1 ≤ sides.toInt)
    (hroom : (play.table.counting 3).IsWithin) :
    ∃ size : Sides, (size.count : Int) = sides.toInt ∧
      let dice : Dice := ⟨.middle, count, sides⟩
      let values := play.table.values (Source.single size) 3
      ∃ m behind, IsMedian m values ∧ (∀ other, IsMedian other values → other = m) ∧
        behind.table = (play.table.behindValues (Source.single size) 3).counting 3 ∧
        ((m : Int) ≤ Int64.maxValue.toInt →
          ∃ total : Int64, total.toInt = m ∧ dice.roll.EndsBehind play 3 (.ok total) behind) ∧
        (Int64.maxValue.toInt < m → dice.roll.EndsBehind play 3 (.error .overflow) behind) ∧
        (∀ source : σ,
          ({ play.table with source := source }.values (Source.single size) 3).Perm values →
            (dice.roll.effect { play.table with source := source }).1 =
              (dice.roll.effect play.table).1) ∧
        (∀ top ∈ values, (∀ v ∈ values, v ≤ top) → (m = top ↔ 2 ≤ values.count top)) ∧
        ((∀ v ∈ values, 1 ≤ v ∧ v ≤ size.count) → 1 ≤ m ∧ m ≤ size.count) := by
  obtain ⟨size, hsome, hsize⟩ := Sides.exists_of_one_le hsides
  refine ⟨size, hsize, ?_⟩
  intro dice values
  have haccepted : ∀ source : σ,
      dice.Accepted ({ play.table with source := source } : Table σ) size :=
    fun source => ⟨hfree, hsome, (fun hmode => by cases hmode), hroom⟩
  have hm : IsMedian _ values := isMedian_median _ _ _
  obtain ⟨log, hend⟩ := (haccepted play.table.source).endsBehind_middle play rfl hm
  refine ⟨_, ⟨_, log⟩, hm, fun other hother => hother.unique rfl hm, rfl, ?_, ?_, ?_, ?_, ?_⟩
  · intro hfits
    rw [if_pos hfits] at hend
    exact ⟨_, toInt_ofNat hfits, hend⟩
  · intro hwide
    rw [if_neg (Int.not_le.2 hwide)] at hend
    exact hend
  · intro source hperm
    rw [(haccepted source).effect_middle rfl (hm.perm hperm)]
    exact ((haccepted play.table.source).effect_middle rfl hm).symm
  · intro top htop hgreatest
    exact hm.eq_greatest_iff rfl htop hgreatest
  · exact fun hbounds => hbounds _ hm.mem

/-- The first value is the greatest there is, and the flag of the table goes up with it. -/
private def wild : Play (Fused Cycle) :=
  ⟨.fresh (some 3) ⟨⟨UInt64.size - 1, [4, 7], []⟩, 0, some 1, 0⟩, #[]⟩

theorem middle_dice_come_to_the_median_cancelled :
    ∃ behind, (Dice.mk .middle (-1) 9).roll.EndsBehind wild 3 (.ok 7) behind ∧
      behind.table.isCancelled = true := by
  have hroom : (wild.table.counting 3).IsWithin :=
    ⟨by decide, fun budget hbudget => by cases hbudget; decide⟩
  obtain ⟨size, -, m, behind, -, hunique, htable, hfits, -⟩ :=
    middle_dice_come_to_the_median (-1) 9 wild rfl (by decide) hroom
  have hseven : IsMedian 7 (wild.table.values (Source.single size) 3) := by
    change IsMedian 7 [UInt64.size - 1, 4, 7]
    exact ⟨by decide, by decide, by decide⟩
  obtain rfl := hunique 7 hseven
  obtain ⟨total, htotal, hend⟩ := hfits (by decide)
  obtain rfl : total = 7 := Int64.toInt_inj.1 htotal
  exact ⟨behind, hend, htable ▸ rfl⟩

end Dice

end DiceNotation
