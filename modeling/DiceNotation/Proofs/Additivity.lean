import DiceNotation.Proofs.Bounds
import DiceNotation.Proofs.DiceText
import DiceNotation.Proofs.Evaluation
import DiceNotation.Proofs.Writing

/-!
# Sums in two parts

To throw some dice and then some others of as many sides is to throw all of them
at once: the same values are taken, in the same order, and their sums add up.  So
it makes no difference whether a text names them together or apart.
-/

namespace DiceNotation

variable {σ : Type}

namespace Table

theorem counting_add (table : Table σ) (dice more : Nat) :
    table.counting (dice + more) = (table.counting dice).counting more := by
  simp only [counting, Nat.add_assoc]

theorem isWithin_counting_of_le {table : Table σ} {dice more : Nat}
    (h : (table.counting more).IsWithin) (hle : dice ≤ more) :
    (table.counting dice).IsWithin := by
  have hrolls : table.rolls + dice ≤ table.rolls + more := Nat.add_le_add_left hle _
  exact ⟨hrolls.trans_lt h.1, fun budget hbudget => hrolls.trans (h.2 budget hbudget)⟩

variable [Source σ]

theorem behindValues_add (table : Table σ) (draw : σ → Draw σ) (taken more : Nat) :
    table.behindValues draw (taken + more) =
      (table.behindValues draw taken).behindValues draw more := by
  induction more with
  | zero => rfl
  | succ more ih => rw [← Nat.add_assoc, behindValues, ih, ← behindValues]

theorem budget?_behindValues (table : Table σ) (draw : σ → Draw σ) (taken : Nat) :
    (table.behindValues draw taken).budget? = table.budget? := by
  induction taken with
  | zero => rfl
  | succ taken ih => exact ih

theorem isWithin_behindValues {table : Table σ} {draw : σ → Draw σ} {taken dice : Nat} :
    ((table.behindValues draw taken).counting dice).IsWithin ↔
      (table.counting dice).IsWithin := by
  unfold IsWithin counting
  rw [rolls_behindValues, budget?_behindValues]

theorem isCancelled_eq_false_of_behindValues {table : Table σ} {draw : σ → Draw σ} {taken : Nat}
    (h : (table.behindValues draw taken).isCancelled = false) : table.isCancelled = false := by
  induction taken with
  | zero => exact h
  | succ taken ih =>
      apply ih
      rw [← Bool.not_eq_true] at h ⊢
      exact fun hraised => h (isCancelled_accept _ hraised)

theorem sum_add (table : Table σ) (sides : Sides) (count more : Nat) :
    table.sum sides (count + more) =
      table.sum sides count +
        (table.behindValues (Source.summand sides) count).sum sides more := by
  unfold sum
  rw [Finset.sum_range_add]
  refine congrArg _ (Finset.sum_congr rfl fun index _ => ?_)
  rw [summand_eq, summand_eq, value, value, behindValues_add]

/-- What it takes for a sum to come to a total, if the flag does not go up. -/
structure SumsTo (table : Table σ) (size : Sides) (count : Nat) (total : Int) (behind : Table σ) :
    Prop where
  isWithin : (table.counting count).IsWithin
  sum_eq : (table.sum size count : Int) = total
  behind_eq : behind = (table.behindValues (Source.summand size) count).counting count

theorem sumsTo_add_iff {table behind : Table σ} {size : Sides} {count more : Nat} {total : Int} :
    table.SumsTo size (count + more) total behind ↔
      ∃ x y between, table.SumsTo size count x between ∧ between.SumsTo size more y behind ∧
        x + y = total := by
  have hbetween : ∀ dice : Nat,
      (((table.behindValues (Source.summand size) count).counting count).counting dice).IsWithin ↔
        (table.counting (count + dice)).IsWithin := by
    intro dice
    rw [← counting_add, isWithin_behindValues]
  have hbehind : (((table.behindValues (Source.summand size) count).counting count).behindValues
      (Source.summand size) more).counting more =
        (table.behindValues (Source.summand size) (count + more)).counting (count + more) := by
    rw [behindValues_counting, ← counting_add, ← behindValues_add]
  constructor
  · rintro ⟨hwithin, hsum, rfl⟩
    rw [sum_add, Int.natCast_add] at hsum
    refine ⟨_, _, _, ⟨isWithin_counting_of_le hwithin (Nat.le_add_right _ _), rfl, rfl⟩,
      ⟨(hbetween more).2 hwithin, ?_, hbehind.symm⟩, hsum⟩
    rw [sum_counting]
  · rintro ⟨x, y, between, ⟨-, rfl, rfl⟩, ⟨hwithin, rfl, rfl⟩, rfl⟩
    refine ⟨(hbetween more).1 hwithin, ?_, hbehind⟩
    rw [sum_counting, sum_add, Int.natCast_add]

end Table

variable [Source σ]

namespace Dice

theorem Accepted.effect_standard {count sides : Int64} {size : Sides} {table : Table σ}
    (h : (standard count sides).Accepted table size)
    (hfree : (table.behindValues (Source.summand size) count.toInt.toNat).isCancelled = false)
    (hfits : (table.sum size count.toInt.toNat : Int) ≤ Int64.maxValue.toInt) :
    (standard count sides).roll.effect table =
      (.ok (Int64.ofNat (table.sum size count.toInt.toNat)),
        (table.behindValues (Source.summand size) count.toInt.toNat).counting
          count.toInt.toNat) := by
  have hstops : ∀ index < count.toInt.toNat,
      ¬(table.counting count.toInt.toNat).StopsAt size index := by
    rintro index hindex ⟨-, -, hraised⟩
    -- A flag that is up at some value is up behind the last one.
    have hlast := Table.isCancelled_behindSummands_mono hraised (Nat.succ_le_of_lt hindex)
    rw [Table.behindSummands_eq, Table.behindValues_counting] at hlast
    exact Bool.eq_false_iff.1 hfree hlast
  have hend : (Roll.addDice size 0 count.toInt.toNat 0).EndsBehind
      ⟨table.counting count.toInt.toNat, #[]⟩ _ _ _ :=
    Roll.addDice_endsBehind_total hstops (by rw [Table.sum_counting]; omega)
  have hroll := (endsBehind_ok ⟨table, #[]⟩ h hend).effect_eq
  rw [hroll, Table.sum_counting, Table.behindSummands_eq, Table.behindValues_counting]

theorem effect_standard_eq_ok_iff {count sides total : Int64} {size : Sides}
    {table behind : Table σ} (hcount : 0 ≤ count.toInt) (hsize : Sides.ofInt? sides = some size)
    (hfree : behind.isCancelled = false) :
    (standard count sides).roll.effect table = (.ok total, behind) ↔
      table.SumsTo size count.toInt.toNat total.toInt behind := by
  constructor
  · intro hroll
    rcases (standard count sides).refused_or_accepted table with ⟨error, hrefused⟩ | ⟨_, haccepted⟩
    · cases hrefused.effect_eq.symm.trans hroll
    · obtain rfl := Option.some.inj (haccepted.ofInt?_eq.symm.trans hsize)
      obtain ⟨_, _, heffect, hresult⟩ := haccepted.effect_eq
      cases heffect.symm.trans hroll
      cases hresult with
      | total htotal => exact ⟨haccepted.isWithin, htotal.symm, rfl⟩
  · rintro ⟨hwithin, hsum, rfl⟩
    have hfits := hsum.trans_le total.toInt_le
    have haccepted : (standard count sides).Accepted table size :=
      ⟨Table.isCancelled_eq_false_of_behindValues hfree, hsize, fun _ => hcount, hwithin⟩
    have htotal : Int64.ofNat (table.sum size count.toInt.toNat) = total :=
      Int64.toInt_inj.1 ((toInt_ofNat hfits).trans hsum)
    rw [haccepted.effect_standard hfree hfits, htotal]

section

variable {a b whole sides total : Int64} {table behind : Table σ} (ha : 0 ≤ a.toInt)
  (hb : 0 ≤ b.toInt) (hwhole : whole.toInt = a.toInt + b.toInt) (hsides : 1 ≤ sides.toInt)
  (hfree : behind.isCancelled = false)

include ha hb hwhole hsides hfree

theorem effect_standard_add_iff :
    (standard whole sides).roll.effect table = (.ok total, behind) ↔
      ∃ x y between, (standard a sides).roll.effect table = (.ok x, between) ∧
        (standard b sides).roll.effect between = (.ok y, behind) ∧
        x.toInt + y.toInt = total.toInt := by
  obtain ⟨size, hsize, -⟩ := Sides.exists_of_one_le hsides
  have hcount : whole.toInt.toNat = a.toInt.toNat + b.toInt.toNat := by omega
  rw [effect_standard_eq_ok_iff (by omega) hsize hfree, hcount, Table.sumsTo_add_iff]
  constructor
  · rintro ⟨x, y, between, hx, hy, hsum⟩
    have hbetween : between.isCancelled = false := by
      rw [hy.behind_eq] at hfree
      exact Table.isCancelled_eq_false_of_behindValues hfree
    have hmin := Int64.toInt_minValue
    have htotal := total.toInt_le
    -- Neither part is below zero, so none is above the whole.
    have hnarrow : (Int64.minValue.toInt ≤ x ∧ x ≤ Int64.maxValue.toInt) ∧
        (Int64.minValue.toInt ≤ y ∧ y ≤ Int64.maxValue.toInt) := by
      have hx := hx.sum_eq
      have hy := hy.sum_eq
      omega
    obtain ⟨x, rfl⟩ := exists_toInt_eq hnarrow.1
    obtain ⟨y, rfl⟩ := exists_toInt_eq hnarrow.2
    exact ⟨x, y, between, (effect_standard_eq_ok_iff ha hsize hbetween).2 hx,
      (effect_standard_eq_ok_iff hb hsize hfree).2 hy, hsum⟩
  · rintro ⟨x, y, between, hx, hy, hsum⟩
    have hbetween := Roll.isCancelled_eq_false_of_effect hy hfree
    exact ⟨_, _, between, (effect_standard_eq_ok_iff ha hsize hbetween).1 hx,
      (effect_standard_eq_ok_iff hb hsize hfree).1 hy, hsum⟩

end

theorem isFree_of_effect {dice : Dice} {table behind : Table σ} {total : Int64}
    (h : dice.roll.effect table = (.ok total, behind)) : table.isCancelled = false :=
  (Roll.effect_checked_eq_ok_iff.1 h).1

theorem matches_text {count sides : Int64} (hcount : 0 ≤ count.toInt) (hsides : 0 ≤ sides.toInt) :
    TokenKind.dice.Matches (standard count sides).text.toList := by
  have hwrite : ∀ {number : Int64}, 0 ≤ number.toInt →
      Numeral.IsDigits (Numeral.write number).toList := by
    intro number hnumber
    rw [Numeral.write, if_neg (Int.not_lt.2 hnumber)]
    exact Numeral.isDigits_repr _
  have htext : (standard count sides).text.toList =
      (Numeral.write count).toList ++ 'd' :: (Numeral.write sides).toList := by
    simp [text, standard]
  rw [htext]
  exact .standard (hwrite hcount) ⟨'d', _, rfl, rfl, hwrite hsides⟩

theorem read_text (count sides : Int64) :
    read (standard count sides).text = .ok (standard count sides) :=
  read_eq_standard_iff.2 (spellsStandard_text count sides)

end Dice

/-! ## Texts of one and of two leaves -/

theorem read_leaf {leaf : String} (h : TokenKind.dice.Matches leaf.toList) :
    Expression.read leaf = .ok (.ofTerm (.ofAtom (.dice leaf))) := by
  have hspaced := @Spaced.cons [] _ _ (by simp) ⟨.dice, leaf⟩ (@Spaced.nil [] (by simp))
  have hderives : (Tree.ofTerm (.ofAtom (.dice leaf))).Derives [⟨.dice, leaf⟩] :=
    ⟨h, .ofTerm (.ofAtom (.dice leaf))⟩
  refine hderives.read_spaced ?_
  rw [List.append_nil] at hspaced
  exact hspaced

theorem read_two_leaves {left right : String} (hleft : TokenKind.dice.Matches left.toList)
    (hright : TokenKind.dice.Matches right.toList) :
    Expression.read (left ++ " + " ++ right) =
      .ok (.plus (.ofTerm (.ofAtom (.dice left))) .add (.ofAtom (.dice right))) := by
  have hspaced := @Spaced.cons [] _ _ (by simp) ⟨.dice, left⟩
    (@Spaced.cons [' '] _ _ (by simp) (.ofOperator .add)
      (@Spaced.cons [' '] _ _ (by simp) ⟨.dice, right⟩ (@Spaced.nil [] (by simp))))
  have hderives : (Tree.plus (.ofTerm (.ofAtom (.dice left))) .add (.ofAtom (.dice right))).Derives
      [⟨.dice, left⟩, .ofOperator .add, ⟨.dice, right⟩] :=
    ⟨⟨hleft, rfl, hright⟩, .plus .add (.ofTerm (.ofAtom (.dice left))) (.ofAtom (.dice right))⟩
  refine hderives.read_spaced ?_
  rw [String.toList_append, String.toList_append, List.append_assoc]
  rw [List.append_nil] at hspaced
  exact hspaced

theorem rollText_eq_ok_iff {text : String} {tree : Expression} {table behind : Table σ}
    {total : Int64} (h : Expression.read text = .ok tree) :
    ((rollText text table).1 = .ok total ∧ (rollText text table).2.table = behind) ↔
      tree.roll.effect table = (.ok total, behind) := by
  rw [rollText_of_read h, Roll.effect, mapError_eq_ok_iff, Prod.mk.injEq]

namespace Tree

section

variable {text : String} {dice : Dice} {table behind : Table σ} {total : Int64}
  (h : Dice.read text = .ok dice)

include h

theorem effect_term_eq_ok_iff :
    (ofAtom (.dice text)).roll.effect table = (.ok total, behind) ↔
      dice.roll.effect table = (.ok total, behind) := by
  change (Roll.check >>= fun _ => Roll.leaf text).effect table = _ ↔ _
  rw [Roll.effect_checked_eq_ok_iff, Dice.effect_leaf_of_read h]
  exact and_iff_right_of_imp Dice.isFree_of_effect

theorem effect_expression_eq_ok_iff :
    (ofTerm (.ofAtom (.dice text))).roll.effect table = (.ok total, behind) ↔
      dice.roll.effect table = (.ok total, behind) := by
  change (Roll.check >>= fun _ => (ofAtom (.dice text)).roll).effect table = _ ↔ _
  rw [Roll.effect_checked_eq_ok_iff, effect_term_eq_ok_iff h]
  exact and_iff_right_of_imp Dice.isFree_of_effect

end

theorem effect_two_leaves_eq_ok_iff {left right : String} {first second : Dice}
    {table behind : Table σ} {total : Int64} (hleft : Dice.read left = .ok first)
    (hright : Dice.read right = .ok second) :
    (plus (.ofTerm (.ofAtom (.dice left))) .add (.ofAtom (.dice right))).roll.effect table =
        (.ok total, behind) ↔
      ∃ x y between, first.roll.effect table = (.ok x, between) ∧
        second.roll.effect between = (.ok y, behind) ∧ x.toInt + y.toInt = total.toInt := by
  refine Roll.effect_chain_eq_ok_iff.trans ?_
  simp only [effect_expression_eq_ok_iff hleft, effect_term_eq_ok_iff hright, Operator.value?,
    Option.some.injEq]
  constructor
  · rintro ⟨x, between, y, hx, -, hy, hsum⟩
    exact ⟨x, y, between, hx, hy, hsum⟩
  · rintro ⟨x, y, between, hx, hy, hsum⟩
    exact ⟨x, between, y, hx, Dice.isFree_of_effect hy, hy, hsum⟩

end Tree

namespace Dice

/--
The dice of a sum come to a total, with the flag of the table down behind them, if
and only if two parts of them, thrown one after the other, come to totals that add
up to it, and the table behind them is the same.  So it is with the text that names
all the dice and the one that names the two parts.
-/
theorem sums_add_up (a b whole sides : Int64) (ha : 0 ≤ a.toInt) (hb : 0 ≤ b.toInt)
    (hwhole : whole.toInt = a.toInt + b.toInt) (hsides : 1 ≤ sides.toInt)
    (table behind : Table σ) (total : Int64) (hfree : behind.isCancelled = false) :
    ((standard whole sides).roll.effect table = (.ok total, behind) ↔
      ∃ x y between, (standard a sides).roll.effect table = (.ok x, between) ∧
        (standard b sides).roll.effect between = (.ok y, behind) ∧
        x.toInt + y.toInt = total.toInt) ∧
    let apart := rollText ((standard a sides).text ++ " + " ++ (standard b sides).text) table
    let together := rollText (standard whole sides).text table
    (apart.1 = .ok total ∧ apart.2.table = behind ↔
      together.1 = .ok total ∧ together.2.table = behind) := by
  refine ⟨effect_standard_add_iff ha hb hwhole hsides hfree, ?_⟩
  have hmatches : ∀ count : Int64, 0 ≤ count.toInt →
      TokenKind.dice.Matches (standard count sides).text.toList :=
    fun count hcount => matches_text hcount (Int.le_of_lt hsides)
  have hapart := read_two_leaves (hmatches a ha) (hmatches b hb)
  have htogether := read_leaf (hmatches whole (by omega))
  intro apart together
  rw [rollText_eq_ok_iff hapart, rollText_eq_ok_iff htogether,
    Tree.effect_two_leaves_eq_ok_iff (read_text a sides) (read_text b sides),
    Tree.effect_expression_eq_ok_iff (read_text whole sides)]
  exact (effect_standard_add_iff ha hb hwhole hsides hfree).symm

private def climbing : Table Counting := .fresh (some 5) ⟨3, 1⟩

private def climbed : Table Counting := { climbing with rolls := 5, source := ⟨8, 1⟩ }

theorem sums_add_up_climbing :
    (∃ x y between, (standard 2 6).roll.effect climbing = (.ok x, between) ∧
      (standard 3 6).roll.effect between = (.ok y, climbed) ∧ x.toInt + y.toInt = 19) ∧
    (rollText ((standard 2 6).text ++ " + " ++ (standard 3 6).text) climbing).1 = .ok 19 := by
  have hclaim := sums_add_up 2 3 5 6 (by decide) (by decide) (by decide) (by decide) climbing
    climbed 19 rfl
  have htogether : (rollText (standard 5 6).text climbing).1 = .ok 19 ∧
      (rollText (standard 5 6).text climbing).2.table = climbed := by
    decide +kernel
  exact ⟨hclaim.1.1 rfl, (hclaim.2.2 htogether).1⟩

end Dice

end DiceNotation
