import DiceNotation.Roll.Effect
import DiceNotation.Source.Counting
import DiceNotation.Tree.Value

/-!
# Rolling and calculating

To roll a tree is to roll its dice from left to right and to work out what is
left of the tree when the totals of the dice take their places.  The checks for
cancellation between the operands are all that can tell the two apart, and they
fail only if the flag of the table is raised.
-/

namespace DiceNotation

variable {σ : Type} [Source σ]

namespace Roll

theorem effect_leaves_cons_eq_ok_iff {text : String} {texts : List String}
    {table behind : Table σ} {totals : List Int64} :
    (leaves (text :: texts)).effect table = (.ok totals, behind) ↔
      ∃ total between rest, (leaf text).effect table = (.ok total, between) ∧
        (leaves texts).effect between = (.ok rest, behind) ∧ total :: rest = totals := by
  simp only [leaves, effect_bind_eq_ok_iff, effect_pure, Prod.mk.injEq, Except.ok.injEq]
  constructor
  · rintro ⟨total, between, htotal, rest, _, hrest, htotals, rfl⟩
    exact ⟨total, between, rest, htotal, hrest, htotals⟩
  · rintro ⟨total, between, rest, htotal, hrest, htotals⟩
    exact ⟨total, between, htotal, rest, behind, hrest, htotals, rfl⟩

theorem length_of_effect_leaves {texts : List String} {table behind : Table σ}
    {totals : List Int64} (h : (leaves texts).effect table = (.ok totals, behind)) :
    totals.length = texts.length := by
  induction texts generalizing table totals with
  | nil =>
      cases h
      rfl
  | cons text texts ih =>
      obtain ⟨total, between, rest, -, hrest, rfl⟩ := effect_leaves_cons_eq_ok_iff.1 h
      rw [List.length_cons, List.length_cons, ih hrest]

theorem effect_leaves_append_eq_ok_iff {before after : List String} {table behind : Table σ}
    {totals : List Int64} :
    (leaves (before ++ after)).effect table = (.ok totals, behind) ↔
      ∃ first between second, (leaves before).effect table = (.ok first, between) ∧
        (leaves after).effect between = (.ok second, behind) ∧ first ++ second = totals := by
  induction before generalizing table totals with
  | nil =>
      constructor
      · exact fun h => ⟨[], table, totals, rfl, h, rfl⟩
      · rintro ⟨_, _, second, ⟨⟩, hsecond, rfl⟩
        exact hsecond
  | cons text before ih =>
      simp only [List.cons_append, effect_leaves_cons_eq_ok_iff, ih]
      constructor
      · rintro ⟨total, mid, _, htotal, ⟨first, between, second, hfirst, hsecond, rfl⟩, rfl⟩
        exact ⟨total :: first, between, second, ⟨total, mid, first, htotal, hfirst, rfl⟩,
          hsecond, rfl⟩
      · rintro ⟨_, between, second, ⟨total, mid, first, htotal, hfirst, rfl⟩, hsecond, rfl⟩
        exact ⟨total, mid, first ++ second, htotal, ⟨first, between, second, hfirst, hsecond, rfl⟩,
          rfl⟩

theorem effect_chain_eq_ok_iff {left right : Roll σ Int64} {op : Operator}
    {table behind : Table σ} {total : Int64} :
    (left >>= fun value => operand value op right).effect table = (.ok total, behind) ↔
      ∃ a between b, left.effect table = (.ok a, between) ∧ between.isCancelled = false ∧
        right.effect between = (.ok b, behind) ∧
          op.value? a.toInt b.toInt = some total.toInt := by
  simp only [effect_bind_eq_ok_iff, operand, effect_check_eq_ok_iff, effect_record,
    effect_ofExcept, Prod.mk.injEq, Operator.apply_eq_ok_iff]
  constructor
  · rintro ⟨a, between, ha, -, _, ⟨hfree, rfl⟩, b, _, hb, -, _, ⟨-, rfl⟩, hvalue, rfl⟩
    exact ⟨a, between, b, ha, hfree, hb, hvalue⟩
  · rintro ⟨a, between, b, ha, hfree, hb, hvalue⟩
    exact ⟨a, between, ha, (), between, ⟨hfree, rfl⟩, b, behind, hb, (), behind, ⟨trivial, rfl⟩,
      hvalue, rfl⟩

/-- `IsLeft` and `IsRight` say which values the operands have when the totals of dice are known. -/
theorem leaves_of_chain {left right : Roll σ Int64} {op : Operator} {before after : List String}
    {IsLeft IsRight : List Int64 → Int → Prop} {table behind : Table σ} {total : Int64}
    (hleft : ∀ {table behind total}, left.effect table = (.ok total, behind) →
      ∃ totals, (leaves before).effect table = (.ok totals, behind) ∧ IsLeft totals total.toInt)
    (hright : ∀ {table behind total}, right.effect table = (.ok total, behind) →
      ∃ totals, (leaves after).effect table = (.ok totals, behind) ∧ IsRight totals total.toInt)
    (h : (left >>= fun value => operand value op right).effect table = (.ok total, behind)) :
    ∃ first second a b, (leaves (before ++ after)).effect table = (.ok (first ++ second), behind) ∧
      first.length = before.length ∧ IsLeft first a ∧ IsRight second b ∧
        op.value? a b = some total.toInt := by
  obtain ⟨a, between, b, ha, -, hb, hop⟩ := effect_chain_eq_ok_iff.1 h
  obtain ⟨first, hfirst, hisLeft⟩ := hleft ha
  obtain ⟨second, hsecond, hisRight⟩ := hright hb
  have hrow : (leaves (before ++ after)).effect table = (.ok (first ++ second), behind) :=
    effect_leaves_append_eq_ok_iff.2 ⟨first, between, second, hfirst, hsecond, rfl⟩
  exact ⟨first, second, a.toInt, b.toInt, hrow, length_of_effect_leaves hfirst, hisLeft, hisRight,
    hop⟩

theorem chain_of_leaves {left right : Roll σ Int64} {before after : List String}
    {IsLeft IsRight : List Int64 → Int → Prop} {table behind : Table σ} {totals : List Int64}
    (hleft : ∀ {table behind totals value}, (leaves before).effect table = (.ok totals, behind) →
      behind.isCancelled = false → IsLeft totals value →
        ∃ total, left.effect table = (.ok total, behind) ∧ total.toInt = value)
    (hright : ∀ {table behind totals value}, (leaves after).effect table = (.ok totals, behind) →
      behind.isCancelled = false → IsRight totals value →
        ∃ total, right.effect table = (.ok total, behind) ∧ total.toInt = value)
    (hrow : (leaves (before ++ after)).effect table = (.ok totals, behind))
    (hfree : behind.isCancelled = false) :
    ∃ first second, first ++ second = totals ∧ first.length = before.length ∧
      ∀ {op a b value}, IsLeft first a → IsRight second b → Operator.value? op a b = some value →
        Int64.minValue.toInt ≤ value ∧ value ≤ Int64.maxValue.toInt →
          ∃ total, (left >>= fun value => operand value op right).effect table =
            (.ok total, behind) ∧ total.toInt = value := by
  obtain ⟨first, between, second, hfirst, hsecond, htotals⟩ :=
    effect_leaves_append_eq_ok_iff.1 hrow
  refine ⟨first, second, htotals, length_of_effect_leaves hfirst, ?_⟩
  intro op a b value hisLeft hisRight hop hnarrow
  have hbetween := isCancelled_eq_false_of_effect hsecond hfree
  obtain ⟨x, hx, rfl⟩ := hleft hfirst hbetween hisLeft
  obtain ⟨y, hy, rfl⟩ := hright hsecond hfree hisRight
  obtain ⟨total, rfl⟩ := exists_toInt_eq hnarrow
  exact ⟨total, effect_chain_eq_ok_iff.2 ⟨x, between, y, hx, hbetween, hy, hop⟩, rfl⟩

end Roll

namespace Tree

theorem leaves_of_roll {level : Level} {tree : Tree level} {table behind : Table σ}
    {total : Int64} (h : tree.roll.effect table = (.ok total, behind)) :
    ∃ totals, (Roll.leaves tree.leaves).effect table = (.ok totals, behind) ∧
      (tree.fill totals).HasValue total.toInt := by
  induction tree generalizing table behind total with
  | int value =>
      cases h
      exact ⟨[], rfl, .int _⟩
  | dice text =>
      exact ⟨[total], Roll.effect_leaves_cons_eq_ok_iff.2 ⟨total, behind, [], h, rfl, rfl⟩,
        .int total⟩
  | group inner ih =>
      obtain ⟨totals, hleaves, hvalue⟩ := ih h
      exact ⟨totals, hleaves, .group hvalue⟩
  | ofAtom atom ih =>
      obtain ⟨-, hatom⟩ := Roll.effect_checked_eq_ok_iff.1 h
      obtain ⟨totals, hleaves, hvalue⟩ := ih hatom
      exact ⟨totals, hleaves, .ofAtom hvalue⟩
  | ofTerm term ih =>
      obtain ⟨-, hterm⟩ := Roll.effect_checked_eq_ok_iff.1 h
      obtain ⟨totals, hleaves, hvalue⟩ := ih hterm
      exact ⟨totals, hleaves, .ofTerm hvalue⟩
  | times left op right ihl ihr =>
      obtain ⟨first, second, a, b, hrow, hlength, hleft, hright, hop⟩ :=
        Roll.leaves_of_chain ihl ihr h
      refine ⟨first ++ second, hrow, ?_⟩
      rw [fill_times hlength]
      exact .times hleft hright hop ⟨total.minValue_le_toInt, total.toInt_le⟩
  | plus left op right ihl ihr =>
      obtain ⟨first, second, a, b, hrow, hlength, hleft, hright, hop⟩ :=
        Roll.leaves_of_chain ihl ihr h
      refine ⟨first ++ second, hrow, ?_⟩
      rw [fill_plus hlength]
      exact .plus hleft hright hop ⟨total.minValue_le_toInt, total.toInt_le⟩

theorem roll_of_leaves {level : Level} {tree : Tree level} {table behind : Table σ}
    {totals : List Int64} {value : Int}
    (hleaves : (Roll.leaves tree.leaves).effect table = (.ok totals, behind))
    (hfree : behind.isCancelled = false) (hvalue : (tree.fill totals).HasValue value) :
    ∃ total, tree.roll.effect table = (.ok total, behind) ∧ total.toInt = value := by
  induction tree generalizing table behind totals value with
  | int number =>
      cases hleaves
      cases hvalue
      exact ⟨number, rfl, rfl⟩
  | dice text =>
      obtain ⟨total, _, _, htotal, hrest, rfl⟩ := Roll.effect_leaves_cons_eq_ok_iff.1 hleaves
      cases hrest
      cases hvalue
      exact ⟨total, htotal, rfl⟩
  | group inner ih =>
      cases hvalue with
      | group hinner => exact ih hleaves hfree hinner
  | ofAtom atom ih =>
      cases hvalue with
      | ofAtom hatom =>
          obtain ⟨total, htotal, hexact⟩ := ih hleaves hfree hatom
          have hstart := Roll.isCancelled_eq_false_of_effect hleaves hfree
          exact ⟨total, Roll.effect_checked_eq_ok_iff.2 ⟨hstart, htotal⟩, hexact⟩
  | ofTerm term ih =>
      cases hvalue with
      | ofTerm hterm =>
          obtain ⟨total, htotal, hexact⟩ := ih hleaves hfree hterm
          have hstart := Roll.isCancelled_eq_false_of_effect hleaves hfree
          exact ⟨total, Roll.effect_checked_eq_ok_iff.2 ⟨hstart, htotal⟩, hexact⟩
  | times left op right ihl ihr =>
      obtain ⟨first, second, rfl, hlength, hchain⟩ := Roll.chain_of_leaves ihl ihr hleaves hfree
      rw [fill_times hlength] at hvalue
      cases hvalue with
      | times hleft hright hop hnarrow => exact hchain hleft hright hop hnarrow
  | plus left op right ihl ihr =>
      obtain ⟨first, second, rfl, hlength, hchain⟩ := Roll.chain_of_leaves ihl ihr hleaves hfree
      rw [fill_plus hlength] at hvalue
      cases hvalue with
      | plus hleft hright hop hnarrow => exact hchain hleft hright hop hnarrow

/--
If a tree comes to a total, so do its dice, one after the other, with the same
table behind them, and the total is the exact value of the tree in which theirs
take their places.  Conversely, if the dice come to totals and the flag is down
behind them, so that it was never up, the tree comes to the value of what is left
of it, if there is one.
-/
theorem roll_substitutes_leaves {level : Level} (tree : Tree level) (table behind : Table σ) :
    (∀ total, tree.roll.effect table = (.ok total, behind) →
      ∃ totals, (Roll.leaves tree.leaves).effect table = (.ok totals, behind) ∧
        (tree.fill totals).HasValue total.toInt) ∧
    ∀ totals value, (Roll.leaves tree.leaves).effect table = (.ok totals, behind) →
      behind.isCancelled = false → (tree.fill totals).HasValue value →
        ∃ total, tree.roll.effect table = (.ok total, behind) ∧ total.toInt = value := by
  constructor
  · intro total h
    exact leaves_of_roll h
  · intro totals value hleaves hfree hvalue
    exact roll_of_leaves hleaves hfree hvalue

private def quotient : Term :=
  .times
    (.times
      (.ofAtom (.group (.plus (.ofTerm (.ofAtom (.dice "2d20"))) .sub (.ofAtom (.int 30)))))
      .mul (.dice "1d6"))
    .div (.int 4)

private def counted (rolls : Nat) (current : UInt64) : Table Counting :=
  ⟨some 3, rolls, ⟨current, 1⟩, ⟨#[false]⟩, 0⟩

theorem roll_substitutes_leaves_quotient :
    (quotient.fill [21, 6]).HasValue (-13) ∧
      (∃ totals, (Roll.leaves quotient.leaves).effect (counted 0 10) = (.ok totals, counted 3 13) ∧
        (quotient.fill totals).HasValue (-13)) ∧
      ∃ total, quotient.roll.effect (counted 0 10) = (.ok total, counted 3 13) ∧
        total.toInt = -13 := by
  have hsum : (Tree.plus (.ofTerm (.ofAtom (.int 21))) .sub (.ofAtom (.int 30))).HasValue (-9) :=
    .plus (.ofTerm (.ofAtom (.int 21))) (.ofAtom (.int 30)) rfl (by decide)
  have hproduct := HasValue.times (.ofAtom (.group hsum)) (.int 6)
    (show Operator.mul.value? (-9) 6 = some (-54) from rfl) (by decide)
  have hvalue : (quotient.fill [21, 6]).HasValue (-13) :=
    .times hproduct (.int 4) rfl (by decide)
  have htree : quotient.roll.effect (counted 0 10) = (.ok (-13), counted 3 13) := by rfl
  have hleaves : (Roll.leaves quotient.leaves).effect (counted 0 10) =
      (.ok [21, 6], counted 3 13) := by rfl
  have hclaim := roll_substitutes_leaves quotient (counted 0 10) (counted 3 13)
  exact ⟨hvalue, hclaim.1 (-13) htree, hclaim.2 [21, 6] (-13) hleaves rfl hvalue⟩

end Tree

end DiceNotation
