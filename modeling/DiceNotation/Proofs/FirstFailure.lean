import DiceNotation.Proofs.Evaluation

/-!
# The first failure

A roll that fails has rolled some of the dice of its tree, from left to right,
and done nothing else to the table.  The last of these dice has failed, or a flag
is up behind them, or an operator has no 64-bit result for what they came to.
-/

namespace DiceNotation

namespace Tree

inductive Begins : {outer operand : Level} → Tree outer → Tree operand → Prop where
  | ofAtom (atom : Tree .atom) : Begins (.ofAtom atom) atom
  | ofTerm (term : Tree .product) : Begins (.ofTerm term) term

inductive Joins : {outer inner operand : Level} → Tree outer → Tree inner → Operator →
    Tree operand → Prop where
  | times (left : Tree .product) (op : Operator) (right : Tree .atom) :
      Joins (.times left op right) left op right
  | plus (left : Tree .sum) (op : Operator) (right : Tree .product) :
      Joins (.plus left op right) left op right

/-- Somewhere in the tree the operator is applied to operands with these values. -/
inductive Applies (op : Operator) (a b : Int) : {level : Level} → Tree level → Prop where
  | here {outer inner operand : Level} {tree : Tree outer} {left : Tree inner}
      {right : Tree operand} (hjoins : tree.Joins left op right) (hleft : left.HasValue a)
      (hright : right.HasValue b) : Applies op a b tree
  | left {outer inner operand : Level} {tree : Tree outer} {left : Tree inner} {other : Operator}
      {right : Tree operand} (hjoins : tree.Joins left other right)
      (hleft : left.Applies op a b) : Applies op a b tree
  | right {outer inner operand : Level} {tree : Tree outer} {left : Tree inner} {other : Operator}
      {right : Tree operand} (hjoins : tree.Joins left other right)
      (hright : right.Applies op a b) : Applies op a b tree
  | alone {outer operand : Level} {tree : Tree outer} {part : Tree operand}
      (hbegins : tree.Begins part) (hpart : part.Applies op a b) : Applies op a b tree
  | group {inner : Tree .sum} (hinner : inner.Applies op a b) : Applies op a b (.group inner)

namespace Begins

variable {outer operand : Level} {tree : Tree outer} {part : Tree operand}

theorem leaves_eq (h : tree.Begins part) : tree.leaves = part.leaves := by
  cases h <;> rfl

theorem roll_eq {σ : Type} [Source σ] (h : tree.Begins part) :
    (tree.roll : Roll σ Int64) = Roll.check >>= fun _ => part.roll := by
  cases h <;> rfl

theorem fill (h : tree.Begins part) (totals : List Int64) :
    (tree.fill totals).Begins (part.fill totals) := by
  cases h
  · exact .ofAtom _
  · exact .ofTerm _

theorem of_shape {other : Tree outer} (h : tree.Begins part) (hshape : other.shape = tree.shape) :
    ∃ single, other.Begins single ∧ single.shape = part.shape := by
  cases h
  all_goals
    cases other <;> simp only [shape, mapDice, reduceCtorEq, ofAtom.injEq, ofTerm.injEq] at hshape
  · exact ⟨_, .ofAtom _, hshape⟩
  · exact ⟨_, .ofTerm _, hshape⟩

end Begins

namespace Joins

variable {outer inner operand : Level} {tree : Tree outer} {left : Tree inner} {op : Operator}
  {right : Tree operand}

theorem leaves_eq (h : tree.Joins left op right) : tree.leaves = left.leaves ++ right.leaves := by
  cases h <;> rfl

theorem roll_eq {σ : Type} [Source σ] (h : tree.Joins left op right) :
    (tree.roll : Roll σ Int64) = left.roll >>= fun total => Roll.operand total op right.roll := by
  cases h <;> rfl

theorem outcome_of_ok {σ : Type} [Source σ] {play between : Play σ} {total : Int64}
    (h : tree.Joins left op right) (hleft : left.roll.outcome play = (.ok total, between)) :
    tree.roll.outcome play = (Roll.operand total op right.roll).outcome between := by
  rw [h.roll_eq, Roll.outcome_bind_of_ok hleft]

theorem outcome_of_error {σ : Type} [Source σ] {play behind : Play σ} {error : RollError}
    (h : tree.Joins left op right) (hleft : left.roll.outcome play = (.error error, behind)) :
    tree.roll.outcome play = (.error error, behind) := by
  rw [h.roll_eq, Roll.outcome_bind_of_error hleft]

theorem fill (h : tree.Joins left op right) (totals : List Int64) :
    (tree.fill totals).Joins (left.fill totals) op
      (right.fill (totals.drop left.leaves.length)) := by
  cases h
  · exact .times _ op _
  · exact .plus _ op _

theorem fill_append (h : tree.Joins left op right) {first : List Int64}
    (hfirst : first.length = left.leaves.length) (second : List Int64) :
    (tree.fill (first ++ second)).Joins (left.fill first) op (right.fill second) := by
  have hjoins := h.fill (first ++ second)
  rwa [Tree.fill_append left (Nat.le_of_eq hfirst.symm), List.drop_left' hfirst] at hjoins

theorem of_shape {other : Tree outer} (h : tree.Joins left op right)
    (hshape : other.shape = tree.shape) :
    ∃ first second, other.Joins first op second ∧ first.shape = left.shape ∧
      second.shape = right.shape := by
  cases h
  all_goals
    cases other <;> simp only [shape, mapDice, reduceCtorEq, times.injEq, plus.injEq] at hshape
    obtain ⟨hleft, rfl, hright⟩ := hshape
  · exact ⟨_, _, .times _ _ _, hleft, hright⟩
  · exact ⟨_, _, .plus _ _ _, hleft, hright⟩

end Joins

end Tree

/-! ## Failures behind a row of dice -/

variable {σ : Type} [Source σ]

/--
The roll fails behind the row of dice, with this table behind it.  The last dice
of the row fail, or all of them come to totals.  `Applies` says which operators
are applied to which numbers when the totals are known.
-/
inductive Roll.FailsBehind (Applies : List Int64 → Operator → Int → Int → Prop)
    (table : Table σ) : List String → RollError → Table σ → Prop where
  | dice {texts : List String} {text : String} {totals : List Int64} {between behind : Table σ}
      {error : RollError} (hrow : (leaves texts).effect table = (.ok totals, between))
      (hdice : (leaf text).effect between = (.error error, behind)) :
      FailsBehind Applies table (texts ++ [text]) error behind
  | cancelled {texts : List String} {totals : List Int64} {behind : Table σ}
      (hrow : (leaves texts).effect table = (.ok totals, behind))
      (hraised : behind.isCancelled = true) :
      FailsBehind Applies table texts .cancelled behind
  | zeroDivision {texts : List String} {totals : List Int64} {behind : Table σ} {op : Operator}
      {a b : Int} (hrow : (leaves texts).effect table = (.ok totals, behind))
      (happlies : Applies totals op a b) (hvalue : op.value? a b = none) :
      FailsBehind Applies table texts .zeroDivision behind
  | overflow {texts : List String} {totals : List Int64} {behind : Table σ} {op : Operator}
      {a b value : Int} (hrow : (leaves texts).effect table = (.ok totals, behind))
      (happlies : Applies totals op a b) (hvalue : op.value? a b = some value)
      (hwide : ¬(Int64.minValue.toInt ≤ value ∧ value ≤ Int64.maxValue.toInt)) :
      FailsBehind Applies table texts .overflow behind

namespace Roll

theorem FailsBehind.append {Applies Other : List Int64 → Operator → Int → Int → Prop}
    {table between behind : Table σ} {before texts : List String} {first : List Int64}
    {error : RollError} (h : FailsBehind Applies between texts error behind)
    (hfirst : (leaves before).effect table = (.ok first, between))
    (hother : ∀ totals op a b, Applies totals op a b → Other (first ++ totals) op a b) :
    FailsBehind Other table (before ++ texts) error behind := by
  have hrow {texts : List String} {totals : List Int64} {behind : Table σ}
      (h : (leaves texts).effect between = (.ok totals, behind)) :
      (leaves (before ++ texts)).effect table = (.ok (first ++ totals), behind) :=
    effect_leaves_append_eq_ok_iff.2 ⟨first, between, totals, hfirst, h, rfl⟩
  cases h with
  | dice hthrown hdice =>
      rw [← List.append_assoc]
      exact .dice (hrow hthrown) hdice
  | cancelled hthrown hraised => exact .cancelled (hrow hthrown) hraised
  | zeroDivision hthrown happlies hvalue =>
      exact .zeroDivision (hrow hthrown) (hother _ _ _ _ happlies) hvalue
  | overflow hthrown happlies hvalue hwide =>
      exact .overflow (hrow hthrown) (hother _ _ _ _ happlies) hvalue hwide

theorem FailsBehind.mono {Applies Other : List Int64 → Operator → Int → Int → Prop}
    {table behind : Table σ} {texts : List String} {error : RollError}
    (h : FailsBehind Applies table texts error behind)
    (hother : ∀ totals op a b, Applies totals op a b → Other totals op a b) :
    FailsBehind Other table texts error behind := by
  have hempty : (leaves []).effect table = (.ok [], table) := rfl
  exact h.append hempty hother

theorem FailsBehind.of_apply {Applies : List Int64 → Operator → Int → Int → Prop}
    {table behind : Table σ} {texts : List String} {totals : List Int64} {op : Operator}
    {a b : Int64} {error : RollError}
    (hrow : (leaves texts).effect table = (.ok totals, behind))
    (happlies : Applies totals op a.toInt b.toInt) (h : op.apply a b = .error error) :
    FailsBehind Applies table texts error behind := by
  unfold Operator.apply at h
  split at h
  case h_1 hvalue =>
      cases h
      exact .zeroDivision hrow happlies hvalue
  case h_2 value hvalue =>
      split at h
      case h_1 hnarrow =>
          cases h
          exact .overflow hrow happlies hvalue (narrow?_eq_none_iff.1 hnarrow)
      case h_2 => cases h

end Roll

namespace Tree

/--
The roll of the tree fails when no dice but the first ones, which are rolled, have
been thrown.
-/
structure StopsBehind {level : Level} (tree : Tree level) (play : Play σ) (rolled : List String)
    (error : RollError) : Prop where
  isPrefix : rolled <+: tree.leaves
  fails : Roll.FailsBehind (fun totals op a b => (tree.fill totals).Applies op a b) play.table
    rolled error (tree.roll.outcome play).2.table
  /-- The dice that follow are not thrown: any others in their places make no difference. -/
  alone : ∀ other : Tree level, other.shape = tree.shape → rolled <+: other.leaves →
    other.roll.outcome play = tree.roll.outcome play

theorem totals_of_outcome {level : Level} {tree : Tree level} {play behind : Play σ}
    {total : Int64} (h : tree.roll.outcome play = (.ok total, behind)) :
    ∃ totals, (Roll.leaves tree.leaves).effect play.table = (.ok totals, behind.table) ∧
      totals.length = tree.leaves.length ∧ (tree.fill totals).HasValue total.toInt := by
  have heffect : tree.roll.effect play.table = (.ok total, behind.table) := by
    rw [Roll.effect_eq_outcome, h]
  obtain ⟨totals, hrow, hvalue⟩ := leaves_of_roll heffect
  exact ⟨totals, hrow, Roll.length_of_effect_leaves hrow, hvalue⟩

namespace StopsBehind

variable {outer inner operand : Level} {tree : Tree outer} {left : Tree inner} {op : Operator}
  {right : Tree operand} {play between : Play σ} {rolled : List String} {error : RollError}
  {total : Int64}

theorem group {inner : Tree .sum} (h : inner.StopsBehind play rolled error) :
    (Tree.group inner).StopsBehind play rolled error := by
  refine ⟨h.isPrefix, h.fails.mono fun totals op a b => .group, ?_⟩
  intro other hshape hrolled
  cases other <;> simp only [shape, mapDice, reduceCtorEq, group.injEq] at hshape
  exact h.alone _ hshape hrolled

theorem of_cancelled (hbegins : tree.Begins right) (hraised : play.table.isCancelled = true) :
    tree.StopsBehind play [] .cancelled := by
  refine ⟨List.nil_prefix, ?_, ?_⟩
  · rw [hbegins.roll_eq, Roll.outcome_checked, if_pos hraised]
    have hrow : (Roll.leaves []).effect play.table = (.ok [], play.table) := rfl
    exact .cancelled hrow hraised
  · intro other hshape hrolled
    obtain ⟨single, hother, -⟩ := hbegins.of_shape hshape
    rw [hother.roll_eq, hbegins.roll_eq, Roll.outcome_checked, Roll.outcome_checked,
      if_pos hraised, if_pos hraised]

theorem of_begins (hbegins : tree.Begins right) (hfree : ¬play.table.isCancelled = true)
    (h : right.StopsBehind play rolled error) : tree.StopsBehind play rolled error := by
  have hroll {whole : Tree outer} {part : Tree operand} (h : whole.Begins part) :
      whole.roll.outcome play = part.roll.outcome play := by
    rw [h.roll_eq, Roll.outcome_checked, if_neg hfree]
  refine ⟨?_, ?_, ?_⟩
  · rw [hbegins.leaves_eq]
    exact h.isPrefix
  · rw [hroll hbegins]
    exact h.fails.mono fun totals op a b => .alone (hbegins.fill totals)
  · intro other hshape hrolled
    obtain ⟨single, hother, hsingle⟩ := hbegins.of_shape hshape
    rw [hroll hother, hroll hbegins]
    exact h.alone single hsingle (hother.leaves_eq ▸ hrolled)

theorem of_left (hjoins : tree.Joins left op right)
    (herror : (left.roll.outcome play).1 = .error error)
    (h : left.StopsBehind play rolled error) : tree.StopsBehind play rolled error := by
  have hleft : left.roll.outcome play = (.error error, (left.roll.outcome play).2) :=
    Prod.ext herror rfl
  refine ⟨?_, ?_, ?_⟩
  · rw [hjoins.leaves_eq]
    exact h.isPrefix.trans (List.prefix_append _ _)
  · rw [hjoins.outcome_of_error hleft]
    exact h.fails.mono fun totals op a b => .left (hjoins.fill totals)
  · intro other hshape hrolled
    obtain ⟨first, second, hother, hfirst, -⟩ := hjoins.of_shape hshape
    have hlength : rolled.length ≤ first.leaves.length := by
      rw [length_leaves_of_shape hfirst]
      exact h.isPrefix.length_le
    rw [hother.leaves_eq] at hrolled
    have hsame := h.alone first hfirst
      (List.prefix_of_prefix_length_le hrolled (List.prefix_append _ _) hlength)
    rw [hjoins.outcome_of_error hleft, hother.outcome_of_error (hsame.trans hleft)]

theorem of_operand (hjoins : tree.Joins left op right)
    (hleft : left.roll.outcome play = (.ok total, between)) (hright : rolled <+: right.leaves)
    (hfails : Roll.FailsBehind (fun totals op a b => (tree.fill totals).Applies op a b) play.table
      (left.leaves ++ rolled) error
      ((Roll.operand total op right.roll).outcome between).2.table)
    (halone : ∀ other : Tree operand, other.shape = right.shape → rolled <+: other.leaves →
      (Roll.operand total op other.roll).outcome between =
        (Roll.operand total op right.roll).outcome between) :
    tree.StopsBehind play (left.leaves ++ rolled) error := by
  refine ⟨?_, ?_, ?_⟩
  · rw [hjoins.leaves_eq]
    exact (List.prefix_append_right_inj _).2 hright
  · rw [hjoins.outcome_of_ok hleft]
    exact hfails
  · intro other hshape hrolled
    obtain ⟨first, second, hother, hfirst, hsecond⟩ := hjoins.of_shape hshape
    rw [hother.leaves_eq] at hrolled
    -- all dice of the left part are rolled, so the other tree has the same left part
    have hlength := length_leaves_of_shape hfirst
    have hleaves : left.leaves <+: first.leaves :=
      List.prefix_of_prefix_length_le ((List.prefix_append _ _).trans hrolled)
        (List.prefix_append _ _) (Nat.le_of_eq hlength.symm)
    obtain rfl : first = left := eq_of_shape hfirst (hleaves.eq_of_length hlength.symm).symm
    rw [hjoins.outcome_of_ok hleft, hother.outcome_of_ok hleft]
    exact halone second hsecond ((List.prefix_append_right_inj _).1 hrolled)

theorem of_cancelled_operand (hjoins : tree.Joins left op right)
    (hleft : left.roll.outcome play = (.ok total, between))
    (hraised : between.table.isCancelled = true) :
    tree.StopsBehind play (left.leaves ++ []) .cancelled := by
  obtain ⟨first, hfirst, -, -⟩ := totals_of_outcome hleft
  refine of_operand hjoins hleft List.nil_prefix ?_ ?_
  · rw [Roll.outcome_operand, if_pos hraised, List.append_nil]
    exact .cancelled hfirst hraised
  · intro other hshape hrolled
    refine Roll.outcome_operand_congr (fun hfree => ?_) total op
    rw [hraised] at hfree
    cases hfree

theorem of_right (hjoins : tree.Joins left op right)
    (hleft : left.roll.outcome play = (.ok total, between))
    (hfree : ¬between.table.isCancelled = true)
    (herror : (right.roll.outcome between).1 = .error error)
    (h : right.StopsBehind between rolled error) :
    tree.StopsBehind play (left.leaves ++ rolled) error := by
  obtain ⟨first, hfirst, hlength, -⟩ := totals_of_outcome hleft
  have hright : right.roll.outcome between = (.error error, (right.roll.outcome between).2) :=
    Prod.ext herror rfl
  have houtcome : (Roll.operand total op right.roll).outcome between =
      (.error error, (right.roll.outcome between).2) := by
    rw [Roll.outcome_operand, if_neg hfree, hright]
  refine of_operand hjoins hleft h.isPrefix ?_ ?_
  · rw [houtcome]
    exact h.fails.append hfirst fun totals op a b => .right (hjoins.fill_append hlength totals)
  · intro other hshape hrolled
    exact Roll.outcome_operand_congr (fun _ => h.alone other hshape hrolled) total op

theorem of_apply {value : Int64} {behind : Play σ} (hjoins : tree.Joins left op right)
    (hleft : left.roll.outcome play = (.ok total, between))
    (hfree : ¬between.table.isCancelled = true)
    (hright : right.roll.outcome between = (.ok value, behind))
    (h : op.apply total value = .error error) :
    tree.StopsBehind play (left.leaves ++ right.leaves) error := by
  obtain ⟨first, hfirst, hlength, hvalue⟩ := totals_of_outcome hleft
  obtain ⟨second, hsecond, -, hother⟩ := totals_of_outcome hright
  have hrow : (Roll.leaves (left.leaves ++ right.leaves)).effect play.table =
      (.ok (first ++ second), behind.table) :=
    Roll.effect_leaves_append_eq_ok_iff.2 ⟨first, between.table, second, hfirst, hsecond, rfl⟩
  refine of_operand hjoins hleft List.prefix_rfl ?_ ?_
  · rw [Roll.outcome_operand, if_neg hfree, hright]
    exact .of_apply hrow (.here (hjoins.fill_append hlength second) hvalue hother) h
  · intro other hshape hrolled
    have hleaves := hrolled.eq_of_length (length_leaves_of_shape hshape).symm
    rw [eq_of_shape hshape hleaves.symm]

end StopsBehind

section

variable {outer inner operand : Level} {tree : Tree outer} {left : Tree inner} {op : Operator}
  {right : Tree operand} {play : Play σ} {error : RollError}

theorem exists_stopsBehind_of_operand {between : Play σ} {total : Int64}
    (hjoins : tree.Joins left op right)
    (hleft : left.roll.outcome play = (.ok total, between))
    (ihr : ∀ {play : Play σ} {error : RollError}, (right.roll.outcome play).1 = .error error →
      ∃ rolled, right.StopsBehind play rolled error)
    (h : ((Roll.operand total op right.roll).outcome between).1 = .error error) :
    ∃ rolled, tree.StopsBehind play rolled error := by
  rw [Roll.outcome_operand] at h
  split at h
  case isTrue hraised =>
      cases h
      exact ⟨_, .of_cancelled_operand hjoins hleft hraised⟩
  case isFalse hfree =>
      rcases hright : right.roll.outcome between with ⟨cause | value, behind⟩
      case error =>
          have herror : (right.roll.outcome between).1 = .error error := by
            rw [hright] at h ⊢
            exact h
          obtain ⟨rolled, hstops⟩ := ihr herror
          exact ⟨_, .of_right hjoins hleft hfree herror hstops⟩
      case ok =>
          rw [hright] at h
          exact ⟨_, .of_apply hjoins hleft hfree hright h⟩

theorem exists_stopsBehind_of_joins (hjoins : tree.Joins left op right)
    (ihl : ∀ {play : Play σ} {error : RollError}, (left.roll.outcome play).1 = .error error →
      ∃ rolled, left.StopsBehind play rolled error)
    (ihr : ∀ {play : Play σ} {error : RollError}, (right.roll.outcome play).1 = .error error →
      ∃ rolled, right.StopsBehind play rolled error)
    (h : (tree.roll.outcome play).1 = .error error) :
    ∃ rolled, tree.StopsBehind play rolled error := by
  rcases hleft : left.roll.outcome play with ⟨cause | total, between⟩
  case error =>
      rw [hjoins.outcome_of_error hleft] at h
      have herror : (left.roll.outcome play).1 = .error error := by
        rw [hleft]
        exact h
      obtain ⟨rolled, hstops⟩ := ihl herror
      exact ⟨rolled, .of_left hjoins herror hstops⟩
  case ok =>
      rw [hjoins.outcome_of_ok hleft] at h
      exact exists_stopsBehind_of_operand hjoins hleft ihr h

theorem exists_stopsBehind_of_begins (hbegins : tree.Begins right)
    (ih : ∀ {play : Play σ} {error : RollError}, (right.roll.outcome play).1 = .error error →
      ∃ rolled, right.StopsBehind play rolled error)
    (h : (tree.roll.outcome play).1 = .error error) :
    ∃ rolled, tree.StopsBehind play rolled error := by
  rw [hbegins.roll_eq, Roll.outcome_checked] at h
  split at h
  case isTrue hraised =>
      cases h
      exact ⟨[], .of_cancelled hbegins hraised⟩
  case isFalse hfree =>
      obtain ⟨rolled, hstops⟩ := ih h
      exact ⟨rolled, hstops.of_begins hbegins hfree⟩

end

theorem stopsBehind_dice {text : String} {play : Play σ} {error : RollError}
    (h : ((Tree.dice text).roll.outcome play).1 = .error error) :
    (Tree.dice text).StopsBehind play [text] error := by
  refine ⟨List.prefix_rfl, ?_, ?_⟩
  · have hrow : (Roll.leaves []).effect play.table = (.ok [], play.table) := rfl
    have hdice : (Roll.leaf text).effect play.table =
        (.error error, ((Tree.dice text).roll.outcome play).2.table) := by
      rw [Roll.effect_eq_outcome]
      exact Prod.ext h rfl
    exact .dice hrow hdice
  · intro other hshape hrolled
    rw [eq_of_shape hshape (hrolled.eq_of_length (length_leaves_of_shape hshape).symm).symm]

/--
A roll that fails stops at the first failure, with the table as the dice leave it
that have been rolled until then.
-/
theorem failure_stops_the_roll {level : Level} (tree : Tree level) (play : Play σ)
    (error : RollError) (h : (tree.roll.outcome play).1 = .error error) :
    ∃ rolled, tree.StopsBehind play rolled error := by
  induction tree generalizing play error with
  | int value => cases h
  | dice text => exact ⟨[text], stopsBehind_dice h⟩
  | group inner ih =>
      obtain ⟨rolled, hstops⟩ := ih play error h
      exact ⟨rolled, hstops.group⟩
  | ofAtom atom ih => exact exists_stopsBehind_of_begins (.ofAtom atom) (ih _ _) h
  | ofTerm term ih => exact exists_stopsBehind_of_begins (.ofTerm term) (ih _ _) h
  | times left op right ihl ihr =>
      exact exists_stopsBehind_of_joins (.times left op right) (ihl _ _) (ihr _ _) h
  | plus left op right ihl ihr =>
      exact exists_stopsBehind_of_joins (.plus left op right) (ihl _ _) (ihr _ _) h

private def undefinedQuotient : Expression :=
  .plus
    (.ofTerm (.times (.ofAtom (.dice "1d20")) .div
      (.group (.plus (.ofTerm (.ofAtom (.dice "2d6"))) .sub (.ofAtom (.int 9))))))
    .sub (.ofAtom (.dice "9d9"))

/-- The dice come to 3 and to 4 + 5, of which 9 is taken away; no others are thrown. -/
theorem failure_stops_the_roll_quotient :
    (undefinedQuotient.roll.outcome ⟨Table.fresh none (⟨3, 1⟩ : Counting), #[]⟩).1 =
      .error .zeroDivision ∧
    ∃ rolled, undefinedQuotient.StopsBehind ⟨Table.fresh none (⟨3, 1⟩ : Counting), #[]⟩ rolled
      .zeroDivision := by
  have herror : (undefinedQuotient.roll.outcome ⟨Table.fresh none (⟨3, 1⟩ : Counting), #[]⟩).1 =
      .error .zeroDivision := by
    rfl
  exact ⟨herror, failure_stops_the_roll _ _ _ herror⟩

end Tree

end DiceNotation
