import DiceNotation.Proofs.DiceText
import DiceNotation.Proofs.FirstFailure
import DiceNotation.Proofs.Order
import Mathlib.Algebra.Ring.Int.Defs

/-!
# Trails of rolls

The log of a roll is a trail of it.  Dice that come to a total are recorded when
they do, and an operator is recorded when both of its operands have come to theirs.
A roll that fails leaves the trail of what it has done until then, and one line
more if it is cancelled.
-/

namespace DiceNotation

variable {σ α : Type}

def Event.throw? : Event → Option (Dice × Int64)
  | .thrown dice total => some (dice, total)
  | _ => none

def Event.operator? : Event → Option Operator
  | .applied _ op _ => some op
  | _ => none

def throwsOf (events : List Event) : List (Dice × Int64) := events.filterMap Event.throw?

def operatorsOf (events : List Event) : List Operator := events.filterMap Event.operator?

def Succeed (events : List Event) : Prop :=
  ∀ left op right, .applied left op right ∈ events → ∃ result, op.apply left right = .ok result

theorem throwsOf_append (before behind : List Event) :
    throwsOf (before ++ behind) = throwsOf before ++ throwsOf behind :=
  List.filterMap_append

theorem operatorsOf_append (before behind : List Event) :
    operatorsOf (before ++ behind) = operatorsOf before ++ operatorsOf behind :=
  List.filterMap_append

theorem throwsOf_concat_applied (events : List Event) (left : Int64) (op : Operator)
    (right : Int64) : throwsOf (events ++ [.applied left op right]) = throwsOf events := by
  rw [throwsOf_append]
  exact List.append_nil _

theorem Succeed.append {before behind : List Event} (h : Succeed before)
    (hbehind : Succeed behind) : Succeed (before ++ behind) := by
  intro left op right happlied
  rcases List.mem_append.1 happlied with hfirst | hsecond
  · exact h left op right hfirst
  · exact hbehind left op right hsecond

def Tree.operators {level : Level} : Tree level → List Operator
  | .int _ => []
  | .dice _ => []
  | .group inner => inner.operators
  | .ofAtom atom => atom.operators
  | .times left op right => left.operators ++ right.operators ++ [op]
  | .ofTerm term => term.operators
  | .plus left op right => left.operators ++ right.operators ++ [op]

section

variable {outer inner operand : Level} {tree : Tree outer} {left : Tree inner} {op : Operator}
  {right : Tree operand}

theorem Tree.Begins.operators_eq (h : tree.Begins right) : tree.operators = right.operators := by
  cases h <;> rfl

theorem Tree.Joins.operators_eq (h : tree.Joins left op right) :
    tree.operators = left.operators ++ right.operators ++ [op] := by
  cases h <;> rfl

end

variable [Source σ]

theorem Roll.IsOrderly.quiet_log {roll : Roll σ α} (h : roll.IsOrderly fun _ => False)
    (play : Play σ) :
    ∃ closing, IsClosing ((roll.outcome play).1 = .error .cancelled) closing ∧
      (roll.outcome play).2.log.toList = play.log.toList ++ closing := by
  obtain ⟨events, closing, hevents, hclosing, hlog⟩ := h.log play
  obtain rfl := List.eq_nil_iff_forall_not_mem.2 hevents
  exact ⟨closing, hclosing, by rw [hlog, List.append_nil]⟩

namespace Dice

/-- Dice leave one line if they come to a total, and otherwise only one that closes the log. -/
inductive Logs (dice : Dice) (play : Play σ) : Except RollError Int64 × Play σ → Prop where
  | total {total : Int64} {behind : Play σ}
      (hlog : behind.log.toList = play.log.toList ++ [.thrown dice total]) :
      Logs dice play (.ok total, behind)
  | error {error : RollError} {behind : Play σ} {closing : List Event}
      (hclosing : IsClosing (error = .cancelled) closing)
      (hlog : behind.log.toList = play.log.toList ++ closing) :
      Logs dice play (.error error, behind)

theorem logs_roll (dice : Dice) (play : Play σ) : dice.Logs play (dice.roll.outcome play) := by
  have hthrow : (dice.throw : Roll σ Nat).IsOrderly fun _ => False := dice.throw_isOrderly
  obtain ⟨closing, hclosing, hlog⟩ := hthrow.quiet_log play
  rw [roll_eq_throw, Roll.outcome_bind]
  rcases hresult : dice.throw.outcome play with ⟨error | total, behind⟩
  case error =>
      rw [hresult] at hclosing hlog
      exact .error (by simpa using hclosing) hlog
  case ok =>
      rw [hresult] at hclosing hlog
      cases hclosing with
      | cancelled h => cases h
      | going =>
          refine .total ?_
          change (behind.log.push _).toList = _
          rw [Array.toList_push, hlog, List.append_nil]

end Dice

namespace Dice

theorem count_of_read {text : String} {dice : Dice} (h : read text = .ok dice)
    (hmode : dice.mode = .middle) : dice.count = 3 := by
  obtain ⟨mode, -, -, -, count, sides, -, -, -, -, rfl⟩ := read_eq_ok_iff.1 h
  cases mode with
  | standard => cases hmode
  | middle => rfl

theorem accepted_of_ok {dice : Dice} {table behind : Table σ} {total : Int64}
    (h : dice.roll.effect table = (.ok total, behind)) : ∃ sides, dice.Accepted table sides := by
  rcases dice.refused_or_accepted table with ⟨error, hrefused⟩ | haccepted
  · rw [hrefused.effect_eq] at h
    cases h
  · exact haccepted

theorem rolls_of_ok {dice : Dice} {table behind : Table σ} {total : Int64}
    (h : dice.roll.effect table = (.ok total, behind)) :
    behind.rolls = table.rolls + dice.size := by
  obtain ⟨sides, haccepted⟩ := accepted_of_ok h
  rw [← haccepted.rolls_eq, h]

omit [Source σ] in
theorem size_eq_count {text : String} {dice : Dice} {table : Table σ} {sides : Sides}
    (hread : read text = .ok dice) (h : dice.Accepted table sides) :
    (dice.size : Int) = dice.count.toInt := by
  unfold size
  cases hmode : dice.mode with
  | standard => exact Int.toNat_of_nonneg (h.count_nonneg hmode)
  | middle =>
      rw [count_of_read hread hmode]
      rfl

theorem rolls_of_leaf {text : String} {dice : Dice} {table behind : Table σ} {total : Int64}
    (hread : read text = .ok dice) (h : (Roll.leaf text).effect table = (.ok total, behind)) :
    (behind.rolls : Int) = table.rolls + dice.count.toInt := by
  rw [effect_leaf_of_read hread] at h
  obtain ⟨sides, haccepted⟩ := accepted_of_ok h
  have hsize := size_eq_count hread haccepted
  rw [rolls_of_ok h]
  omega

theorem effect_ne_zeroDivision {dice : Dice} {table behind : Table σ} {error : RollError}
    (h : dice.roll.effect table = (.error error, behind)) : error ≠ .zeroDivision := by
  rcases dice.refused_or_accepted table with ⟨cause, hrefused⟩ | ⟨sides, haccepted⟩
  · rw [hrefused.effect_eq] at h
    obtain rfl := Except.error.inj (congrArg Prod.fst h)
    cases hrefused <;> exact fun h => by cases h
  · obtain ⟨taken, result, heffect, hresult⟩ := haccepted.effect_eq
    rw [h] at heffect
    obtain rfl := congrArg Prod.fst heffect
    cases hresult <;> exact fun h => by cases h

theorem leaf_ne_zeroDivision {text : String} {table behind : Table σ} {error : RollError}
    (h : (Roll.leaf text).effect table = (.error error, behind)) : error ≠ .zeroDivision := by
  cases hread : read text with
  | ok dice =>
      rw [effect_leaf_of_read hread] at h
      exact effect_ne_zeroDivision h
  | error cause =>
      unfold Roll.effect Roll.outcomeAt at h
      rw [outcome_leaf_of_unread hread] at h
      split at h
      · cases h
        exact fun h => by cases h
      · cases h
        exact fun h => by cases h

end Dice

/-- The dice of the row come to these totals, one after the other. -/
inductive Roll.Row : Table σ → List String → List (Dice × Int64) → Table σ → Prop where
  | nil (table : Table σ) : Row table [] [] table
  | cons {text : String} {texts : List String} {dice : Dice} {total : Int64}
      {throws : List (Dice × Int64)} {table between behind : Table σ}
      (hread : Dice.read text = .ok dice)
      (hleaf : (leaf text).effect table = (.ok total, between))
      (hrest : Row between texts throws behind) :
      Row table (text :: texts) ((dice, total) :: throws) behind

namespace Roll.Row

variable {table between behind : Table σ} {texts others : List String}
  {throws more : List (Dice × Int64)}

theorem append (h : Row table texts throws between) (hmore : Row between others more behind) :
    Row table (texts ++ others) (throws ++ more) behind := by
  induction h with
  | nil => exact hmore
  | cons hread hleaf _ ih => exact .cons hread hleaf (ih hmore)

theorem rolls_eq (h : Row table texts throws behind) :
    (behind.rolls : Int) = table.rolls + (throws.map (·.1.count.toInt)).sum := by
  induction h with
  | nil => simp
  | cons hread hleaf _ ih =>
      rw [ih, Dice.rolls_of_leaf hread hleaf]
      simp [Int.add_assoc]

end Roll.Row

/-! ## Trails of trees -/

namespace Tree

/-- The events of a tree that comes to a total, an operator behind the events of its operands. -/
inductive Trail : {level : Level} → Tree level → Table σ → List Event → Int64 → Table σ →
    Prop where
  | int (value : Int64) (table : Table σ) : Trail (.int value) table [] value table
  | dice {text : String} {dice : Dice} {total : Int64} {table behind : Table σ}
      (hread : Dice.read text = .ok dice)
      (hleaf : (Roll.leaf text).effect table = (.ok total, behind)) :
      Trail (.dice text) table [.thrown dice total] total behind
  | group {inner : Tree .sum} {events : List Event} {total : Int64} {table behind : Table σ}
      (hinner : Trail inner table events total behind) :
      Trail (.group inner) table events total behind
  | begins {outer operand : Level} {tree : Tree outer} {part : Tree operand}
      {events : List Event} {total : Int64} {table behind : Table σ}
      (hbegins : tree.Begins part) (hpart : Trail part table events total behind) :
      Trail tree table events total behind
  | joins {outer inner operand : Level} {tree : Tree outer} {left : Tree inner} {op : Operator}
      {right : Tree operand} {first second : List Event} {a b total : Int64}
      {table between behind : Table σ} (hjoins : tree.Joins left op right)
      (hleft : Trail left table first a between) (hright : Trail right between second b behind)
      (happly : op.apply a b = .ok total) :
      Trail tree table (first ++ second ++ [.applied a op b]) total behind

/-- The events of a tree that fails, up to its failure. -/
inductive Breaks : {level : Level} → Tree level → Table σ → List Event → RollError → Table σ →
    Prop where
  | dice {text : String} {error : RollError} {table behind : Table σ}
      (hleaf : (Roll.leaf text).effect table = (.error error, behind)) :
      Breaks (.dice text) table [] error behind
  | group {inner : Tree .sum} {events : List Event} {error : RollError} {table behind : Table σ}
      (hinner : Breaks inner table events error behind) :
      Breaks (.group inner) table events error behind
  | cancelled {outer operand : Level} {tree : Tree outer} {part : Tree operand} {table : Table σ}
      (hbegins : tree.Begins part) (hraised : table.isCancelled = true) :
      Breaks tree table [] .cancelled table
  | begins {outer operand : Level} {tree : Tree outer} {part : Tree operand}
      {events : List Event} {error : RollError} {table behind : Table σ}
      (hbegins : tree.Begins part) (hpart : Breaks part table events error behind) :
      Breaks tree table events error behind
  | left {outer inner operand : Level} {tree : Tree outer} {left : Tree inner} {op : Operator}
      {right : Tree operand} {events : List Event} {error : RollError} {table behind : Table σ}
      (hjoins : tree.Joins left op right) (hleft : Breaks left table events error behind) :
      Breaks tree table events error behind
  | between {outer inner operand : Level} {tree : Tree outer} {left : Tree inner} {op : Operator}
      {right : Tree operand} {events : List Event} {total : Int64} {table behind : Table σ}
      (hjoins : tree.Joins left op right) (hleft : Trail left table events total behind)
      (hraised : behind.isCancelled = true) : Breaks tree table events .cancelled behind
  | right {outer inner operand : Level} {tree : Tree outer} {left : Tree inner} {op : Operator}
      {right : Tree operand} {first second : List Event} {total : Int64} {error : RollError}
      {table between behind : Table σ} (hjoins : tree.Joins left op right)
      (hleft : Trail left table first total between)
      (hright : Breaks right between second error behind) :
      Breaks tree table (first ++ second) error behind
  | operator {outer inner operand : Level} {tree : Tree outer} {left : Tree inner}
      {op : Operator} {right : Tree operand} {first second : List Event} {a b : Int64}
      {error : RollError} {table between behind : Table σ} (hjoins : tree.Joins left op right)
      (hleft : Trail left table first a between) (hright : Trail right between second b behind)
      (happly : op.apply a b = .error error) :
      Breaks tree table (first ++ second ++ [.applied a op b]) error behind

/-- The log behind the roll of the tree is its trail, and a line that closes it if it has to. -/
inductive Tracks {level : Level} (tree : Tree level) (play : Play σ) :
    Except RollError Int64 × Play σ → Prop where
  | total {events : List Event} {total : Int64} {behind : Play σ}
      (htrail : tree.Trail play.table events total behind.table)
      (hlog : behind.log.toList = play.log.toList ++ events) : Tracks tree play (.ok total, behind)
  | error {events closing : List Event} {error : RollError} {behind : Play σ}
      (hbreaks : tree.Breaks play.table events error behind.table)
      (hclosing : IsClosing (error = .cancelled) closing)
      (hlog : behind.log.toList = play.log.toList ++ events ++ closing) :
      Tracks tree play (.error error, behind)

theorem Tracks.of_stop {level : Level} {tree : Tree level} {play between : Play σ}
    {events : List Event} (hbreaks : tree.Breaks play.table events .cancelled between.table)
    (hlog : between.log.toList = play.log.toList ++ events) (rolls : Nat) :
    tree.Tracks play
      (.error .cancelled, { between with log := between.log.push (.cancelled rolls) }) := by
  refine .error hbreaks (.cancelled rfl (Event.saysCancelled_cancelled rolls)) ?_
  rw [Array.toList_push, hlog]

theorem tracks_dice (text : String) (play : Play σ) :
    (Tree.dice text).Tracks play ((Roll.leaf text).outcome play) := by
  have heffect := Roll.effect_eq_outcome (Roll.leaf text) play
  cases hread : Dice.read text with
  | ok dice =>
      rw [Dice.outcome_leaf_of_read hread] at heffect ⊢
      have hlogs := dice.logs_roll play
      generalize dice.roll.outcome play = outcome at heffect hlogs
      cases hlogs with
      | total hlog => exact .total (.dice hread heffect) hlog
      | error hclosing hlog =>
          exact .error (.dice heffect) hclosing (by rw [hlog, List.append_nil])
  | error cause =>
      rw [Dice.outcome_leaf_of_unread hread] at heffect ⊢
      split at heffect
      case isTrue hraised =>
          rw [if_pos hraised]
          have hdice : (Roll.leaf text).effect play.table = (.error .cancelled, play.table) :=
            heffect
          exact .of_stop (.dice hdice) (List.append_nil _).symm _
      case isFalse hfree =>
          rw [if_neg hfree]
          exact .error (.dice heffect) (.going fun h => by cases h) (by simp)

section

variable {outer inner operand : Level} {tree : Tree outer} {left : Tree inner} {op : Operator}
  {right : Tree operand}

theorem tracks_begins (hbegins : tree.Begins right)
    (ih : ∀ play : Play σ, right.Tracks play (right.roll.outcome play)) (play : Play σ) :
    tree.Tracks play (tree.roll.outcome play) := by
  rw [hbegins.roll_eq, Roll.outcome_checked]
  split
  case isTrue hraised =>
      exact .of_stop (.cancelled hbegins hraised) (List.append_nil _).symm _
  case isFalse =>
      have hright := ih play
      generalize right.roll.outcome play = outcome at hright
      cases hright with
      | total htrail hlog => exact .total (.begins hbegins htrail) hlog
      | error hbreaks hclosing hlog => exact .error (.begins hbegins hbreaks) hclosing hlog

theorem tracks_operand (hjoins : tree.Joins left op right)
    (ih : ∀ play : Play σ, right.Tracks play (right.roll.outcome play)) {play between : Play σ}
    {first : List Event} {a : Int64}
    (htrail : left.Trail play.table first a between.table)
    (hfirst : between.log.toList = play.log.toList ++ first) :
    tree.Tracks play ((Roll.operand a op right.roll).outcome between) := by
  rw [Roll.outcome_operand]
  split
  case isTrue hraised => exact .of_stop (.between hjoins htrail hraised) hfirst _
  case isFalse =>
      have hright := ih between
      generalize right.roll.outcome between = outcome at hright
      cases hright with
      | error hbreaks hclosing hlog =>
          refine .error (.right hjoins htrail hbreaks) hclosing ?_
          rw [hlog, hfirst, List.append_assoc (play.log.toList)]
      | @total second b behind hother hlog =>
          have hpushed : (behind.log.push (.applied a op b)).toList =
              play.log.toList ++ (first ++ second ++ [.applied a op b]) := by
            simp [hlog, hfirst]
          change tree.Tracks play
            (op.apply a b, { behind with log := behind.log.push (.applied a op b) })
          cases happly : op.apply a b with
          | ok total => exact .total (.joins hjoins htrail hother happly) hpushed
          | error error =>
              have hgoing : error ≠ .cancelled := fun herror =>
                op.apply_ne_cancelled a b (herror ▸ happly)
              refine .error (.operator hjoins htrail hother happly) (.going hgoing) ?_
              rw [List.append_nil]
              exact hpushed

theorem tracks_joins (hjoins : tree.Joins left op right)
    (ihl : ∀ play : Play σ, left.Tracks play (left.roll.outcome play))
    (ihr : ∀ play : Play σ, right.Tracks play (right.roll.outcome play)) (play : Play σ) :
    tree.Tracks play (tree.roll.outcome play) := by
  rw [hjoins.roll_eq, Roll.outcome_bind]
  have hleft := ihl play
  generalize left.roll.outcome play = outcome at hleft
  cases hleft with
  | total htrail hlog => exact tracks_operand hjoins ihr htrail hlog
  | error hbreaks hclosing hlog => exact .error (.left hjoins hbreaks) hclosing hlog

end

theorem tracks_roll {level : Level} (tree : Tree level) (play : Play σ) :
    tree.Tracks play (tree.roll.outcome play) := by
  induction tree generalizing play with
  | int value => exact .total (.int value _) (List.append_nil _).symm
  | dice text => exact tracks_dice text play
  | group inner ih =>
      have hinner := ih play
      change (Tree.group inner).Tracks play (inner.roll.outcome play)
      generalize inner.roll.outcome play = outcome at hinner
      cases hinner with
      | total htrail hlog => exact .total (.group htrail) hlog
      | error hbreaks hclosing hlog => exact .error (.group hbreaks) hclosing hlog
  | ofAtom atom ih => exact tracks_begins (.ofAtom atom) ih play
  | ofTerm term ih => exact tracks_begins (.ofTerm term) ih play
  | times left op right ihl ihr => exact tracks_joins (.times left op right) ihl ihr play
  | plus left op right ihl ihr => exact tracks_joins (.plus left op right) ihl ihr play

/-! ## What a trail says -/

section

variable {level : Level} {tree : Tree level} {table behind : Table σ} {events : List Event}
  {total : Int64} {error : RollError}

theorem Trail.row (h : tree.Trail table events total behind) :
    Roll.Row table tree.leaves (throwsOf events) behind := by
  induction h with
  | int value table => exact .nil table
  | dice hread hleaf => exact .cons hread hleaf (.nil _)
  | group _ ih => exact ih
  | begins hbegins _ ih =>
      rw [hbegins.leaves_eq]
      exact ih
  | joins hjoins _ _ _ ihl ihr =>
      rw [hjoins.leaves_eq, throwsOf_concat_applied, throwsOf_append]
      exact ihl.append ihr

theorem Trail.operators_eq (h : tree.Trail table events total behind) :
    operatorsOf events = tree.operators := by
  induction h with
  | int value table => rfl
  | dice hread hleaf => rfl
  | group _ ih => exact ih
  | begins hbegins _ ih => rw [ih, hbegins.operators_eq]
  | joins hjoins _ _ _ ihl ihr =>
      rw [hjoins.operators_eq, operatorsOf_append, operatorsOf_append, ihl, ihr]
      rfl

theorem Trail.succeed (h : tree.Trail table events total behind) : Succeed events := by
  induction h with
  | int value table => simp [Succeed]
  | dice hread hleaf => simp [Succeed]
  | group _ ih => exact ih
  | begins _ _ ih => exact ih
  | @joins _ _ _ _ _ op _ _ _ a b total _ _ _ hjoins _ _ happly ihl ihr =>
      refine (ihl.append ihr).append ?_
      intro left other right happlied
      cases List.mem_singleton.1 happlied
      exact ⟨total, happly⟩

theorem Trail.of_begins {operand : Level} {part : Tree operand} (hbegins : tree.Begins part)
    (h : tree.Trail table events total behind) : part.Trail table events total behind := by
  cases hbegins with
  | ofAtom =>
      cases h with
      | begins hbegins hpart =>
          cases hbegins
          exact hpart
      | joins hjoins => cases hjoins
  | ofTerm =>
      cases h with
      | begins hbegins hpart =>
          cases hbegins
          exact hpart
      | joins hjoins => cases hjoins

theorem Trail.of_joins {inner operand : Level} {left : Tree inner} {op : Operator}
    {right : Tree operand} (hjoins : tree.Joins left op right)
    (h : tree.Trail table events total behind) :
    ∃ first second a b between, left.Trail table first a between ∧
      right.Trail between second b behind ∧ op.apply a b = .ok total ∧
        events = first ++ second ++ [.applied a op b] := by
  cases hjoins with
  | times =>
      cases h with
      | begins hbegins => cases hbegins
      | joins hjoins hleft hright happly =>
          cases hjoins
          exact ⟨_, _, _, _, _, hleft, hright, happly, rfl⟩
  | plus =>
      cases h with
      | begins hbegins => cases hbegins
      | joins hjoins hleft hright happly =>
          cases hjoins
          exact ⟨_, _, _, _, _, hleft, hright, happly, rfl⟩

theorem Breaks.operators_isPrefix (h : tree.Breaks table events error behind) :
    operatorsOf events <+: tree.operators := by
  induction h with
  | dice => exact List.nil_prefix
  | group _ ih => exact ih
  | cancelled => exact List.nil_prefix
  | begins hbegins _ ih =>
      rw [hbegins.operators_eq]
      exact ih
  | left hjoins _ ih =>
      rw [hjoins.operators_eq, List.append_assoc]
      exact ih.trans (List.prefix_append _ _)
  | between hjoins hleft =>
      rw [hjoins.operators_eq, hleft.operators_eq, List.append_assoc]
      exact List.prefix_append _ _
  | right hjoins hleft _ ih =>
      rw [hjoins.operators_eq, operatorsOf_append, hleft.operators_eq, List.append_assoc]
      exact (List.prefix_append_right_inj _).2 (ih.trans (List.prefix_append _ _))
  | operator hjoins hleft hright =>
      rw [hjoins.operators_eq, operatorsOf_append, operatorsOf_append, hleft.operators_eq,
        hright.operators_eq]
      exact List.prefix_rfl

end

/--
Where a roll has failed behind these events.  The first dice of the row have been
thrown, and all operators but the last one have had results: the next dice of the
row fail, a check does, or the last operator has none.
-/
inductive FailsAt (table : Table σ) (texts : List String) (events : List Event)
    (error : RollError) (behind : Table σ) : Prop where
  | dice {rolled : List String} {text : String} {between : Table σ}
      (hfront : rolled ++ [text] <+: texts)
      (hrow : Roll.Row table rolled (throwsOf events) between)
      (hleaf : (Roll.leaf text).effect between = (.error error, behind))
      (hsucceed : Succeed events) : FailsAt table texts events error behind
  | check {rolled : List String} (hfront : rolled <+: texts)
      (hrow : Roll.Row table rolled (throwsOf events) behind)
      (hcancelled : error = .cancelled) (hraised : behind.isCancelled = true)
      (hsucceed : Succeed events) : FailsAt table texts events error behind
  | operator {rolled : List String} {before : List Event} {left : Int64} {op : Operator}
      {right : Int64} (hfront : rolled <+: texts)
      (hrow : Roll.Row table rolled (throwsOf events) behind)
      (hevents : events = before ++ [.applied left op right])
      (happly : op.apply left right = .error error) (hsucceed : Succeed before) :
      FailsAt table texts events error behind

namespace FailsAt

variable {table between behind : Table σ} {texts others : List String}
  {events first : List Event} {error : RollError}

theorem mono (h : FailsAt table texts events error behind) (hfront : texts <+: others) :
    FailsAt table others events error behind := by
  cases h with
  | dice hrolled hrow hleaf hsucceed => exact .dice (hrolled.trans hfront) hrow hleaf hsucceed
  | check hrolled hrow hcancelled hraised hsucceed =>
      exact .check (hrolled.trans hfront) hrow hcancelled hraised hsucceed
  | operator hrolled hrow hevents happly hsucceed =>
      exact .operator (hrolled.trans hfront) hrow hevents happly hsucceed

theorem append (h : FailsAt between others events error behind)
    (hrow : Roll.Row table texts (throwsOf first) between) (hfirst : Succeed first) :
    FailsAt table (texts ++ others) (first ++ events) error behind := by
  have hthrows {rolled : List String} {behind : Table σ}
      (h : Roll.Row between rolled (throwsOf events) behind) :
      Roll.Row table (texts ++ rolled) (throwsOf (first ++ events)) behind := by
    rw [throwsOf_append]
    exact hrow.append h
  cases h with
  | dice hrolled hrest hleaf hsucceed =>
      refine .dice ?_ (hthrows hrest) hleaf (hfirst.append hsucceed)
      rw [List.append_assoc]
      exact (List.prefix_append_right_inj _).2 hrolled
  | check hrolled hrest hcancelled hraised hsucceed =>
      exact .check ((List.prefix_append_right_inj _).2 hrolled) (hthrows hrest) hcancelled hraised
        (hfirst.append hsucceed)
  | operator hrolled hrest hevents happly hsucceed =>
      refine .operator ((List.prefix_append_right_inj _).2 hrolled) (hthrows hrest) ?_ happly
        (hfirst.append hsucceed)
      rw [hevents, List.append_assoc]

end FailsAt

theorem Breaks.failsAt {level : Level} {tree : Tree level} {table behind : Table σ}
    {events : List Event} {error : RollError} (h : tree.Breaks table events error behind) :
    FailsAt table tree.leaves events error behind := by
  induction h with
  | dice hleaf => exact .dice List.prefix_rfl (.nil _) hleaf (by simp [Succeed])
  | group _ ih => exact ih
  | cancelled _ hraised => exact .check List.nil_prefix (.nil _) rfl hraised (by simp [Succeed])
  | begins hbegins _ ih =>
      rw [hbegins.leaves_eq]
      exact ih
  | left hjoins _ ih =>
      rw [hjoins.leaves_eq]
      exact ih.mono (List.prefix_append _ _)
  | between hjoins hleft hraised =>
      rw [hjoins.leaves_eq]
      exact .check (List.prefix_append _ _) hleft.row rfl hraised hleft.succeed
  | right hjoins hleft _ ih =>
      rw [hjoins.leaves_eq]
      exact ih.append hleft.row hleft.succeed
  | operator hjoins hleft hright happly =>
      rw [hjoins.leaves_eq]
      refine .operator List.prefix_rfl ?_ rfl happly (hleft.succeed.append hright.succeed)
      rw [throwsOf_concat_applied, throwsOf_append]
      exact hleft.row.append hright.row

/-- No dice fail by a division, so one by zero is that of the last operator of the log. -/
theorem FailsAt.of_zeroDivision {table behind : Table σ} {texts : List String}
    {events : List Event} (h : FailsAt table texts events .zeroDivision behind) :
    ∃ before left op right, events = before ++ [.applied left op right] ∧
      op.apply left right = .error .zeroDivision := by
  cases h with
  | dice _ _ hleaf => exact absurd rfl (Dice.leaf_ne_zeroDivision hleaf)
  | check _ _ hcancelled => cases hcancelled
  | operator _ _ hevents happly => exact ⟨_, _, _, _, hevents, happly⟩

structure LogsTotal {level : Level} (tree : Tree level) (table : Table σ) (total : Int64)
    (behind : Play σ) : Prop where
  trail : tree.Trail table behind.log.toList total behind.table
  row : Roll.Row table tree.leaves (throwsOf behind.log.toList) behind.table
  operators_eq : operatorsOf behind.log.toList = tree.operators
  succeed : Succeed behind.log.toList
  rolls_eq : (behind.table.rolls : Int) =
    table.rolls + ((throwsOf behind.log.toList).map (·.1.count.toInt)).sum
  total_of_joins : ∀ {inner operand : Level} {left : Tree inner} {op : Operator}
    {right : Tree operand}, tree.Joins left op right →
      ∃ before a b, behind.log.toList = before ++ [.applied a op b] ∧ op.apply a b = .ok total
  total_of_begins : ∀ {operand : Level} {part : Tree operand}, tree.Begins part →
    part.Trail table behind.log.toList total behind.table

theorem logsTotal_of_ok {level : Level} {tree : Tree level} {table : Table σ} {total : Int64}
    {behind : Play σ} (h : tree.roll.outcomeAt table = (.ok total, behind)) :
    tree.LogsTotal table total behind := by
  have htracks := tree.tracks_roll ⟨table, #[]⟩
  rw [show tree.roll.outcome ⟨table, #[]⟩ = (.ok total, behind) from h] at htracks
  cases htracks with
  | total htrail hlog =>
      rw [List.nil_append] at hlog
      rw [← hlog] at htrail
      refine ⟨htrail, htrail.row, htrail.operators_eq, htrail.succeed, htrail.row.rolls_eq, ?_, ?_⟩
      · intro inner operand left op right hjoins
        obtain ⟨first, second, a, b, _, _, _, happly, hevents⟩ := htrail.of_joins hjoins
        exact ⟨first ++ second, a, b, hevents, happly⟩
      · exact fun hbegins => htrail.of_begins hbegins

structure LogsFailure {level : Level} (tree : Tree level) (table : Table σ) (error : RollError)
    (behind : Play σ) (events closing : List Event) : Prop where
  log_eq : behind.log.toList = events ++ closing
  isClosing : IsClosing (error = .cancelled) closing
  breaks : tree.Breaks table events error behind.table
  operators_isPrefix : operatorsOf events <+: tree.operators
  failsAt : FailsAt table tree.leaves events error behind.table

theorem exists_logsFailure_of_error {level : Level} {tree : Tree level} {table : Table σ}
    {error : RollError} {behind : Play σ}
    (h : tree.roll.outcomeAt table = (.error error, behind)) :
    ∃ events closing, tree.LogsFailure table error behind events closing := by
  have htracks := tree.tracks_roll ⟨table, #[]⟩
  rw [show tree.roll.outcome ⟨table, #[]⟩ = (.error error, behind) from h] at htracks
  cases htracks with
  | error hbreaks hclosing hlog =>
      exact ⟨_, _, hlog, hclosing, hbreaks, hbreaks.operators_isPrefix, hbreaks.failsAt⟩

theorem LogsFailure.of_zeroDivision {level : Level} {tree : Tree level} {table : Table σ}
    {behind : Play σ} {events closing : List Event}
    (h : tree.LogsFailure table .zeroDivision behind events closing) :
    ∃ before left op right, behind.log.toList = before ++ [.applied left op right] ∧
      op.apply left right = .error .zeroDivision := by
  obtain ⟨before, left, op, right, hevents, happly⟩ := h.failsAt.of_zeroDivision
  refine ⟨before, left, op, right, ?_, happly⟩
  cases h.isClosing with
  | cancelled hcancelled => cases hcancelled
  | going => rw [h.log_eq, hevents, List.append_nil]

end Tree

/-! ## Cancellation in the log -/

/-- The last line of the log says that the roll is cancelled, and no other does, or none says so. -/
def TellsCancelled (cancelled : Prop) (log : List Event) : Prop :=
  ∃ events closing, log = events ++ closing ∧ (∀ event ∈ events, ¬event.SaysCancelled) ∧
    IsClosing cancelled closing

theorem Report.IsOf.tellsCancelled {report : Report σ} {session : Session σ} {roll : Roll σ α}
    (h : report.IsOf session roll) (hroll : roll.IsOrderly (¬·.SaysCancelled)) :
    TellsCancelled (report.reply.failure? = some (.rolling .cancelled)) report.log.toList := by
  obtain ⟨events, closing, hevents, hclosing, hlog⟩ := hroll.log ⟨session.table, #[]⟩
  rw [h.log_eq, h.cancelled_iff]
  exact ⟨events, closing, hlog, hevents, hclosing⟩

theorem Session.tellsCancelled_step (session : Session σ) (step : Step) :
    TellsCancelled ((session.step step).reply.failure? = some (.rolling .cancelled))
      (session.step step).log.toList := by
  have hquiet : ((session.step step).reply.failure? = some (.rolling .cancelled)) = False →
      (session.step step).log = #[] →
        TellsCancelled ((session.step step).reply.failure? = some (.rolling .cancelled))
          (session.step step).log.toList := by
    intro hreply hlog
    rw [hreply, hlog]
    exact ⟨[], [], rfl, by simp, .going id⟩
  by_cases hstep : step.IsRoll
  · obtain ⟨roll, horderly, hroll⟩ := session.exists_isOf hstep
    exact hroll.tellsCancelled horderly
  · cases step with
    | text | tree | dice => exact absurd trivial hstep
    | check => exact session.isOf_check.tellsCancelled Roll.check_isOrderly
    | cancel | hold | save | cancelNamed =>
        exact hquiet (by simp [step, quietly, Reply.failure?]) rfl

/-! ## The log is a trail -/

/--
The log of a step says that it is cancelled if this is how the step fails, in one
line behind all others, and otherwise it does not say so.  The log of a tree that
comes to a total is its trail, and that of a tree that fails is what there is of
the trail.  Dice on request leave one line, if they come to a total, and checks
leave none but that on cancellation.
-/
theorem log_is_a_faithful_trail {σ : Type} [Source σ] :
    (∀ (session : Session σ) (step : Step),
      TellsCancelled ((session.step step).reply.failure? = some (.rolling .cancelled))
        (session.step step).log.toList) ∧
    (∀ {level : Level} (tree : Tree level) (table : Table σ) (total : Int64) (behind : Play σ),
      tree.roll.outcomeAt table = (.ok total, behind) → tree.LogsTotal table total behind) ∧
    (∀ {level : Level} (tree : Tree level) (table : Table σ) (error : RollError)
      (behind : Play σ), tree.roll.outcomeAt table = (.error error, behind) →
        (∃ events closing, tree.LogsFailure table error behind events closing) ∧
        (error = .zeroDivision → ∃ before left op right,
          behind.log.toList = before ++ [.applied left op right] ∧
            op.apply left right = .error .zeroDivision)) ∧
    (∀ (dice : Dice) (table : Table σ) (total : Int64) (behind : Play σ),
      dice.roll.outcomeAt table = (.ok total, behind) →
        behind.log.toList = [.thrown dice total] ∧
          behind.table.rolls = table.rolls + dice.size) ∧
    (∀ (dice : Dice) (table : Table σ) (error : RollError) (behind : Play σ),
      dice.roll.outcomeAt table = (.error error, behind) →
        IsClosing (error = .cancelled) behind.log.toList) ∧
    ∀ table : Table σ,
      IsClosing ((Roll.check.outcomeAt table).1 = .error .cancelled)
        (Roll.check.outcomeAt table).2.log.toList := by
  refine ⟨Session.tellsCancelled_step, fun _ _ _ _ => Tree.logsTotal_of_ok, ?_, ?_, ?_, ?_⟩
  · intro level tree table error behind h
    obtain ⟨events, closing, hlogs⟩ := Tree.exists_logsFailure_of_error h
    refine ⟨⟨events, closing, hlogs⟩, ?_⟩
    rintro rfl
    exact hlogs.of_zeroDivision
  · intro dice table total behind h
    have heffect : dice.roll.effect table = (.ok total, behind.table) := by
      unfold Roll.effect
      rw [h]
    refine ⟨?_, Dice.rolls_of_ok heffect⟩
    have hlogs := dice.logs_roll ⟨table, #[]⟩
    rw [show dice.roll.outcome ⟨table, #[]⟩ = (.ok total, behind) from h] at hlogs
    cases hlogs with
    | total hlog => exact hlog
  · intro dice table error behind h
    have hlogs := dice.logs_roll ⟨table, #[]⟩
    rw [show dice.roll.outcome ⟨table, #[]⟩ = (.error error, behind) from h] at hlogs
    cases hlogs with
    | error hclosing hlog =>
        rw [hlog]
        exact hclosing
  · intro table
    have hcheck : (Roll.check : Roll σ Unit).IsOrderly fun _ => False := Roll.check_isOrderly
    obtain ⟨closing, hclosing, hlog⟩ := hcheck.quiet_log ⟨table, #[]⟩
    rw [show (Roll.check.outcomeAt table).2.log.toList = closing from hlog]
    exact hclosing

private def vanishing : Expression :=
  .ofTerm (.times (.ofAtom (.int 8)) .div
    (.group (.plus (.ofTerm (.ofAtom (.dice "1d6"))) .sub (.ofAtom (.int 3)))))

private def handicap : Expression :=
  .plus (.ofTerm (.ofAtom (.dice "2d6"))) .sub (.ofAtom (.dice "mid1d20"))

private def threeUp : Table Counting := .fresh none ⟨3, 1⟩

/-- The median of 5, 6 and 7 is taken away from 3 + 4, and then 8 is divided by 3 - 3. -/
theorem log_is_a_faithful_trail_quotient :
    handicap.LogsTotal threeUp 1 (handicap.roll.outcomeAt threeUp).2 ∧
    (∃ before left op right,
      (vanishing.roll.outcomeAt threeUp).2.log.toList = before ++ [.applied left op right] ∧
        op.apply left right = .error .zeroDivision) ∧
    (((Dice.standard 2 6).roll.outcomeAt threeUp).2.log.toList = [.thrown (.standard 2 6) 7] ∧
      ((Dice.standard 2 6).roll.outcomeAt threeUp).2.table.rolls = 2) ∧
    IsClosing (RollError.invalidSides 0 = .cancelled)
      ((Dice.standard 2 0).roll.outcomeAt threeUp).2.log.toList := by
  have hclaim := log_is_a_faithful_trail (σ := Counting)
  have htotal : handicap.roll.outcomeAt threeUp =
      (.ok 1, (handicap.roll.outcomeAt threeUp).2) := by
    rfl
  have hfailure : vanishing.roll.outcomeAt threeUp =
      (.error .zeroDivision, (vanishing.roll.outcomeAt threeUp).2) := by
    rfl
  have hdice : (Dice.standard 2 6).roll.outcomeAt threeUp =
      (.ok 7, ((Dice.standard 2 6).roll.outcomeAt threeUp).2) := by
    rfl
  have hsides : (Dice.standard 2 0).roll.outcomeAt threeUp =
      (.error (.invalidSides 0), ((Dice.standard 2 0).roll.outcomeAt threeUp).2) := by
    rfl
  exact ⟨hclaim.2.1 _ _ _ _ htotal, (hclaim.2.2.1 _ _ _ _ hfailure).2 rfl,
    hclaim.2.2.2.1 _ _ _ _ hdice, hclaim.2.2.2.2.1 _ _ _ _ hsides⟩

end DiceNotation
