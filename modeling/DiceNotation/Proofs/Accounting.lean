import DiceNotation.Roll.Effect
import DiceNotation.Session
import DiceNotation.Source.Counting
import DiceNotation.Source.Cycle
import DiceNotation.Source.Fused

/-!
# Accounting for dice

Dice that have been counted are owed until their values are drawn.  A roll that
comes to a total has counted the dice of its tree and owes nothing; one that fails
owes something only if it is cut short, by its flag or by a number that does not
fit.
-/

namespace DiceNotation

variable {σ α β : Type}

/-- A source that uses up one raw value for every value. -/
class OneByOne (σ : Type) [Source σ] : Prop where
  used_single : ∀ (sides : Sides) (source : σ), (Source.single sides source).used = 1
  used_summand : ∀ (sides : Sides) (source : σ), (Source.summand sides source).used = 1

instance : OneByOne Counting where
  used_single _ _ := rfl
  used_summand _ _ := rfl

theorem Cycle.used_draw (sides : Sides) (source : Cycle) : (draw sides source).used = 1 := by
  unfold draw
  split <;> rfl

instance : OneByOne Cycle where
  used_single := Cycle.used_draw
  used_summand := Cycle.used_draw

def Failure.CutsShort (failure : Failure) : Prop :=
  failure = .rolling .cancelled ∨ failure = .rolling .overflow

instance (failure : Failure) : Decidable failure.CutsShort :=
  inferInstanceAs (Decidable (_ ∨ _))

def Reply.failure? : Reply → Option Failure
  | .text (.error failure) => some failure
  | .roll (.error error) => some (.rolling error)
  | .check (.error error) => some (.rolling error)
  | _ => none

theorem Reply.failure?_text (result : Except RollError Int64) :
    (text (result.mapError .rolling)).failure? = (roll result).failure? := by
  cases result <;> rfl

def Dice.sizeOfLeaf (text : String) : Nat :=
  match Dice.read text with
  | .ok dice => dice.size
  | .error _ => 0

def Tree.size {level : Level} : Tree level → Nat
  | .int _ => 0
  | .dice text => Dice.sizeOfLeaf text
  | .group inner => inner.size
  | .ofAtom atom => atom.size
  | .times left _ right => left.size + right.size
  | .ofTerm term => term.size
  | .plus left _ right => left.size + right.size

def Step.size : Step → Nat
  | .text line =>
      match Expression.read line with
      | .ok expression => expression.size
      | .error _ => 0
  | .tree node => node.size
  | .dice request => request.size
  | _ => 0

/-! ## Programs that pay for their dice -/

namespace Roll

/--
The roll draws what it owes before it counts further dice, and all the dice that
it has still to count are so many.  What it owes is written off if it is cut
short.
-/
inductive Accounts : Roll (Fused σ) α → (owed further : Nat) → Prop where
  | finished (value : α) : Accounts (.finished value) 0 0
  | failed (error : RollError) (further : Nat) : Accounts (.failed error) 0 further
  | cutShort {error : RollError} (h : (Failure.rolling error).CutsShort) (owed further : Nat) :
      Accounts (.failed error) owed further
  | recording {event : Event} {next : Roll (Fused σ) α} {owed further : Nat}
      (hnext : next.Accounts owed further) : Accounts (.recording event next) owed further
  | guarding {event : Nat → Event} {next : Roll (Fused σ) α} {owed further : Nat}
      (hnext : next.Accounts owed further) : Accounts (.guarding event next) owed further
  | charging {dice : Nat} {next : Roll (Fused σ) α} {further : Nat}
      (hnext : next.Accounts dice further) : Accounts (.charging dice next) 0 (dice + further)
  | receiving {draw : Fused σ → Draw (Fused σ)} {next : Nat → Roll (Fused σ) α}
      {owed further : Nat} (hdraw : ∀ fuse, (draw fuse).rest.drawn = fuse.drawn + 1)
      (hnext : ∀ value, (next value).Accounts owed further) :
      Accounts (.receiving draw next) (owed + 1) further

theorem Accounts.bind {roll : Roll (Fused σ) α} {next : α → Roll (Fused σ) β}
    {owed further more : Nat} (h : roll.Accounts owed further)
    (hnext : ∀ value, (next value).Accounts 0 more) :
    (roll >>= next).Accounts owed (further + more) := by
  change (roll.bind next).Accounts owed (further + more)
  induction h with
  | finished value => simpa [Roll.bind] using hnext value
  | failed error further => exact .failed error _
  | cutShort h owed further => exact .cutShort h owed _
  | recording _ ih => exact .recording ih
  | guarding _ ih => exact .guarding ih
  | charging _ ih =>
      rw [Nat.add_assoc]
      exact .charging ih
  | receiving hdraw _ ih => exact .receiving hdraw ih

theorem accounts_ofExcept (result : Except RollError α) :
    (ofExcept result : Roll (Fused σ) α).Accounts 0 0 := by
  cases result with
  | ok value => exact .finished value
  | error error => exact .failed error 0

theorem fit_bind_accounts {total owed further : Nat} {next : Nat → Roll (Fused σ) β}
    (h : ∀ total, (next total).Accounts owed further) :
    (fit total >>= next).Accounts owed further := by
  unfold fit
  split
  · exact h total
  · exact .cutShort (.inr rfl) owed further

theorem checkAmong_bind_accounts {done count owed further : Nat}
    {next : Unit → Roll (Fused σ) β} (h : (next ()).Accounts owed further) :
    (checkAmong done count >>= next).Accounts owed further := by
  unfold checkAmong
  split
  · exact .guarding h
  · exact h

theorem operand_accounts (total : Int64) (op : Operator) {roll : Roll (Fused σ) Int64}
    {further : Nat} (h : roll.Accounts 0 further) :
    (operand total op roll).Accounts 0 further :=
  .guarding (h.bind fun value => .recording (accounts_ofExcept (op.apply total value)))

end Roll

namespace Table

def IsWithin (table : Table σ) : Prop :=
  table.rolls < UInt64.size ∧ ∀ budget ∈ table.budget?, table.rolls ≤ budget

structure Counts (table behind : Table σ) : Prop where
  budget?_eq : behind.budget? = table.budget?
  rolls_le : table.rolls ≤ behind.rolls
  isWithin : table.IsWithin → behind.IsWithin

theorem Counts.refl (table : Table σ) : table.Counts table :=
  ⟨rfl, Nat.le_refl _, id⟩

theorem Counts.trans {first second third : Table σ} (h : first.Counts second)
    (hthird : second.Counts third) : first.Counts third where
  budget?_eq := hthird.budget?_eq.trans h.budget?_eq
  rolls_le := Nat.le_trans h.rolls_le hthird.rolls_le
  isWithin hwithin := hthird.isWithin (h.isWithin hwithin)

theorem Counts.of_charge? {table charged : Table σ} {dice : Nat}
    (h : table.charge? dice = some charged) : table.Counts charged := by
  obtain ⟨hsmall, hbudget, rfl⟩ := charge?_eq_some_iff.1 h
  exact ⟨rfl, Nat.le_add_right table.rolls dice, fun _ => ⟨hsmall, hbudget⟩⟩

/--
What is counted and drawn between two tables: dice of this size if there is no
failure, all of them drawn unless the failure cuts them short.
-/
structure Advances (table behind : Table (Fused σ)) (failure? : Option Failure) (size : Nat) :
    Prop extends table.Counts behind where
  drawn_le : behind.source.drawn + table.rolls ≤ behind.rolls + table.source.drawn
  drawn_eq : (∀ failure ∈ failure?, ¬failure.CutsShort) →
    behind.source.drawn + table.rolls = behind.rolls + table.source.drawn
  rolls_eq : failure? = none → behind.rolls = table.rolls + size

theorem Advances.of_flags {table behind : Table (Fused σ)} (failure? : Option Failure)
    (h : behind = { table with flags := behind.flags, held := behind.held }) :
    table.Advances behind failure? 0 := by
  rw [h]
  exact ⟨⟨rfl, Nat.le_refl _, id⟩, Nat.le_of_eq (Nat.add_comm _ _), fun _ => Nat.add_comm _ _,
    fun _ => rfl⟩

end Table

variable [Source σ]

theorem Roll.counts_effect (roll : Roll σ α) (table : Table σ) :
    table.Counts (roll.effect table).2 :=
  effect_induction Table.Counts .refl .trans .of_charge? (fun _ _ => ⟨rfl, Nat.le_refl _, id⟩)
    roll table

/--
Dice that were counted since the table have been drawn or are owed, and together
with those that are still to be counted they make up the size.
-/
def Stage.IsAccounted (stage : Stage (Fused σ) α) (table : Table (Fused σ)) (size : Nat) : Prop :=
  ∃ owed further, stage.roll.Accounts owed further ∧
    stage.table.source.drawn + owed + table.rolls = stage.table.rolls + table.source.drawn ∧
    stage.table.rolls + further = table.rolls + size

theorem Stage.Next.isAccounted {stage next : Stage (Fused σ) α} {table : Table (Fused σ)}
    {size : Nat} (hnext : stage.Next next) (h : stage.IsAccounted table size) :
    next.IsAccounted table size := by
  obtain ⟨owed, further, hroll, hdrawn, hrolls⟩ := h
  cases hnext with
  | record =>
      cases hroll with
      | recording hrest => exact ⟨owed, further, hrest, hdrawn, hrolls⟩
  | stop =>
      -- The check may be one in the middle of a throw, so that dice stay owed.
      exact ⟨owed, further, .cutShort (.inl rfl) owed further, hdrawn, hrolls⟩
  | pass =>
      cases hroll with
      | guarding hrest => exact ⟨owed, further, hrest, hdrawn, hrolls⟩
  | refuse =>
      cases hroll with
      | charging => exact ⟨0, _, .failed .tooManyRolls _, hdrawn, hrolls⟩
  | charge hcharge =>
      obtain ⟨-, -, rfl⟩ := Table.charge?_eq_some_iff.1 hcharge
      cases hroll with
      | charging hrest =>
          refine ⟨_, _, hrest, ?_, ?_⟩ <;> simp only [Stage.table] at hdrawn hrolls ⊢ <;> omega
  | receive =>
      cases hroll with
      | receiving hdraw hrest =>
          refine ⟨_, further, hrest _, ?_, hrolls⟩
          simp only [Stage.table, Table.accept, hdraw] at hdrawn ⊢
          omega

theorem Roll.Accounts.advances {roll : Roll (Fused σ) Int64} {size : Nat}
    (h : roll.Accounts 0 size) (table : Table (Fused σ)) :
    table.Advances (roll.effect table).2 (Reply.roll (roll.effect table).1).failure? size := by
  obtain ⟨total, hend⟩ := (Stage.start roll ⟨table, #[]⟩).ends
  have hstart : (Stage.start roll ⟨table, #[]⟩).IsAccounted table size :=
    ⟨0, size, h, Nat.add_comm _ _, rfl⟩
  have hlast : ∃ owed further, (ofExcept (roll.effect table).1).Accounts owed further ∧
      (roll.effect table).2.source.drawn + owed + table.rolls =
        (roll.effect table).2.rolls + table.source.drawn ∧
      (roll.effect table).2.rolls + further = table.rolls + size :=
    hend.induction Stage.Next.isAccounted hstart
  have hcounts := counts_effect roll table
  generalize roll.effect table = effect at hlast hcounts
  obtain ⟨owed, further, hroll, hdrawn, hrolls⟩ := hlast
  obtain ⟨error | value, behind⟩ := effect
  case ok =>
      cases hroll
      exact ⟨hcounts, Nat.le_of_eq hdrawn, fun _ => hdrawn, fun _ => hrolls⟩
  case error =>
      refine ⟨hcounts, by omega, fun hwhole => ?_, fun hnone => by cases hnone⟩
      cases hroll with
      | failed => exact hdrawn
      | cutShort hcut => exact absurd hcut (hwhole _ rfl)

section

variable [OneByOne σ]

namespace Roll

theorem drawn_single (sides : Sides) (fuse : Fused σ) :
    (Source.single sides fuse).rest.drawn = fuse.drawn + 1 :=
  congrArg (fuse.drawn + ·) (OneByOne.used_single sides fuse.source)

theorem drawn_summand (sides : Sides) (fuse : Fused σ) :
    (Source.summand sides fuse).rest.drawn = fuse.drawn + 1 :=
  congrArg (fuse.drawn + ·) (OneByOne.used_summand sides fuse.source)

theorem addDice_accounts (sides : Sides) (done left total : Nat) :
    (addDice sides done left total : Roll (Fused σ) Nat).Accounts left 0 := by
  induction left generalizing done total with
  | zero => exact .finished total
  | succ left ih =>
      rw [addDice_succ]
      refine .receiving (drawn_summand sides) fun value => ?_
      exact checkAmong_bind_accounts (fit_bind_accounts fun total => ih (done + 1) total)

theorem throwMiddle_accounts (sides : Sides) :
    (throwMiddle sides : Roll (Fused σ) Nat).Accounts 3 0 := by
  have hfit : ∀ total, (fit total : Roll (Fused σ) Nat).Accounts 0 0 := by
    intro total
    unfold fit
    split
    · exact .finished total
    · exact .failed .overflow 0
  refine .receiving (drawn_single sides) fun a => ?_
  refine .receiving (drawn_single sides) fun b => ?_
  exact .receiving (drawn_single sides) fun c => hfit (median a b c)

end Roll

namespace Dice

theorem total_accounts (dice : Dice) (sides : Sides) :
    (dice.total sides : Roll (Fused σ) Nat).Accounts dice.size 0 := by
  cases hmode : dice.mode with
  | standard => simpa [total, hmode] using Roll.addDice_accounts sides 0 dice.size 0
  | middle => simpa [total, size, hmode] using Roll.throwMiddle_accounts sides

theorem roll_accounts (dice : Dice) : (dice.roll : Roll (Fused σ) Int64).Accounts 0 dice.size := by
  refine .guarding ?_
  cases Sides.ofInt? dice.sides with
  | none => exact .failed _ _
  | some sides =>
      change Roll.Accounts (if _ then _ else _) 0 dice.size
      split
      · exact .failed _ _
      · exact .charging ((total_accounts dice sides).bind fun total => .recording (.finished _))

end Dice

namespace Tree

theorem leaf_accounts (text : String) :
    (Roll.leaf text : Roll (Fused σ) Int64).Accounts 0 (Dice.sizeOfLeaf text) := by
  refine .guarding ?_
  change Roll.Accounts (Roll.ofExcept (Dice.ofLeaf text) >>= fun dice => dice.roll) 0 _
  unfold Dice.ofLeaf Dice.sizeOfLeaf
  cases Dice.read text with
  | error cause => exact .failed _ _
  | ok dice => exact dice.roll_accounts

theorem roll_accounts {level : Level} (tree : Tree level) :
    (tree.roll : Roll (Fused σ) Int64).Accounts 0 tree.size := by
  induction tree with
  | int value => exact .finished value
  | dice text => exact leaf_accounts text
  | group inner ih => exact ih
  | ofAtom atom ih => exact .guarding ih
  | ofTerm term ih => exact .guarding ih
  | times left op right ihl ihr => exact ihl.bind fun total => Roll.operand_accounts total op ihr
  | plus left op right ihl ihr => exact ihl.bind fun total => Roll.operand_accounts total op ihr

end Tree

end

/-! ## Sessions -/

namespace Session

def after (session : Session σ) : List Step → Session σ
  | [] => session
  | step :: steps => (session.step step).session.after steps

theorem step_advances [OneByOne σ] (session : Session (Fused σ)) (step : Step) :
    session.table.Advances (session.step step).session.table (session.step step).reply.failure?
      step.size := by
  cases step with
  | text line =>
      cases hread : Expression.read line with
      | error error =>
          simp only [Session.step, playing, rollText_of_unread hread, Step.size, hread]
          exact .of_flags _ rfl
      | ok expression =>
          simp only [Session.step, playing, rollText_of_read hread, Step.size, hread]
          rw [Reply.failure?_text]
          exact expression.roll_accounts.advances session.table
  | tree node => exact node.roll_accounts.advances session.table
  | dice request => exact request.roll_accounts.advances session.table
  | check =>
      have hbehind : (session.step .check).session.table = session.table :=
        congrArg Prod.snd (Roll.effect_check session.table)
      exact .of_flags _ (by rw [hbehind])
  | cancel => exact .of_flags _ rfl
  | save name => exact .of_flags _ rfl
  | hold name | cancelNamed name =>
      refine .of_flags _ ?_
      simp only [Session.step, quietly, hold, cancel]
      rw [flagOf_table]

theorem after_counts [OneByOne σ] (session : Session (Fused σ)) (steps : List Step) :
    session.table.Counts (session.after steps).table := by
  induction steps generalizing session with
  | nil => exact .refl _
  | cons step steps ih => exact (session.step_advances step).toCounts.trans (ih _)

theorem after_drawn_le [OneByOne σ] {session : Session (Fused σ)}
    (h : session.table.source.drawn ≤ session.table.rolls) (steps : List Step) :
    (session.after steps).table.source.drawn ≤ (session.after steps).table.rolls := by
  induction steps generalizing session with
  | nil => exact h
  | cons step steps ih =>
      have hstep := (session.step_advances step).drawn_le
      apply ih
      omega

theorem after_drawn_eq [OneByOne σ] {session : Session (Fused σ)} {steps : List Step}
    (h : session.table.source.drawn = session.table.rolls)
    (hwhole : ∀ report ∈ session.run steps, ∀ failure ∈ report.reply.failure?,
      ¬failure.CutsShort) :
    (session.after steps).table.source.drawn = (session.after steps).table.rolls := by
  induction steps generalizing session with
  | nil => exact h
  | cons step steps ih =>
      obtain ⟨hfirst, hrest⟩ := List.forall_mem_cons.1 hwhole
      have hstep := (session.step_advances step).drawn_eq hfirst
      exact ih (by omega) hrest

/--
In whatever order a session is used, the dice that have been counted stay within
the budget and within 64 bits, and there are never fewer of them than values
drawn.  There are just as many unless a step has been cut short.  A step never
takes dice back, and one that does not fail counts the dice that its text, tree
or request is made of.
-/
theorem dice_are_accounted_for {σ : Type} [Source σ] [OneByOne σ] (budget? : Option Nat)
    (source : σ) (limit? : Option Nat) (flag : Flag) (steps : List Step) :
    let first := start budget? (⟨source, 0, limit?, flag⟩ : Fused σ)
    let last := first.after steps
    (∀ budget ∈ budget?, last.table.rolls ≤ budget) ∧ last.table.rolls < UInt64.size ∧
      last.table.source.drawn ≤ last.table.rolls ∧
      ((∀ report ∈ first.run steps, ∀ failure ∈ report.reply.failure?, ¬failure.CutsShort) →
        last.table.source.drawn = last.table.rolls) ∧
      ∀ step, last.table.rolls ≤ (last.step step).session.table.rolls ∧
        ((last.step step).reply.failure? = none →
          (last.step step).session.table.rolls = last.table.rolls + step.size) := by
  intro first last
  have hcounts := first.after_counts steps
  have hfirst : first.table.IsWithin := ⟨Nat.two_pow_pos 64, fun budget _ => Nat.zero_le budget⟩
  have hwithin : last.table.IsWithin := hcounts.isWithin hfirst
  refine ⟨?_, hwithin.1, after_drawn_le (Nat.le_refl 0) steps, after_drawn_eq rfl, ?_⟩
  · intro budget hbudget
    exact hwithin.2 budget (hcounts.budget?_eq ▸ hbudget)
  · intro step
    have hstep := last.step_advances step
    exact ⟨hstep.rolls_le, hstep.rolls_eq⟩

private def modest : Session (Fused Counting) := start (some 10) ⟨⟨3, 1⟩, 0, none, 0⟩

private def greedy : List Step :=
  [.tree (.dice "2d6"), .dice (.middle 6), .dice (.standard 6 6)]

theorem dice_are_accounted_for_refused :
    (modest.after greedy).table.rolls ≤ 10 ∧
      (modest.after greedy).table.source.drawn = (modest.after greedy).table.rolls ∧
      ((modest.after greedy).step (.dice (.standard 5 4))).session.table.rolls =
        (modest.after greedy).table.rolls + 5 := by
  obtain ⟨hbudget, -, -, hequal, hstep⟩ :=
    dice_are_accounted_for (some 10) (⟨3, 1⟩ : Counting) none 0 greedy
  have hwhole : ∀ report ∈ modest.run greedy, ∀ failure ∈ report.reply.failure?,
      ¬failure.CutsShort := by decide
  have hanswer : ((modest.after greedy).step (.dice (.standard 5 4))).reply.failure? = none := by
    rfl
  exact ⟨hbudget 10 rfl, hequal hwhole, (hstep _).2 hanswer⟩

example :
    let fuse : Fused Cycle := ⟨⟨2 ^ 63, [], []⟩, 0, none, 0⟩
    let table := ((start none fuse).step (.dice (.standard 3 6))).session.table
    table.rolls = 3 ∧ table.source.drawn = 1 := by
  decide

end Session

end DiceNotation
