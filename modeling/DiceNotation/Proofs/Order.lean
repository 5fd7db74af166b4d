import DiceNotation.Proofs.Requests

/-!
# Orderly rolls

The rolls of dice and trees take their values from the source as it yields them,
and nothing but their checks cancels them.  A check that cancels a roll says so
in the log, and nothing is recorded behind that.
-/

namespace DiceNotation

variable {σ α β : Type}

theorem Numeral.exists_write (number : Int64) :
    ∃ first rest, (write number).toList = first :: rest ∧ (first = '-' ∨ first.isDigit) := by
  obtain ⟨hne, hdigits⟩ := isDigits_repr number.toInt.natAbs
  unfold write
  split
  case isTrue => exact ⟨'-', _, String.toList_append, .inl rfl⟩
  case isFalse =>
      cases hrepr : number.toInt.natAbs.repr.toList with
      | nil => exact absurd hrepr hne
      | cons first rest => exact ⟨first, rest, rfl, .inr (hdigits first (by simp [hrepr]))⟩

namespace Event

def SaysCancelled (event : Event) : Prop :=
  "TRACE roll cancelled after ".toList <+: event.line.toList

theorem saysCancelled_cancelled (rolls : Nat) : (cancelled rolls).SaysCancelled := by
  unfold SaysCancelled
  rw [line_cancelled, String.append_assoc, String.toList_append]
  exact List.prefix_append _ _

theorem saysCancelled_cancelledAmong (done count : Nat) :
    (cancelledAmong done count).SaysCancelled := by
  unfold SaysCancelled
  rw [line_cancelledAmong]
  simp only [String.append_assoc, String.toList_append]
  exact List.prefix_append _ _

theorem not_saysCancelled_thrown (dice : Dice) (total : Int64) :
    ¬(thrown dice total).SaysCancelled := by
  unfold SaysCancelled
  rw [line_thrown]
  simp [String.toList_append]

theorem not_saysCancelled_applied (left : Int64) (op : Operator) (right : Int64) :
    ¬(applied left op right).SaysCancelled := by
  obtain ⟨first, rest, hwrite, hfirst⟩ := Numeral.exists_write left
  unfold SaysCancelled
  rw [line_applied]
  simp only [String.toList_append, hwrite, List.append_assoc]
  intro h
  have hr : 'r' = first := by
    simp at h
    exact h.1
  subst hr
  simp at hfirst

end Event

/-- The lines behind all others: one that says so if a roll is cancelled, and none if it is not. -/
inductive IsClosing (cancelled : Prop) : List Event → Prop where
  | going (h : ¬cancelled) : IsClosing cancelled []
  | cancelled {event : Event} (h : cancelled) (hevent : event.SaysCancelled) :
      IsClosing cancelled [event]

/-! ## Programs -/

theorem Operator.apply_ne_cancelled (op : Operator) (left right : Int64) :
    op.apply left right ≠ .error .cancelled := by
  unfold apply
  split
  · exact fun h => by cases h
  · split <;> exact fun h => by cases h

theorem Dice.ofLeaf_ne_cancelled (text : String) : ofLeaf text ≠ .error .cancelled := by
  unfold ofLeaf
  cases read text <;> exact fun h => by cases h

namespace Roll

section

variable [Source σ] {Records : Event → Prop}

/-- The roll uses the source as it is, records such events, and only its checks cancel it. -/
def IsOrderly (Records : Event → Prop) : Roll σ α → Prop
  | .finished _ => True
  | .failed error => error ≠ .cancelled
  | .recording event next => Records event ∧ next.IsOrderly Records
  | .guarding event next => (∀ rolls, (event rolls).SaysCancelled) ∧ next.IsOrderly Records
  | .charging _ next => next.IsOrderly Records
  | .receiving draw next =>
      (∃ sides, draw = Source.single sides ∨ draw = Source.summand sides) ∧
        ∀ value, (next value).IsOrderly Records

theorem IsOrderly.bind {roll : Roll σ α} {next : α → Roll σ β} (h : roll.IsOrderly Records)
    (hnext : ∀ value, (next value).IsOrderly Records) : (roll >>= next).IsOrderly Records := by
  change (roll.bind next).IsOrderly Records
  induction roll with
  | finished value => exact hnext value
  | failed error => exact h
  | recording event roll ih => exact ⟨h.1, ih h.2⟩
  | guarding event roll ih => exact ⟨h.1, ih h.2⟩
  | charging dice roll ih => exact ih h
  | receiving draw roll ih => exact ⟨h.1, fun value => ih value (h.2 value)⟩

theorem ofExcept_isOrderly_iff {result : Except RollError α} :
    (ofExcept result : Roll σ α).IsOrderly Records ↔ result ≠ .error .cancelled := by
  cases result with
  | ok value =>
      change True ↔ _
      simp
  | error error =>
      change error ≠ .cancelled ↔ _
      simp

theorem check_isOrderly : (check : Roll σ Unit).IsOrderly Records :=
  ⟨Event.saysCancelled_cancelled, trivial⟩

theorem fit_isOrderly (total : Nat) : (fit total : Roll σ Nat).IsOrderly Records := by
  unfold fit
  split
  · trivial
  · exact fun h => by cases h

theorem checkAmong_isOrderly (done count : Nat) :
    (checkAmong done count : Roll σ Unit).IsOrderly Records := by
  unfold checkAmong
  split
  · exact ⟨fun _ => Event.saysCancelled_cancelledAmong done count, trivial⟩
  · trivial

theorem addDice_isOrderly (sides : Sides) (done left total : Nat) :
    (addDice sides done left total : Roll σ Nat).IsOrderly Records := by
  induction left generalizing done total with
  | zero => trivial
  | succ left ih =>
      rw [addDice_succ]
      refine ⟨⟨sides, .inr rfl⟩, fun value => (checkAmong_isOrderly _ _).bind fun _ => ?_⟩
      exact (fit_isOrderly _).bind fun total => ih (done + 1) total

theorem throwMiddle_isOrderly (sides : Sides) :
    (throwMiddle sides : Roll σ Nat).IsOrderly Records := by
  have hreceive : (receive (Source.single sides) : Roll σ Nat).IsOrderly Records :=
    ⟨⟨sides, .inl rfl⟩, fun _ => trivial⟩
  exact hreceive.bind fun a => hreceive.bind fun b => hreceive.bind fun c => fit_isOrderly _

theorem operand_isOrderly (total : Int64) (op : Operator) {roll : Roll σ Int64}
    (h : roll.IsOrderly Records) (hrecords : ∀ value, Records (.applied total op value)) :
    (operand total op roll).IsOrderly Records := by
  refine check_isOrderly.bind fun _ => h.bind fun value => ⟨hrecords value, ?_⟩
  exact ofExcept_isOrderly_iff.2 (op.apply_ne_cancelled total value)

end

end Roll

section

variable [Source σ] {Records : Event → Prop}

theorem Dice.total_isOrderly (dice : Dice) (sides : Sides) :
    (dice.total sides : Roll σ Nat).IsOrderly Records := by
  unfold total
  split
  · exact Roll.addDice_isOrderly sides 0 dice.size 0
  · exact Roll.throwMiddle_isOrderly sides

def Dice.throw (dice : Dice) : Roll σ Nat := do
  Roll.check
  match Sides.ofInt? dice.sides with
  | none => Roll.fail (.invalidSides dice.sides)
  | some sides =>
      if dice.mode = .standard ∧ dice.count.toInt < 0 then
        Roll.fail (.invalidCount dice.count)
      Roll.charge dice.size
      dice.total sides

theorem Dice.roll_eq_throw (dice : Dice) :
    (dice.roll : Roll σ Int64) = dice.throw >>= dice.announce := by
  unfold roll throw
  cases Sides.ofInt? dice.sides with
  | none => rfl
  | some sides =>
      by_cases hcount : dice.mode = .standard ∧ dice.count.toInt < 0
      · simp only [if_pos hcount]
        rfl
      · simp only [if_neg hcount]
        rfl

theorem Dice.throw_isOrderly (dice : Dice) : (dice.throw : Roll σ Nat).IsOrderly Records := by
  refine Roll.check_isOrderly.bind fun _ => ?_
  cases Sides.ofInt? dice.sides with
  | none => exact fun h => by cases h
  | some sides =>
      change Roll.IsOrderly Records (if _ then _ else _)
      split
      · exact fun h => by cases h
      · exact dice.total_isOrderly sides

theorem Dice.roll_isOrderly (dice : Dice) (hrecords : ∀ total, Records (.thrown dice total)) :
    (dice.roll : Roll σ Int64).IsOrderly Records := by
  rw [roll_eq_throw]
  exact dice.throw_isOrderly.bind fun total => ⟨hrecords _, trivial⟩

theorem Roll.leaf_isOrderly (text : String)
    (hrecords : ∀ dice total, Records (.thrown dice total)) :
    (leaf text : Roll σ Int64).IsOrderly Records := by
  have hread : (ofExcept (Dice.ofLeaf text) : Roll σ Dice).IsOrderly Records :=
    ofExcept_isOrderly_iff.2 (Dice.ofLeaf_ne_cancelled text)
  exact check_isOrderly.bind fun _ => hread.bind fun dice => dice.roll_isOrderly (hrecords dice)

theorem Tree.roll_isOrderly {level : Level} (tree : Tree level)
    (hthrown : ∀ dice total, Records (.thrown dice total))
    (happlied : ∀ left op right, Records (.applied left op right)) :
    (tree.roll : Roll σ Int64).IsOrderly Records := by
  have hoperand {total : Int64} {op : Operator} {roll : Roll σ Int64}
      (h : roll.IsOrderly Records) : (Roll.operand total op roll).IsOrderly Records :=
    Roll.operand_isOrderly total op h (happlied total op)
  induction tree with
  | int value => trivial
  | dice text => exact Roll.leaf_isOrderly text hthrown
  | group inner ih => exact ih
  | ofAtom atom ih => exact Roll.check_isOrderly.bind fun _ => ih
  | ofTerm term ih => exact Roll.check_isOrderly.bind fun _ => ih
  | times left op right ihl ihr => exact ihl.bind fun total => hoperand ihr
  | plus left op right ihl ihr => exact ihl.bind fun total => hoperand ihr

end

section

variable [Source σ] {Records : Event → Prop}

/--
Behind a log, such events have been recorded.  The roll goes on in order, or one
of its checks has just cancelled it and said so.
-/
inductive Stage.IsOrderly (Records : Event → Prop) (log : List Event) (stage : Stage σ α) :
    Prop where
  | going (events : List Event) (hroll : stage.roll.IsOrderly Records)
      (hevents : ∀ event ∈ events, Records event)
      (hlog : stage.play.log.toList = log ++ events) : IsOrderly Records log stage
  | cancelled (events : List Event) (last : Event) (hroll : stage.roll = .failed .cancelled)
      (hraised : stage.table.isCancelled = true) (hevents : ∀ event ∈ events, Records event)
      (hlast : last.SaysCancelled)
      (hlog : stage.play.log.toList = log ++ events ++ [last]) : IsOrderly Records log stage

theorem Stage.Next.isOrderly {stage next : Stage σ α} {log : List Event}
    (hnext : stage.Next next) (h : stage.IsOrderly Records log) : next.IsOrderly Records log := by
  cases h with
  | cancelled events last hroll =>
      -- a roll that has failed does not go on
      cases hnext <;> cases hroll
  | going events hroll hevents hlog =>
      cases hnext with
      | @record event =>
          refine .going (events ++ [event]) hroll.2 ?_ ?_
          · simpa [or_imp, forall_and] using ⟨hevents, hroll.1⟩
          · rw [Array.toList_push, hlog, List.append_assoc]
      | @stop event rest play taken hraised =>
          refine .cancelled events _ rfl hraised hevents (hroll.1 play.table.rolls) ?_
          rw [Array.toList_push, hlog]
      | pass => exact .going events hroll.2 hevents hlog
      | refuse => exact .going events (fun h => by cases h) hevents hlog
      | charge => exact .going events hroll hevents hlog
      | receive => exact .going events (hroll.2 _) hevents hlog

theorem Roll.IsOrderly.start {roll : Roll σ α} (h : roll.IsOrderly Records) (play : Play σ) :
    (Stage.start roll play).IsOrderly Records play.log.toList :=
  .going [] h (by simp) (by simp [Stage.start])

theorem Roll.IsOrderly.exists_stage {roll : Roll σ α} (h : roll.IsOrderly Records)
    (play : Play σ) :
    ∃ taken, Stage.IsOrderly Records play.log.toList
      ⟨ofExcept (roll.outcome play).1, (roll.outcome play).2, taken⟩ := by
  obtain ⟨taken, hend⟩ := (Stage.start roll play).ends
  exact ⟨taken, hend.induction Stage.Next.isOrderly (h.start play)⟩

omit [Source σ] in
theorem Roll.ofExcept_eq_cancelled {result : Except RollError α}
    (h : (ofExcept result : Roll σ α) = .failed .cancelled) : result = .error .cancelled := by
  cases result with
  | ok value => cases h
  | error error => exact congrArg Except.error (Roll.failed.inj h)

theorem Roll.IsOrderly.log {roll : Roll σ α} (h : roll.IsOrderly Records) (play : Play σ) :
    ∃ events closing, (∀ event ∈ events, Records event) ∧
      IsClosing ((roll.outcome play).1 = .error .cancelled) closing ∧
        (roll.outcome play).2.log.toList = play.log.toList ++ events ++ closing := by
  obtain ⟨taken, hlast⟩ := h.exists_stage play
  cases hlast with
  | going events hroll hevents hlog =>
      exact ⟨events, [], hevents, .going (ofExcept_isOrderly_iff.1 hroll),
        hlog.trans (List.append_nil _).symm⟩
  | cancelled events last hroll _ hevents hlast hlog =>
      exact ⟨events, [last], hevents, .cancelled (ofExcept_eq_cancelled hroll) hlast, hlog⟩

theorem Roll.IsOrderly.isCancelled {roll : Roll σ α} (h : roll.IsOrderly Records)
    {play : Play σ} (hresult : (roll.outcome play).1 = .error .cancelled) :
    (roll.outcome play).2.table.isCancelled = true := by
  obtain ⟨taken, hlast⟩ := h.exists_stage play
  cases hlast with
  | going _ hroll => exact absurd hresult (ofExcept_isOrderly_iff.1 hroll)
  | cancelled _ _ _ hraised => exact hraised

end

variable [Source σ]

structure Report.IsOf (report : Report σ) (session : Session σ) (roll : Roll σ α) : Prop where
  log_eq : report.log = (roll.outcomeAt session.table).2.log
  session_eq : report.session = { session with table := (roll.effect session.table).2 }
  cancelled_iff : report.reply.failure? = some (.rolling .cancelled) ↔
    (roll.effect session.table).1 = .error .cancelled

def Step.IsRoll : Step → Prop
  | .text _ | .tree _ | .dice _ => True
  | _ => False

namespace Session

theorem isOf_roll (session : Session σ) (roll : Roll σ Int64) :
    (session.playing .roll (roll.outcomeAt session.table)).IsOf session roll := by
  refine ⟨rfl, rfl, ?_⟩
  simp only [playing, Roll.effect]
  cases (roll.outcomeAt session.table).1 <;> simp [Reply.failure?]

theorem isOf_check (session : Session σ) : (session.step .check).IsOf session Roll.check := by
  refine ⟨rfl, rfl, ?_⟩
  simp only [step, playing, Roll.effect]
  cases (Roll.check.outcomeAt session.table).1 <;> simp [Reply.failure?]

theorem exists_isOf (session : Session σ) {step : Step} (h : step.IsRoll) :
    ∃ roll : Roll σ Int64, roll.IsOrderly (¬·.SaysCancelled) ∧
      (session.step step).IsOf session roll := by
  have htree {level : Level} (tree : Tree level) :
      (tree.roll : Roll σ Int64).IsOrderly (¬·.SaysCancelled) :=
    tree.roll_isOrderly Event.not_saysCancelled_thrown Event.not_saysCancelled_applied
  cases step with
  | tree tree => exact ⟨tree.roll, htree tree, session.isOf_roll _⟩
  | dice dice =>
      have hdice : (dice.roll : Roll σ Int64).IsOrderly (¬·.SaysCancelled) :=
        dice.roll_isOrderly (Event.not_saysCancelled_thrown dice)
      exact ⟨dice.roll, hdice, session.isOf_roll _⟩
  | text text =>
      cases hread : Expression.read text with
      | error error =>
          -- nothing is rolled, as in a roll that is finished from the start
          simp only [Session.step, rollText_of_unread hread]
          refine ⟨.finished 0, trivial, rfl, rfl, ?_⟩
          simp [playing, Reply.failure?, Roll.effect, Roll.outcomeAt, Roll.outcome]
      | ok tree =>
          simp only [Session.step, rollText_of_read hread]
          have hroll := session.isOf_roll (tree.roll : Roll σ Int64)
          refine ⟨tree.roll, htree tree, rfl, rfl, ?_⟩
          rw [← hroll.cancelled_iff]
          simp only [playing, Reply.failure?_text]
  | _ => exact h.elim

end Session

end DiceNotation
