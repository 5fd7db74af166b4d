import DiceNotation.Proofs.Evaluation
import DiceNotation.Proofs.Stopping
import DiceNotation.Roll.Stage
import DiceNotation.Session
import DiceNotation.Source.Counting
import DiceNotation.Source.Fused

/-!
# Cancellation

Once the flag of a table is up, the roll that is under way stops promptly, rolls
that follow fail at once, and a session is idle until it holds another flag.
-/

namespace DiceNotation

variable {σ α : Type} [Source σ]

namespace Stage

def IsPrompt (stage : Stage σ α) : Prop :=
  stage.roll.StopsPromptly ∧
    (stage.table.isCancelled = true → stage.roll.StopsWithin 256)

theorem Next.isPrompt {stage next : Stage σ α} (hnext : stage.Next next) (h : stage.IsPrompt) :
    next.IsPrompt := by
  obtain ⟨hprompt, hstops⟩ := h
  cases hnext with
  | record => exact ⟨hprompt, hstops⟩
  | stop => exact ⟨trivial, fun _ => trivial⟩
  | pass hfree => exact ⟨hprompt, fun hcancelled => absurd hcancelled (Bool.eq_false_iff.1 hfree)⟩
  | refuse => exact ⟨trivial, fun _ => trivial⟩
  | charge hcharge =>
      obtain ⟨-, -, rfl⟩ := Table.charge?_eq_some_iff.1 hcharge
      exact ⟨hprompt, fun hcancelled => (hstops hcancelled).elim⟩
  | receive => exact ⟨(hprompt _).2, fun _ => (hprompt _).1⟩

theorem Next.stopsWithin {stage next : Stage σ α} {limit : Nat} (hnext : stage.Next next)
    (hcancelled : stage.table.isCancelled = true) (hstops : stage.roll.StopsWithin limit) :
    next.table.isCancelled = true ∧ next.table.rolls = stage.table.rolls ∧
      ∃ left, next.taken + left ≤ stage.taken + limit ∧ next.roll.StopsWithin left := by
  cases hnext with
  | record => exact ⟨hcancelled, rfl, limit, Nat.le_refl _, hstops⟩
  | stop => exact ⟨hcancelled, rfl, limit, Nat.le_refl _, trivial⟩
  | pass hfree => exact absurd hcancelled (Bool.eq_false_iff.1 hfree)
  | refuse => exact hstops.elim
  | charge => exact hstops.elim
  | receive =>
      obtain ⟨hpos, hrest⟩ := hstops
      refine ⟨Table.isCancelled_accept _ hcancelled, rfl, limit - 1, ?_, hrest _⟩
      simp only
      omega

theorem Reaches.stopsWithin {stage later : Stage σ α} {limit : Nat}
    (h : stage.Reaches later) (hcancelled : stage.table.isCancelled = true)
    (hstops : stage.roll.StopsWithin limit) :
    later.table.isCancelled = true ∧ later.table.rolls = stage.table.rolls ∧
      later.taken ≤ stage.taken + limit := by
  induction h generalizing limit with
  | refl stage => exact ⟨hcancelled, rfl, Nat.le_add_right _ _⟩
  | next hnext _ ih =>
      obtain ⟨hraised, hrolls, left, hleft, hrest⟩ := hnext.stopsWithin hcancelled hstops
      obtain ⟨hlater, hcount, htaken⟩ := ih hraised hrest
      exact ⟨hlater, hcount.trans hrolls, by omega⟩

end Stage

theorem Dice.effect_roll_of_cancelled {table : Table σ} (h : table.isCancelled = true)
    (dice : Dice) : dice.roll.effect table = (.error .cancelled, table) :=
  Roll.effect_check_bind_of_cancelled h _

namespace Tree

theorem number?_sum (tree : Tree .sum) : tree.number? = none := by
  cases tree <;> rfl

theorem number?_product (tree : Tree .product) : tree.number? = none := by
  cases tree <;> rfl

theorem effect_roll_of_cancelled {level : Level} {table : Table σ}
    (h : table.isCancelled = true) (tree : Tree level) :
    tree.roll.effect table =
      (match tree.number? with
        | some value => .ok value
        | none => .error .cancelled, table) := by
  induction tree with
  | int value => rfl
  | dice text => exact Roll.effect_check_bind_of_cancelled h _
  | group inner ih =>
      rw [number?_sum] at ih
      exact ih
  | ofAtom atom ih => exact Roll.effect_check_bind_of_cancelled h _
  | times left op right ihl ihr =>
      rw [number?_product] at ihl
      exact Roll.effect_bind_of_error ihl _
  | ofTerm term ih => exact Roll.effect_check_bind_of_cancelled h _
  | plus left op right ihl ihr =>
      rw [number?_sum] at ihl
      exact Roll.effect_bind_of_error ihl _

/--
The flag goes up while the dice at the right end are thrown: it is down behind
all dice in front of them, and up behind them.
-/
def IsCancelledAtLast {level : Level} (tree : Tree level) (table : Table σ) : Prop :=
  ∃ text texts totals between, tree.lastAtom = .dice text ∧ tree.leaves = texts ++ [text] ∧
    (Roll.leaves texts).effect table = (.ok totals, between) ∧ between.isCancelled = false ∧
    ((Roll.leaf text).effect between).2.isCancelled = true

theorem behind_eq_of_number {level : Level} {tree : Tree level} {table behind : Table σ}
    {result : Except RollError Int64} (hnumber : tree.number? ≠ none)
    (h : tree.roll.effect table = (result, behind)) : table = behind := by
  cases tree with
  | int value => exact congrArg Prod.snd h
  | _ => exact absurd rfl hnumber

theorem number?_eq_none_of_roll {level : Level} {tree : Tree level} {table behind : Table σ}
    {result : Except RollError Int64} (h : tree.roll.effect table = (result, behind))
    (hfree : table.isCancelled = false) (hcancelled : behind.isCancelled = true) :
    tree.number? = none := by
  apply Decidable.byContradiction
  intro hnumber
  rw [behind_eq_of_number hnumber h, hcancelled] at hfree
  cases hfree

theorem IsCancelledAtLast.of_chain {first last level : Level} {tree : Tree level}
    (left : Tree first) {op : Operator} (right : Tree last) {table behind : Table σ}
    {total : Int64} (hlast : tree.lastAtom = right.lastAtom)
    (hleaves : tree.leaves = left.leaves ++ right.leaves)
    (hright : ∀ {table total}, right.roll.effect table = (.ok total, behind) →
      right.number? ≠ none ∨ right.IsCancelledAtLast table)
    (hcancelled : behind.isCancelled = true)
    (h : (left.roll >>= fun value => Roll.operand value op right.roll).effect table =
      (.ok total, behind)) : tree.IsCancelledAtLast table := by
  obtain ⟨a, between, b, ha, hfree, hb, -⟩ := Roll.effect_chain_eq_ok_iff.1 h
  have hnone := number?_eq_none_of_roll hb hfree hcancelled
  have hoperand := (hright hb).resolve_left fun hnumber => hnumber hnone
  obtain ⟨text, texts, others, before, hatom, hrow, hothers, hdown, hraised⟩ := hoperand
  obtain ⟨totals, htotals, -⟩ := leaves_of_roll ha
  have htexts : tree.leaves = (left.leaves ++ texts) ++ [text] := by
    rw [hleaves, hrow, List.append_assoc]
  have hbefore : (Roll.leaves (left.leaves ++ texts)).effect table =
      (.ok (totals ++ others), before) :=
    Roll.effect_leaves_append_eq_ok_iff.2 ⟨totals, between, others, htotals, hothers, rfl⟩
  exact ⟨text, left.leaves ++ texts, totals ++ others, before, hlast.trans hatom, htexts, hbefore,
    hdown, hraised⟩

theorem isCancelledAtLast_of_roll {level : Level} {tree : Tree level} {table behind : Table σ}
    {total : Int64} (h : tree.roll.effect table = (.ok total, behind))
    (hcancelled : behind.isCancelled = true) :
    tree.number? ≠ none ∨ tree.IsCancelledAtLast table := by
  induction tree generalizing table total with
  | int value => exact .inl (Option.some_ne_none value)
  | dice text =>
      have hfree := (Roll.effect_checked_eq_ok_iff.1 h).1
      have hbehind : ((Roll.leaf text).effect table).2 = behind := congrArg Prod.snd h
      exact .inr ⟨text, [], [], table, rfl, rfl, rfl, hfree, hbehind ▸ hcancelled⟩
  | group inner ih => exact .inr ((ih h).resolve_left (by simp [number?_sum]))
  | ofAtom atom ih =>
      obtain ⟨hfree, hatom⟩ := Roll.effect_checked_eq_ok_iff.1 h
      exact .inr ((ih hatom).resolve_left (by simp [number?_eq_none_of_roll hatom hfree hcancelled]))
  | ofTerm term ih =>
      obtain ⟨-, hterm⟩ := Roll.effect_checked_eq_ok_iff.1 h
      exact .inr ((ih hterm).resolve_left (by simp [number?_product]))
  | times left op right ihl ihr => exact .inr (.of_chain left right rfl rfl ihr hcancelled h)
  | plus left op right ihl ihr => exact .inr (.of_chain left right rfl rfl ihr hcancelled h)

end Tree

theorem rollText_of_cancelled {table : Table σ} (h : table.isCancelled = true) (text : String) :
    (rollText text table).2.table = table := by
  cases hread : Expression.read text with
  | error error => rw [rollText_of_unread hread]
  | ok tree =>
      rw [rollText_of_read hread]
      exact congrArg Prod.snd (tree.effect_roll_of_cancelled h)

/-! ## Sessions -/

namespace Session

def HoldsRaised (session : Session σ) : List Step → Prop
  | [] => True
  | step :: steps =>
      (∀ name, step = .hold name → (session.step step).session.table.isCancelled = true) ∧
        (session.step step).session.HoldsRaised steps

structure IsIdle (session later : Session σ) : Prop where
  isCancelled : later.table.isCancelled = true
  rolls : later.table.rolls = session.table.rolls
  source : later.table.source = session.table.source

omit [Source σ] in
theorem IsIdle.trans {first second third : Session σ} (h : first.IsIdle second)
    (hthird : second.IsIdle third) : first.IsIdle third :=
  ⟨hthird.isCancelled, hthird.rolls.trans h.rolls, hthird.source.trans h.source⟩

omit [Source σ] in
theorem isIdle_playing {α : Type} {session : Session σ} (h : session.table.isCancelled = true)
    (answer : α → Reply) {result : α × Play σ} (hresult : result.2.table = session.table) :
    session.IsIdle (session.playing answer result).session := by
  refine ⟨?_, ?_, ?_⟩ <;> simp only [playing, hresult, h]

theorem isIdle_step {session : Session σ} {step : Step} (h : session.table.isCancelled = true)
    (hhold : ∀ name, step = .hold name → (session.step step).session.table.isCancelled = true) :
    session.IsIdle (session.step step).session := by
  cases step with
  | text text => exact isIdle_playing h .text (rollText_of_cancelled h text)
  | tree tree =>
      exact isIdle_playing h .roll (congrArg Prod.snd (tree.effect_roll_of_cancelled h))
  | dice dice =>
      exact isIdle_playing h .roll (congrArg Prod.snd (dice.effect_roll_of_cancelled h))
  | check => exact isIdle_playing h .check (congrArg Prod.snd (Roll.effect_check session.table))
  | cancel => exact ⟨isCancelled_cancel h _, rfl, rfl⟩
  | hold name =>
      have hrolls := congrArg Table.rolls (session.flagOf_table name)
      have hsource := congrArg Table.source (session.flagOf_table name)
      exact ⟨hhold name rfl, hrolls, hsource⟩
  | save name => exact ⟨h, rfl, rfl⟩
  | cancelNamed name =>
      have hcancelled := (session.isCancelled_flagOf name).trans h
      have hrolls := congrArg Table.rolls (session.flagOf_table name)
      have hsource := congrArg Table.source (session.flagOf_table name)
      exact ⟨isCancelled_cancel hcancelled _, hrolls, hsource⟩

theorem isIdle_run {session : Session σ} {steps : List Step}
    (h : session.table.isCancelled = true) (hsteps : session.HoldsRaised steps) :
    ∀ report ∈ session.run steps, session.IsIdle report.session := by
  induction steps generalizing session with
  | nil => exact fun report hreport => by cases hreport
  | cons step steps ih =>
      obtain ⟨hhold, hsteps⟩ := hsteps
      have hidle := isIdle_step h hhold
      intro report hreport
      rcases List.mem_cons.1 hreport with rfl | hlater
      · exact hidle
      · exact hidle.trans (ih hidle.isCancelled hsteps report hlater)

end Session

theorem Stage.start_isPrompt {level : Level} (tree : Tree level) (play : Play σ) :
    (start tree.roll play).IsPrompt :=
  ⟨tree.roll_stopsPromptly, fun _ => tree.roll_stopsWithin.mono (Nat.zero_le 256)⟩

/--
From the stage at which the flag is up, no dice are counted and at most 256
further values are taken, and there is a total only for a number that stands by
itself or if the flag went up at the last atom.  If the flag is up from the
start, no value is taken.  While a session holds a flag that is up, none is taken
and nothing is counted in any step.
-/
theorem cancellation_is_prompt {σ : Type} [Source σ] :
    (∀ {level : Level} (tree : Tree level) (play : Play σ) (stage : Stage σ Int64),
      (Stage.start tree.roll play).Reaches stage → stage.table.isCancelled = true →
        (∀ later, stage.Reaches later → later.table.rolls = stage.table.rolls ∧
          later.taken ≤ stage.taken + 256) ∧
        ∀ total, (tree.roll.outcome play).1 = .ok total →
          tree.number? ≠ none ∨ tree.IsCancelledAtLast play.table) ∧
    (∀ {level : Level} (tree : Tree level) (play : Play σ), play.table.isCancelled = true →
      (∀ later, (Stage.start tree.roll play).Reaches later →
        later.table.rolls = play.table.rolls ∧ later.taken = 0) ∧
      (tree.roll.outcome play).1 =
        match tree.number? with
        | some value => .ok value
        | none => .error .cancelled) ∧
    ∀ (session : Session σ) (steps : List Step), session.table.isCancelled = true →
      session.HoldsRaised steps → ∀ report ∈ session.run steps, session.IsIdle report.session := by
  refine ⟨?_, ?_, ?_⟩
  · intro level tree play stage hreach hcancelled
    have hprompt : stage.IsPrompt :=
      hreach.induction Stage.Next.isPrompt (Stage.start_isPrompt tree play)
    have hstops := hprompt.2 hcancelled
    constructor
    · intro later hlater
      exact (hlater.stopsWithin hcancelled hstops).2
    · intro total htotal
      obtain ⟨taken, hend⟩ := stage.ends
      have hraised := (hend.stopsWithin hcancelled hstops).1
      rw [← hreach.outcome_eq] at hraised
      have heffect : tree.roll.effect play.table = (.ok total, (tree.roll.outcome play).2.table) := by
        rw [Roll.effect_eq_outcome, htotal]
      exact Tree.isCancelledAtLast_of_roll heffect hraised
  · intro level tree play hcancelled
    constructor
    · intro later hlater
      obtain ⟨-, hrolls, htaken⟩ := hlater.stopsWithin hcancelled tree.roll_stopsWithin
      exact ⟨hrolls, Nat.le_zero.1 htaken⟩
    · have heffect := tree.effect_roll_of_cancelled hcancelled
      rw [Roll.effect_eq_outcome] at heffect
      exact congrArg Prod.fst heffect
  · intro session steps hcancelled hholds
    exact Session.isIdle_run hcancelled hholds

/-- The source of the table raises its flag along with the first value. -/
private def fused : Table (Fused Counting) := .fresh none ⟨⟨4, 1⟩, 0, some 1, 0⟩

private def raised : Session (Fused Counting) :=
  ⟨{ fused with rolls := 5, flags := ⟨#[true]⟩ }, [("main", 0)]⟩

theorem cancellation_is_prompt_fused :
    (∃ stage : Stage (Fused Counting) Int64,
      (Stage.start (Tree.dice "3d6").roll ⟨fused, #[]⟩).Reaches stage ∧
        (∀ later, stage.Reaches later → later.table.rolls = 3 ∧ later.taken ≤ 257) ∧
        ((Tree.dice "3d6").number? ≠ none ∨ (Tree.dice "3d6").IsCancelledAtLast fused)) ∧
    (∀ later, (Stage.start (Tree.dice "3d6").roll ⟨raised.table, #[]⟩).Reaches later →
      later.table.rolls = 5 ∧ later.taken = 0) ∧
    ∀ report ∈ raised.run [.tree (.dice "3d6"), .hold "main"],
      raised.IsIdle report.session := by
  have hclaim := cancellation_is_prompt (σ := Fused Counting)
  refine ⟨?_, (hclaim.2.1 (.dice "3d6") ⟨raised.table, #[]⟩ rfl).1, ?_⟩
  · have hreach : (Stage.start (Tree.dice "3d6").roll ⟨fused, #[]⟩).Reaches _ :=
      .next (.pass rfl) (.next (.pass rfl) (.next (.charge rfl) (.next .receive (.refl _))))
    have hstage := hclaim.1 (.dice "3d6") ⟨fused, #[]⟩ _ hreach rfl
    exact ⟨_, hreach, hstage.1, hstage.2 15 rfl⟩
  · have hholds : raised.HoldsRaised [.tree (.dice "3d6"), .hold "main"] :=
      ⟨fun _ _ => rfl, fun _ _ => rfl, trivial⟩
    exact hclaim.2.2 raised _ rfl hholds

end DiceNotation
