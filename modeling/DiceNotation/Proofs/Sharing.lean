import DiceNotation.Proofs.Order
import DiceNotation.Proofs.Requests

/-!
# Sharing of flags

Names, the table and its source may share a flag.  A flag that is up stays up, and
it goes up only at the hands of those who share it: a step that cancels raises the
flag that it is about, and a roll none but the flag of the source, when so many
values have been drawn as its limit says.
-/

namespace DiceNotation

variable {σ α : Type}

namespace Table

/-- The source has this flag and this limit, and behind its values the flag is up at the limit. -/
structure IsWired (table : Table (Fused σ)) (main : Flag) (limit? : Option Nat) : Prop where
  flag_eq : table.source.flag = main
  limit?_eq : table.source.limit? = limit?
  main_lt : main < table.flags.size
  held_lt : table.held < table.flags.size
  isLit : 0 < table.source.drawn → ∀ limit ∈ limit?, limit ≤ table.source.drawn →
    table.flags.isRaised main = true

/-- What rolls do to flags: only that of the source goes up, and only at its limit. -/
structure Burns (table behind : Table (Fused σ)) : Prop where
  held_eq : behind.held = table.held
  size_eq : behind.flags.size = table.flags.size
  flag_eq : behind.source.flag = table.source.flag
  limit?_eq : behind.source.limit? = table.source.limit?
  drawn_le : table.source.drawn ≤ behind.source.drawn
  stays : ∀ {flag}, table.flags.isRaised flag = true → behind.flags.isRaised flag = true
  isBurnt : ∀ {flag}, behind.flags.isRaised flag = true → table.flags.isRaised flag = true ∨
    flag = table.source.flag ∧ ∃ limit ∈ table.source.limit?, limit ≤ behind.source.drawn
  isWired : ∀ {main limit?}, table.IsWired main limit? → behind.IsWired main limit?

theorem Burns.refl (table : Table (Fused σ)) : table.Burns table :=
  ⟨rfl, rfl, rfl, rfl, Nat.le_refl _, id, .inl, id⟩

theorem Burns.trans {first second third : Table (Fused σ)} (h : first.Burns second)
    (hthird : second.Burns third) : first.Burns third where
  held_eq := hthird.held_eq.trans h.held_eq
  size_eq := hthird.size_eq.trans h.size_eq
  flag_eq := hthird.flag_eq.trans h.flag_eq
  limit?_eq := hthird.limit?_eq.trans h.limit?_eq
  drawn_le := Nat.le_trans h.drawn_le hthird.drawn_le
  stays hraised := hthird.stays (h.stays hraised)
  isBurnt := by
    intro flag hraised
    rcases hthird.isBurnt hraised with hsecond | ⟨rfl, limit, hlimit, hle⟩
    · refine (h.isBurnt hsecond).imp_right ?_
      rintro ⟨rfl, limit, hlimit, hle⟩
      exact ⟨rfl, limit, hlimit, Nat.le_trans hle hthird.drawn_le⟩
    · exact .inr ⟨h.flag_eq, limit, h.limit?_eq ▸ hlimit, hle⟩
  isWired hwired := hthird.isWired (h.isWired hwired)

theorem Burns.of_charge? {table charged : Table (Fused σ)} {dice : Nat}
    (h : table.charge? dice = some charged) : table.Burns charged := by
  obtain ⟨-, -, rfl⟩ := charge?_eq_some_iff.1 h
  exact ⟨rfl, rfl, rfl, rfl, Nat.le_refl _, id, .inl, fun h => ⟨h.1, h.2, h.3, h.4, h.5⟩⟩

end Table

section

variable [Source σ]

theorem Fused.mem_alarms {fuse : Fused σ} {flag : Flag} :
    flag ∈ Source.alarms fuse ↔ flag = fuse.flag ∧ ∃ limit ∈ fuse.limit?, limit ≤ fuse.drawn := by
  cases hlimit : fuse.limit? with
  | none => simp [Source.alarms, hlimit]
  | some limit =>
      by_cases h : limit ≤ fuse.drawn <;> simp [Source.alarms, hlimit, h]

namespace Table

theorem isRaised_accept_light {table : Table (Fused σ)} {draw : Draw σ} {flag : Flag} :
    (table.accept (table.source.light draw)).flags.isRaised flag = true ↔
      table.flags.isRaised flag = true ∨
        (flag = table.source.flag ∧
          ∃ limit ∈ table.source.limit?, limit ≤ table.source.drawn + draw.used) ∧
        flag < table.flags.size := by
  simp only [accept, Flags.isRaised_raiseAll_iff, Fused.mem_alarms, Fused.light]

theorem burns_accept_light (table : Table (Fused σ)) (draw : Draw σ) :
    table.Burns (table.accept (table.source.light draw)) where
  held_eq := rfl
  size_eq := Flags.size_raiseAll _ _
  flag_eq := rfl
  limit?_eq := rfl
  drawn_le := Nat.le_add_right _ _
  stays hraised := isRaised_accept_light.2 (.inl hraised)
  isBurnt hraised := (isRaised_accept_light.1 hraised).imp_right And.left
  isWired := by
    rintro main limit? ⟨rfl, rfl, hmain, hheld, -⟩
    refine ⟨rfl, rfl, ?_, ?_, ?_⟩
    · exact hmain.trans_eq (Flags.size_raiseAll _ _).symm
    · exact hheld.trans_eq (Flags.size_raiseAll _ _).symm
    · intro _ limit hlimit hle
      exact isRaised_accept_light.2 (.inr ⟨⟨rfl, limit, hlimit, hle⟩, hmain⟩)

end Table

variable {Records : Event → Prop}

theorem Stage.Next.burns {stage next : Stage (Fused σ) α} {log : List Event}
    (hnext : stage.Next next) (h : stage.IsOrderly Records log) :
    stage.table.Burns next.table := by
  cases hnext with
  | charge hcharge => exact .of_charge? hcharge
  | receive =>
      cases h with
      | cancelled events last hroll => cases hroll
      | going events hroll =>
          obtain ⟨⟨sides, rfl | rfl⟩, -⟩ := hroll
          · exact Table.burns_accept_light _ _
          · exact Table.burns_accept_light _ _
  | _ => exact .refl _

theorem Roll.IsOrderly.burns {roll : Roll (Fused σ) α} (h : roll.IsOrderly Records)
    (table : Table (Fused σ)) : table.Burns (roll.effect table).2 := by
  obtain ⟨total, hend⟩ := (Stage.start roll ⟨table, #[]⟩).ends
  have hstep : ∀ {stage next : Stage (Fused σ) α}, stage.Next next →
      stage.IsOrderly Records [] ∧ table.Burns stage.table →
        next.IsOrderly Records [] ∧ table.Burns next.table :=
    fun hnext hstage => ⟨hnext.isOrderly hstage.1, hstage.2.trans (hnext.burns hstage.1)⟩
  exact (hend.induction hstep ⟨h.start ⟨table, #[]⟩, .refl table⟩).2

end

/-! ## Sessions -/

namespace Session

def target? (session : Session σ) : Step → Option Flag
  | .cancel => some session.table.held
  | .cancelNamed name => some (session.flagOf name).1
  | _ => none

structure IsWired (session : Session (Fused σ)) (main : Flag) (limit? : Option Nat) : Prop
    extends Table.IsWired session.table main limit? where
  nodup : (session.names.map Prod.fst).Nodup
  named_lt : ∀ named ∈ session.names, named.2 < session.table.flags.size

namespace IsWired

variable {session : Session (Fused σ)} {main flag : Flag} {limit? : Option Nat}

theorem bind (h : session.IsWired main limit?) (name : String)
    (hflag : flag < session.table.flags.size) : (session.bind name flag).IsWired main limit? := by
  refine ⟨h.toIsWired, ?_, ?_⟩
  · have hkept : (session.names.filter (·.1 ≠ name)).Sublist session.names := List.filter_sublist
    exact List.nodup_cons.2 ⟨by simp, h.nodup.sublist (hkept.map Prod.fst)⟩
  · intro named hnamed
    rcases List.mem_cons.1 hnamed with rfl | hkept
    · exact hflag
    · exact h.named_lt named (List.mem_of_mem_filter hkept)

theorem fresh (h : session.IsWired main limit?) :
    ({ session with table := { session.table with flags := session.table.flags.fresh.2 } } :
      Session (Fused σ)).IsWired main limit? := by
  have hsize : session.table.flags.size < session.table.flags.fresh.2.size := by simp
  refine ⟨⟨h.flag_eq, h.limit?_eq, h.main_lt.trans hsize, h.held_lt.trans hsize, ?_⟩, h.nodup, ?_⟩
  · intro hpos limit hlimit hle
    exact (Flags.isRaised_fresh _ _).trans (h.isLit hpos limit hlimit hle)
  · intro named hnamed
    exact (h.named_lt named hnamed).trans hsize

theorem flagOf (h : session.IsWired main limit?) (name : String) :
    (session.flagOf name).2.IsWired main limit? ∧
      (session.flagOf name).1 < (session.flagOf name).2.table.flags.size := by
  unfold Session.flagOf
  split
  case h_1 flag hlookup =>
      obtain ⟨before, behind, hnames, -⟩ := List.lookup_eq_some_iff.1 hlookup
      exact ⟨h, h.named_lt (name, flag) (by simp [hnames])⟩
  case h_2 =>
      have hnew : session.table.flags.size < session.table.flags.fresh.2.size := by simp
      exact ⟨h.fresh.bind name hnew, hnew⟩

theorem hold (h : session.IsWired main limit?) (hflag : flag < session.table.flags.size) :
    (session.hold flag).IsWired main limit? :=
  ⟨⟨h.flag_eq, h.limit?_eq, h.main_lt, hflag, h.isLit⟩, h.nodup, h.named_lt⟩

theorem cancel (h : session.IsWired main limit?) (flag : Flag) :
    (session.cancel flag).IsWired main limit? := by
  have hsize : (session.table.flags.raise flag).size = session.table.flags.size := by simp
  have hmain := h.main_lt.trans_eq hsize.symm
  have hheld := h.held_lt.trans_eq hsize.symm
  refine ⟨⟨h.flag_eq, h.limit?_eq, hmain, hheld, ?_⟩, h.nodup,
    fun named hnamed => (h.named_lt named hnamed).trans_eq hsize.symm⟩
  intro hpos limit hlimit hle
  simp only [Session.cancel, Flags.isRaised_raise, h.isLit hpos limit hlimit hle, Bool.true_or]

theorem of_burns (h : session.IsWired main limit?) {table : Table (Fused σ)}
    (hburns : session.table.Burns table) :
    ({ session with table := table } : Session (Fused σ)).IsWired main limit? :=
  ⟨hburns.isWired h.toIsWired, h.nodup,
    fun named hnamed => (h.named_lt named hnamed).trans_eq hburns.size_eq.symm⟩

end IsWired

variable [Source σ] {session : Session (Fused σ)} {main flag : Flag} {limit? : Option Nat}

theorem burns_step (session : Session (Fused σ)) (step : Step) (h : step.IsRoll) :
    session.table.Burns (session.step step).session.table := by
  obtain ⟨roll, horderly, hof⟩ := session.exists_isOf h
  rw [hof.session_eq]
  exact horderly.burns session.table

theorem table_step_check (session : Session σ) :
    (session.step .check).session = session := by
  rw [session.isOf_check.session_eq, Roll.effect_check]

theorem IsWired.step (h : session.IsWired main limit?) (step : Step) :
    (session.step step).session.IsWired main limit? := by
  cases step with
  | text text => exact h.of_burns (session.burns_step (.text text) trivial)
  | tree tree => exact h.of_burns (session.burns_step (.tree tree) trivial)
  | dice dice => exact h.of_burns (session.burns_step (.dice dice) trivial)
  | check =>
      rw [table_step_check]
      exact h
  | cancel => exact h.cancel _
  | hold name => exact (h.flagOf name).1.hold (h.flagOf name).2
  | save name => exact h.bind name h.held_lt
  | cancelNamed name => exact (h.flagOf name).1.cancel _

theorem IsWired.after (h : session.IsWired main limit?) (steps : List Step) :
    (session.after steps).IsWired main limit? := by
  induction steps generalizing session with
  | nil => exact h
  | cons step steps ih => exact ih (h.step step)

omit [Source σ] in
theorem isRaised_cancel_iff {session : Session σ} {flag other : Flag}
    (h : flag < session.table.flags.size) :
    (session.cancel flag).table.flags.isRaised other = true ↔
      session.table.flags.isRaised other = true ∨ flag = other := by
  simp only [cancel, Flags.isRaised_raise, h, and_true, Bool.or_eq_true, decide_eq_true_eq]
  exact or_congr_right eq_comm

theorem IsWired.isRaised_step_iff (h : session.IsWired main limit?) {step : Step}
    (hstep : ¬step.IsRoll) :
    (session.step step).session.table.flags.isRaised flag = true ↔
      session.table.flags.isRaised flag = true ∨ session.target? step = some flag := by
  cases step with
  | text | tree | dice => exact absurd trivial hstep
  | check => simp [table_step_check, target?]
  | cancel =>
      rw [target?, Option.some.injEq]
      exact isRaised_cancel_iff h.held_lt
  | hold name =>
      have hraised := session.isRaised_flagOf name flag
      simpa [Session.step, quietly, Session.hold, target?] using hraised
  | save name => simp [Session.step, quietly, Session.bind, target?]
  | cancelNamed name =>
      refine (isRaised_cancel_iff (h.flagOf name).2).trans ?_
      rw [isRaised_flagOf, target?, Option.some.injEq]

theorem table_step (session : Session σ) (step : Step) (h : ¬step.IsRoll) :
    (session.step step).session.table =
      { session.table with
        flags := (session.step step).session.table.flags
        held := (session.step step).session.table.held } := by
  cases step with
  | text | tree | dice => exact absurd trivial h
  | check => rw [table_step_check]
  | cancel => rfl
  | save name => rfl
  | hold name | cancelNamed name =>
      simp only [Session.step, quietly, hold, cancel]
      rw [flagOf_table]

theorem IsWired.isRaised_roll (h : session.IsWired main limit?) {step : Step}
    (hstep : step.IsRoll)
    (hraised : (session.step step).session.table.flags.isRaised flag = true) :
    session.table.flags.isRaised flag = true ∨ flag = main ∧ ∃ limit ∈ limit?,
      session.table.source.drawn < max limit 1 ∧
        limit ≤ (session.step step).session.table.source.drawn := by
  rcases (session.burns_step step hstep).isBurnt hraised with hup | ⟨rfl, limit, hlimit, hle⟩
  · exact .inl hup
  · obtain ⟨rfl, rfl, -, -, hlit⟩ := h.toIsWired
    by_cases hdrawn : session.table.source.drawn < max limit 1
    · exact .inr ⟨rfl, limit, hlimit, hdrawn, hle⟩
    · exact .inl (hlit (by omega) limit hlimit (by omega))

theorem IsWired.stays_step (h : session.IsWired main limit?) (step : Step)
    (hraised : session.table.flags.isRaised flag = true) :
    (session.step step).session.table.flags.isRaised flag = true := by
  by_cases hstep : step.IsRoll
  · exact (session.burns_step step hstep).stays hraised
  · exact (h.isRaised_step_iff hstep).2 (.inl hraised)

theorem IsWired.stays_after (h : session.IsWired main limit?) (steps : List Step)
    (hraised : session.table.flags.isRaised flag = true) :
    (session.after steps).table.flags.isRaised flag = true := by
  induction steps generalizing session with
  | nil => exact hraised
  | cons step steps ih => exact ih (h.step step) (h.stays_step step hraised)

/-! ## Who shares a flag -/

/-- All that share a flag show the same, and the flag of a new name is shared with nothing yet. -/
structure Agrees (session : Session σ) : Prop where
  names_agree : ∀ {name other flag shown seen}, (name, flag) ∈ session.names →
    (other, flag) ∈ session.names → (name, shown) ∈ session.flagStates →
      (other, seen) ∈ session.flagStates → shown = seen
  table_agrees : ∀ {name shown}, (name, session.table.held) ∈ session.names →
    (name, shown) ∈ session.flagStates → shown = session.table.isCancelled
  new_is_apart : ∀ {name}, session.names.lookup name = none →
    (session.flagOf name).1 ≠ session.table.held ∧
      ∀ other ∈ session.names, other.2 ≠ (session.flagOf name).1

omit [Source σ] in
theorem IsWired.shown_eq (h : session.IsWired main limit?) {name : String} {shown : Bool}
    (hname : (name, flag) ∈ session.names) (hshown : (name, shown) ∈ session.flagStates) :
    shown = session.table.flags.isRaised flag := by
  obtain ⟨⟨other, named⟩, hother, hstate⟩ := List.mem_map.1 hshown
  obtain ⟨rfl, rfl⟩ := Prod.mk.inj hstate
  have hsame := List.inj_on_of_nodup_map h.nodup hname hother rfl
  rw [(Prod.mk.inj hsame).2]

omit [Source σ] in
theorem IsWired.agrees (h : session.IsWired main limit?) : session.Agrees where
  names_agree hname hother hshown hseen :=
    (h.shown_eq hname hshown).trans (h.shown_eq hother hseen).symm
  table_agrees hname hshown := h.shown_eq hname hshown
  new_is_apart := by
    intro name hnew
    have hflag : (session.flagOf name).1 = session.table.flags.size := by
      simp [Session.flagOf, hnew, Flags.fresh]
    rw [hflag]
    exact ⟨Nat.ne_of_lt' h.held_lt, fun other hother => Nat.ne_of_lt (h.named_lt other hother)⟩

/-- A name that is saved or held shares the flag of the table, and others keep what they share. -/
structure Shares (session : Session σ) (step : Step) : Prop where
  saved : ∀ name, step = .save name →
    (name, session.table.held) ∈ (session.step step).session.names
  held : ∀ name, step = .hold name →
    (name, (session.step step).session.table.held) ∈ (session.step step).session.names
  names_kept : ∀ name flag, step ≠ .save name → (name, flag) ∈ session.names →
    (name, flag) ∈ (session.step step).session.names
  held_kept : (∀ name, step ≠ .hold name) →
    (session.step step).session.table.held = session.table.held

omit [Source σ] in
theorem mem_names_bind {session : Session σ} {name other : String} {flag new : Flag}
    (h : (name, flag) ∈ session.names) (hother : name ≠ other) :
    (name, flag) ∈ (session.bind other new).names := by
  simp [bind, h, hother]

omit [Source σ] in
theorem mem_names_flagOf (session : Session σ) (name : String) :
    (name, (session.flagOf name).1) ∈ (session.flagOf name).2.names := by
  unfold flagOf
  split
  case h_1 flag hlookup =>
      obtain ⟨before, behind, hnames, -⟩ := List.lookup_eq_some_iff.1 hlookup
      simp [hnames]
  case h_2 => simp [bind]

omit [Source σ] in
theorem names_kept_flagOf {session : Session σ} {name other : String} {flag : Flag}
    (h : (name, flag) ∈ session.names) : (name, flag) ∈ (session.flagOf other).2.names := by
  unfold flagOf
  split
  case h_1 => exact h
  case h_2 hlookup =>
      have hother := List.lookup_eq_none_iff.1 hlookup (name, flag) h
      refine mem_names_bind h fun hname => ?_
      simp [hname] at hother

theorem shares_roll (session : Session σ) {step : Step} (h : step.IsRoll) :
    session.Shares step := by
  obtain ⟨roll, -, hof⟩ := session.exists_isOf h
  have hheld := Roll.effect_induction (fun first second => second.held = first.held)
    (fun _ => rfl) (fun first second => second.trans first)
    (fun hcharge => by obtain ⟨-, -, rfl⟩ := Table.charge?_eq_some_iff.1 hcharge; rfl)
    (fun _ _ => rfl) roll session.table
  refine ⟨?_, ?_, ?_, ?_⟩
  · rintro name rfl
    exact h.elim
  · rintro name rfl
    exact h.elim
  · intro name flag _ hname
    rw [hof.session_eq]
    exact hname
  · intro _
    rw [hof.session_eq]
    exact hheld

theorem shares_step (session : Session σ) (step : Step) : session.Shares step := by
  cases step with
  | text | tree | dice => exact session.shares_roll trivial
  | check =>
      refine ⟨nofun, nofun, fun name flag _ hname => ?_, fun _ => ?_⟩
      · rwa [table_step_check]
      · rw [table_step_check]
  | cancel => exact ⟨nofun, nofun, fun name flag _ hname => hname, fun _ => rfl⟩
  | hold name =>
      refine ⟨nofun, ?_, fun other flag _ hother => names_kept_flagOf hother,
        fun hstep => absurd rfl (hstep name)⟩
      rintro other ⟨⟩
      exact session.mem_names_flagOf name
  | save name =>
      refine ⟨?_, nofun, ?_, fun _ => rfl⟩
      · rintro other ⟨⟩
        exact List.mem_cons_self
      · rintro other flag hstep hother
        exact mem_names_bind hother fun hname => hstep (congrArg Step.save hname.symm)
  | cancelNamed name =>
      refine ⟨nofun, nofun, fun other flag _ hother => names_kept_flagOf hother, fun _ => ?_⟩
      change (session.flagOf name).2.table.held = session.table.held
      rw [flagOf_table]

theorem IsWired.roll_of_other_flag (h : session.IsWired main limit?) {step : Step}
    (hstep : step.IsRoll) (hother : session.table.held ≠ main) :
    (session.step step).session.table.isCancelled = session.table.isCancelled ∧
      ((session.step step).reply.failure? = some (.rolling .cancelled) →
        session.table.isCancelled = true) := by
  have hheld := (session.burns_step step hstep).held_eq
  have hraised : (session.step step).session.table.isCancelled = true →
      session.table.isCancelled = true := by
    unfold Table.isCancelled
    rw [hheld]
    intro hbehind
    exact (h.isRaised_roll hstep hbehind).resolve_right fun hmain => hother hmain.1
  constructor
  · rw [Bool.eq_iff_iff]
    refine ⟨hraised, fun hbefore => ?_⟩
    unfold Table.isCancelled
    rw [hheld]
    exact h.stays_step step hbefore
  · intro hfailure
    obtain ⟨roll, horderly, hof⟩ := session.exists_isOf hstep
    apply hraised
    rw [hof.session_eq]
    exact horderly.isCancelled (hof.cancelled_iff.1 hfailure)

/-- Dice can be rolled, and they are counted on top of those of the session in front of it. -/
structure RollsOn (session later : Session σ) : Prop where
  isFree : later.table.isCancelled = false
  rolls_eq : later.table.rolls = session.table.rolls
  source_eq : later.table.source = session.table.source
  budget?_eq : later.table.budget? = session.table.budget?
  counts : ∀ dice : Dice, 1 ≤ dice.sides.toInt → (dice.mode = .standard → 0 ≤ dice.count.toInt) →
    (session.table.counting dice.size).IsWithin →
      (later.step (.dice dice)).session.table.rolls = session.table.rolls + dice.size

theorem rollsOn_hold {session : Session σ} {name : String}
    (h : session.table.flags.isRaised (session.flagOf name).1 = false) :
    session.RollsOn (session.step (.hold name)).session := by
  have htable := session.table_step (.hold name) id
  have hfree : (session.step (.hold name)).session.table.isCancelled = false :=
    (session.isRaised_flagOf name _).trans h
  generalize (session.step (.hold name)).session = later at htable hfree
  have hrolls : later.table.rolls = session.table.rolls := by rw [htable]
  have hsource : later.table.source = session.table.source := by rw [htable]
  have hbudget : later.table.budget? = session.table.budget? := by rw [htable]
  refine ⟨hfree, hrolls, hsource, hbudget, ?_⟩
  intro dice hsides hcount hwithin
  obtain ⟨sides, hsome, -⟩ := Sides.exists_of_one_le hsides
  have haccepted : dice.Accepted later.table sides := by
    refine ⟨hfree, hsome, hcount, ?_⟩
    simpa only [Table.IsWithin, Table.counting, hrolls, hbudget] using hwithin
  rw [← hrolls]
  exact haccepted.rolls_eq

/-- The step cancels the flag, or the flag is that of the source and a roll reaches the limit. -/
inductive MayRaise (session : Session (Fused σ)) (main : Flag) (limit? : Option Nat)
    (step : Step) : Flag → Prop where
  | cancelled {flag : Flag} (h : session.target? step = some flag) :
      MayRaise session main limit? step flag
  | burnt {limit : Nat} (hstep : step.IsRoll) (hlimit : limit ∈ limit?)
      (hdrawn : session.table.source.drawn < max limit 1)
      (hreached : limit ≤ (session.step step).session.table.source.drawn) :
      MayRaise session main limit? step main

theorem IsWired.mayRaise (h : session.IsWired main limit?) {step : Step}
    (hdown : session.table.flags.isRaised flag = false)
    (hraised : (session.step step).session.table.flags.isRaised flag = true) :
    session.MayRaise main limit? step flag := by
  rw [← Bool.not_eq_true] at hdown
  by_cases hstep : step.IsRoll
  · obtain ⟨rfl, limit, hlimit, hdrawn, hreached⟩ :=
      (h.isRaised_roll hstep hraised).resolve_left hdown
    exact .burnt hstep hlimit hdrawn hreached
  · exact .cancelled (((h.isRaised_step_iff hstep).1 hraised).resolve_left hdown)

theorem IsWired.isRaised_target (h : session.IsWired main limit?) {step : Step}
    (htarget : session.target? step = some flag) :
    (session.step step).session.table.flags.isRaised flag = true := by
  have hstep : ¬step.IsRoll := by
    cases step <;> simp_all [Step.IsRoll, target?]
  exact (h.isRaised_step_iff hstep).2 (.inr htarget)

omit [Source σ] in
theorem isWired_start (budget? : Option Nat) (source : σ) (limit? : Option Nat) :
    let main := (Table.fresh budget? source).held
    (start budget? (⟨source, 0, limit?, main⟩ : Fused σ)).IsWired main limit? := by
  refine ⟨⟨rfl, rfl, Nat.one_pos, Nat.one_pos, fun hpos => absurd hpos (Nat.lt_irrefl 0)⟩, ?_, ?_⟩
  · simp [start]
  · simp [start, Table.fresh, Flags.size]

/--
In whatever order a session is used, a flag that is up stays up, and all that
share a flag show the same.  A step raises the flag that it cancels, and a roll at
most that of the source, when it reaches the limit.  All other steps leave the
dice counted, the source and the budget as they are.  So no roll is cancelled by
the source while the table holds another flag, and a table that is given a flag
that is down rolls on.
-/
theorem flags_are_sticky_shared_and_separate {σ : Type} [Source σ] (budget? : Option Nat)
    (source : σ) (limit? : Option Nat) (steps : List Step) :
    let main := (Table.fresh budget? source).held
    let last := (start budget? (⟨source, 0, limit?, main⟩ : Fused σ)).after steps
    (∀ flag more, last.table.flags.isRaised flag = true →
      (last.after more).table.flags.isRaised flag = true) ∧
    last.Agrees ∧ (∀ step, last.Shares step) ∧
    (∀ step flag, last.table.flags.isRaised flag = false →
      (last.step step).session.table.flags.isRaised flag = true →
        last.MayRaise main limit? step flag) ∧
    (∀ step flag, last.target? step = some flag →
      (last.step step).session.table.flags.isRaised flag = true) ∧
    (∀ step, ¬step.IsRoll →
      (last.step step).session.table.rolls = last.table.rolls ∧
        (last.step step).session.table.source = last.table.source ∧
        (last.step step).session.table.budget? = last.table.budget?) ∧
    (∀ step, step.IsRoll → last.table.held ≠ main →
      (last.step step).session.table.isCancelled = last.table.isCancelled ∧
        ((last.step step).reply.failure? = some (.rolling .cancelled) →
          last.table.isCancelled = true)) ∧
    ∀ name, last.table.flags.isRaised (last.flagOf name).1 = false →
      last.RollsOn (last.step (.hold name)).session := by
  intro main last
  have hwired : last.IsWired main limit? := (isWired_start budget? source limit?).after steps
  refine ⟨?_, hwired.agrees, last.shares_step, ?_, ?_, ?_, ?_, ?_⟩
  · exact fun flag more hraised => hwired.stays_after more hraised
  · exact fun step flag hdown hraised => hwired.mayRaise hdown hraised
  · exact fun step flag htarget => hwired.isRaised_target htarget
  · intro step hstep
    rw [last.table_step step hstep]
    exact ⟨rfl, rfl, rfl⟩
  · exact fun step hstep hother => hwired.roll_of_other_flag hstep hother
  · exact fun name hdown => rollsOn_hold hdown

/-- The table starts to roll with the flag of a source that raises it at the second value. -/
private def burning : Session (Fused Counting) := start none ⟨⟨3, 1⟩, 0, some 2, 0⟩

private def exchange : List Step := [.save "alias", .tree (.dice "3d6"), .hold "other"]

theorem flags_are_sticky_shared_and_separate_exchange :
    ((burning.after exchange).after [.check, .hold "main"]).table.isCancelled = true ∧
      burning.MayRaise 0 (some 2) (.tree (.dice "3d6")) 0 ∧
      ((burning.after exchange).step (.tree (.dice "9d6"))).session.table.isCancelled = false ∧
      (burning.after [.tree (.dice "3d6")]).RollsOn
        ((burning.after [.tree (.dice "3d6")]).step (.hold "other")).session := by
  have hexchange := flags_are_sticky_shared_and_separate none (⟨3, 1⟩ : Counting) (some 2) exchange
  have hstart := flags_are_sticky_shared_and_separate none (⟨3, 1⟩ : Counting) (some 2) []
  have hthree := flags_are_sticky_shared_and_separate none (⟨3, 1⟩ : Counting) (some 2)
    [.tree (.dice "3d6")]
  refine ⟨?_, ?_, ?_, ?_⟩
  · exact hexchange.1 0 [.check, .hold "main"] rfl
  · exact hstart.2.2.2.1 _ 0 rfl rfl
  · exact (hexchange.2.2.2.2.2.2.1 (.tree (.dice "9d6")) trivial (by decide)).1.trans rfl
  · exact hthree.2.2.2.2.2.2.2 "other" rfl

end Session

end DiceNotation
