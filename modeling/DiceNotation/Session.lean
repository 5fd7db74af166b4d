import DiceNotation.Failure

/-!
# Sessions

One table is used step by step, and flags have names.  The table may be given
the flag of a name in place of the one that it holds, and a name may be given
the flag that the table holds.  A step that fails does not end the session.
-/

namespace DiceNotation

inductive Step where
  | text (text : String)
  | tree {level : Level} (tree : Tree level)
  | dice (dice : Dice)
  | check
  | cancel
  /-- Lets the table hold the flag of this name. -/
  | hold (name : String)
  /-- Gives this name to the flag that the table holds. -/
  | save (name : String)
  | cancelNamed (name : String)
  deriving Repr

inductive Reply where
  | text (result : Except Failure Int64)
  | roll (result : Except RollError Int64)
  | check (result : Except RollError Unit)
  | done

structure Session (σ : Type) where
  table : Table σ
  /-- The flags that have names, each name once. -/
  names : List (String × Flag)
  deriving DecidableEq, Repr

structure Report (σ : Type) where
  reply : Reply
  /-- What the roll itself logs, which is behind the notice of a tree that was read. -/
  log : Array Event
  session : Session σ

namespace Session

variable {σ : Type}

/-- A new session, in which the flag of the table is called `main`. -/
def start (budget? : Option Nat) (source : σ) : Session σ :=
  let table := Table.fresh budget? source
  ⟨table, [("main", table.held)]⟩

def bind (session : Session σ) (name : String) (flag : Flag) : Session σ :=
  { session with names := (name, flag) :: session.names.filter (·.1 ≠ name) }

def flagOf (session : Session σ) (name : String) : Flag × Session σ :=
  match session.names.lookup name with
  | some flag => (flag, session)
  | none =>
      let (flag, flags) := session.table.flags.fresh
      (flag, { session with table := { session.table with flags := flags } }.bind name flag)

def hold (session : Session σ) (flag : Flag) : Session σ :=
  { session with table := { session.table with held := flag } }

def cancel (session : Session σ) (flag : Flag) : Session σ :=
  { session with table := { session.table with flags := session.table.flags.raise flag } }

def flagStates (session : Session σ) : List (String × Bool) :=
  session.names.map fun (name, flag) => (name, session.table.flags.isRaised flag)

/-! ## Steps -/

def quietly (session : Session σ) : Report σ := ⟨.done, #[], session⟩

def playing {α : Type} (session : Session σ) (answer : α → Reply) (result : α × Play σ) :
    Report σ :=
  ⟨answer result.1, result.2.log, { session with table := result.2.table }⟩

def step [Source σ] (session : Session σ) : Step → Report σ
  | .text text =>
      let (result, play) := rollText text session.table
      session.playing .text (result, play.toPlay)
  | .tree tree => session.playing .roll (tree.roll.outcomeAt session.table)
  | .dice dice => session.playing .roll (dice.roll.outcomeAt session.table)
  | .check => session.playing .check (Roll.check.outcomeAt session.table)
  | .cancel => (session.cancel session.table.held).quietly
  | .hold name =>
      let (flag, session) := session.flagOf name
      (session.hold flag).quietly
  | .save name => (session.bind name session.table.held).quietly
  | .cancelNamed name =>
      let (flag, session) := session.flagOf name
      (session.cancel flag).quietly

def run [Source σ] (session : Session σ) : List Step → List (Report σ)
  | [] => []
  | step :: steps =>
      let report := session.step step
      report :: run report.session steps

theorem isCancelled_cancel {session : Session σ} (h : session.table.isCancelled = true)
    (flag : Flag) : (session.cancel flag).table.isCancelled = true := by
  change (session.table.flags.raise flag).isRaised session.table.held = true
  rw [Flags.isRaised_raise, show session.table.flags.isRaised session.table.held = true from h]
  rfl

theorem flagOf_table (session : Session σ) (name : String) :
    (session.flagOf name).2.table =
      { session.table with flags := (session.flagOf name).2.table.flags } := by
  unfold flagOf
  split <;> rfl

theorem isRaised_flagOf (session : Session σ) (name : String) (flag : Flag) :
    (session.flagOf name).2.table.flags.isRaised flag = session.table.flags.isRaised flag := by
  unfold flagOf
  split
  · rfl
  · exact Flags.isRaised_fresh session.table.flags flag

theorem isCancelled_flagOf (session : Session σ) (name : String) :
    (session.flagOf name).2.table.isCancelled = session.table.isCancelled := by
  unfold Table.isCancelled
  rw [isRaised_flagOf, flagOf_table]

end Session

end DiceNotation
