import DiceNotation.Roll.Evaluation
import DiceNotation.Tree.Outline
import DiceNotation.Tree.Reading

/-!
# Rolling texts

A text is read and then rolled, and either may fail.
-/

namespace DiceNotation

inductive Failure where
  | reading (error : ReadError)
  | rolling (error : RollError)
  deriving DecidableEq, Repr

namespace Failure

def message : Failure → String
  | .reading error => error.message
  | .rolling error => error.message

def isCancelled (failure : Failure) : Bool := failure = .rolling .cancelled

/-- The messages of what led to the failure, each caused by the one behind it. -/
def causes : Failure → List String
  | .reading error => [error.message]
  | .rolling error@(.invalidDice _ cause) => [error.message, cause.message]
  | .rolling error => [error.message]

end Failure

/-- A play from a text on.  The tree is logged when it has been read, in front of its roll. -/
structure TextPlay (σ : Type) extends Play σ where
  tree? : Option Expression
  deriving DecidableEq, Repr

def TextPlay.lines {σ : Type} (play : TextPlay σ) : List String :=
  play.tree?.toList.map Expression.notice ++ play.log.toList.map Event.line

def rollText {σ : Type} [Source σ] (text : String) (table : Table σ) :
    Except Failure Int64 × TextPlay σ :=
  match Expression.read text with
  | .error error => (.error (.reading error), ⟨⟨table, #[]⟩, none⟩)
  | .ok expression =>
      let (result, play) := expression.roll.outcomeAt table
      (result.mapError .rolling, ⟨play, some expression⟩)

theorem mapError_eq_ok_iff {ε ζ α : Type} {result : Except ε α} {f : ε → ζ} {value : α} :
    result.mapError f = .ok value ↔ result = .ok value := by
  cases result with
  | ok other => constructor <;> intro h <;> cases h <;> rfl
  | error cause => constructor <;> intro h <;> cases h

theorem mapError_eq_error_iff {ε ζ α : Type} {result : Except ε α} {f : ε → ζ} {error : ζ} :
    result.mapError f = .error error ↔ ∃ cause, result = .error cause ∧ f cause = error := by
  cases result with
  | ok value =>
      constructor
      · intro h
        cases h
      · rintro ⟨cause, h, -⟩
        cases h
  | error cause =>
      constructor
      · exact fun h => ⟨cause, rfl, Except.error.inj h⟩
      · rintro ⟨other, h, rfl⟩
        cases h
        rfl

section

variable {σ : Type} [Source σ] {text : String}

theorem rollText_of_unread {error : ReadError} (h : Expression.read text = .error error)
    (table : Table σ) :
    rollText text table = (.error (.reading error), ⟨⟨table, #[]⟩, none⟩) := by
  rw [rollText, h]

theorem rollText_of_read {tree : Expression} (h : Expression.read text = .ok tree)
    (table : Table σ) :
    rollText text table =
      ((tree.roll.outcomeAt table).1.mapError .rolling,
        ⟨(tree.roll.outcomeAt table).2, some tree⟩) := by
  rw [rollText, h]

end

end DiceNotation
