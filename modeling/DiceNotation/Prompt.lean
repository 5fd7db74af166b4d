import DiceNotation.Failure
import DiceNotation.Text.Blank

/-!
# The prompt

A prompt is shown, a line is read and answered, and so on until the input ends
or a line is no text.  Blank characters at the ends of a line do not count, and
a line of nothing else has no answer.  Every line has a table of its own.
-/

namespace DiceNotation.Prompt

def sign : String := "> "

/-- How the program ends, at the end of its input or at a line that is no text. -/
def exitCode : UInt32 := 0

def budget (setting? : Option String) : Nat :=
  match setting?.map fun setting => Numeral.readNatural setting.toList with
  | some (.ok budget) => budget
  | _ => defaultBudget

/-- What is logged of a setting that is no number. -/
def warning? : Option String → Option String
  | none => none
  | some setting =>
      match Numeral.readNatural setting.toList with
      | .ok _ => none
      | .error error =>
          some ("WARN ignoring DICEPROB_MAX_ROLLS=" ++ Text.quote setting ++ ": " ++ error.message)

/-- The lines of the input, each ended by a line feed but perhaps the last one. -/
def lines : List UInt8 → List (List UInt8)
  | [] => []
  | byte :: rest =>
      if byte = 10 then
        [] :: lines rest
      else
        match lines rest with
        | [] => [[byte]]
        | line :: others => (byte :: line) :: others

def decode? (line : List UInt8) : Option String :=
  (String.fromUTF8? ⟨line.toArray⟩).map fun text => String.ofList (Text.trim text.toList)

structure Transcript where
  out : String
  err : String
  deriving DecidableEq, Repr

structure Conversation extends Transcript where
  code : UInt32
  deriving DecidableEq, Repr

variable {σ : Type} [Source σ]

def answer (budget : Nat) (source : σ) (line : String) : Transcript × σ :=
  if line = "" then
    (⟨"", ""⟩, source)
  else
    let (result, play) := rollText line (Table.fresh (some budget) source)
    match result with
    | .ok total => (⟨Numeral.write total ++ "\n", ""⟩, play.table.source)
    | .error failure => (⟨"", "Error: " ++ failure.message ++ "\n"⟩, play.table.source)

/-- Answers lines until one is no text, and shows a prompt in front of each and at the end. -/
def transcript (budget : Nat) : σ → List (List UInt8) → Conversation
  | _, [] => ⟨⟨sign, ""⟩, exitCode⟩
  | source, line :: rest =>
      match decode? line with
      | none => ⟨⟨sign, ""⟩, exitCode⟩
      | some text =>
          let (here, source) := answer budget source text
          let later := transcript budget source rest
          ⟨⟨sign ++ here.out ++ later.out, here.err ++ later.err⟩, later.code⟩

end DiceNotation.Prompt
