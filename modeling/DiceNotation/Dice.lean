import DiceNotation.Numeral

/-!
# Dice

A throw of dice: so many dice of so many sides, to be summed, or three dice of
which the middle one counts.  The text `NdM` stands for the former and `midNdM`
for the latter, where `N` may be missing and its value does not matter.
-/

namespace DiceNotation

inductive Mode where
  | standard
  | middle
  deriving DecidableEq, Repr

def Mode.letter : Mode → String
  | .standard => "d"
  | .middle => "m"

structure Dice where
  mode : Mode
  count : Int64
  sides : Int64
  deriving DecidableEq, Repr

inductive DiceError where
  | noDelimiter
  | invalidCount (cause : NumeralError)
  | invalidSides (cause : NumeralError)
  deriving DecidableEq, Repr

def DiceError.message : DiceError → String
  | .noDelimiter => "cannot parse string as dice without 'd' delimiter"
  | .invalidCount cause => "invalid number of dice: " ++ cause.message
  | .invalidSides cause => "invalid number of sides: " ++ cause.message

namespace Dice

def standard (count sides : Int64) : Dice := ⟨.standard, count, sides⟩

def middle (sides : Int64) : Dice := ⟨.middle, 3, sides⟩

def text (dice : Dice) : String :=
  match dice.mode with
  | .standard => Numeral.write dice.count ++ "d" ++ Numeral.write dice.sides
  | .middle => "mid" ++ Numeral.write dice.count ++ "d" ++ Numeral.write dice.sides

def split : List Char → Except DiceError (List Char × List Char)
  | [] => .error .noDelimiter
  | 'd' :: rest => .ok ([], rest)
  | c :: rest => do
      let (before, behind) ← split rest
      return (c :: before, behind)

theorem split_append {before : List Char} (h : 'd' ∉ before) (rest : List Char) :
    split (before ++ rest) = (split rest).map (Prod.map (before ++ ·) id) := by
  induction before with
  | nil =>
      rw [List.nil_append]
      cases split rest <;> rfl
  | cons c before ih =>
      simp only [List.mem_cons, not_or] at h
      rw [List.cons_append, split, ih h.2]
      · cases split rest <;> rfl
      · exact fun hd => h.1 hd.symm

def readCount (text : List Char) : Except DiceError Int64 :=
  (Numeral.read text).mapError .invalidCount

def readSides (text : List Char) : Except DiceError Int64 :=
  (Numeral.read text).mapError .invalidSides

def readStandard (text : List Char) : Except DiceError Dice := do
  let (count, sides) ← split text
  return standard (← readCount count) (← readSides sides)

/--
Reads what stands behind `mid`.  A count that is there has to be a numeral, but
its value is not used.
-/
def readMiddle (text : List Char) : Except DiceError Dice := do
  let (count, sides) ← split text
  if count ≠ [] then
    let _ ← readCount count
  return middle (← readSides sides)

def read (text : String) : Except DiceError Dice :=
  match text.toList.map Char.toLower with
  | 'm' :: 'i' :: 'd' :: rest => readMiddle rest
  | letters => readStandard letters

end Dice

end DiceNotation
