import DiceNotation.Source.Basic

/-!
# A source of uniform values

Die values made from 64-bit words.  The product of a word and the number of
sides has a high half and a low half of 64 bits: the high half selects the
value, and a low half above a zone rejects the word, so that all values are
equally likely.  Dice of a sum have the widest zone there is; a die that stands
alone has one that is found without a division.
-/

namespace DiceNotation

/-- Given words, and then the words of a sequence with 64 bits of state. -/
structure Generator where
  words : List UInt64
  state : UInt64
  deriving DecidableEq, Repr

namespace Generator

/--
The distance between two states of the sequence.  It is odd, so every state is
met in the end.
-/
def gap : UInt64 := 0x9E3779B97F4A7C15

def gapInverse : UInt64 := 0xF1DE83E19937733D

def mix (state : UInt64) : UInt64 :=
  let word := (state ^^^ state >>> 30) * 0xBF58476D1CE4E5B9
  let word := (word ^^^ word >>> 27) * 0x94D049BB133111EB
  word ^^^ word >>> 31

def word : Generator → UInt64
  | ⟨word :: _, _⟩ => word
  | ⟨[], state⟩ => mix (state + gap)

def next : Generator → Generator
  | ⟨_ :: words, state⟩ => ⟨words, state⟩
  | ⟨[], state⟩ => ⟨[], state + gap⟩

def singleZone (sides : Sides) : Nat := sides.count <<< (63 - sides.count.log2) - 1

def summandZone (sides : Sides) : Nat :=
  UInt64.size - 1 - (UInt64.size - sides.count) % sides.count

def value? (zone : Nat) (sides : Sides) (word : UInt64) : Option Nat :=
  let product := word.toNat * sides.count
  if product % UInt64.size ≤ zone then some (product / UInt64.size + 1) else none

private theorem value?_zero (zone : Nat) (sides : Sides) : value? zone sides 0 = some 1 := by
  simp [value?]

private theorem mix_zero : mix 0 = 0 := by decide

/-- How many words the sequence yields before its word zero. -/
def distance (state : UInt64) : Nat := (-(state + gap) * gapInverse).toNat

private theorem distance_add_gap {state : UInt64} (h : state + gap ≠ 0) :
    distance (state + gap) < distance state := by
  unfold distance
  generalize hz : -(state + gap) * gapInverse = left
  have hinverse : gap * gapInverse = 1 := by decide
  have hnext : -(state + gap + gap) * gapInverse = left - 1 := by
    rw [← hz]
    grind
  have hne : left.toNat ≠ 0 := by
    intro hzero
    obtain rfl := UInt64.toNat_inj.1 (hzero.trans UInt64.toNat_zero.symm)
    apply h
    grind
  have hle : 1 ≤ left := UInt64.le_iff_toNat_le.2 (Nat.one_le_iff_ne_zero.2 hne)
  rw [hnext, UInt64.toNat_sub_of_le _ _ hle]
  exact Nat.sub_lt (Nat.pos_of_ne_zero hne) Nat.one_pos

/-- Asks for words until one is accepted.  The word zero always is, and the sequence has it. -/
def sample (zone : Nat) (sides : Sides) (source : Generator) : Draw Generator :=
  match _h : value? zone sides source.word with
  | some value => ⟨value, source.next, 1⟩
  | none =>
      let later := sample zone sides source.next
      { later with used := later.used + 1 }
termination_by (source.words.length, distance source.state)
decreasing_by
  obtain ⟨words, state⟩ := source
  cases words with
  | cons word words => exact Prod.Lex.left _ _ (Nat.lt_succ_self _)
  | nil =>
      refine Prod.Lex.right _ (distance_add_gap fun hzero => ?_)
      simp [word, hzero, mix_zero, value?_zero] at _h

instance : Source Generator where
  single sides := sample (singleZone sides) sides
  summand sides := sample (summandZone sides) sides

end Generator

end DiceNotation
