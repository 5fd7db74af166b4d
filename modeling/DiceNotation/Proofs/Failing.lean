import DiceNotation.Failure
import DiceNotation.Proofs.Reading
import DiceNotation.Proofs.Scanning
import DiceNotation.Roll.Stage
import DiceNotation.Source.Counting
import DiceNotation.Tree.Leaves

/-!
# How rolls fail

Any roll may be cancelled, count too many dice, divide by zero or overflow.  All
other failures are those of single dice, and the dice of a text that has been
read are tokens: they have one of two forms, and only the size of their numbers
can be wrong with them.
-/

namespace DiceNotation

/-! ## The dice of tokens -/

def IsStandardDice (text : List Char) : Prop :=
  ∃ count sides, text = count ++ sides ∧ Numeral.IsDigits count ∧ IsSides sides

def IsMiddleDice (text : List Char) : Prop :=
  ∃ letters count sides, text = letters ++ count ++ sides ∧
    letters.map Char.toLower = ['m', 'i', 'd'] ∧ (∀ c ∈ count, c.isDigit) ∧ IsSides sides

theorem matches_dice_iff {text : List Char} :
    TokenKind.dice.Matches text ↔ IsStandardDice text ∨ IsMiddleDice text := by
  constructor
  · intro h
    cases h with
    | standard hcount hsides => exact .inl ⟨_, _, rfl, hcount, hsides⟩
    | middle hletters hcount hsides => exact .inr ⟨_, _, _, rfl, hletters, hcount, hsides⟩
  · rintro (⟨count, sides, rfl, hcount, hsides⟩ |
      ⟨letters, count, sides, rfl, hletters, hcount, hsides⟩)
    · exact .standard hcount hsides
    · exact .middle hletters hcount hsides

def DiceError.IsTooLarge (error : DiceError) : Prop :=
  error = .invalidCount .tooLarge ∨ error = .invalidSides .tooLarge

namespace Dice

/-- Dice of this mode with numbers that are not negative, unless one of these is too large. -/
def IsProper (mode : Mode) : Except DiceError Dice → Prop
  | .ok dice => dice.mode = mode ∧ 0 ≤ dice.count.toInt ∧ 0 ≤ dice.sides.toInt
  | .error error => error.IsTooLarge

theorem split_of_isDigit {digits : List Char} (h : ∀ c ∈ digits, c.isDigit)
    (behind : List Char) : split (digits ++ 'd' :: behind) = .ok (digits, behind) := by
  rw [split_append fun hd => absurd (h 'd' hd) (by decide)]
  simp [split, Except.map]

theorem map_toLower_sides {sides : List Char} (h : IsSides sides) :
    ∃ digits, sides.map Char.toLower = 'd' :: digits ∧ Numeral.IsDigits digits := by
  obtain ⟨mark, digits, rfl, hmark, hdigits⟩ := h
  exact ⟨digits, by rw [List.map_cons, hmark, map_toLower_digits hdigits.2], hdigits⟩

theorem isProper_bind {mode : Mode} {digits : List Char} (h : Numeral.IsDigits digits)
    {wrap : NumeralError → DiceError} (hwrap : (wrap .tooLarge).IsTooLarge)
    {next : Int64 → Except DiceError Dice}
    (hnext : ∀ value : Int64, 0 ≤ value.toInt → IsProper mode (next value)) :
    IsProper mode ((Numeral.read digits).mapError wrap >>= next) := by
  cases hread : Numeral.read digits with
  | error cause =>
      obtain ⟨rfl, -⟩ := (Numeral.read_eq_error_iff h).1 hread
      exact hwrap
  | ok value =>
      have hvalue := (Numeral.read_eq_ok_iff h).1 hread
      exact hnext value (by omega)

theorem isProper_readSides {mode : Mode} {digits : List Char} (h : Numeral.IsDigits digits)
    {dice : Int64 → Dice}
    (hdice : ∀ sides : Int64, 0 ≤ sides.toInt → IsProper mode (.ok (dice sides))) :
    IsProper mode (readSides digits >>= fun sides => .ok (dice sides)) :=
  isProper_bind h (.inr rfl) hdice

theorem isProper_read_of_standard {text : String} (h : IsStandardDice text.toList) :
    IsProper .standard (read text) := by
  obtain ⟨count, sides, htext, hcount, hsides⟩ := h
  obtain ⟨digits, hlower, hdigits⟩ := map_toLower_sides hsides
  unfold read
  rw [htext, List.map_append, map_toLower_digits hcount.2, hlower]
  split
  case h_1 rest hmiddle =>
      cases count with
      | nil => exact absurd rfl hcount.1
      | cons c count =>
          obtain ⟨rfl, -⟩ := List.cons.inj hmiddle
          exact absurd (hcount.2 'm' (by simp)) (by decide)
  case h_2 =>
      rw [readStandard, split_of_isDigit hcount.2]
      exact isProper_bind hcount (.inl rfl) fun value hvalue =>
        isProper_readSides hdigits fun sides hsides => ⟨rfl, hvalue, hsides⟩

theorem isProper_read_of_middle {text : String} (h : IsMiddleDice text.toList) :
    IsProper .middle (read text) := by
  obtain ⟨letters, count, sides, htext, hletters, hcount, hsides⟩ := h
  obtain ⟨digits, hlower, hdigits⟩ := map_toLower_sides hsides
  have hthree : 0 ≤ (3 : Int64).toInt := by decide
  have hmiddle : IsProper .middle (readSides digits >>= fun sides => .ok (middle sides)) :=
    isProper_readSides hdigits fun sides hsides => ⟨rfl, hthree, hsides⟩
  unfold read
  rw [htext, List.map_append, List.map_append, hletters, map_toLower_digits hcount, hlower]
  change IsProper .middle (readMiddle (count ++ 'd' :: digits))
  rw [readMiddle, split_of_isDigit hcount]
  change IsProper .middle (if count ≠ [] then readCount count >>= fun _ => _ else _)
  split
  case isTrue hne => exact isProper_bind ⟨hne, hcount⟩ (.inl rfl) fun _ _ => hmiddle
  case isFalse => exact hmiddle

theorem exists_isProper_read {text : String} (h : TokenKind.dice.Matches text.toList) :
    ∃ mode, IsProper mode (read text) := by
  rcases matches_dice_iff.1 h with hstandard | hmiddle
  · exact ⟨.standard, isProper_read_of_standard hstandard⟩
  · exact ⟨.middle, isProper_read_of_middle hmiddle⟩

end Dice

/-! ## Programs that fail -/

namespace RollError

def IsGeneral : RollError → Prop
  | .cancelled | .tooManyRolls | .zeroDivision | .overflow => True
  | _ => False

inductive IsOfDice (text : String) : RollError → Prop where
  | unread {cause : DiceError} (h : Dice.read text = .error cause) :
      IsOfDice text (.invalidDice text cause)
  | sides {dice : Dice} (h : Dice.read text = .ok dice) (hsides : dice.sides.toInt < 1) :
      IsOfDice text (.invalidSides dice.sides)
  | count {dice : Dice} (h : Dice.read text = .ok dice) (hmode : dice.mode = .standard)
      (hcount : dice.count.toInt < 0) : IsOfDice text (.invalidCount dice.count)

end RollError

variable {σ α β : Type} {errors : RollError → Prop}

namespace Roll

/-- Wherever the program of the roll may fail, it fails with one of these errors. -/
def FailsOnlyBy (errors : RollError → Prop) : Roll σ α → Prop
  | .finished _ => True
  | .failed error => errors error
  | .recording _ next => next.FailsOnlyBy errors
  | .guarding _ next => errors .cancelled ∧ next.FailsOnlyBy errors
  | .charging _ next => errors .tooManyRolls ∧ next.FailsOnlyBy errors
  | .receiving _ next => ∀ value, (next value).FailsOnlyBy errors

theorem FailsOnlyBy.bind {roll : Roll σ α} {next : α → Roll σ β} (h : roll.FailsOnlyBy errors)
    (hnext : ∀ value, (next value).FailsOnlyBy errors) : (roll >>= next).FailsOnlyBy errors := by
  change (roll.bind next).FailsOnlyBy errors
  induction roll with
  | finished value => exact hnext value
  | failed error => exact h
  | recording event roll ih => exact ih h
  | guarding event roll ih => exact ⟨h.1, ih h.2⟩
  | charging dice roll ih => exact ⟨h.1, ih h.2⟩
  | receiving draw roll ih => exact fun value => ih value (h value)

theorem failsOnlyBy_ofExcept {result : Except RollError α}
    (h : ∀ error, result = .error error → errors error) :
    (ofExcept result : Roll σ α).FailsOnlyBy errors := by
  cases result with
  | ok value => trivial
  | error error => exact h error rfl

end Roll

section

variable (hgeneral : ∀ error : RollError, error.IsGeneral → errors error)

include hgeneral

theorem Roll.fit_failsOnlyBy (total : Nat) : (fit total : Roll σ Nat).FailsOnlyBy errors := by
  unfold fit
  split
  · trivial
  · exact hgeneral .overflow trivial

theorem Roll.checkAmong_failsOnlyBy (done count : Nat) :
    (checkAmong done count : Roll σ Unit).FailsOnlyBy errors := by
  unfold checkAmong
  split
  · exact ⟨hgeneral .cancelled trivial, trivial⟩
  · trivial

theorem Operator.apply_error {op : Operator} {left right : Int64} {error : RollError}
    (h : op.apply left right = .error error) : errors error := by
  unfold apply at h
  split at h
  · cases h
    exact hgeneral .zeroDivision trivial
  · split at h
    · cases h
      exact hgeneral .overflow trivial
    · cases h

theorem Roll.operand_failsOnlyBy (total : Int64) (op : Operator) {operand : Roll σ Int64}
    (h : operand.FailsOnlyBy errors) : (Roll.operand total op operand).FailsOnlyBy errors :=
  ⟨hgeneral .cancelled trivial,
    h.bind fun _ => failsOnlyBy_ofExcept fun _ => Operator.apply_error hgeneral⟩

variable [Source σ]

theorem Roll.addDice_failsOnlyBy (sides : Sides) (done left total : Nat) :
    (addDice sides done left total : Roll σ Nat).FailsOnlyBy errors := by
  induction left generalizing done total with
  | zero => trivial
  | succ left ih =>
      rw [addDice_succ]
      intro value
      refine (checkAmong_failsOnlyBy hgeneral _ _).bind fun _ => ?_
      exact (fit_failsOnlyBy hgeneral _).bind fun total => ih (done + 1) total

theorem Dice.total_failsOnlyBy (dice : Dice) (sides : Sides) :
    (dice.total sides : Roll σ Nat).FailsOnlyBy errors := by
  unfold total
  split
  · exact Roll.addDice_failsOnlyBy hgeneral sides 0 dice.size 0
  · exact fun a b c => Roll.fit_failsOnlyBy hgeneral (Roll.median a b c)

theorem Dice.roll_failsOnlyBy {dice : Dice}
    (hsides : dice.sides.toInt < 1 → errors (.invalidSides dice.sides))
    (hcount : dice.mode = .standard → dice.count.toInt < 0 →
      errors (.invalidCount dice.count)) :
    (dice.roll : Roll σ Int64).FailsOnlyBy errors := by
  refine ⟨hgeneral .cancelled trivial, ?_⟩
  cases h : Sides.ofInt? dice.sides with
  | none => exact hsides (Sides.ofInt?_eq_none_iff.1 h)
  | some sides =>
      change Roll.FailsOnlyBy errors (if _ then _ else _)
      split
      case isTrue hnegative => exact hcount hnegative.1 hnegative.2
      case isFalse =>
          refine ⟨hgeneral .tooManyRolls trivial, ?_⟩
          exact (total_failsOnlyBy hgeneral dice sides).bind fun total => trivial

theorem Roll.leaf_failsOnlyBy {text : String}
    (h : ∀ error : RollError, error.IsOfDice text → errors error) :
    (leaf text : Roll σ Int64).FailsOnlyBy errors := by
  refine ⟨hgeneral .cancelled trivial, ?_⟩
  change (ofExcept (Dice.ofLeaf text) >>= fun dice => dice.roll).FailsOnlyBy errors
  unfold Dice.ofLeaf
  cases hread : Dice.read text with
  | error cause => exact h _ (.unread hread)
  | ok dice =>
      exact Dice.roll_failsOnlyBy hgeneral (fun hsides => h _ (.sides hread hsides))
        (fun hmode hcount => h _ (.count hread hmode hcount))

theorem Tree.roll_failsOnlyBy {level : Level} (tree : Tree level)
    (h : ∀ text ∈ tree.leaves, ∀ error : RollError, error.IsOfDice text → errors error) :
    (tree.roll : Roll σ Int64).FailsOnlyBy errors := by
  induction tree with
  | int value => trivial
  | dice text => exact Roll.leaf_failsOnlyBy hgeneral (h text (by simp [leaves]))
  | group inner ih => exact ih h
  | ofAtom atom ih => exact ⟨hgeneral .cancelled trivial, ih h⟩
  | ofTerm term ih => exact ⟨hgeneral .cancelled trivial, ih h⟩
  | times left op right ihl ihr =>
      obtain ⟨hleft, hright⟩ := List.forall_mem_append.1 h
      exact (ihl hleft).bind fun total => Roll.operand_failsOnlyBy hgeneral total op (ihr hright)
  | plus left op right ihl ihr =>
      obtain ⟨hleft, hright⟩ := List.forall_mem_append.1 h
      exact (ihl hleft).bind fun total => Roll.operand_failsOnlyBy hgeneral total op (ihr hright)

end

section

variable [Source σ]

theorem Stage.Next.failsOnlyBy {stage next : Stage σ α} (hnext : stage.Next next)
    (h : stage.roll.FailsOnlyBy errors) : next.roll.FailsOnlyBy errors := by
  cases hnext with
  | record => exact h
  | stop => exact h.1
  | pass => exact h.2
  | refuse => exact h.1
  | charge => exact h.2
  | receive => exact h _

theorem Roll.FailsOnlyBy.of_outcome {roll : Roll σ α} {play : Play σ} {error : RollError}
    (h : roll.FailsOnlyBy errors) (hfail : (roll.outcome play).1 = .error error) :
    errors error := by
  obtain ⟨total, hend⟩ := (Stage.start roll play).ends
  have hlast := hend.induction (fun hnext => hnext.failsOnlyBy) h
  rw [show (Stage.start roll play).outcome.1 = .error error from hfail] at hlast
  exact hlast

end

theorem exists_tree_of_rollText [Source σ] {text : String} {table : Table σ} {error : RollError}
    (h : (rollText text table).1 = .error (.rolling error)) :
    ∃ tree : Expression, Expression.read text = .ok tree ∧
      (tree.roll.outcomeAt table).1 = .error error := by
  cases hread : Expression.read text with
  | error problem =>
      rw [rollText_of_unread hread] at h
      cases h
  | ok tree =>
      rw [rollText_of_read hread] at h
      obtain ⟨cause, hfail, hcause⟩ := mapError_eq_error_iff.1 h
      obtain rfl := Failure.rolling.inj hcause
      exact ⟨tree, rfl, hfail⟩

theorem Tree.Spells.word_of_leaf {level : Level} {tree : Tree level} {words : List Word}
    (h : tree.Spells words) {text : String} (htext : text ∈ tree.leaves) :
    ⟨.dice, text⟩ ∈ words := by
  induction h with
  | int => cases htext
  | dice other => simpa [leaves] using htext
  | group hinner ih => simpa using ih htext
  | ofAtom hatom ih => exact ih htext
  | ofTerm hterm ih => exact ih htext
  | times op hleft hright ihl ihr =>
      rcases List.mem_append.1 htext with hleaf | hleaf
      · simpa using .inl (ihl hleaf)
      · simpa using .inr (.inr (ihr hleaf))
  | plus op hleft hright ihl ihr =>
      rcases List.mem_append.1 htext with hleaf | hleaf
      · simpa using .inl (ihl hleaf)
      · simpa using .inr (.inr (ihr hleaf))

def RollError.IsOfWords (words : List Word) : RollError → Prop
  | .invalidCount _ => False
  | .invalidSides sides => sides = 0
  | .invalidDice text cause => ⟨.dice, text⟩ ∈ words ∧ cause.IsTooLarge
  | _ => True

namespace RollError

theorem IsGeneral.isOfWords {error : RollError} (h : error.IsGeneral) (words : List Word) :
    error.IsOfWords words := by
  cases error <;> simp_all [IsGeneral, IsOfWords]

theorem IsOfDice.isOfWords {text : String} {error : RollError} {words : List Word}
    (h : error.IsOfDice text) (hword : ⟨.dice, text⟩ ∈ words)
    (hform : TokenKind.dice.Matches text.toList) : error.IsOfWords words := by
  have hproper := Dice.exists_isProper_read hform
  cases h with
  | unread hread =>
      rw [hread] at hproper
      exact ⟨hword, hproper.choose_spec⟩
  | sides hread hsides =>
      rw [hread] at hproper
      obtain ⟨mode, -, -, hnonneg⟩ := hproper
      refine Int64.toInt_inj.1 ?_
      rw [Int64.toInt_zero]
      omega
  | count hread hmode hcount =>
      rw [hread] at hproper
      obtain ⟨mode, -, hnonneg, -⟩ := hproper
      exact absurd hcount (Int.not_lt.2 hnonneg)

end RollError

theorem Tree.isOfWords_of_roll [Source σ] {tree : Expression} {text : String} {play : Play σ}
    {error : RollError} (hread : Expression.read text = .ok tree)
    (hfail : (tree.roll.outcome play).1 = .error error) :
    error.IsOfWords ((Token.scan text).map Token.word) := by
  have hspells := (read_eq_ok_iff_derives.1 hread).2
  have hroll : (tree.roll : Roll σ Int64).FailsOnlyBy
      fun error => error.IsOfWords ((Token.scan text).map Token.word) := by
    refine tree.roll_failsOnlyBy (fun error hgeneral => hgeneral.isOfWords _) ?_
    intro dice hdice error herror
    have hword := hspells.word_of_leaf hdice
    have hform := Token.isWritten_of_mem_words _ hword
    exact herror.isOfWords hword (hform (by simp))
  exact hroll.of_outcome hfail

/--
A text that has been read never fails in rolling by the form of its dice: only
dice with no sides, and numbers that are too large, are left of what may be wrong
with dice.  For each of the two forms of dice tokens, the text is read as dice of
that form, unless a number is too large.
-/
theorem dice_of_texts_are_proper [Source σ] :
    (∀ (text : String) (table : Table σ) (error : RollError),
      (rollText text table).1 = .error (.rolling error) →
        error.IsOfWords ((Token.scan text).map Token.word)) ∧
    (∀ text : String,
      (IsStandardDice text.toList → Dice.IsProper .standard (Dice.read text)) ∧
        (IsMiddleDice text.toList → Dice.IsProper .middle (Dice.read text))) ∧
    ∀ text : List Char,
      TokenKind.dice.Matches text ↔ IsStandardDice text ∨ IsMiddleDice text := by
  refine ⟨?_, fun text => ⟨Dice.isProper_read_of_standard, Dice.isProper_read_of_middle⟩,
    fun text => matches_dice_iff⟩
  intro text table error h
  obtain ⟨tree, hread, hfail⟩ := exists_tree_of_rollText h
  exact tree.isOfWords_of_roll hread hfail

private def shortTable : Table Counting := .fresh (some 5) ⟨1, 1⟩

theorem dice_of_texts_are_proper_sides :
    RollError.IsOfWords ((Token.scan "1+99999999999999999999D6").map Token.word)
        (.invalidDice "99999999999999999999D6" (.invalidCount .tooLarge)) ∧
      RollError.IsOfWords ((Token.scan "2d0").map Token.word) (.invalidSides 0) ∧
      Dice.IsProper .standard (Dice.read "02D6") ∧
      Dice.IsProper .middle (Dice.read "MIDd08") := by
  have hclaim := dice_of_texts_are_proper (σ := Counting)
  have hlarge : (rollText "1+99999999999999999999D6" shortTable).1 = .error
      (.rolling (.invalidDice "99999999999999999999D6" (.invalidCount .tooLarge))) := by
    decide +kernel
  have hsides : (rollText "2d0" shortTable).1 = .error (.rolling (.invalidSides 0)) := by
    decide +kernel
  have hstandard : IsStandardDice "02D6".toList :=
    ⟨['0', '2'], ['D', '6'], rfl, ⟨by simp, by simp⟩, 'D', ['6'], rfl, by decide, by simp, by simp⟩
  have hmiddle : IsMiddleDice "MIDd08".toList :=
    ⟨['M', 'I', 'D'], [], ['d', '0', '8'], rfl, by decide, by simp,
      'd', ['0', '8'], rfl, by decide, by simp, by simp⟩
  exact ⟨hclaim.1 _ shortTable _ hlarge, hclaim.1 _ shortTable _ hsides,
    (hclaim.2.1 _).1 hstandard, (hclaim.2.1 _).2 hmiddle⟩

end DiceNotation
