import DiceNotation.Numeral
import DiceNotation.Text.LetterCase

/-!
# Numerals with signs

Which texts are numerals, of which values, and what is wrong with the others.  The
first character that is not part of a numeral decides: it is no digit, or it is a
digit that takes the number out of 64 bits.
-/

namespace DiceNotation.Numeral

inductive Sign where
  | plus
  | minus
  deriving DecidableEq, Repr

namespace Sign

def apply : Sign → Nat → Int
  | .plus, magnitude => magnitude
  | .minus, magnitude => -magnitude

def excess : Sign → NumeralError
  | .plus => .tooLarge
  | .minus => .tooSmall

def limit : Sign → Nat
  | .plus => Int64.maxValue.toInt.toNat
  | .minus => Int64.minValue.toInt.natAbs

def number : Sign → Nat → Int64
  | .plus, magnitude => Int64.ofNat magnitude
  | .minus, magnitude => Int64.ofInt (-magnitude)

end Sign

inductive Signed : List Char → Sign → List Char → Prop where
  | plus (rest : List Char) : Signed ('+' :: rest) .plus rest
  | minus (rest : List Char) : Signed ('-' :: rest) .minus rest
  | unsigned {rest : List Char} (h : ∀ c ∈ rest.head?, c ≠ '+' ∧ c ≠ '-') : Signed rest .plus rest

def value (digits : List Char) : Nat := Nat.ofDigitChars 10 digits 0

def IsNarrow (value : Int) : Prop := ∃ number : Int64, number.toInt = value

inductive Denotes : List Char → Int → Prop where
  | intro {text : List Char} {sign : Sign} {digits : List Char} (h : Signed text sign digits)
      (hdigits : IsDigits digits) : Denotes text (sign.apply (value digits))

/-- Digits of an unsigned 64-bit number, perhaps behind a plus sign. -/
inductive DenotesNatural : List Char → Nat → Prop where
  | intro {text digits : List Char} (h : Signed text .plus digits) (hdigits : IsDigits digits)
      (hsmall : value digits < UInt64.size) : DenotesNatural text (value digits)

/-- The first problem that is met in a text that is read from left to right. -/
inductive FirstProblem : List Char → NumeralError → Prop where
  | empty : FirstProblem [] .empty
  | signAlone {text : List Char} {sign : Sign} (h : Signed text sign []) (hne : text ≠ []) :
      FirstProblem text .invalidDigit
  | noDigit {text : List Char} {sign : Sign} {before rest : List Char} {c : Char}
      (h : Signed text sign (before ++ c :: rest)) (hbefore : ∀ c ∈ before, c.isDigit)
      (hnarrow : IsNarrow (sign.apply (value before))) (hc : c.isDigit = false) :
      FirstProblem text .invalidDigit
  | excess {text : List Char} {sign : Sign} {before rest : List Char} {c : Char}
      (h : Signed text sign (before ++ c :: rest)) (hbefore : ∀ c ∈ before, c.isDigit)
      (hnarrow : IsNarrow (sign.apply (value before))) (hc : c.isDigit = true)
      (hwide : ¬IsNarrow (sign.apply (value (before ++ [c])))) : FirstProblem text sign.excess

theorem exists_signed (text : List Char) : ∃ sign digits, Signed text sign digits := by
  by_cases h : ∀ c ∈ text.head?, c ≠ '+' ∧ c ≠ '-'
  case pos => exact ⟨.plus, text, .unsigned h⟩
  case neg =>
      cases text with
      | nil => exact absurd (fun c hc => by cases hc) h
      | cons c rest =>
          by_cases hplus : c = '+'
          case pos => exact ⟨.plus, rest, hplus ▸ .plus rest⟩
          case neg =>
              by_cases hminus : c = '-'
              case pos => exact ⟨.minus, rest, hminus ▸ .minus rest⟩
              case neg => exact absurd (by simp [hplus, hminus]) h

theorem Sign.isNarrow_iff (sign : Sign) (magnitude : Nat) :
    IsNarrow (sign.apply magnitude) ↔ magnitude ≤ sign.limit := by
  have hmin := Int64.toInt_minValue
  have hmax := Int64.toInt_maxValue
  constructor
  · rintro ⟨number, hnumber⟩
    have hleft := number.minValue_le_toInt
    have hright := number.toInt_le
    cases sign <;> simp only [apply, limit] at * <;> omega
  · intro hle
    refine exists_toInt_eq ?_
    cases sign <;> simp only [apply, limit] at * <;> omega

theorem Sign.toInt_number {sign : Sign} {magnitude : Nat} (h : magnitude ≤ sign.limit) :
    (sign.number magnitude).toInt = sign.apply magnitude := by
  have hmin := Int64.toInt_minValue
  have hmax := Int64.toInt_maxValue
  cases sign with
  | plus => exact Int64.toInt_ofNat_of_lt (by simp only [limit] at h; omega)
  | minus =>
      refine Int64.toInt_ofInt_of_le ?_ ?_ <;> simp only [limit] at h <;> omega

theorem read_of_signed {text : List Char} {sign : Sign} {digits : List Char}
    (h : Signed text sign digits) (hne : text ≠ []) :
    read text = (readUnsigned sign.limit sign.excess digits).map sign.number := by
  cases h with
  | plus =>
      rw [read]
      unfold Sign.limit Sign.excess
      cases readUnsigned Int64.maxValue.toInt.toNat .tooLarge digits <;> rfl
  | minus =>
      rw [read]
      unfold Sign.limit Sign.excess
      cases readUnsigned Int64.minValue.toInt.natAbs .tooSmall digits <;> rfl
  | unsigned h =>
      cases text with
      | nil => contradiction
      | cons c rest =>
          obtain ⟨hplus, hminus⟩ := h c rfl
          exact read_of_no_sign hminus hplus rest

theorem le_ofDigitChars (digits : List Char) (start : Nat) :
    start ≤ Nat.ofDigitChars 10 digits start := by
  rw [Nat.ofDigitChars_eq_ofDigitChars_zero]
  have hpos : 0 < 10 ^ digits.length := Nat.pow_pos (by decide)
  have hle := Nat.le_mul_of_pos_left start hpos
  omega

theorem readDigits_eq_error_iff {limit : Nat} {excess : NumeralError} {text : List Char}
    {start : Nat} {cause : NumeralError} (h : start ≤ limit) :
    readDigits limit excess start text = .error cause ↔
      ∃ before c rest, text = before ++ c :: rest ∧ (∀ c ∈ before, c.isDigit) ∧
        Nat.ofDigitChars 10 before start ≤ limit ∧
        (c.isDigit = false ∧ cause = .invalidDigit ∨
          c.isDigit = true ∧ limit < Nat.ofDigitChars 10 (before ++ [c]) start ∧
            cause = excess) := by
  induction text generalizing start with
  | nil => simp [readDigits]
  | cons digit text ih =>
      have hone : Nat.ofDigitChars 10 [digit] start = 10 * start + digitValue digit := by
        simp [Nat.ofDigitChars_cons, digitValue]
      simp only [readDigits]
      constructor
      · intro hread
        split at hread
        case isFalse hdigit =>
            obtain rfl := Except.error.inj hread
            exact ⟨[], digit, text, rfl, by simp, by simpa, .inl ⟨by simpa using hdigit, rfl⟩⟩
        case isTrue hdigit =>
            split at hread
            case isFalse hnext =>
                obtain rfl := Except.error.inj hread
                refine ⟨[], digit, text, rfl, by simp, by simpa, .inr ⟨hdigit, ?_, rfl⟩⟩
                rw [List.nil_append, hone]
                omega
            case isTrue hnext =>
                obtain ⟨before, c, rest, rfl, hbefore, hle, hc⟩ := (ih hnext).1 hread
                refine ⟨digit :: before, c, rest, rfl, by simpa [hdigit] using hbefore, ?_, ?_⟩
                · rwa [Nat.ofDigitChars_cons]
                · rwa [List.cons_append, Nat.ofDigitChars_cons]
      · rintro ⟨before, c, rest, htext, hbefore, hle, hc⟩
        cases before with
        | nil =>
            obtain ⟨rfl, rfl⟩ := List.cons.inj htext
            rcases hc with ⟨hdigit, rfl⟩ | ⟨hdigit, hlt, rfl⟩
            · simp [hdigit]
            · rw [List.nil_append, hone] at hlt
              simp [hdigit, Nat.not_le.2 hlt]
        | cons other before =>
            obtain ⟨rfl, rfl⟩ := List.cons.inj htext
            obtain ⟨hdigit, hbefore⟩ := List.forall_mem_cons.1 hbefore
            rw [Nat.ofDigitChars_cons] at hle
            have hnext : 10 * start + digitValue digit ≤ limit :=
              Nat.le_trans (le_ofDigitChars before _) hle
            rw [if_pos hdigit, if_pos hnext, ih hnext]
            rw [List.cons_append, Nat.ofDigitChars_cons] at hc
            exact ⟨before, c, rest, rfl, hbefore, hle, hc⟩

theorem read_eq_ok_iff_denotes {text : List Char} {number : Int64} :
    read text = .ok number ↔ Denotes text number.toInt := by
  constructor
  · intro hread
    obtain ⟨sign, digits, hsigned⟩ := exists_signed text
    have hne : text ≠ [] := by
      rintro rfl
      cases hread
    rw [read_of_signed hsigned hne] at hread
    cases hdigits : readUnsigned sign.limit sign.excess digits with
    | error cause =>
        rw [hdigits] at hread
        cases hread
    | ok magnitude =>
        rw [hdigits] at hread
        obtain rfl := Except.ok.inj hread
        obtain ⟨hform, rfl, hle⟩ := readUnsigned_eq_ok_iff.1 hdigits
        rw [Sign.toInt_number hle]
        exact .intro hsigned hform
  · intro h
    generalize hvalue : number.toInt = exact at h
    cases h with
    | @intro sign digits hsigned hform =>
        have hne : text ≠ [] := by
          rintro rfl
          cases hsigned
          exact hform.1 rfl
        have hle : value digits ≤ sign.limit := (sign.isNarrow_iff _).1 ⟨number, hvalue⟩
        have hdigits : readUnsigned sign.limit sign.excess digits = .ok (value digits) :=
          readUnsigned_eq_ok_iff.2 ⟨hform, rfl, hle⟩
        rw [read_of_signed hsigned hne, hdigits]
        refine congrArg Except.ok (Int64.toInt_inj.1 ?_)
        rw [Sign.toInt_number hle, hvalue]

theorem Signed.of_isDigits {digits : List Char} (h : IsDigits digits) :
    Signed digits .plus digits := by
  refine .unsigned fun c hc => ?_
  have hdigit := h.2 c (List.mem_of_mem_head? hc)
  constructor <;> rintro rfl <;> cases hdigit

theorem readNatural_eq_ok_iff_denotesNatural {text : List Char} {number : Nat} :
    readNatural text = .ok number ↔ DenotesNatural text number := by
  constructor
  · intro hread
    obtain ⟨digits, hsigned, hdigits⟩ : ∃ digits, (IsDigits digits → Signed text .plus digits) ∧
        readUnsigned (UInt64.size - 1) .tooLarge digits = .ok number := by
      unfold readNatural at hread
      split at hread
      case h_1 => cases hread
      case h_2 digits => exact ⟨digits, fun _ => .plus digits, hread⟩
      case h_3 => exact ⟨text, .of_isDigits, hread⟩
    obtain ⟨hform, rfl, hle⟩ := readUnsigned_eq_ok_iff.1 hdigits
    exact .intro (hsigned hform) hform (Nat.lt_of_le_pred (by decide) hle)
  · rintro ⟨hsigned, hform, hsmall⟩
    have hdigits : readUnsigned (UInt64.size - 1) .tooLarge _ = .ok _ :=
      readUnsigned_eq_ok_iff.2 ⟨hform, rfl, Nat.le_pred_of_lt hsmall⟩
    cases hsigned with
    | plus => exact hdigits
    | unsigned hhead =>
        unfold readNatural
        split
        case h_1 => exact absurd rfl hform.1
        case h_2 => exact absurd rfl (hhead '+' rfl).1
        case h_3 => exact hdigits

theorem readUnsigned_of_ne_nil {limit : Nat} {excess : NumeralError} {digits : List Char}
    (h : digits ≠ []) : readUnsigned limit excess digits = readDigits limit excess 0 digits := by
  cases digits with
  | nil => contradiction
  | cons c rest => rfl

theorem read_eq_error_iff_of_signed {text : List Char} {sign : Sign} {digits : List Char}
    {cause : NumeralError} (h : Signed text sign digits) (hne : text ≠ []) :
    read text = .error cause ↔ readUnsigned sign.limit sign.excess digits = .error cause := by
  rw [read_of_signed h hne]
  cases readUnsigned sign.limit sign.excess digits <;> simp [Except.map]

theorem Signed.ne_nil {text digits : List Char} {sign : Sign} (h : Signed text sign digits)
    (hne : digits ≠ []) : text ≠ [] := by
  cases h with
  | unsigned => exact hne
  | _ => exact List.cons_ne_nil _ _

theorem read_eq_error_of_signed {text before rest : List Char} {sign : Sign} {c : Char}
    {cause : NumeralError} (h : Signed text sign (before ++ c :: rest))
    (hbefore : ∀ c ∈ before, c.isDigit) (hnarrow : IsNarrow (sign.apply (value before)))
    (hc : c.isDigit = false ∧ cause = .invalidDigit ∨
      c.isDigit = true ∧ ¬IsNarrow (sign.apply (value (before ++ [c]))) ∧ cause = sign.excess) :
    read text = .error cause := by
  have hne : before ++ c :: rest ≠ [] := by simp
  rw [read_eq_error_iff_of_signed h (h.ne_nil hne), readUnsigned_of_ne_nil hne,
    readDigits_eq_error_iff (Nat.zero_le _)]
  rw [sign.isNarrow_iff] at hnarrow
  rw [sign.isNarrow_iff, Nat.not_le] at hc
  exact ⟨before, c, rest, rfl, hbefore, hnarrow, hc⟩

theorem read_eq_error_iff_firstProblem {text : List Char} {cause : NumeralError} :
    read text = .error cause ↔ FirstProblem text cause := by
  constructor
  · intro hread
    by_cases hne : text = []
    case pos =>
        obtain rfl := hne
        obtain rfl := Except.error.inj hread
        exact .empty
    case neg =>
        obtain ⟨sign, digits, hsigned⟩ := exists_signed text
        rw [read_eq_error_iff_of_signed hsigned hne] at hread
        by_cases hdigits : digits = []
        case pos =>
            obtain rfl := hdigits
            obtain rfl := Except.error.inj hread
            exact .signAlone hsigned hne
        case neg =>
            rw [readUnsigned_of_ne_nil hdigits, readDigits_eq_error_iff (Nat.zero_le _)] at hread
            obtain ⟨before, c, rest, rfl, hbefore, hle, hc⟩ := hread
            have hnarrow := (sign.isNarrow_iff _).2 hle
            rcases hc with ⟨hdigit, rfl⟩ | ⟨hdigit, hlt, rfl⟩
            · exact .noDigit hsigned hbefore hnarrow hdigit
            · refine .excess hsigned hbefore hnarrow hdigit ?_
              rw [sign.isNarrow_iff]
              exact Nat.not_le.2 hlt
  · intro hproblem
    cases hproblem with
    | empty => rfl
    | signAlone hsigned hne => exact (read_eq_error_iff_of_signed hsigned hne).2 rfl
    | noDigit hsigned hbefore hnarrow hc =>
        exact read_eq_error_of_signed hsigned hbefore hnarrow (.inl ⟨hc, rfl⟩)
    | excess hsigned hbefore hnarrow hc hwide =>
        exact read_eq_error_of_signed hsigned hbefore hnarrow (.inr ⟨hc, hwide, rfl⟩)

theorem denotes_or_firstProblem (text : List Char) :
    (∃ number : Int64, Denotes text number.toInt) ∨ ∃ cause, FirstProblem text cause := by
  cases hread : read text with
  | ok number => exact .inl ⟨number, read_eq_ok_iff_denotes.1 hread⟩
  | error cause => exact .inr ⟨cause, read_eq_error_iff_firstProblem.1 hread⟩

theorem Denotes.exists_cons {text : List Char} {exact : Int} (h : Denotes text exact) :
    ∃ c rest, text = c :: rest := by
  cases h with
  | intro hsigned hdigits => exact List.exists_cons_of_ne_nil (hsigned.ne_nil hdigits.1)

theorem Denotes.isNumeric {text : List Char} {exact : Int} (h : Denotes text exact) :
    ∀ c ∈ text, c = '+' ∨ c = '-' ∨ c.isDigit := by
  cases h with
  | intro hsigned hdigits =>
      cases hsigned with
      | plus => exact List.forall_mem_cons.2 ⟨.inl rfl, fun c hc => .inr (.inr (hdigits.2 c hc))⟩
      | minus =>
          exact List.forall_mem_cons.2 ⟨.inr (.inl rfl), fun c hc => .inr (.inr (hdigits.2 c hc))⟩
      | unsigned => exact fun c hc => .inr (.inr (hdigits.2 c hc))

theorem readDigits_toLower (limit : Nat) (excess : NumeralError) (start : Nat)
    (text : List Char) :
    readDigits limit excess start (text.map Char.toLower) =
      readDigits limit excess start text := by
  induction text generalizing start with
  | nil => rfl
  | cons c text ih =>
      simp only [List.map_cons, readDigits, isDigit_toLower, ih]
      split
      case isTrue hdigit => rw [toLower_of_isDigit hdigit]
      case isFalse => rfl

theorem Signed.toLower {text digits : List Char} {sign : Sign} (h : Signed text sign digits) :
    Signed (text.map Char.toLower) sign (digits.map Char.toLower) := by
  cases h with
  | plus => exact .plus _
  | minus => exact .minus _
  | unsigned h =>
      refine .unsigned fun lowered hlowered => ?_
      rw [List.head?_map, Option.mem_def, Option.map_eq_some_iff] at hlowered
      obtain ⟨c, hc, rfl⟩ := hlowered
      have hplus := toLower_keeps (fun c => decide (c = '+')) (by decide) c
      have hminus := toLower_keeps (fun c => decide (c = '-')) (by decide) c
      simpa [decide_eq_decide.1 hplus, decide_eq_decide.1 hminus] using h c hc

theorem read_toLower (text : List Char) : read (text.map Char.toLower) = read text := by
  obtain ⟨sign, digits, hsigned⟩ := exists_signed text
  by_cases hne : text = []
  case pos => rw [hne, List.map_nil]
  case neg =>
      have hlower : text.map Char.toLower ≠ [] := by simpa using hne
      rw [read_of_signed hsigned hne, read_of_signed hsigned.toLower hlower]
      cases digits with
      | nil => rfl
      | cons c rest =>
          rw [List.map_cons, readUnsigned, readUnsigned, ← List.map_cons, readDigits_toLower] <;>
            simp

theorem denotes_write (number : Int64) : Denotes (write number).toList number.toInt := by
  have hvalue : value number.toInt.natAbs.repr.toList = number.toInt.natAbs :=
    ofDigitChars_repr _
  have hdigits := isDigits_repr number.toInt.natAbs
  unfold write
  split
  case isTrue hneg =>
      have hminus := Denotes.intro (.minus number.toInt.natAbs.repr.toList) hdigits
      have hexact : Sign.minus.apply number.toInt.natAbs = number.toInt := by
        simp only [Sign.apply]
        omega
      rw [hvalue, hexact] at hminus
      rw [String.toList_append]
      exact hminus
  case isFalse hneg =>
      have hplus := Denotes.intro (.of_isDigits hdigits) hdigits
      rwa [hvalue, Sign.apply, Int.natAbs_of_nonneg (Int.not_lt.1 hneg)] at hplus

end DiceNotation.Numeral
