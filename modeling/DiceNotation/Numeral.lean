/-!
# Numerals

Decimal numerals of 64-bit numbers.  A numeral is an optional sign and at least
one digit; leading zeros are allowed.  Reading goes from left to right, and the
first problem met is the one reported: a character that is no digit, or a digit
that takes the value out of range.
-/

namespace DiceNotation

def narrow? (value : Int) : Option Int64 :=
  if h : Int64.minValue.toInt ≤ value ∧ value ≤ Int64.maxValue.toInt then
    some (Int64.ofIntLE value h.1 h.2)
  else
    none

theorem narrow?_eq_some_iff {value : Int} {number : Int64} :
    narrow? value = some number ↔ number.toInt = value := by
  unfold narrow?
  split
  case isTrue h =>
      rw [Option.some.injEq, ← Int64.toInt_inj, Int64.toInt_ofIntLE]
      exact eq_comm
  case isFalse h =>
      constructor
      · intro hs
        cases hs
      · rintro rfl
        exact absurd ⟨number.minValue_le_toInt, number.toInt_le⟩ h

theorem narrow?_eq_none_iff {value : Int} :
    narrow? value = none ↔
      ¬(Int64.minValue.toInt ≤ value ∧ value ≤ Int64.maxValue.toInt) := by
  simp [narrow?]

theorem exists_toInt_eq {value : Int}
    (h : Int64.minValue.toInt ≤ value ∧ value ≤ Int64.maxValue.toInt) :
    ∃ number : Int64, number.toInt = value :=
  ⟨Int64.ofIntLE value h.1 h.2, Int64.toInt_ofIntLE⟩

theorem toInt_ofNat {value : Nat} (h : (value : Int) ≤ Int64.maxValue.toInt) :
    (Int64.ofNat value).toInt = value := by
  have hmax := Int64.toInt_maxValue
  exact Int64.toInt_ofNat_of_lt (by omega)

inductive NumeralError where
  | empty
  | invalidDigit
  | tooLarge
  | tooSmall
  deriving DecidableEq, Repr

def NumeralError.message : NumeralError → String
  | .empty => "cannot parse integer from empty string"
  | .invalidDigit => "invalid digit found in string"
  | .tooLarge => "number too large to fit in target type"
  | .tooSmall => "number too small to fit in target type"

namespace Numeral

def IsDigits (text : List Char) : Prop := text ≠ [] ∧ ∀ c ∈ text, c.isDigit

def digitValue (digit : Char) : Nat := digit.toNat - '0'.toNat

/--
Reads further digits of a number that is `value` so far.  The number may not
exceed `limit`; `excess` is the problem if it does.
-/
def readDigits (limit : Nat) (excess : NumeralError) :
    Nat → List Char → Except NumeralError Nat
  | value, [] => .ok value
  | value, digit :: rest =>
      if digit.isDigit then
        let next := 10 * value + digitValue digit
        if next ≤ limit then readDigits limit excess next rest else .error excess
      else
        .error .invalidDigit

def readUnsigned (limit : Nat) (excess : NumeralError) :
    List Char → Except NumeralError Nat
  | [] => .error .invalidDigit
  | digits => readDigits limit excess 0 digits

def read : List Char → Except NumeralError Int64
  | [] => .error .empty
  | '-' :: digits => do
      let magnitude ← readUnsigned Int64.minValue.toInt.natAbs .tooSmall digits
      return Int64.ofInt (-magnitude)
  | '+' :: digits => do
      let magnitude ← readUnsigned Int64.maxValue.toInt.toNat .tooLarge digits
      return Int64.ofNat magnitude
  | digits => do
      let magnitude ← readUnsigned Int64.maxValue.toInt.toNat .tooLarge digits
      return Int64.ofNat magnitude

def readNatural : List Char → Except NumeralError Nat
  | [] => .error .empty
  | '+' :: digits => readUnsigned (UInt64.size - 1) .tooLarge digits
  | digits => readUnsigned (UInt64.size - 1) .tooLarge digits

def write (number : Int64) : String :=
  if number.toInt < 0 then "-" ++ number.toInt.natAbs.repr else number.toInt.natAbs.repr

theorem readDigits_eq_ok_iff {limit : Nat} {excess : NumeralError} {text : List Char}
    {value number : Nat} (h : value ≤ limit) :
    readDigits limit excess value text = .ok number ↔
      (∀ c ∈ text, c.isDigit) ∧ Nat.ofDigitChars 10 text value = number ∧ number ≤ limit := by
  induction text generalizing value with
  | nil =>
      simp only [readDigits, Except.ok.injEq, Nat.ofDigitChars_nil, List.not_mem_nil]
      grind
  | cons digit rest ih =>
      have hgrows : 10 * value + digitValue digit ≤
          Nat.ofDigitChars 10 (digit :: rest) value := by
        rw [Nat.ofDigitChars_cons, Nat.ofDigitChars_eq_ofDigitChars_zero]
        have := Nat.pow_pos (n := rest.length) (show 0 < 10 by decide)
        have := Nat.le_mul_of_pos_left (10 * value + digitValue digit) this
        simp only [digitValue] at *
        omega
      simp only [readDigits, List.forall_mem_cons]
      split
      case isTrue hdigit =>
          split
          case isTrue hnext =>
              rw [ih hnext, Nat.ofDigitChars_cons]
              simp [hdigit, digitValue]
          case isFalse hnext =>
              simp only [reduceCtorEq, false_iff]
              rintro ⟨_, rfl, hle⟩
              omega
      case isFalse hdigit => simp [hdigit]

theorem readUnsigned_eq_ok_iff {limit : Nat} {excess : NumeralError} {text : List Char}
    {number : Nat} :
    readUnsigned limit excess text = .ok number ↔
      IsDigits text ∧ Nat.ofDigitChars 10 text 0 = number ∧ number ≤ limit := by
  cases text with
  | nil => simp [readUnsigned, IsDigits]
  | cons digit rest =>
      rw [readUnsigned, readDigits_eq_ok_iff (Nat.zero_le _)] <;> simp [IsDigits]

theorem read_of_no_sign {c : Char} (hminus : c ≠ '-') (hplus : c ≠ '+') (rest : List Char) :
    read (c :: rest) =
      (readUnsigned Int64.maxValue.toInt.toNat .tooLarge (c :: rest)).map Int64.ofNat := by
  unfold read
  split
  case h_1 heq => cases heq
  case h_2 heq => exact absurd (List.cons.inj heq).1 hminus
  case h_3 heq => exact absurd (List.cons.inj heq).1 hplus
  case h_4 => cases readUnsigned Int64.maxValue.toInt.toNat .tooLarge (c :: rest) <;> rfl

theorem read_eq_readUnsigned {digits : List Char} (h : IsDigits digits) :
    read digits = (readUnsigned Int64.maxValue.toInt.toNat .tooLarge digits).map Int64.ofNat := by
  obtain ⟨hne, hall⟩ := h
  cases digits with
  | nil => contradiction
  | cons c rest =>
      have hdigit := hall c List.mem_cons_self
      refine read_of_no_sign ?_ ?_ rest <;> rintro rfl <;> cases hdigit

theorem read_eq_ok_iff {digits : List Char} {value : Int64} (h : IsDigits digits) :
    read digits = .ok value ↔ Nat.ofDigitChars 10 digits 0 = value.toInt := by
  rw [read_eq_readUnsigned h]
  constructor
  · intro hread
    obtain ⟨magnitude, hmagnitude, rfl⟩ : ∃ magnitude,
        readUnsigned Int64.maxValue.toInt.toNat .tooLarge digits = .ok magnitude ∧
          Int64.ofNat magnitude = value := by
      cases hr : readUnsigned Int64.maxValue.toInt.toNat .tooLarge digits with
      | error cause =>
          rw [hr] at hread
          cases hread
      | ok magnitude =>
          rw [hr] at hread
          exact ⟨magnitude, rfl, Except.ok.inj hread⟩
    obtain ⟨-, hvalue, hle⟩ := readUnsigned_eq_ok_iff.1 hmagnitude
    have hmax := Int64.toInt_maxValue
    rw [hvalue, Int64.toInt_ofNat_of_lt (by omega)]
  · intro hvalue
    have hmax := Int64.toInt_maxValue
    have hle := value.toInt_le
    have hread : readUnsigned Int64.maxValue.toInt.toNat .tooLarge digits =
        .ok (Nat.ofDigitChars 10 digits 0) :=
      readUnsigned_eq_ok_iff.2 ⟨h, rfl, by omega⟩
    rw [hread, Except.map, Except.ok.injEq, ← Int64.toInt_inj,
      Int64.toInt_ofNat_of_lt (by omega), hvalue]

private theorem readDigits_of_isDigit {limit : Nat} {excess : NumeralError} {text : List Char}
    (h : ∀ c ∈ text, c.isDigit) (value : Nat) :
    (∃ number, readDigits limit excess value text = .ok number) ∨
      readDigits limit excess value text = .error excess := by
  induction text generalizing value with
  | nil => exact .inl ⟨value, rfl⟩
  | cons digit rest ih =>
      obtain ⟨hdigit, hrest⟩ := List.forall_mem_cons.1 h
      simp only [readDigits, hdigit, if_true]
      split
      · exact ih hrest _
      · exact .inr rfl

theorem read_eq_error_iff {digits : List Char} {cause : NumeralError} (h : IsDigits digits) :
    read digits = .error cause ↔
      cause = .tooLarge ∧ Int64.maxValue.toInt < Nat.ofDigitChars 10 digits 0 := by
  rcases Int.lt_or_le Int64.maxValue.toInt (Nat.ofDigitChars 10 digits 0) with hlt | hle
  · have hread : read digits = .error .tooLarge := by
      have hnone : ∀ value, read digits ≠ .ok value := by
        intro value hvalue
        have hexact := (read_eq_ok_iff h).1 hvalue
        have hmax := value.toInt_le
        omega
      rw [read_eq_readUnsigned h] at hnone ⊢
      obtain ⟨hne, hall⟩ := h
      cases digits with
      | nil => contradiction
      | cons digit rest =>
          rcases readDigits_of_isDigit hall 0 with ⟨number, hnumber⟩ | hexcess
          · exact absurd (congrArg (Except.map Int64.ofNat) hnumber) (hnone _)
          · exact congrArg (Except.map Int64.ofNat) hexcess
    simp [hread, hlt, eq_comm]
  · have hmin := Int64.toInt_minValue
    obtain ⟨value, hvalue⟩ : ∃ value : Int64, value.toInt = Nat.ofDigitChars 10 digits 0 :=
      exists_toInt_eq ⟨by omega, hle⟩
    simp [(read_eq_ok_iff h).2 hvalue.symm, Int.not_lt.2 hle]

theorem isDigits_repr (number : Nat) : IsDigits number.repr.toList := by
  rw [Nat.toList_repr]
  exact ⟨Nat.toDigits_ne_nil,
    fun c hc => Nat.isDigit_of_mem_toDigits (by decide) (by decide) hc⟩

theorem ofDigitChars_repr (number : Nat) :
    Nat.ofDigitChars 10 number.repr.toList 0 = number := by
  rw [Nat.toList_repr, Nat.ofDigitChars_ten_toDigits]

end Numeral

end DiceNotation
