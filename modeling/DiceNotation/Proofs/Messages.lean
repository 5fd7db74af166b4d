import DiceNotation.Numeral
import DiceNotation.ReadError
import Mathlib.Data.List.Basic

/-!
# Messages are unambiguous

A message says where a reading error is, what stands there and what is wrong
with it.  Every piece of it but the last shows where it ends, whatever stands
behind it, so the slice cannot pass for a part of the message.
-/

namespace DiceNotation

/-- What is written and what stands behind it can both be told from the text they make up. -/
def IsSelfDelimiting {α : Type} (write : α → List Char) : Prop :=
  ∀ first second rest rest', write first ++ rest = write second ++ rest' →
    first = second ∧ rest = rest'

theorem isPrefix_or_isPrefix_of_append_eq {before before' rest rest' : List Char}
    (h : before ++ rest = before' ++ rest') : before <+: before' ∨ before' <+: before :=
  List.prefix_or_prefix_of_prefix ⟨rest, h⟩ (List.prefix_append before' rest')

theorem takeWhile_ne_append {text : List Char} {stop : Char} (h : stop ∉ text)
    (rest : List Char) : (text ++ stop :: rest).takeWhile (· != stop) = text := by
  have htext : ∀ c ∈ text, (c != stop) = true := fun c hc => bne_iff_ne.2 fun heq => h (heq ▸ hc)
  rw [List.takeWhile_append_of_pos htext, List.takeWhile_cons_of_neg (by simp), List.append_nil]

namespace IsSelfDelimiting

variable {α : Type} {write : α → List Char}

theorem injective (h : IsSelfDelimiting write) : Function.Injective write := by
  intro first second heq
  exact (h first second [] [] (by rw [heq])).1

theorem of_decode {decode? : List Char → Option (α × List Char)}
    (h : ∀ value rest, decode? (write value ++ rest) = some (value, rest)) :
    IsSelfDelimiting write := by
  intro first second rest rest' heq
  have hsome : some (first, rest) = some (second, rest') := by rw [← h, heq, h]
  cases hsome
  exact ⟨rfl, rfl⟩

theorem of_isPrefix (h : ∀ first second, write first <+: write second → first = second) :
    IsSelfDelimiting write := by
  intro first second rest rest' heq
  obtain rfl : first = second := by
    rcases isPrefix_or_isPrefix_of_append_eq heq with hfirst | hsecond
    · exact h first second hfirst
    · exact (h second first hsecond).symm
  exact ⟨rfl, List.append_cancel_left heq⟩

theorem of_stop {stop : Char} (hinjective : Function.Injective write)
    (hstop : ∀ value, stop ∉ write value) :
    IsSelfDelimiting fun value => write value ++ [stop] := by
  intro first second rest rest' heq
  simp only [List.append_assoc, List.singleton_append] at heq
  have hwritten : write first = write second := by
    rw [← takeWhile_ne_append (hstop first) rest, heq, takeWhile_ne_append (hstop second)]
  obtain rfl := hinjective hwritten
  exact ⟨rfl, (List.cons.inj (List.append_cancel_left heq)).2⟩

/-- A row ends at a character that nothing in it begins with. -/
theorem row {stop : Char} (h : IsSelfDelimiting write)
    (hstop : ∀ value rest rest', write value ++ rest ≠ stop :: rest') :
    IsSelfDelimiting fun values : List α => values.flatMap write ++ [stop] := by
  intro first
  induction first with
  | nil =>
      intro second rest rest' heq
      cases second with
      | nil => exact ⟨rfl, List.append_cancel_left heq⟩
      | cons value second =>
          simp only [List.flatMap_cons, List.append_assoc] at heq
          exact absurd heq.symm (hstop value _ _)
  | cons value first ih =>
      intro second rest rest' heq
      cases second with
      | nil =>
          simp only [List.flatMap_cons, List.append_assoc] at heq
          exact absurd heq (hstop value _ _)
      | cons other second =>
          simp only [List.flatMap_cons, List.append_assoc] at heq
          obtain ⟨rfl, htail⟩ := h value other _ _ heq
          rw [← List.append_assoc, ← List.append_assoc] at htail
          obtain ⟨rfl, hrest⟩ := ih second rest rest' htail
          exact ⟨rfl, hrest⟩

theorem append_eq_append_iff {write : α → String}
    (h : IsSelfDelimiting fun value => (write value).toList) {first second : α}
    {rest rest' : String} :
    write first ++ rest = write second ++ rest' ↔ first = second ∧ rest = rest' := by
  constructor
  · intro heq
    rw [← String.toList_inj, String.toList_append, String.toList_append] at heq
    obtain ⟨hvalue, hrest⟩ := h first second rest.toList rest'.toList heq
    exact ⟨hvalue, String.toList_inj.1 hrest⟩
  · rintro ⟨rfl, rfl⟩
    rfl

end IsSelfDelimiting

theorem append_ne_append {before before' : String} (h : ¬before.toList <+: before'.toList)
    (h' : ¬before'.toList <+: before.toList) (rest rest' : String) :
    before ++ rest ≠ before' ++ rest' := by
  intro heq
  rw [← String.toList_inj, String.toList_append, String.toList_append] at heq
  exact (isPrefix_or_isPrefix_of_append_eq heq).elim h h'

theorem notMem_toDigits {base : Nat} {c : Char} (hbase : 1 < base)
    (hc : ∀ digit, Nat.digitChar digit ≠ c) (number : Nat) : c ∉ Nat.toDigits base number := by
  induction number using Nat.strongRecOn with
  | ind number ih =>
      rw [Nat.toDigits_eq_if hbase]
      split
      case isTrue => simpa using (hc number).symm
      case isFalse hle =>
          have hless : number / base < number := Nat.div_lt_self (by omega) hbase
          simpa using ⟨ih _ hless, (hc (number % base)).symm⟩

theorem repr_isSelfDelimiting :
    IsSelfDelimiting fun number : Nat => (number.repr ++ " ").toList := by
  simp only [String.toList_append]
  have hinjective : Function.Injective fun number : Nat => number.repr.toList :=
    Function.LeftInverse.injective Numeral.ofDigitChars_repr
  refine .of_stop hinjective fun number => ?_
  rw [Nat.toList_repr]
  exact notMem_toDigits (by decide) (fun digit => Nat.digitChar_ne ' ' rfl) number

/-! ## Quoted texts -/

namespace Text

def hexDigitValue (digit : Char) : Nat :=
  if digit.isDigit then digit.toNat - '0'.toNat else digit.toNat - 'a'.toNat + 10

def hexValue (digits : List Char) : Nat :=
  digits.foldl (fun value digit => 16 * value + hexDigitValue digit) 0

theorem hexDigitValue_digitChar : ∀ digit < 16, hexDigitValue (Nat.digitChar digit) = digit := by
  decide

theorem hexValue_toDigits (number : Nat) : hexValue (Nat.toDigits 16 number) = number := by
  induction number using Nat.strongRecOn with
  | ind number ih =>
      rw [Nat.toDigits_eq_if (by decide)]
      split
      case isTrue hlt => simp [hexValue, hexDigitValue_digitChar number hlt]
      case isFalse hle =>
          have hquotient := ih (number / 16) (by omega)
          have hremainder := hexDigitValue_digitChar (number % 16) (Nat.mod_lt _ (by decide))
          rw [hexValue] at hquotient ⊢
          rw [List.foldl_concat, hquotient, hremainder, Nat.div_add_mod]

def unescape? : List Char → Option (Char × List Char)
  | '\\' :: '"' :: rest => some ('"', rest)
  | '\\' :: '\\' :: rest => some ('\\', rest)
  | '\\' :: 'n' :: rest => some ('\n', rest)
  | '\\' :: 'r' :: rest => some ('\r', rest)
  | '\\' :: 't' :: rest => some ('\t', rest)
  | '\\' :: '0' :: rest => some ('\x00', rest)
  | '\\' :: 'u' :: '\x7b' :: rest =>
      let digits := rest.takeWhile (· != '\x7d')
      some (Char.ofNat (hexValue digits), rest.drop (digits.length + 1))
  | c :: rest => some (c, rest)
  | [] => none

theorem unescape?_code (c : Char) (rest : List Char) :
    unescape? ('\\' :: 'u' :: '\x7b' :: (Nat.toDigits 16 c.toNat ++ '\x7d' :: rest)) =
      some (c, rest) := by
  have hbrace : '\x7d' ∉ Nat.toDigits 16 c.toNat :=
    notMem_toDigits (by decide) (fun digit => Nat.digitChar_ne '\x7d' rfl) c.toNat
  simp [unescape?, takeWhile_ne_append hbrace, hexValue_toDigits, List.drop_append]

theorem unescape?_cons {c : Char} (h : c ≠ '\\') (rest : List Char) :
    unescape? (c :: rest) = some (c, rest) := by
  unfold unescape?
  split <;> simp_all

theorem unescape?_escape (c : Char) (rest : List Char) :
    unescape? (escape c ++ rest) = some (c, rest) := by
  unfold escape
  split
  case h_1 letter hletter =>
      unfold letter? at hletter
      split at hletter <;> cases hletter <;> rfl
  case h_2 hnone =>
      split
      case isTrue => simpa using unescape?_code c rest
      case isFalse =>
          refine unescape?_cons ?_ rest
          rintro rfl
          cases hnone

theorem escape_append_ne (c : Char) (rest rest' : List Char) : escape c ++ rest ≠ '"' :: rest' := by
  intro heq
  -- it would be the escape of a quotation mark, which begins with a backslash
  have hquote : c = '"' := by
    have hfirst := unescape?_escape c rest
    rw [heq, unescape?_cons (by decide)] at hfirst
    cases hfirst
    rfl
  subst hquote
  cases heq

theorem quote_isSelfDelimiting : IsSelfDelimiting fun text : String => (quote text).toList := by
  intro first second rest rest' heq
  have hrow : IsSelfDelimiting fun letters : List Char => letters.flatMap escape ++ ['"'] :=
    IsSelfDelimiting.row (.of_decode unescape?_escape) escape_append_ne
  simp only [quote, String.toList_ofList, List.cons_append, List.cons.injEq, true_and] at heq
  obtain ⟨htext, hrest⟩ := hrow first.toList second.toList rest rest' heq
  exact ⟨String.toList_inj.1 htext, hrest⟩

end Text

/-! ## Expected kinds -/

theorem TokenKind.label_isSelfDelimiting :
    IsSelfDelimiting fun kind : TokenKind => kind.label.toList := by
  refine .of_isPrefix fun first second => ?_
  cases first <;> cases second <;> decide

theorem TokenKind.label_injective : Function.Injective TokenKind.label :=
  fun _ _ heq => label_isSelfDelimiting.injective (congrArg String.toList heq)

theorem TokenKind.or_append_ne (kind : TokenKind) (rest rest' : String) :
    "or " ++ rest ≠ kind.label ++ rest' := by
  refine append_ne_append ?_ ?_ rest rest' <;> cases kind <;> decide

namespace Expected

theorem series_inj {kind other : TokenKind} {rest rest' : List TokenKind}
    (h : series kind rest = series other rest') : kind = other ∧ rest = rest' := by
  induction rest generalizing kind other rest' with
  | nil =>
      cases rest' with
      | nil => exact ⟨TokenKind.label_injective ((String.append_right_inj _).1 h), rfl⟩
      | cons next rest' =>
          rw [series, series, String.append_assoc] at h
          exact absurd h (TokenKind.or_append_ne other _ _)
  | cons next rest ih =>
      cases rest' with
      | nil =>
          rw [series, series, String.append_assoc] at h
          exact absurd h.symm (TokenKind.or_append_ne kind _ _)
      | cons next' rest' =>
          rw [series, series, String.append_assoc, String.append_assoc] at h
          obtain ⟨rfl, hrest⟩ := TokenKind.label_isSelfDelimiting.append_eq_append_iff.1 h
          obtain ⟨rfl, rfl⟩ := ih ((String.append_right_inj _).1 hrest)
          exact ⟨rfl, rfl⟩

def continuation : List TokenKind → String
  | [] => ""
  | [second] => " or " ++ second.label
  | second :: others => ", " ++ series second others

theorem describe_eq (expected : Expected) :
    expected.describe = expected.first.label ++ continuation expected.others := by
  obtain ⟨first, others⟩ := expected
  match others with
  | [] => exact String.append_empty.symm
  | [_] => exact String.append_assoc
  | _ :: _ :: _ => exact String.append_assoc

theorem continuation_injective : Function.Injective continuation := by
  intro first second h
  match first, second with
  | [], [] => rfl
  | [kind], [other] =>
      obtain rfl := TokenKind.label_injective ((String.append_right_inj _).1 h)
      rfl
  | kind :: next :: rest, other :: next' :: rest' =>
      obtain ⟨rfl, hrest⟩ := series_inj ((String.append_right_inj _).1 h)
      rw [hrest]
  | [], [_] | [], _ :: _ :: _ | [_], [] | _ :: _ :: _, [] =>
      simp [continuation] at h
  -- a blank stands behind the first of two kinds, a comma behind the first of more
  | [_], _ :: _ :: _ => exact absurd h (append_ne_append (by decide) (by decide) _ _)
  | _ :: _ :: _, [_] => exact absurd h (append_ne_append (by decide) (by decide) _ _)

theorem describe_injective : Function.Injective describe := by
  intro first second h
  rw [describe_eq, describe_eq] at h
  obtain ⟨hfirst, hothers⟩ := TokenKind.label_isSelfDelimiting.append_eq_append_iff.1 h
  cases first
  cases second
  rw [Expected.mk.injEq]
  exact ⟨hfirst, continuation_injective hothers⟩

end Expected

namespace ReadProblem

def opening : ReadProblem → String
  | .unexpectedToken _ _ => "unexpected token: found "
  | .unexpectedEnd _ => "unexpected end of input, expected "
  | .unexpectedText _ => "expected "
  | .invalidInteger => "integer is out of range"
  | .trailingInput => "unexpected input after the end of the roll"

def particulars : ReadProblem → String
  | .unexpectedToken found expected => found.label ++ ", expected " ++ expected.describe
  | .unexpectedEnd expected | .unexpectedText expected => expected.describe
  | .invalidInteger | .trailingInput => ""

theorem describe_eq (problem : ReadProblem) :
    problem.describe = problem.opening ++ problem.particulars := by
  cases problem with
  | unexpectedToken found expected =>
      change "unexpected token: found " ++ found.label ++ ", expected " ++ expected.describe =
        "unexpected token: found " ++ (found.label ++ ", expected " ++ expected.describe)
      simp only [String.append_assoc]
  | unexpectedEnd expected => rfl
  | unexpectedText expected => rfl
  | invalidInteger => exact String.append_empty.symm
  | trailingInput => exact String.append_empty.symm

theorem describe_injective : Function.Injective describe := by
  intro first second h
  rw [describe_eq, describe_eq] at h
  cases first <;> cases second
  case unexpectedToken.unexpectedToken found expected other expected' =>
      simp only [opening, particulars, String.append_right_inj, String.append_assoc] at h
      obtain ⟨rfl, hbehind⟩ := TokenKind.label_isSelfDelimiting.append_eq_append_iff.1 h
      rw [Expected.describe_injective ((String.append_right_inj _).1 hbehind)]
  case unexpectedEnd.unexpectedEnd expected expected' =>
      rw [Expected.describe_injective ((String.append_right_inj _).1 h)]
  case unexpectedText.unexpectedText expected expected' =>
      rw [Expected.describe_injective ((String.append_right_inj _).1 h)]
  case invalidInteger.invalidInteger => rfl
  case trailingInput.trailingInput => rfl
  -- no opening is the beginning of another
  all_goals
    simp only [opening] at h
    exact absurd h (append_ne_append (by decide) (by decide) _ _)

end ReadProblem

/-! ## Messages -/

namespace ReadError

theorem message_eq (error : ReadError) :
    error.message = "error at position " ++ ((error.start.repr ++ " ") ++
      ("(" ++ (Text.quote error.slice ++ ("): " ++ error.problem.describe)))) := by
  -- the number shows where it ends only together with the blank behind it
  have hgap : " (" = " " ++ "(" := by decide
  change "error at position " ++ error.start.repr ++ " (" ++ Text.quote error.slice ++ "): " ++
    error.problem.describe = _
  rw [hgap]
  simp only [String.append_assoc]

theorem eq_of_message_eq {first second : ReadError} (h : first.message = second.message) :
    first.start = second.start ∧ first.slice = second.slice ∧
      first.problem = second.problem := by
  rw [message_eq, message_eq, String.append_right_inj] at h
  obtain ⟨hstart, h⟩ := repr_isSelfDelimiting.append_eq_append_iff.1 h
  rw [String.append_right_inj] at h
  obtain ⟨hslice, h⟩ := Text.quote_isSelfDelimiting.append_eq_append_iff.1 h
  rw [String.append_right_inj] at h
  exact ⟨hstart, hslice, ReadProblem.describe_injective h⟩

end ReadError

/--
The message of an error tells its start, its slice and its problem, whatever they
are; where it stops is not shown.  Each of the texts in it tells what it stands
for: that of a problem, of a list of expected kinds and of a kind.  A quoted slice
ends where the text behind it begins, whichever quotation marks, backslashes and
control characters it holds.
-/
theorem messages_are_unambiguous :
    (∀ first second : ReadError, first.message = second.message ↔
      first.start = second.start ∧ first.slice = second.slice ∧
        first.problem = second.problem) ∧
    (∀ first second : ReadProblem, first.describe = second.describe ↔ first = second) ∧
    (∀ first second : Expected, first.describe = second.describe ↔ first = second) ∧
    (∀ first second : TokenKind, first.label = second.label ↔ first = second) ∧
    ∀ slice other rest rest' : String,
      Text.quote slice ++ rest = Text.quote other ++ rest' ↔ slice = other ∧ rest = rest' := by
  refine ⟨fun first second => ⟨ReadError.eq_of_message_eq, ?_⟩,
    fun first second => ReadProblem.describe_injective.eq_iff,
    fun first second => Expected.describe_injective.eq_iff,
    fun first second => TokenKind.label_injective.eq_iff,
    fun slice other rest rest' => Text.quote_isSelfDelimiting.append_eq_append_iff⟩
  rintro ⟨hstart, hslice, hproblem⟩
  rw [ReadError.message_eq, ReadError.message_eq, hstart, hslice, hproblem]

/-- A slice that looks like the end of another message. -/
example : (ReadError.mk .trailingInput 0 27 "\"): integer is out of range").message =
    "error at position 0 (\"\\\"): integer is out of range\"): " ++
      "unexpected input after the end of the roll" := by
  decide

end DiceNotation
