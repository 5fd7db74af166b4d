import DiceNotation.Prompt
import DiceNotation.Proofs.Numerals
import DiceNotation.Source.Counting
import Mathlib.Data.List.Forall2
import Mathlib.Data.List.TakeWhile

/-!
# Conversations

The prompt answers its lines one by one, each at a table of its own.  So what it
answers to an input is what it answers to one part of it, followed by what it
answers to the other part.
-/

namespace DiceNotation

namespace Text

def IsTrimmed (text trimmed : List Char) : Prop :=
  ∃ front back, text = front ++ trimmed ++ back ∧ (∀ c ∈ front, isBlank c = true) ∧
    (∀ c ∈ back, isBlank c = true) ∧ (∀ c ∈ trimmed.head?, isBlank c = false) ∧
    ∀ c ∈ trimmed.getLast?, isBlank c = false

theorem head?_dropWhile_isBlank (text : List Char) :
    ∀ c ∈ (text.dropWhile isBlank).head?, isBlank c = false := by
  intro c hc
  have hhead := List.head?_dropWhile_not isBlank text
  rwa [hc] at hhead

theorem isTrimmed_trim (text : List Char) : IsTrimmed text (trim text) := by
  let rest := text.dropWhile isBlank
  have hrest : trim text ++ (rest.reverse.takeWhile isBlank).reverse = rest := by
    rw [trim, ← List.reverse_append, List.takeWhile_append_dropWhile, List.reverse_reverse]
  refine ⟨text.takeWhile isBlank, (rest.reverse.takeWhile isBlank).reverse, ?_, ?_, ?_, ?_, ?_⟩
  · rw [List.append_assoc, hrest, List.takeWhile_append_dropWhile]
  · exact fun c hc => List.mem_takeWhile_imp hc
  · exact fun c hc => List.mem_takeWhile_imp (List.mem_reverse.1 hc)
  · intro c hc
    refine head?_dropWhile_isBlank text c ?_
    change c ∈ rest.head?
    rw [← hrest, List.head?_append, Option.mem_def.1 hc]
    rfl
  · intro c hc
    rw [trim, List.getLast?_reverse] at hc
    exact head?_dropWhile_isBlank _ c hc

theorem trim_eq_nil_iff {text : List Char} : trim text = [] ↔ ∀ c ∈ text, isBlank c = true := by
  constructor
  · intro h
    obtain ⟨front, back, htext, hfront, hback, -⟩ := isTrimmed_trim text
    rw [h, List.append_nil] at htext
    rw [htext]
    exact List.forall_mem_append.2 ⟨hfront, hback⟩
  · intro h
    rw [trim, List.dropWhile_eq_nil_iff.2 h]
    rfl

end Text

namespace Prompt

/--
The budget for a setting and what is logged of it: the default budget for one that
is missing, and also for one that is no number, but then with a warning.
-/
inductive IsBudget : Option String → Nat → Option String → Prop where
  | unset : IsBudget none defaultBudget none
  | number {setting : String} {budget : Nat} (h : Numeral.DenotesNatural setting.toList budget) :
      IsBudget (some setting) budget none
  | refused {setting : String} {cause : NumeralError}
      (hno : ∀ number, ¬Numeral.DenotesNatural setting.toList number)
      (hcause : Numeral.readNatural setting.toList = .error cause) :
      IsBudget (some setting) defaultBudget
        (some ("WARN ignoring DICEPROB_MAX_ROLLS=" ++ Text.quote setting ++ ": " ++ cause.message))

theorem isBudget_budget (setting? : Option String) :
    IsBudget setting? (budget setting?) (warning? setting?) := by
  cases setting? with
  | none => exact .unset
  | some setting =>
      rw [budget, warning?, Option.map_some]
      cases hread : Numeral.readNatural setting.toList with
      | ok number => exact .number (Numeral.readNatural_eq_ok_iff_denotesNatural.1 hread)
      | error cause =>
          refine .refused (fun number hnumber => ?_) hread
          rw [Numeral.readNatural_eq_ok_iff_denotesNatural.2 hnumber] at hread
          cases hread

/-! ## Lines -/

/-- Lines without line feeds, each with one behind it, but that the last may have none. -/
inductive IsSplit : List UInt8 → List (List UInt8) → Prop where
  | nil : IsSplit [] []
  | last {line : List UInt8} (hne : line ≠ []) (hline : 10 ∉ line) : IsSplit line [line]
  | line {line rest : List UInt8} {others : List (List UInt8)} (hline : 10 ∉ line)
      (hrest : IsSplit rest others) : IsSplit (line ++ 10 :: rest) (line :: others)

def IsClosed (input : List UInt8) : Prop := input = [] ∨ input.getLast? = some 10

theorem lines_cons_feed (rest : List UInt8) : lines (10 :: rest) = [] :: lines rest := rfl

theorem lines_cons_of_ne {byte : UInt8} (h : byte ≠ 10) (rest : List UInt8) :
    lines (byte :: rest) =
      match lines rest with
      | [] => [[byte]]
      | line :: others => (byte :: line) :: others :=
  if_neg h

theorem isSplit_cons {byte : UInt8} (h : byte ≠ 10) {rest line : List UInt8}
    {others : List (List UInt8)} (hrest : IsSplit rest (line :: others)) :
    IsSplit (byte :: rest) ((byte :: line) :: others) := by
  have hcons {line : List UInt8} (hline : 10 ∉ line) : 10 ∉ byte :: line := by
    rw [List.mem_cons, not_or]
    exact ⟨h.symm, hline⟩
  cases hrest with
  | last _ hline => exact .last (List.cons_ne_nil _ _) (hcons hline)
  | line hline hrest => exact .line (hcons hline) hrest

theorem isSplit_lines (input : List UInt8) : IsSplit input (lines input) := by
  induction input with
  | nil => exact .nil
  | cons byte rest ih =>
      by_cases h : byte = 10
      case pos =>
          subst h
          exact .line List.not_mem_nil ih
      case neg =>
          rw [lines_cons_of_ne h]
          split
          case h_1 hlines =>
              rw [hlines] at ih
              cases ih
              exact .last (List.cons_ne_nil _ _) (by simpa using Ne.symm h)
          case h_2 line others hlines =>
              rw [hlines] at ih
              exact isSplit_cons h ih

theorem IsClosed.of_cons {byte : UInt8} {rest : List UInt8} (h : IsClosed (byte :: rest)) :
    IsClosed rest ∧ (rest = [] → byte = 10) := by
  cases rest with
  | nil => exact ⟨.inl rfl, fun _ => by simpa [IsClosed] using h⟩
  | cons other rest => exact ⟨.inr (by simpa [IsClosed] using h), fun heq => by cases heq⟩

theorem lines_ne_nil {input : List UInt8} (h : input ≠ []) : lines input ≠ [] := by
  intro hlines
  have hsplit := isSplit_lines input
  rw [hlines] at hsplit
  cases hsplit
  exact h rfl

theorem lines_append {first : List UInt8} (h : IsClosed first) (second : List UInt8) :
    lines (first ++ second) = lines first ++ lines second := by
  induction first with
  | nil => rfl
  | cons byte rest ih =>
      obtain ⟨hrest, hlast⟩ := h.of_cons
      rw [List.cons_append]
      by_cases hbyte : byte = 10
      case pos =>
          subst hbyte
          rw [lines_cons_feed, lines_cons_feed, ih hrest, List.cons_append]
      case neg =>
          obtain ⟨line, others, hlines⟩ :=
            List.exists_cons_of_ne_nil (lines_ne_nil fun heq => hbyte (hlast heq))
          rw [lines_cons_of_ne hbyte, lines_cons_of_ne hbyte, ih hrest, hlines]
          rfl

def bytes (text : String) : List UInt8 := text.toUTF8.data.toList

def IsText (line : List UInt8) : Prop := ∃ text, bytes text = line

theorem fromUTF8?_eq_some_iff {line : List UInt8} {text : String} :
    String.fromUTF8? ⟨line.toArray⟩ = some text ↔ bytes text = line := by
  unfold String.fromUTF8?
  constructor
  · intro h
    split at h
    case isTrue hvalid =>
        obtain rfl := Option.some.inj h
        rfl
    case isFalse => cases h
  · rintro rfl
    have hbytes : (⟨(bytes text).toArray⟩ : ByteArray) = text.toByteArray := rfl
    rw [hbytes, dif_pos text.isValidUTF8]
    rfl

theorem decode?_eq_some_iff {line : List UInt8} {trimmed : String} :
    decode? line = some trimmed ↔
      ∃ text, bytes text = line ∧ String.ofList (Text.trim text.toList) = trimmed := by
  simp only [decode?, Option.map_eq_some_iff, fromUTF8?_eq_some_iff]

theorem decode?_eq_none_iff {line : List UInt8} : decode? line = none ↔ ¬IsText line := by
  rw [Option.eq_none_iff_forall_ne_some]
  constructor
  · rintro h ⟨text, htext⟩
    exact h _ (decode?_eq_some_iff.2 ⟨text, htext, rfl⟩)
  · intro h trimmed hline
    obtain ⟨text, htext, -⟩ := decode?_eq_some_iff.1 hline
    exact h ⟨text, htext⟩

/-- The trimmed texts of the lines in front of the first that is no text. -/
def heard : List (List UInt8) → List String
  | [] => []
  | line :: rest =>
      match decode? line with
      | none => []
      | some text => text :: heard rest

theorem heard_append {first : List (List UInt8)} (h : ∀ line ∈ first, IsText line)
    (second : List (List UInt8)) : heard (first ++ second) = heard first ++ heard second := by
  induction first with
  | nil => rfl
  | cons line first ih =>
      obtain ⟨hline, hfirst⟩ := List.forall_mem_cons.1 h
      rw [List.cons_append, heard, heard]
      split
      case h_1 hnone => exact absurd hline (decode?_eq_none_iff.1 hnone)
      case h_2 => rw [ih hfirst, List.cons_append]

theorem heard_eq_nil {lines : List (List UInt8)} (h : ∀ line ∈ lines.head?, ¬IsText line) :
    heard lines = [] := by
  cases lines with
  | nil => rfl
  | cons line lines => rw [heard, decode?_eq_none_iff.2 (h line rfl)]

/-! ## Answers -/

variable {σ : Type} [Source σ]

def replies (budget : Nat) : σ → List String → List Transcript
  | _, [] => []
  | source, text :: rest =>
      (answer budget source text).1 :: replies budget (answer budget source text).2 rest

def ofAnswers (answers : List Transcript) : Conversation where
  out := sign ++ String.join (answers.map (·.out ++ sign))
  err := String.join (answers.map (·.err))
  code := exitCode

theorem transcript_eq (budget : Nat) (source : σ) (lines : List (List UInt8)) :
    transcript budget source lines = ofAnswers (replies budget source (heard lines)) := by
  induction lines generalizing source with
  | nil => rfl
  | cons line lines ih =>
      rw [transcript, heard]
      cases decode? line with
      | none => rfl
      | some text =>
          simp only [ih, replies, ofAnswers, List.map_cons, String.join_cons, String.append_assoc]

theorem replies_append (budget : Nat) (first : List String) (source : σ) :
    ∃ behind : σ, ∀ second, replies budget source (first ++ second) =
      replies budget source first ++ replies budget behind second := by
  induction first generalizing source with
  | nil => exact ⟨source, fun _ => rfl⟩
  | cons text first ih =>
      obtain ⟨behind, h⟩ := ih (answer budget source text).2
      refine ⟨behind, fun second => ?_⟩
      rw [List.cons_append, replies, replies, h, List.cons_append]

/-- What a text comes to does not depend on the values of dice. -/
def IsSteady (σ : Type) [Source σ] (budget : Nat) (text : String) : Prop :=
  ∀ source other : σ, (rollText text (Table.fresh (some budget) source)).1 =
    (rollText text (Table.fresh (some budget) other)).1

theorem answer_steady {budget : Nat} {text : String} (h : IsSteady σ budget text)
    (source other : σ) : (answer budget source text).1 = (answer budget other text).1 := by
  unfold answer
  split
  case isTrue => rfl
  case isFalse =>
      dsimp only
      rw [h source other]
      split <;> rfl

theorem replies_steady {budget : Nat} {texts : List String}
    (h : ∀ text ∈ texts, IsSteady σ budget text) (source other : σ) :
    replies budget source texts = replies budget other texts := by
  induction texts generalizing source other with
  | nil => rfl
  | cons text texts ih =>
      obtain ⟨htext, htexts⟩ := List.forall_mem_cons.1 h
      rw [replies, replies, answer_steady htext source other, ih htexts]

theorem ofAnswers_append (first second : List Transcript) :
    ∃ rest, (ofAnswers second).out = sign ++ rest ∧
      (ofAnswers (first ++ second)).out = (ofAnswers first).out ++ rest ∧
      (ofAnswers (first ++ second)).err = (ofAnswers first).err ++ (ofAnswers second).err := by
  refine ⟨_, rfl, ?_, ?_⟩ <;>
    simp only [ofAnswers, List.map_append, String.join_append, String.append_assoc]

/-- A line has the answer of the roll of its trimmed text, and none if nothing is left of it. -/
inductive Answers (σ : Type) [Source σ] (budget : Nat) : List UInt8 → Transcript → Prop where
  | blank {text : String} (hblank : ∀ c ∈ text.toList, Text.isBlank c = true) :
      Answers σ budget (bytes text) ⟨"", ""⟩
  | total {text trimmed : String} {source : σ} {total : Int64}
      (htrimmed : Text.IsTrimmed text.toList trimmed.toList) (hne : trimmed ≠ "")
      (hroll : (rollText trimmed (Table.fresh (some budget) source)).1 = .ok total) :
      Answers σ budget (bytes text) ⟨Numeral.write total ++ "\n", ""⟩
  | failure {text trimmed : String} {source : σ} {failure : Failure}
      (htrimmed : Text.IsTrimmed text.toList trimmed.toList) (hne : trimmed ≠ "")
      (hroll : (rollText trimmed (Table.fresh (some budget) source)).1 = .error failure) :
      Answers σ budget (bytes text) ⟨"", "Error: " ++ failure.message ++ "\n"⟩

theorem answers_answer (budget : Nat) (source : σ) (text : String) :
    Answers σ budget (bytes text)
      (answer budget source (String.ofList (Text.trim text.toList))).1 := by
  have htrimmed : Text.IsTrimmed text.toList
      (String.ofList (Text.trim text.toList)).toList := by
    rw [String.toList_ofList]
    exact Text.isTrimmed_trim _
  unfold answer
  split
  case isTrue hempty =>
      exact .blank (Text.trim_eq_nil_iff.1 (String.ofList_eq_empty_iff.1 hempty))
  case isFalse hne =>
      dsimp only
      split
      case h_1 hroll => exact .total htrimmed hne hroll
      case h_2 hroll => exact .failure htrimmed hne hroll

theorem forall₂_answers (budget : Nat) (source : σ) (lines : List (List UInt8)) :
    ∃ read unread, lines = read ++ unread ∧ (∀ line ∈ unread.head?, ¬IsText line) ∧
      List.Forall₂ (Answers σ budget) read (replies budget source (heard lines)) := by
  induction lines generalizing source with
  | nil => exact ⟨[], [], rfl, by simp, .nil⟩
  | cons line lines ih =>
      rw [heard]
      split
      case h_1 hnone =>
          refine ⟨[], line :: lines, rfl, fun other hother => ?_, .nil⟩
          obtain rfl := Option.some.inj hother
          exact decode?_eq_none_iff.1 hnone
      case h_2 trimmed hsome =>
          obtain ⟨text, rfl, rfl⟩ := decode?_eq_some_iff.1 hsome
          obtain ⟨read, unread, rfl, hunread, hread⟩ :=
            ih (answer budget source (String.ofList (Text.trim text.toList))).2
          exact ⟨bytes text :: read, unread, rfl, hunread,
            .cons (answers_answer budget source text) hread⟩

theorem count_sign_of_answers {budget : Nat} {line : List UInt8} {answer : Transcript}
    (h : Answers σ budget line answer) : answer.out.toList.count '>' = 0 := by
  cases h with
  | blank => rfl
  | failure => rfl
  | @total _ _ _ total =>
      rw [String.toList_append, List.count_append, Nat.add_eq_zero_iff]
      refine ⟨List.count_eq_zero.2 fun hmem => ?_, rfl⟩
      have hnumeric := (Numeral.denotes_write total).isNumeric '>' hmem
      revert hnumeric
      decide

theorem count_sign_ofAnswers {budget : Nat} {lines : List (List UInt8)}
    {answers : List Transcript} (h : List.Forall₂ (Answers σ budget) lines answers) :
    (ofAnswers answers).out.toList.count '>' = lines.length + 1 := by
  have hjoined : (String.join (answers.map (·.out ++ sign))).toList.count '>' = lines.length := by
    induction h with
    | nil => rfl
    | cons hanswer _ ih =>
        simp only [List.map_cons, String.join_cons, String.toList_append, List.count_append, ih,
          count_sign_of_answers hanswer, List.length_cons]
        rw [show sign.toList.count '>' = 1 from rfl]
        omega
  rw [ofAnswers, String.toList_append, List.count_append, hjoined]
  exact Nat.add_comm 1 _

theorem transcript_append {budget : Nat} {first second : List UInt8} (hclosed : IsClosed first)
    (htexts : ∀ line ∈ lines first, IsText line)
    (hsteady : ∀ text ∈ heard (lines (first ++ second)), IsSteady σ budget text)
    (source source₁ source₂ : σ) :
    ∃ rest, (transcript budget source₂ (lines second)).out = sign ++ rest ∧
      (transcript budget source (lines (first ++ second))).out =
        (transcript budget source₁ (lines first)).out ++ rest ∧
      (transcript budget source (lines (first ++ second))).err =
        (transcript budget source₁ (lines first)).err ++
          (transcript budget source₂ (lines second)).err := by
  rw [lines_append hclosed, heard_append htexts] at hsteady
  obtain ⟨hfirst, hsecond⟩ := List.forall_mem_append.1 hsteady
  obtain ⟨behind, happend⟩ := replies_append budget (heard (lines first)) source
  have hreplies : replies budget source (heard (lines (first ++ second))) =
      replies budget source₁ (heard (lines first)) ++
        replies budget source₂ (heard (lines second)) := by
    rw [lines_append hclosed, heard_append htexts, happend, replies_steady hfirst source source₁,
      replies_steady hsecond behind source₂]
  simp only [transcript_eq, hreplies]
  exact ofAnswers_append _ _

theorem transcript_append_of_not_isText {budget : Nat} {first second line : List UInt8}
    {others : List (List UInt8)} (hclosed : IsClosed first)
    (htexts : ∀ line ∈ lines first, IsText line) (hline : lines second = line :: others)
    (hno : ¬IsText line) (hsteady : ∀ text ∈ heard (lines first), IsSteady σ budget text)
    (source source₁ : σ) :
    transcript budget source (lines (first ++ second)) =
      transcript budget source₁ (lines first) := by
  have hsecond : heard (lines second) = [] := by
    refine heard_eq_nil fun other hother => ?_
    rw [hline] at hother
    obtain rfl := Option.some.inj hother
    exact hno
  rw [transcript_eq, transcript_eq, lines_append hclosed, heard_append htexts, hsecond,
    List.append_nil, replies_steady hsteady source source₁]

theorem transcript_answers (budget : Nat) (source : σ) (lines : List (List UInt8)) :
    ∃ read unread answers, lines = read ++ unread ∧ (∀ line ∈ unread.head?, ¬IsText line) ∧
      List.Forall₂ (Answers σ budget) read answers ∧
      (transcript budget source lines).out = sign ++ String.join (answers.map (·.out ++ sign)) ∧
      (transcript budget source lines).err = String.join (answers.map (·.err)) ∧
      (transcript budget source lines).out.toList.count '>' = read.length + 1 := by
  obtain ⟨read, unread, hlines, hunread, hanswers⟩ := forall₂_answers budget source lines
  rw [transcript_eq]
  exact ⟨read, unread, _, hlines, hunread, hanswers, rfl, rfl, count_sign_ofAnswers hanswers⟩

/--
The lines of an input are answered one by one, each by the roll of its trimmed text
at a table of its own with the budget of the setting, up to the first that is no
text.  There is one more prompt than there are answered lines, and the program ends
without an error.  So an input of whole lines that are texts and the
input behind it are answered as they are on their own, if their rolls do not depend
on the values of dice.  Nothing is answered from a line on that is no text.
-/
theorem lines_are_answered_one_by_one (setting? : Option String) :
    IsBudget setting? (budget setting?) (warning? setting?) ∧
    (∀ (input : List UInt8) (source : σ),
      (transcript (budget setting?) source (lines input)).code = 0) ∧
    (∀ input, IsSplit input (lines input)) ∧
    (∀ first second, IsClosed first → (∀ line ∈ lines first, IsText line) →
      (∀ text ∈ heard (lines (first ++ second)), IsSteady σ (budget setting?) text) →
      ∀ source source₁ source₂ : σ, ∃ rest,
        (transcript (budget setting?) source₂ (lines second)).out = sign ++ rest ∧
        (transcript (budget setting?) source (lines (first ++ second))).out =
          (transcript (budget setting?) source₁ (lines first)).out ++ rest ∧
        (transcript (budget setting?) source (lines (first ++ second))).err =
          (transcript (budget setting?) source₁ (lines first)).err ++
            (transcript (budget setting?) source₂ (lines second)).err) ∧
    (∀ first second line others, IsClosed first → (∀ line ∈ lines first, IsText line) →
      lines second = line :: others → ¬IsText line →
      (∀ text ∈ heard (lines first), IsSteady σ (budget setting?) text) →
      ∀ source source₁ : σ,
        transcript (budget setting?) source (lines (first ++ second)) =
          transcript (budget setting?) source₁ (lines first)) ∧
    ∀ (input : List UInt8) (source : σ), ∃ read unread answers,
      lines input = read ++ unread ∧ (∀ line ∈ unread.head?, ¬IsText line) ∧
      List.Forall₂ (Answers σ (budget setting?)) read answers ∧
      (transcript (budget setting?) source (lines input)).out =
        sign ++ String.join (answers.map (·.out ++ sign)) ∧
      (transcript (budget setting?) source (lines input)).err =
        String.join (answers.map (·.err)) ∧
      (transcript (budget setting?) source (lines input)).out.toList.count '>' =
        read.length + 1 := by
  refine ⟨isBudget_budget setting?, ?_, isSplit_lines, ?_, ?_, ?_⟩
  · exact fun input source => congrArg Conversation.code (transcript_eq _ source _)
  · intro first second hclosed htexts hsteady
    exact transcript_append hclosed htexts hsteady
  · intro first second line others hclosed htexts hline hno hsteady
    exact transcript_append_of_not_isText hclosed htexts hline hno hsteady
  · exact fun input source => transcript_answers _ source _

private theorem rollText_twoOnes (source : Counting) :
    (rollText "2d1" (Table.fresh (some 3) source)).1 = .ok 2 := by
  let one : Sides := ⟨1, by decide, by decide⟩
  have hvalue (source : Counting) : (Source.summand one source).value = 1 :=
    congrArg (· + 1) (Nat.mod_one _)
  have hsum (play : Play Counting) : ((Roll.addDice one 0 2 0).outcome play).1 = .ok 2 := by
    simp only [Roll.addDice, Roll.checkAmong, Roll.outcome_bind, Roll.outcome_receive,
      Roll.outcome_fit, hvalue]
    rfl
  have hread : Expression.read "2d1" = .ok (.ofTerm (.ofAtom (.dice "2d1"))) := by
    decide +kernel
  let charged : Play Counting := ⟨{ Table.fresh (some 3) source with rolls := 2 }, #[]⟩
  rw [rollText_of_read hread]
  change (Except.mapError Failure.rolling
    ((Roll.addDice one 0 2 0 >>= fun total =>
      .recording (.thrown (.standard 2 1) (Int64.ofNat total))
        (.finished (Int64.ofNat total))).outcome charged).1) = .ok 2
  rcases hroll : (Roll.addDice one 0 2 0).outcome charged with ⟨result, behind⟩
  obtain rfl : result = .ok 2 := (congrArg Prod.fst hroll).symm.trans (hsum charged)
  rw [Roll.outcome_bind_of_ok hroll]
  rfl

private theorem isSteady_twoOnes : IsSteady Counting (budget (some "3")) "2d1" := by
  rw [show budget (some "3") = 3 by decide +kernel]
  exact fun source other => (rollText_twoOnes source).trans (rollText_twoOnes other).symm

/-- The dice of a line are not counted in the next one, and byte 255 is in no text. -/
theorem lines_are_answered_one_by_one_twice :
    (∃ rest,
      (transcript (budget (some "3")) (⟨7, 2⟩ : Counting) (lines [50, 100, 49, 10, 255])).out =
        sign ++ rest ∧
      (transcript (budget (some "3")) (⟨4, 1⟩ : Counting)
        (lines (bytes "2d1\n" ++ [50, 100, 49, 10, 255]))).out =
          (transcript (budget (some "3")) (⟨1, 1⟩ : Counting) (lines (bytes "2d1\n"))).out ++ rest ∧
      (transcript (budget (some "3")) (⟨4, 1⟩ : Counting)
        (lines (bytes "2d1\n" ++ [50, 100, 49, 10, 255]))).err =
          (transcript (budget (some "3")) (⟨1, 1⟩ : Counting) (lines (bytes "2d1\n"))).err ++
            (transcript (budget (some "3")) (⟨7, 2⟩ : Counting)
              (lines [50, 100, 49, 10, 255])).err) ∧
    transcript (budget (some "3")) (⟨4, 1⟩ : Counting) (lines (bytes "2d1\n" ++ [255, 10, 50])) =
      transcript (budget (some "3")) (⟨1, 1⟩ : Counting) (lines (bytes "2d1\n")) := by
  have hclaim := lines_are_answered_one_by_one (σ := Counting) (some "3")
  have hclosed : IsClosed (bytes "2d1\n") := .inr (by decide +kernel)
  have htexts : ∀ line ∈ lines (bytes "2d1\n"), IsText line := by
    have hlines : lines (bytes "2d1\n") = [bytes "2d1"] := by decide +kernel
    rw [hlines]
    exact List.forall_mem_singleton.2 ⟨"2d1", rfl⟩
  have hno : ¬IsText [255] := decode?_eq_none_iff.1 (by decide +kernel)
  refine ⟨hclaim.2.2.2.1 _ _ hclosed htexts ?_ _ _ _, hclaim.2.2.2.2.1 _ _ [255] [[50]] hclosed htexts
    (by decide +kernel) hno ?_ _ _⟩
  · have hheard : heard (lines (bytes "2d1\n" ++ [50, 100, 49, 10, 255])) = ["2d1", "2d1"] := by
      decide +kernel
    rw [hheard]
    intro text htext
    obtain rfl : text = "2d1" := by simpa using htext
    exact isSteady_twoOnes
  · have hheard : heard (lines (bytes "2d1\n")) = ["2d1"] := by decide +kernel
    rw [hheard]
    exact List.forall_mem_singleton.2 isSteady_twoOnes

end Prompt

end DiceNotation
