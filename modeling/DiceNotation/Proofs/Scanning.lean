import DiceNotation.Text.LetterCase
import DiceNotation.Token.Pattern
import DiceNotation.Tree.Spelling
import Mathlib.Data.List.Chain

/-!
# Cutting what has been written

The words of a row, written one after the other with any blanks around them, are
cut apart again as they were, unless a numeral or dice follow a numeral or dice
at once.  Digits go on as long as a digit comes next, and a `d` may make dice of
them; a blank, a sign and a parenthesis do neither.
-/

namespace DiceNotation

/-- The text goes on with no digit and with no `d`, so that digits in front of it end there. -/
def StopsDigits (rest : List Char) : Prop :=
  ∀ c ∈ rest.head?, c.isDigit = false ∧ c.toLower ≠ 'd'

theorem stopsDigits_cons {c : Char} (hdigit : c.isDigit = false) (hletter : c.toLower ≠ 'd')
    (rest : List Char) : StopsDigits (c :: rest) := by
  intro other hother
  cases hother
  exact ⟨hdigit, hletter⟩

theorem eq_of_isWhitespace {c : Char} (h : c.isWhitespace) :
    c = ' ' ∨ c = '\t' ∨ c = '\r' ∨ c = '\n' := by
  simpa [Char.isWhitespace, or_assoc] using h

theorem stopsDigits_of_isWhitespace {c : Char} (h : c.isWhitespace) (rest : List Char) :
    StopsDigits (c :: rest) := by
  rcases eq_of_isWhitespace h with rfl | rfl | rfl | rfl <;>
    exact stopsDigits_cons (by decide) (by decide) rest

theorem isWhitespace_eq_false_of_isDigit {c : Char} (h : c.isDigit) :
    c.isWhitespace = false := by
  rw [← Bool.not_eq_true]
  intro hblank
  rcases eq_of_isWhitespace hblank with rfl | rfl | rfl | rfl <;> cases h

theorem takeWhile_isDigit_append {digits rest : List Char} (hdigits : ∀ c ∈ digits, c.isDigit)
    (hrest : ∀ c ∈ rest.head?, c.isDigit = false) :
    (digits ++ rest).takeWhile Char.isDigit = digits := by
  rw [List.takeWhile_append_of_pos hdigits]
  cases rest with
  | nil => simp
  | cons c rest => simp [hrest c rfl]

theorem dropWhile_isDigit_append {digits rest : List Char} (hdigits : ∀ c ∈ digits, c.isDigit)
    (hrest : ∀ c ∈ rest.head?, c.isDigit = false) :
    (digits ++ rest).dropWhile Char.isDigit = rest := by
  rw [List.dropWhile_append_of_pos hdigits]
  cases rest with
  | nil => rfl
  | cons c rest => simp [hrest c rfl]

/-! ## The first word -/

namespace Lexeme

theorem sides?_of_isSides {sides rest : List Char} (hsides : IsSides sides)
    (hrest : ∀ c ∈ rest.head?, c.isDigit = false) :
    sides? (sides ++ rest) = some (sides, rest) := by
  obtain ⟨mark, digits, rfl, hmark, hne, hdigits⟩ := hsides
  cases digits with
  | nil => contradiction
  | cons digit digits =>
      obtain ⟨hdigit, hdigits⟩ := List.forall_mem_cons.1 hdigits
      simp [sides?, hmark, hdigit, takeWhile_isDigit_append hdigits hrest,
        dropWhile_isDigit_append hdigits hrest]

theorem sides?_of_stopsDigits {rest : List Char} (h : StopsDigits rest) : sides? rest = none := by
  unfold sides?
  split
  case h_1 mark digit rest => exact if_neg fun hmark => (h mark rfl).2 hmark.1
  case h_2 => rfl

theorem counted_of_isSides {count sides rest : List Char} (otherwise : TokenKind)
    (start : List Char) (hcount : ∀ c ∈ count, c.isDigit) (hsides : IsSides sides)
    (hrest : ∀ c ∈ rest.head?, c.isDigit = false) :
    counted otherwise start (count ++ (sides ++ rest)) =
      ⟨.dice, start ++ count ++ sides, rest⟩ := by
  have hmark : ∀ c ∈ (sides ++ rest).head?, c.isDigit = false := by
    obtain ⟨mark, digits, rfl, hmark, -⟩ := hsides
    intro c hc
    cases hc
    exact isDigit_eq_false_of_toLower hmark (by decide)
  simp [counted, takeWhile_isDigit_append hcount hmark, dropWhile_isDigit_append hcount hmark,
    sides?_of_isSides hsides hrest]

theorem counted_of_stopsDigits {count rest : List Char} (otherwise : TokenKind)
    (start : List Char) (hcount : ∀ c ∈ count, c.isDigit) (hrest : StopsDigits rest) :
    counted otherwise start (count ++ rest) = ⟨otherwise, start ++ count, rest⟩ := by
  have hdigit : ∀ c ∈ rest.head?, c.isDigit = false := fun c hc => (hrest c hc).1
  simp [counted, takeWhile_isDigit_append hcount hdigit, dropWhile_isDigit_append hcount hdigit,
    sides?_of_stopsDigits hrest]

theorem middle?_of_letters {letters : List Char}
    (h : letters.map Char.toLower = ['m', 'i', 'd']) (rest : List Char) :
    middle? (letters ++ rest) = some (letters, rest) := by
  obtain ⟨m, i, d, rfl⟩ := List.length_eq_three.1 (by simpa using congrArg List.length h)
  simp_all [middle?]

theorem middle?_eq_none {c : Char} (h : c.toLower ≠ 'm') (text : List Char) :
    middle? (c :: text) = none := by
  unfold middle?
  split
  case h_1 heq =>
      obtain ⟨rfl, -⟩ := List.cons.inj heq
      exact if_neg fun hletters => h hletters.1
  case h_2 => rfl

theorem first_of_isDigit {c : Char} (h : c.isDigit) (text : List Char) :
    first c text = counted .integer [] (c :: text) :=
  if_pos h

theorem first_of_middle {c : Char} {text letters rest : List Char}
    (hletters : letters.map Char.toLower = ['m', 'i', 'd']) (h : c :: text = letters ++ rest) :
    first c text = counted .unknown letters rest := by
  obtain ⟨m, i, d, rfl⟩ := List.length_eq_three.1 (by simpa using congrArg List.length hletters)
  obtain ⟨rfl, rfl⟩ := List.cons.inj h
  have hdigit : c.isDigit = false := by
    simp only [List.map_cons, List.cons.injEq] at hletters
    exact isDigit_eq_false_of_toLower hletters.1 (by decide)
  have hmiddle := middle?_of_letters hletters rest
  simp only [List.cons_append, List.nil_append] at hmiddle ⊢
  simp [first, hdigit, hmiddle]

theorem first_of_single {c : Char} (hdigit : c.isDigit = false) (hletter : c.toLower ≠ 'm')
    (text : List Char) : first c text = ⟨single c, [c], text⟩ := by
  simp [first, hdigit, middle?_eq_none hletter]

end Lexeme

/-- Whether what follows a word of this kind at once may be taken for a part of it. -/
def TokenKind.IsOpen (kind : TokenKind) : Prop := kind = .integer ∨ kind = .dice

theorem Lexeme.first_of_matches {kind : TokenKind} {c : Char} {tail rest : List Char}
    (h : kind.Matches (c :: tail)) (hrest : kind.IsOpen → StopsDigits rest) :
    first c (tail ++ rest) = ⟨kind, c :: tail, rest⟩ := by
  generalize hletters : c :: tail = letters at h
  cases h with
  | integer hdigits =>
      subst hletters
      rw [first_of_isDigit (hdigits.2 c (by simp))]
      exact counted_of_stopsDigits .integer [] hdigits.2 (hrest (.inl rfl))
  | @standard count sides hcount hsides =>
      have hstop : ∀ d ∈ rest.head?, d.isDigit = false := fun d hd => (hrest (.inr rfl) d hd).1
      cases count with
      | nil => exact absurd rfl hcount.1
      | cons digit count =>
          obtain ⟨rfl, rfl⟩ := List.cons.inj hletters
          rw [first_of_isDigit (hcount.2 c (by simp))]
          simpa using counted_of_isSides .integer [] hcount.2 hsides hstop
  | @middle mid count sides hmid hcount hsides =>
      have hstop : ∀ d ∈ rest.head?, d.isDigit = false := fun d hd => (hrest (.inr rfl) d hd).1
      have htext : c :: (tail ++ rest) = mid ++ (count ++ (sides ++ rest)) := by
        rw [← List.cons_append, hletters]
        simp
      rw [first_of_middle hmid htext, counted_of_isSides .unknown mid hcount hsides hstop]
  | _ =>
      obtain ⟨rfl, rfl⟩ := List.cons.inj hletters
      exact first_of_single (by decide) (by decide) rest

/-! ## Rows of words -/

namespace Word

def HasForm (word : Word) : Prop := word.kind.Matches word.text.toList

def Apart (first second : Word) : Prop := first.kind.IsOpen → ¬second.kind.IsOpen

theorem HasForm.exists_cons {word : Word} (h : word.HasForm) :
    ∃ c tail, word.text.toList = c :: tail ∧ c.isWhitespace = false := by
  obtain ⟨kind, text⟩ := word
  simp only [HasForm] at h ⊢
  generalize text.toList = letters at h
  cases h with
  | integer hdigits =>
      cases letters with
      | nil => exact absurd rfl hdigits.1
      | cons c tail => exact ⟨c, tail, rfl, isWhitespace_eq_false_of_isDigit (hdigits.2 c (by simp))⟩
  | @standard count sides hcount hsides =>
      cases count with
      | nil => exact absurd rfl hcount.1
      | cons c tail => exact ⟨c, _, rfl, isWhitespace_eq_false_of_isDigit (hcount.2 c (by simp))⟩
  | @middle mid count sides hmid hcount hsides =>
      obtain ⟨m, i, d, rfl⟩ := List.length_eq_three.1 (by simpa using congrArg List.length hmid)
      exact ⟨m, _, rfl, isWhitespace_eq_false_of_toLower (List.cons.inj hmid).1 (by decide)⟩
  | _ => exact ⟨_, [], rfl, by decide⟩

theorem HasForm.stopsDigits {word : Word} (h : word.HasForm) (hclosed : ¬word.kind.IsOpen)
    (rest : List Char) : StopsDigits (word.text.toList ++ rest) := by
  obtain ⟨kind, text⟩ := word
  simp only [HasForm] at h hclosed ⊢
  generalize text.toList = letters at h
  cases h with
  | integer => exact absurd (.inl rfl) hclosed
  | standard => exact absurd (.inr rfl) hclosed
  | middle => exact absurd (.inr rfl) hclosed
  | _ => exact stopsDigits_cons (by decide) (by decide) rest

theorem stopsDigits_of_spaced {words : List Word} {text : List Char} (h : Spaced words text)
    (hfirst : ∀ word ∈ words.head?, word.HasForm ∧ ¬word.kind.IsOpen) : StopsDigits text := by
  cases h with
  | nil hblanks =>
      cases text with
      | nil => exact fun c hc => by cases hc
      | cons c blanks => exact stopsDigits_of_isWhitespace (hblanks c (by simp)) blanks
  | @cons blanks text words hblanks word hwords =>
      obtain ⟨hform, hclosed⟩ := hfirst word rfl
      cases blanks with
      | nil => exact hform.stopsDigits hclosed text
      | cons c blanks => exact stopsDigits_of_isWhitespace (hblanks c (by simp)) _

end Word

namespace Token

theorem scanFrom_blanks {blanks : List Char} (h : ∀ c ∈ blanks, c.isWhitespace) (start : Nat)
    (text : List Char) :
    scanFrom start (blanks ++ text) =
      scanFrom (start + (String.ofList blanks).utf8ByteSize) text := by
  induction blanks generalizing start with
  | nil => simp
  | cons c blanks ih =>
      obtain ⟨hc, hblanks⟩ := List.forall_mem_cons.1 h
      rw [List.cons_append, scanFrom, if_pos hc, ih hblanks, String.ofList_cons]
      simp [Nat.add_assoc]

theorem scanFrom_word {word : Word} {rest : List Char} (h : word.HasForm)
    (hrest : word.kind.IsOpen → StopsDigits rest) (start : Nat) :
    scanFrom start (word.text.toList ++ rest) =
      ⟨word.kind, start, word.text⟩ :: scanFrom (start + word.text.utf8ByteSize) rest := by
  obtain ⟨c, tail, htext, hblank⟩ := h.exists_cons
  unfold Word.HasForm at h
  rw [htext] at h
  have hword : String.ofList (c :: tail) = word.text := by
    rw [← htext, String.ofList_toList]
  rw [htext, List.cons_append, scanFrom, Lexeme.first_of_matches h hrest]
  simp [hblank, hword, stop]

theorem words_scanFrom {words : List Word} {text : List Char} (h : Spaced words text)
    (hforms : ∀ word ∈ words, word.HasForm) (hapart : words.IsChain Word.Apart) (start : Nat) :
    (scanFrom start text).map word = words := by
  induction h generalizing start with
  | nil hblanks =>
      have hscan := scanFrom_blanks hblanks start []
      rw [List.append_nil] at hscan
      rw [hscan, scanFrom, List.map_nil]
  | @cons blanks text words hblanks first hwords ih =>
      obtain ⟨hform, hforms⟩ := List.forall_mem_cons.1 hforms
      obtain ⟨hnext, hapart⟩ := List.isChain_cons.1 hapart
      have hstop : first.kind.IsOpen → StopsDigits text := by
        intro hopen
        refine Word.stopsDigits_of_spaced hwords fun word hword => ?_
        exact ⟨hforms word (List.mem_of_mem_head? hword), hnext word hword hopen⟩
      rw [List.append_assoc, scanFrom_blanks hblanks, scanFrom_word hform hstop, List.map_cons,
        ih hforms hapart]
      rfl

theorem spaced_scanFrom (start : Nat) (text : List Char) :
    Spaced ((scanFrom start text).map word) text := by
  fun_induction scanFrom start text with
  | case1 start => exact .nil (by simp)
  | case2 start c text hblank ih => exact ih.blank hblank
  | case3 start c text hblank lexeme token ih =>
      have hcons := @Spaced.cons [] _ _ (by simp) token.word ih
      have htext : token.word.text.toList = lexeme.taken := String.toList_ofList
      rwa [List.nil_append, htext, Lexeme.first_append] at hcons

theorem spaced_scan (text : String) : Spaced ((scan text).map word) text.toList :=
  spaced_scanFrom 0 text.toList

end Token

theorem Token.exists_place_of_mem_scanFrom {start : Nat} {text : List Char} {token : Token}
    (h : token ∈ scanFrom start text) :
    ∃ before behind, text = before ++ token.text.toList ++ behind ∧
      token.start = start + (String.ofList before).utf8ByteSize := by
  fun_induction scanFrom start text with
  | case1 => cases h
  | case2 start c text hblank ih =>
      obtain ⟨before, behind, htext, hstart⟩ := ih h
      refine ⟨c :: before, behind, by simp [htext], ?_⟩
      rw [hstart, String.ofList_cons]
      simp [Nat.add_assoc]
  | case3 start c text hblank lexeme first ih =>
      have happend := Lexeme.first_append c text
      rcases List.mem_cons.1 h with rfl | hmem
      · exact ⟨[], lexeme.rest, by simp [first, lexeme, happend], by simp [first]⟩
      · obtain ⟨before, behind, hrest, hstart⟩ := ih hmem
        refine ⟨lexeme.taken ++ before, behind, ?_, ?_⟩
        · rw [← happend, hrest]
          simp [lexeme]
        · rw [hstart, String.ofList_append]
          simp [first, stop, Nat.add_assoc]

theorem Token.exists_place_of_mem_scan {text : String} {token : Token} (h : token ∈ scan text) :
    ∃ before behind : String, text = before ++ token.text ++ behind ∧
      token.start = before.utf8ByteSize := by
  obtain ⟨before, behind, htext, hstart⟩ := exists_place_of_mem_scanFrom h
  refine ⟨String.ofList before, String.ofList behind, ?_, by simpa using hstart⟩
  rw [← String.toList_inj, htext]
  simp

namespace Word

theorem hasForm_ofOperator (op : Operator) : (ofOperator op).HasForm := by
  cases op <;> constructor

theorem not_isOpen_ofOperator (op : Operator) : ¬(ofOperator op).kind.IsOpen := by
  cases op <;> rintro (h | h) <;> cases h

theorem isChain_apart_cons {word : Word} (h : ¬word.kind.IsOpen) {behind : List Word}
    (hbehind : behind.IsChain Apart) : (word :: behind).IsChain Apart :=
  List.isChain_cons.2 ⟨fun _ _ hopen => absurd hopen h, hbehind⟩

theorem isChain_apart_append {word : Word} (h : ¬word.kind.IsOpen) {before behind : List Word}
    (hbefore : before.IsChain Apart) (hbehind : behind.IsChain Apart) :
    (before ++ word :: behind).IsChain Apart := by
  refine List.isChain_append.2 ⟨hbefore, isChain_apart_cons h hbehind, ?_⟩
  intro first _ second hsecond _
  cases hsecond
  exact h

end Word

namespace Tree

theorem hasForm_of_spells {level : Level} {tree : Tree level} {words : List Word}
    (hwell : tree.WellFormed) (h : tree.Spells words) : ∀ word ∈ words, word.HasForm := by
  induction h with
  | int hdigits => exact List.forall_mem_singleton.2 (.integer hdigits)
  | dice text => exact List.forall_mem_singleton.2 hwell
  | group hinner ih =>
      have hleft : Word.HasForm ⟨.leftParen, "("⟩ := .leftParen
      have hright : Word.HasForm ⟨.rightParen, ")"⟩ := .rightParen
      simpa [or_imp, forall_and, hleft, hright] using ih hwell
  | ofAtom hatom ih => exact ih hwell
  | ofTerm hterm ih => exact ih hwell
  | times op hleft hright ihl ihr =>
      simpa [or_imp, forall_and, Word.hasForm_ofOperator] using ⟨ihl hwell.1, ihr hwell.2.2⟩
  | plus op hleft hright ihl ihr =>
      simpa [or_imp, forall_and, Word.hasForm_ofOperator] using ⟨ihl hwell.1, ihr hwell.2.2⟩

theorem apart_of_spells {level : Level} {tree : Tree level} {words : List Word}
    (h : tree.Spells words) : words.IsChain Word.Apart := by
  induction h with
  | int => exact .singleton _
  | dice => exact .singleton _
  | group hinner ih =>
      refine Word.isChain_apart_cons ?_ (Word.isChain_apart_append ?_ ih .nil) <;>
        rintro (h | h) <;> cases h
  | ofAtom hatom ih => exact ih
  | ofTerm hterm ih => exact ih
  | times op hleft hright ihl ihr =>
      exact Word.isChain_apart_append (Word.not_isOpen_ofOperator op) ihl ihr
  | plus op hleft hright ihl ihr =>
      exact Word.isChain_apart_append (Word.not_isOpen_ofOperator op) ihl ihr

/-- A text that spells a tree, however it is spaced, has the words of the tree. -/
theorem words_scan {level : Level} {tree : Tree level} {words : List Word} {text : String}
    (hwell : tree.WellFormed) (h : tree.Spells words) (hspaced : Spaced words text.toList) :
    (Token.scan text).map Token.word = words :=
  Token.words_scanFrom hspaced (hasForm_of_spells hwell h) (apart_of_spells h) 0

end Tree

end DiceNotation
