import DiceNotation.Proofs.LongestMatch
import DiceNotation.Tree.Reading

/-!
# Blanks between texts

A blank ends the token in front of it, and what that token is does not depend on
anything behind the blank.  So the tokens of two texts with blanks between them
are the tokens of the one and those of the other, which move as far as the bytes
in front of them reach, and which blanks stand between them makes no difference
to what is read.
-/

namespace DiceNotation

namespace Lexeme

variable {b : Char} (hb : b.isWhitespace)

include hb

theorem isDigit_of_isWhitespace : b.isDigit = false :=
  (stopsDigits_of_isWhitespace hb [] b rfl).1

theorem takeWhile_isDigit_blank (text rest : List Char) :
    (text ++ b :: rest).takeWhile Char.isDigit = text.takeWhile Char.isDigit := by
  induction text with
  | nil => simp [isDigit_of_isWhitespace hb]
  | cons c text ih => simp only [List.cons_append, List.takeWhile_cons, ih]

theorem dropWhile_isDigit_blank (text rest : List Char) :
    (text ++ b :: rest).dropWhile Char.isDigit = text.dropWhile Char.isDigit ++ b :: rest := by
  induction text with
  | nil => simp [isDigit_of_isWhitespace hb]
  | cons c text ih =>
      simp only [List.cons_append, List.dropWhile_cons, ih]
      split <;> rfl

theorem sides?_blank (text rest : List Char) :
    sides? (text ++ b :: rest) = (sides? text).map (Prod.map id (· ++ b :: rest)) := by
  match text with
  | [] => exact sides?_of_stopsDigits (stopsDigits_of_isWhitespace hb rest)
  | [mark] => exact if_neg fun h => by simp [isDigit_of_isWhitespace hb] at h
  | mark :: digit :: text =>
      simp only [List.cons_append, sides?, takeWhile_isDigit_blank hb, dropWhile_isDigit_blank hb]
      split <;> rfl

theorem counted_blank (otherwise : TokenKind) (start text rest : List Char) :
    counted otherwise start (text ++ b :: rest) =
      { counted otherwise start text with
        rest := (counted otherwise start text).rest ++ b :: rest } := by
  simp only [counted, takeWhile_isDigit_blank hb, dropWhile_isDigit_blank hb, sides?_blank hb]
  cases sides? (text.dropWhile Char.isDigit) <;> rfl

theorem middle?_blank (text rest : List Char) :
    middle? (text ++ b :: rest) = (middle? text).map (Prod.map id (· ++ b :: rest)) := by
  have hletter : ∀ letter : Char, letter.isWhitespace = false → b.toLower ≠ letter := by
    rintro _ hletter rfl
    simp [hb] at hletter
  -- a text that is shorter than the letters has the blank in the place of one of them
  match text with
  | [] => exact middle?_eq_none (hletter 'm' (by decide)) rest
  | [m] =>
      cases rest with
      | nil => rfl
      | cons d rest => exact if_neg fun h => hletter 'i' (by decide) h.2.1
  | [m, i] => exact if_neg fun h => hletter 'd' (by decide) h.2.2
  | m :: i :: d :: text =>
      simp only [List.cons_append, middle?]
      split <;> rfl

/-- The token at the start of a text is the same if a blank and anything else follow the text. -/
theorem first_blank (c : Char) (text rest : List Char) :
    first c (text ++ b :: rest) =
      { first c text with rest := (first c text).rest ++ b :: rest } := by
  have hmiddle := middle?_blank hb (c :: text) rest
  have hcounted := counted_blank hb .integer [] (c :: text) rest
  rw [List.cons_append] at hmiddle hcounted
  unfold first
  split
  case isTrue => exact hcounted
  case isFalse =>
      rw [hmiddle]
      cases middle? (c :: text) with
      | none => rfl
      | some parts => exact counted_blank hb .unknown parts.1 parts.2 rest

end Lexeme

namespace Token

def shift (bytes : Nat) (token : Token) : Token := { token with start := token.start + bytes }

theorem stop_shift (bytes : Nat) (token : Token) :
    (token.shift bytes).stop = token.stop + bytes :=
  Nat.add_right_comm _ _ _

theorem scanFrom_shift (start bytes : Nat) (text : List Char) :
    scanFrom (start + bytes) text = (scanFrom start text).map (shift bytes) := by
  fun_induction scanFrom start text with
  | case1 => rw [scanFrom, List.map_nil]
  | case2 start c text hblank ih =>
      rw [scanFrom, if_pos hblank, Nat.add_right_comm]
      exact ih
  | case3 start c text hblank lexeme token ih =>
      rw [scanFrom, if_neg hblank, List.map_cons, ← ih]
      exact congrArg (_ :: scanFrom · _) (stop_shift bytes token)

theorem scanFrom_blank {b : Char} (hb : b.isWhitespace) (start : Nat) (text rest : List Char) :
    scanFrom start (text ++ b :: rest) =
      scanFrom start text ++ scanFrom (start + String.utf8Len text) (b :: rest) := by
  fun_induction scanFrom start text with
  | case1 => rfl
  | case2 start c text hblank ih =>
      rw [List.cons_append, scanFrom, if_pos hblank, ih, String.utf8Len_cons]
      simp only [Nat.add_assoc, Nat.add_comm]
  | case3 start c text hblank lexeme token ih =>
      have hlength : token.stop + String.utf8Len lexeme.rest =
          start + String.utf8Len (c :: text) := by
        rw [← Lexeme.first_append c text, String.utf8Len_append, stop, String.utf8ByteSize_ofList]
        exact Nat.add_assoc _ _ _
      rw [List.cons_append, scanFrom, if_neg hblank, Lexeme.first_blank hb, ← hlength]
      exact congrArg (token :: ·) ih

end Token

/-! ## Texts with blanks between them -/

/-- There are some blanks, unless they stand at an end of the text. -/
structure Separates (blanks first second : String) : Prop where
  blank : ∀ c ∈ blanks.toList, c ∈ separators
  apart : blanks ≠ "" ∨ first = "" ∨ second = ""

namespace Separates

variable {blanks other first second : String}

theorem isWhitespace (h : Separates blanks first second) :
    ∀ c ∈ blanks.toList, c.isWhitespace :=
  fun c hc => mem_separators_iff.1 (h.blank c hc)

theorem scanFrom_eq (h : Separates blanks first second) :
    Token.scanFrom 0 (first.toList ++ (blanks ++ second).toList) =
      Token.scan first ++ Token.scanFrom first.utf8ByteSize (blanks ++ second).toList := by
  have hsize : first.utf8ByteSize = 0 + String.utf8Len first.toList := by
    rw [← String.utf8ByteSize_ofList, String.ofList_toList, Nat.zero_add]
  rw [hsize]
  cases hfirst : first.toList with
  | nil => simp [Token.scan, hfirst, Token.scanFrom]
  | cons c text =>
      rw [Token.scan, hfirst]
      cases hrest : (blanks ++ second).toList with
      | nil => simp [Token.scanFrom]
      | cons b rest =>
          refine Token.scanFrom_blank (h.isWhitespace b ?_) 0 (c :: text) rest
          rw [String.toList_append] at hrest
          rcases h.apart with hblanks | rfl | rfl
          · cases hletters : blanks.toList with
            | nil => exact absurd (String.toList_eq_nil_iff.1 hletters) hblanks
            | cons d letters =>
                rw [hletters] at hrest
                simp [(List.cons.inj hrest).1]
          · cases hfirst
          · simp_all

theorem scan_eq (h : Separates blanks first second) :
    Token.scan (first ++ blanks ++ second) =
      Token.scan first ++
        (Token.scan second).map (Token.shift (first ++ blanks).utf8ByteSize) := by
  have hbehind : Token.scanFrom first.utf8ByteSize (blanks ++ second).toList =
      (Token.scan second).map (Token.shift (first ++ blanks).utf8ByteSize) := by
    rw [String.toList_append, Token.scanFrom_blanks h.isWhitespace, String.ofList_toList,
      Token.scan, ← Token.scanFrom_shift, String.utf8ByteSize_append, Nat.zero_add]
  rw [← hbehind, ← h.scanFrom_eq, Token.scan, String.append_assoc, String.toList_append]

theorem words_eq (h : Separates blanks first second) :
    (Token.scan (first ++ blanks ++ second)).map Token.word =
      (Token.scan first).map Token.word ++ (Token.scan second).map Token.word := by
  rw [h.scan_eq, List.map_append, List.map_map]
  rfl

end Separates

def ReadError.shift (bytes : Nat) (error : ReadError) : ReadError :=
  { error with start := error.start + bytes, stop := error.stop + bytes }

theorem Reader.run_shift (stop bytes : Nat) (reader : Reader) (tokens : List Token) :
    reader.run (stop + bytes) (tokens.map (Token.shift bytes)) =
      (reader.run stop tokens).mapError (ReadError.shift bytes) := by
  induction tokens generalizing reader with
  | nil =>
      simp only [List.map_nil, run]
      cases reader.finish <;> rfl
  | cons token tokens ih =>
      have hword : (token.shift bytes).word = token.word := rfl
      simp only [List.map_cons, run, hword]
      cases reader.step token.word with
      | ok next => exact ih next
      | error problem =>
          rw [Token.stop_shift]
          rfl

/--
The errors of two texts that have so many bytes of blanks at the same place.  In
front of the blanks it is the same error, and behind them it moves along.
-/
inductive ReadError.MovesTo (place bytes more : Nat) : ReadError → ReadError → Prop where
  | before {error : ReadError} (h : error.stop ≤ place) : MovesTo place bytes more error error
  | behind (error : ReadError) :
      MovesTo place bytes more (error.shift (place + bytes)) (error.shift (place + more))

/-- Both texts are read as the same tree, or have errors that differ in their places only. -/
inductive ReadAlike (place bytes more : Nat) :
    Except ReadError Expression → Except ReadError Expression → Prop where
  | ok (tree : Expression) : ReadAlike place bytes more (.ok tree) (.ok tree)
  | error {first second : ReadError} (h : first.MovesTo place bytes more second) :
      ReadAlike place bytes more (.error first) (.error second)

theorem Reader.run_readAlike {place bytes more stop : Nat} {before : List Token}
    (hbefore : ∀ token ∈ before, token.stop ≤ place) (reader : Reader) (behind : List Token) :
    ReadAlike place bytes more
      (reader.run (stop + (place + bytes)) (before ++ behind.map (Token.shift (place + bytes))))
      (reader.run (stop + (place + more)) (before ++ behind.map (Token.shift (place + more)))) := by
  induction before generalizing reader with
  | nil =>
      rw [List.nil_append, List.nil_append, run_shift, run_shift]
      cases reader.run stop behind with
      | ok tree => exact .ok tree
      | error error => exact .error (.behind error)
  | cons token before ih =>
      obtain ⟨htoken, hbefore⟩ := List.forall_mem_cons.1 hbefore
      simp only [List.cons_append, run]
      cases reader.step token.word with
      | ok next => exact ih hbefore next
      | error problem => exact .error (.before htoken)

theorem Token.stop_le_of_mem_scan {text : String} {token : Token} (h : token ∈ scan text) :
    token.stop ≤ text.utf8ByteSize := by
  obtain ⟨before, behind, htext, hstart⟩ := exists_place_of_mem_scan h
  rw [htext, String.utf8ByteSize_append, String.utf8ByteSize_append, stop, hstart]
  exact Nat.le_add_right _ _

theorem Separates.readAlike {blanks other first second : String}
    (h : Separates blanks first second) (hother : Separates other first second) :
    ReadAlike first.utf8ByteSize blanks.utf8ByteSize other.utf8ByteSize
      (Expression.read (first ++ blanks ++ second))
      (Expression.read (first ++ other ++ second)) := by
  have hread : ∀ {between : String}, Separates between first second →
      Expression.read (first ++ between ++ second) =
        Reader.start.run (second.utf8ByteSize + (first.utf8ByteSize + between.utf8ByteSize))
          (Token.scan first ++ (Token.scan second).map
            (Token.shift (first.utf8ByteSize + between.utf8ByteSize))) := by
    intro between hbetween
    rw [Expression.read, hbetween.scan_eq, String.utf8ByteSize_append, String.utf8ByteSize_append,
      Nat.add_comm]
  rw [hread h, hread hother]
  exact Reader.run_readAlike (fun token => Token.stop_le_of_mem_scan) .start (Token.scan second)

/--
The tokens of two texts with blanks between them are the tokens of the first text
and those of the second one, as many bytes further on as stand in front of it.
Other blanks in the same place, or more or fewer of them at an end of the text,
change neither kinds nor texts of tokens, nor the tree that is read or what is
wrong, but the place of the error.
-/
theorem blanks_only_separate :
    (∀ first blanks second : String, blanks ≠ "" → (∀ c ∈ blanks.toList, c ∈ separators) →
      Token.scan (first ++ blanks ++ second) =
        Token.scan first ++
          (Token.scan second).map (Token.shift (first ++ blanks).utf8ByteSize)) ∧
    ∀ first blanks other second : String, Separates blanks first second →
      Separates other first second →
        (Token.scan (first ++ blanks ++ second)).map Token.word =
          (Token.scan (first ++ other ++ second)).map Token.word ∧
        ReadAlike first.utf8ByteSize blanks.utf8ByteSize other.utf8ByteSize
          (Expression.read (first ++ blanks ++ second))
          (Expression.read (first ++ other ++ second)) := by
  constructor
  · intro first blanks second hne hblank
    exact Separates.scan_eq ⟨hblank, .inl hne⟩
  · intro first blanks other second h hother
    exact ⟨h.words_eq.trans hother.words_eq.symm, h.readAlike hother⟩

theorem blanks_only_separate_letters :
    Token.scan ("2" ++ "\t" ++ "d6") =
      Token.scan "2" ++ (Token.scan "d6").map (Token.shift ("2" ++ "\t").utf8ByteSize) ∧
    (Token.scan ("2" ++ "\t" ++ "d6")).map Token.word =
      (Token.scan ("2" ++ " \r\n" ++ "d6")).map Token.word ∧
    ReadAlike 1 1 3 (Expression.read ("2" ++ "\t" ++ "d6"))
      (Expression.read ("2" ++ " \r\n" ++ "d6")) := by
  have hblank : ∀ c ∈ "\t".toList, c ∈ separators := by simp [separators]
  have hother : ∀ c ∈ " \r\n".toList, c ∈ separators := by simp [separators]
  have hclaim := blanks_only_separate
  exact ⟨hclaim.1 _ _ _ (by decide) hblank,
    hclaim.2 _ _ _ _ ⟨hblank, .inl (by decide)⟩ ⟨hother, .inl (by decide)⟩⟩

end DiceNotation
