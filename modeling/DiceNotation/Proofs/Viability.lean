import DiceNotation.Proofs.Writing

/-!
# Errors at the first word that cannot stand

Words are viable if those of some text that is read begin with them.  The reader
goes on as long as the words are viable, for it can be led to the end of a text
from wherever it is, and it fails at the first word that is not.
-/

namespace DiceNotation

def IsComplete (words : List Word) : Prop :=
  ∃ text tree, Expression.read text = .ok tree ∧ (Token.scan text).map Token.word = words

def IsViable (words : List Word) : Prop := ∃ more, IsComplete (words ++ more)

theorem IsViable.of_isPrefix {words more : List Word} (h : IsViable more) (hmore : words <+: more) :
    IsViable words := by
  obtain ⟨rest, rfl⟩ := hmore
  obtain ⟨last, hlast⟩ := h
  exact ⟨rest ++ last, by simpa using hlast⟩

namespace Reader

/--
Words that lead from here to the end of a text: an operand if one is due, and the
end of all groups.
-/
def completion : Reader → List Word
  | .operand _ outer => ⟨.integer, "0"⟩ :: List.replicate outer.length ⟨.rightParen, ")"⟩
  | .operator _ _ outer => List.replicate outer.length ⟨.rightParen, ")"⟩

theorem isWritten_completion (reader : Reader) : ∀ word ∈ reader.completion, word.IsWritten := by
  have hzero : Word.IsWritten ⟨.integer, "0"⟩ := fun _ => .integer (Numeral.isDigits_repr 0)
  have hclose : Word.IsWritten ⟨.rightParen, ")"⟩ := fun _ => .rightParen
  cases reader <;> simp +contextual [completion, hzero, hclose]

theorem advance_close (sum? : Option (Expression × Operator)) (term : Term)
    (outer : List Pending) :
    ∃ last tree, (operator sum? term outer).advance
        (List.replicate outer.length ⟨.rightParen, ")"⟩) = .ok last ∧ last.finish = .ok tree := by
  induction outer generalizing sum? term with
  | nil => exact ⟨_, _, rfl, rfl⟩
  | cons pending outer ih => exact ih _ _

theorem advance_completion (reader : Reader) :
    ∃ last tree, reader.advance reader.completion = .ok last ∧ last.finish = .ok tree := by
  cases reader with
  | operand pending outer => exact advance_close _ _ outer
  | operator sum? term outer => exact advance_close sum? term outer

theorem exists_of_advance_append {reader last : Reader} {words more : List Word}
    (h : reader.advance (words ++ more) = .ok last) :
    ∃ next, reader.advance words = .ok next ∧ next.advance more = .ok last := by
  induction words generalizing reader with
  | nil => exact ⟨reader, rfl, h⟩
  | cons word words ih =>
      simp only [List.cons_append, advance] at h ⊢
      cases hstep : reader.step word with
      | error problem => simp [hstep] at h
      | ok next =>
          simp only [hstep] at h ⊢
          exact ih h

end Reader

theorem isComplete_iff {words : List Word} (hwords : ∀ word ∈ words, word.IsWritten) :
    IsComplete words ↔
      ∃ last tree, Reader.start.advance words = .ok last ∧ last.finish = .ok tree := by
  constructor
  · rintro ⟨text, tree, hread, rfl⟩
    obtain ⟨last, hlast, hfinish⟩ := (read_eq_ok_iff_derives.1 hread).read
    exact ⟨last, tree, hlast, hfinish⟩
  · rintro ⟨last, tree, hlast, hfinish⟩
    have hspells := Reader.advance_spells Reader.start_spells hwords hlast
    have hderives := Reader.finish_derives hspells hfinish
    have hspaced : Spaced words
        (String.ofList (words.flatMap fun word => word.text.toList)).toList := by
      rw [String.toList_ofList]
      exact Spaced.flatMap_text words
    exact ⟨_, tree, hderives.read_spaced hspaced,
      Tree.words_scan hderives.1 hderives.2 hspaced⟩

theorem IsViable.exists_advance {words : List Word} (h : IsViable words) :
    ∃ reader, Reader.start.advance words = .ok reader := by
  obtain ⟨more, text, tree, hread, hwords⟩ := h
  obtain ⟨last, hlast, -⟩ := (read_eq_ok_iff_derives.1 hread).read
  rw [hwords] at hlast
  obtain ⟨reader, hreader, -⟩ := Reader.exists_of_advance_append hlast
  exact ⟨reader, hreader⟩

theorem isViable_iff {words : List Word} (hwords : ∀ word ∈ words, word.IsWritten) :
    IsViable words ↔ ∃ reader, Reader.start.advance words = .ok reader := by
  refine ⟨IsViable.exists_advance, ?_⟩
  rintro ⟨reader, hreader⟩
  obtain ⟨last, tree, hlast, hfinish⟩ := reader.advance_completion
  refine ⟨reader.completion, (isComplete_iff ?_).2 ⟨last, tree, ?_, hfinish⟩⟩
  · exact List.forall_mem_append.2 ⟨hwords, reader.isWritten_completion⟩
  · rw [Reader.advance_append hreader, hlast]

namespace Reader

theorem run_eq_error {stop : Nat} {reader : Reader} {tokens : List Token} {error : ReadError}
    (h : reader.run stop tokens = .error error) :
    (∃ last problem, reader.advance (tokens.map Token.word) = .ok last ∧
      last.finish = .error problem ∧ error = ⟨problem, stop, stop, ""⟩) ∨
    ∃ before token behind next problem, tokens = before ++ token :: behind ∧
      reader.advance (before.map Token.word) = .ok next ∧
      next.step token.word = .error problem ∧
      error = ⟨problem, token.start, token.stop, token.text⟩ := by
  induction tokens generalizing reader with
  | nil =>
      refine .inl ⟨reader, ?_⟩
      cases hfinish : reader.finish with
      | ok tree => simp [run, hfinish] at h
      | error problem => simp_all [run, advance, eq_comm]
  | cons token tokens ih =>
      cases hstep : reader.step token.word with
      | error problem =>
          refine .inr ⟨[], token, tokens, reader, problem, rfl, rfl, hstep, ?_⟩
          simpa [run, hstep, eq_comm] using h
      | ok next =>
          simp only [run, hstep] at h
          simp only [List.map_cons, advance, hstep]
          rcases ih h with hend | ⟨before, other, behind, later, problem, rfl, hbefore, hfail⟩
          · exact .inl hend
          · refine .inr ⟨token :: before, other, behind, later, problem, rfl, ?_, hfail⟩
            simpa only [List.map_cons, advance, hstep] using hbefore

end Reader

/-! ## What is wrong there -/

def Expected.kinds (expected : Expected) : List TokenKind := expected.first :: expected.others

def ReadProblem.expected? : ReadProblem → Option Expected
  | .unexpectedToken _ expected => some expected
  | .unexpectedEnd expected => some expected
  | .unexpectedText expected => some expected
  | .invalidInteger => none
  | .trailingInput => none

def Word.IsExcessive (word : Word) : Prop :=
  word.kind = .integer ∧
    Int64.maxValue.toInt < Nat.ofDigitChars 10 word.text.toList 0

def Admits (before : List Word) (kind : TokenKind) : Prop :=
  ∃ text, IsViable (before ++ [⟨kind, text⟩])

/--
The problem with a word behind these ones: it is too much if they are complete,
an integer is invalid if it is too large where an integer may stand, and every
other word is not expected.  What is expected may stand there.
-/
structure ReadProblem.IsOf (problem : ReadProblem) (before : List Word) (word : Word) : Prop where
  trailing : problem = .trailingInput ↔ IsComplete before
  invalid : ¬IsComplete before →
    (problem = .invalidInteger ↔ word.IsExcessive ∧ Admits before .integer)
  text : ¬IsComplete before → problem ≠ .invalidInteger → word.kind = .unknown →
    ∃ expected, problem = .unexpectedText expected
  token : ¬IsComplete before → problem ≠ .invalidInteger → word.kind ≠ .unknown →
    ∃ expected, problem = .unexpectedToken word.kind expected
  admits : ∀ expected, problem.expected? = some expected →
    ∀ kind ∈ expected.kinds, Admits before kind
  other : ∀ expected, problem.expected? = some expected → word.kind ∉ expected.kinds

def ReadProblem.IsOfEnd (problem : ReadProblem) (before : List Word) : Prop :=
  ∃ expected, problem = .unexpectedEnd expected ∧ ∀ kind ∈ expected.kinds, Admits before kind

namespace ReadProblem

variable {before : List Word} {word : Word}

theorem isOf_trailingInput (h : IsComplete before) : trailingInput.IsOf before word where
  trailing := by simp [h]
  invalid hcomplete := absurd h hcomplete
  text hcomplete := absurd h hcomplete
  token hcomplete := absurd h hcomplete
  admits := by simp [expected?]
  other := by simp [expected?]

theorem isOf_invalidInteger (hcomplete : ¬IsComplete before) (hword : word.IsExcessive)
    (hadmits : Admits before .integer) : invalidInteger.IsOf before word where
  trailing := by simp [hcomplete]
  invalid _ := by simp [hword, hadmits]
  text _ hproblem := absurd rfl hproblem
  token _ hproblem := absurd rfl hproblem
  admits := by simp [expected?]
  other := by simp [expected?]

theorem isOf_unexpected {expected : Expected} (hcomplete : ¬IsComplete before)
    (hinteger : word.kind = .integer → ¬Admits before .integer)
    (hadmits : ∀ kind ∈ expected.kinds, Admits before kind)
    (hother : word.kind ∉ expected.kinds) : (unexpected word.kind expected).IsOf before word := by
  have hexcessive : word.IsExcessive → ¬Admits before .integer := fun h => hinteger h.1
  by_cases hkind : word.kind = .unknown
  · rw [unexpected, if_pos hkind]
    constructor <;> simp_all [expected?]
  · rw [unexpected, if_neg hkind]
    constructor <;> simp_all [expected?]

end ReadProblem

section

variable {before : List Word} {reader : Reader}
  (hwords : ∀ word ∈ before, word.IsWritten) (hreader : Reader.start.advance before = .ok reader)

include hwords hreader

theorem isComplete_iff_finish :
    IsComplete before ↔ ∃ tree, reader.finish = .ok tree := by
  simp [isComplete_iff hwords, hreader]

theorem isViable_concat_iff {word : Word} (hword : word.IsWritten) :
    IsViable (before ++ [word]) ↔ ∃ next, reader.step word = .ok next := by
  have hall : ∀ other ∈ before ++ [word], other.IsWritten := by
    simpa [or_imp, forall_and] using ⟨hwords, hword⟩
  rw [isViable_iff hall, Reader.advance_append hreader]
  simp only [Reader.advance]
  cases reader.step word <;> simp

theorem admits_of_step {next : Reader} {word : Word} (hword : word.IsWritten)
    (hstep : reader.step word = .ok next) : Admits before word.kind :=
  ⟨word.text, (isViable_concat_iff hwords hreader hword).2 ⟨next, hstep⟩⟩

omit hwords in
theorem exists_step_of_admits {kind : TokenKind} (h : Admits before kind) :
    ∃ text next, reader.step ⟨kind, text⟩ = .ok next := by
  obtain ⟨text, hviable⟩ := h
  obtain ⟨next, hnext⟩ := hviable.exists_advance
  rw [Reader.advance_append hreader] at hnext
  simp only [Reader.advance] at hnext
  cases hstep : reader.step ⟨kind, text⟩ with
  | error problem => simp [hstep] at hnext
  | ok next => exact ⟨text, next, hstep⟩

end

section

variable {before : List Word} (hwords : ∀ word ∈ before, word.IsWritten)

include hwords

theorem admits_operand {pending : Pending} {outer : List Pending}
    (hreader : Reader.start.advance before = .ok (.operand pending outer)) :
    ∀ kind ∈ Expected.operand.kinds, Admits before kind := by
  have hinteger : Word.IsWritten ⟨.integer, "0"⟩ := fun _ => .integer (Numeral.isDigits_repr 0)
  have hdice : Word.IsWritten ⟨.dice, "1d1"⟩ := fun _ =>
    @TokenKind.Matches.standard ['1'] ['d', '1'] ⟨by simp, by simp⟩
      ⟨'d', ['1'], rfl, by simp, by simp, by simp⟩
  have hopen : Word.IsWritten ⟨.leftParen, "("⟩ := fun _ => .leftParen
  simp only [Expected.kinds, Expected.operand, List.forall_mem_cons]
  refine ⟨admits_of_step hwords hreader hinteger rfl, admits_of_step hwords hreader hdice rfl,
    admits_of_step hwords hreader hopen rfl, by simp⟩

theorem admits_closing {sum? : Option (Expression × Operator)} {term : Term} {pending : Pending}
    {outer : List Pending}
    (hreader : Reader.start.advance before = .ok (.operator sum? term (pending :: outer))) :
    ∀ kind ∈ Expected.closing.kinds, Admits before kind := by
  have hclose : Word.IsWritten ⟨.rightParen, ")"⟩ := fun _ => .rightParen
  simp only [Expected.kinds, Expected.closing, List.forall_mem_cons]
  exact ⟨admits_of_step hwords hreader hclose rfl, by simp⟩

end

theorem not_admits_integer {before : List Word} {sum? : Option (Expression × Operator)}
    {term : Term} {outer : List Pending}
    (hreader : Reader.start.advance before = .ok (.operator sum? term outer)) :
    ¬Admits before .integer := by
  intro h
  obtain ⟨text, next, hstep⟩ := exists_step_of_admits hreader h
  cases outer <;> simp [Reader.step, TokenKind.operator?] at hstep

theorem Word.IsWritten.isExcessive {word : Word} {cause : NumeralError} (h : word.IsWritten)
    (hkind : word.kind = .integer) (hread : Numeral.read word.text.toList = .error cause) :
    word.IsExcessive := by
  have hform := h (by simp [hkind])
  rw [hkind] at hform
  cases hform with
  | integer hdigits => exact ⟨hkind, ((Numeral.read_eq_error_iff hdigits).1 hread).2⟩

namespace Reader

variable {before : List Word} {word : Word} {problem : ReadProblem}
  (hwords : ∀ word ∈ before, word.IsWritten)

include hwords

theorem isOf_step_operand {pending : Pending} {outer : List Pending}
    (hreader : start.advance before = .ok (.operand pending outer)) (hword : word.IsWritten)
    (h : (operand pending outer).step word = .error problem) : problem.IsOf before word := by
  have hcomplete : ¬IsComplete before := by
    simp [isComplete_iff_finish hwords hreader, finish]
  have hadmits := admits_operand hwords hreader
  simp only [step] at h
  split at h
  case h_1 hkind =>
      split at h
      case h_1 => cases h
      case h_2 cause hread =>
          cases h
          exact ReadProblem.isOf_invalidInteger hcomplete (hword.isExcessive hkind hread)
            (hadmits .integer (by simp [Expected.kinds, Expected.operand]))
  case h_2 => cases h
  case h_3 => cases h
  case h_4 hinteger hdice hopen =>
      cases h
      refine ReadProblem.isOf_unexpected hcomplete ?_ hadmits ?_
      · exact fun hkind => absurd hkind hinteger
      · simpa [Expected.kinds, Expected.operand] using ⟨hinteger, hdice, hopen⟩

theorem isOf_step_operator {sum? : Option (Expression × Operator)} {term : Term}
    {outer : List Pending} (hreader : start.advance before = .ok (.operator sum? term outer))
    (h : (operator sum? term outer).step word = .error problem) : problem.IsOf before word := by
  have hfinish := isComplete_iff_finish hwords hreader
  simp only [step] at h
  split at h
  case h_1 => split at h <;> cases h
  case h_2 hop =>
      split at h
      case h_1 =>
          cases h
          exact ReadProblem.isOf_trailingInput (hfinish.2 ⟨_, rfl⟩)
      case h_2 pending outer =>
          have hcomplete : ¬IsComplete before := by simp [hfinish, finish]
          split at h
          case isTrue => cases h
          case isFalse hkind =>
              cases h
              refine ReadProblem.isOf_unexpected hcomplete ?_ (admits_closing hwords hreader) ?_
              · exact fun _ => not_admits_integer hreader
              · simp [Expected.kinds, Expected.closing, hkind]

theorem isOf_step {reader : Reader} (hreader : start.advance before = .ok reader)
    (hword : word.IsWritten) (h : reader.step word = .error problem) :
    problem.IsOf before word := by
  cases reader with
  | operand pending outer => exact isOf_step_operand hwords hreader hword h
  | operator sum? term outer => exact isOf_step_operator hwords hreader h

theorem isOfEnd_finish {reader : Reader} (hreader : start.advance before = .ok reader)
    (h : reader.finish = .error problem) : problem.IsOfEnd before := by
  cases reader with
  | operand pending outer =>
      cases h
      exact ⟨_, rfl, admits_operand hwords hreader⟩
  | operator sum? term outer =>
      cases outer with
      | nil => cases h
      | cons pending outer =>
          cases h
          exact ⟨_, rfl, admits_closing hwords hreader⟩

end Reader

/-! ## Errors of texts -/

/-- The words up to a place are viable, and the error is where they cease to be, or at the end. -/
structure ReadError.IsAt (error : ReadError) (text : String) (k : Nat) : Prop where
  viable : IsViable (((Token.scan text).take k).map Token.word)
  place : match (Token.scan text)[k]? with
    | some token => ¬IsViable (((Token.scan text).take (k + 1)).map Token.word) ∧
        error.start = token.start ∧ error.stop = token.stop ∧ error.slice = token.text
    | none => k = (Token.scan text).length ∧ error.start = text.utf8ByteSize ∧
        error.stop = text.utf8ByteSize ∧ error.slice = ""

theorem ReadError.IsAt.le {error : ReadError} {text : String} {k other : Nat}
    (h : error.IsAt text k) (hother : error.IsAt text other) : other ≤ k := by
  by_contra hlt
  have hplace := h.place
  cases htoken : (Token.scan text)[k]? with
  | none =>
      have hlength := List.getElem?_eq_none_iff.1 htoken
      have hbeyond : (Token.scan text)[other]? = none := List.getElem?_eq_none (by omega)
      have hend := hother.place
      simp only [htoken, hbeyond] at hplace hend
      omega
  | some token =>
      simp only [htoken] at hplace
      refine hplace.1 (hother.viable.of_isPrefix ?_)
      exact (List.take_prefix_take_left (by omega)).map Token.word

def ReadError.IsRightAt (error : ReadError) (text : String) (k : Nat) : Prop :=
  match (Token.scan text)[k]? with
  | some token => error.problem.IsOf (((Token.scan text).take k).map Token.word) token.word
  | none => error.problem.IsOfEnd (((Token.scan text).take k).map Token.word)

theorem exists_isAt_of_read_error {text : String} {error : ReadError}
    (h : Expression.read text = .error error) :
    ∃ k, error.IsAt text k ∧ error.IsRightAt text k := by
  have hall := @Token.isWritten_of_mem_words text
  rcases Reader.run_eq_error h with
    ⟨last, problem, hlast, hfinish, rfl⟩ |
    ⟨before, token, behind, next, problem, htokens, hnext, hstep, rfl⟩
  · refine ⟨(Token.scan text).length, ⟨?_, by simp⟩, ?_⟩
    · rw [List.take_length]
      exact (isViable_iff hall).2 ⟨last, hlast⟩
    · simpa [ReadError.IsRightAt] using Reader.isOfEnd_finish hall hlast hfinish
  · have hbefore : (Token.scan text).take before.length = before := by simp [htokens]
    have hmore : (Token.scan text).take (before.length + 1) = before ++ [token] := by
      simp [htokens, List.take_add_one]
    have htoken : (Token.scan text)[before.length]? = some token := by simp [htokens]
    simp only [htokens, List.map_append, List.map_cons, List.forall_mem_append,
      List.forall_mem_cons] at hall
    obtain ⟨hwords, hword, -⟩ := hall
    refine ⟨before.length, ⟨?_, ?_⟩, ?_⟩
    · rw [hbefore]
      exact (isViable_iff hwords).2 ⟨next, hnext⟩
    · rw [htoken, hmore]
      simp [isViable_concat_iff hwords hnext hword, hstep]
    · simpa [ReadError.IsRightAt, htoken, hbefore] using
        Reader.isOf_step hwords hnext hword hstep

def ReadError.IsSliceOf (error : ReadError) (text : String) : Prop :=
  ∃ before behind : String, text = before ++ error.slice ++ behind ∧
    error.start = before.utf8ByteSize ∧ error.stop = (before ++ error.slice).utf8ByteSize

theorem ReadError.IsAt.isSliceOf {error : ReadError} {text : String} {k : Nat}
    (h : error.IsAt text k) : error.IsSliceOf text := by
  have hplace := h.place
  cases htoken : (Token.scan text)[k]? with
  | none =>
      simp only [htoken] at hplace
      obtain ⟨-, hstart, hstop, hslice⟩ := hplace
      exact ⟨text, "", by simp [hslice], hstart, by simp [hstop, hslice]⟩
  | some token =>
      simp only [htoken] at hplace
      obtain ⟨-, hstart, hstop, hslice⟩ := hplace
      have hmem := List.mem_of_getElem? htoken
      obtain ⟨before, behind, htext, hbefore⟩ := Token.exists_place_of_mem_scan hmem
      exact ⟨before, behind, by rw [hslice, htext], by rw [hstart, hbefore],
        by simp [hstop, hslice, Token.stop, hbefore]⟩

theorem Word.not_isExcessive {word : Word} (h : word.kind ≠ .integer) : ¬word.IsExcessive :=
  fun hexcessive => h hexcessive.1

theorem Word.not_isExcessive_ofOperator (op : Operator) : ¬(ofOperator op).IsExcessive :=
  not_isExcessive (by cases op <;> simp [ofOperator, TokenKind.ofOperator])

theorem Tree.Spells.not_isExcessive {level : Level} {tree : Tree level} {words : List Word}
    (h : tree.Spells words) : ∀ word ∈ words, ¬word.IsExcessive := by
  induction h with
  | @int value digits hdigits hvalue =>
      have hle := value.toInt_le
      simp [Word.IsExcessive, hvalue, hle]
  | dice text => simp [Word.not_isExcessive]
  | group hinner ih => simpa [or_imp, forall_and, Word.not_isExcessive] using ih
  | ofAtom hatom ih => exact ih
  | ofTerm hterm ih => exact ih
  | times op hleft hright ihl ihr =>
      simpa [or_imp, forall_and, Word.not_isExcessive_ofOperator] using ⟨ihl, ihr⟩
  | plus op hleft hright ihl ihr =>
      simpa [or_imp, forall_and, Word.not_isExcessive_ofOperator] using ⟨ihl, ihr⟩

theorem IsViable.not_isExcessive {words : List Word} (h : IsViable words) :
    ∀ word ∈ words, ¬word.IsExcessive := by
  obtain ⟨more, text, tree, hread, hwords⟩ := h
  have hspells := (read_eq_ok_iff_derives.1 hread).2
  rw [hwords] at hspells
  exact (List.forall_mem_append.1 hspells.not_isExcessive).1

/--
The error of a text that is not read is at the first token that makes its words
no longer viable, or at the end if there is none, and says what is wrong there.
-/
theorem error_at_first_offending_word :
    (∀ words, IsViable words → ∀ word ∈ words, ¬word.IsExcessive) ∧
    ∀ (text : String) (error : ReadError), Expression.read text = .error error →
      (∃! k, error.IsAt text k) ∧ (∀ k, error.IsAt text k → error.IsRightAt text k) ∧
        error.IsSliceOf text := by
  refine ⟨fun words h => h.not_isExcessive, fun text error h => ?_⟩
  obtain ⟨k, hat, hright⟩ := exists_isAt_of_read_error h
  have hunique : ∀ other, error.IsAt text other → other = k := by
    intro other hother
    exact Nat.le_antisymm (hat.le hother) (hother.le hat)
  refine ⟨⟨k, hat, hunique⟩, fun other hother => ?_, hat.isSliceOf⟩
  rw [hunique other hother]
  exact hright

theorem error_at_first_offending_word_letter :
    (∀ word ∈ [⟨.leftParen, "("⟩, ⟨.integer, "07"⟩], ¬Word.IsExcessive word) ∧
      Expression.read "(07 +é2" = .error ⟨.unexpectedText .operand, 5, 7, "é"⟩ ∧
      (∃! k, ReadError.IsAt ⟨.unexpectedText .operand, 5, 7, "é"⟩ "(07 +é2" k) ∧
      (∀ k, ReadError.IsAt ⟨.unexpectedText .operand, 5, 7, "é"⟩ "(07 +é2" k →
        ReadError.IsRightAt ⟨.unexpectedText .operand, 5, 7, "é"⟩ "(07 +é2" k) ∧
      ReadError.IsSliceOf ⟨.unexpectedText .operand, 5, 7, "é"⟩ "(07 +é2" := by
  have hviable : IsViable [⟨.leftParen, "("⟩, ⟨.integer, "07"⟩] := by
    refine ⟨[⟨.rightParen, ")"⟩], "(07)",
      .ofTerm (.ofAtom (.group (.ofTerm (.ofAtom (.int 7))))), ?_⟩
    decide +kernel
  have hread : Expression.read "(07 +é2" = .error ⟨.unexpectedText .operand, 5, 7, "é"⟩ := by
    decide +kernel
  exact ⟨error_at_first_offending_word.1 _ hviable, hread,
    error_at_first_offending_word.2 _ _ hread⟩

end DiceNotation
