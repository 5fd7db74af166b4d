import DiceNotation.Proofs.Reading
import DiceNotation.Proofs.Scanning
import Mathlib.Data.String.Basic

/-!
# Cutting by longest match

The tokens of a text are the one row of pieces that leaves out the blanks and
nothing else, and in which every piece is the longest one that has a written form
at its place.  A piece that is unknown stands where nothing has a written form.
-/

namespace DiceNotation

def HasNoForm (text : List Char) : Prop :=
  ∀ kind piece, piece <+: text → ¬TokenKind.Matches kind piece

/--
The longest piece at the start of the text that has a written form, or, if there
is none, the letters of `mid` with all digits behind them, or else one character.
-/
inductive IsLongest (text : List Char) : TokenKind → List Char → Prop where
  | known {kind : TokenKind} {piece : List Char} (hform : kind.Matches piece)
      (hpiece : piece <+: text)
      (hlongest : ∀ other longer, TokenKind.Matches other longer → longer <+: text →
        longer.length ≤ piece.length) : IsLongest text kind piece
  | middle {letters digits rest : List Char} (hnone : HasNoForm text)
      (htext : text = letters ++ digits ++ rest)
      (hletters : letters.map Char.toLower = ['m', 'i', 'd'])
      (hdigits : ∀ c ∈ digits, c.isDigit) (hrest : ∀ c ∈ rest.head?, c.isDigit = false) :
      IsLongest text .unknown (letters ++ digits)
  | single {c : Char} {rest : List Char} (hnone : HasNoForm text) (htext : text = c :: rest)
      (hletters : ∀ letters, letters <+: text → letters.map Char.toLower ≠ ['m', 'i', 'd']) :
      IsLongest text .unknown [c]

namespace TokenKind.Matches

theorem ne_nil {kind : TokenKind} {piece : List Char} (h : kind.Matches piece) : piece ≠ [] := by
  cases h with
  | integer hdigits => exact hdigits.1
  | standard hcount => exact fun hnil => hcount.1 (List.append_eq_nil_iff.1 hnil).1
  | middle hletters =>
      rintro hnil
      simp_all
  | _ => simp

theorem kind_unique {kind other : TokenKind} {piece : List Char} (h : kind.Matches piece)
    (hother : other.Matches piece) : kind = other := by
  cases piece with
  | nil => exact absurd rfl h.ne_nil
  | cons c tail =>
      have hstop : StopsDigits [] := fun c hc => by cases hc
      have hfirst := Lexeme.first_of_matches h fun _ => hstop
      have hfirst' := Lexeme.first_of_matches hother fun _ => hstop
      exact congrArg Lexeme.kind (hfirst.symm.trans hfirst')

end TokenKind.Matches

theorem head?_dropWhile_isDigit (text : List Char) :
    ∀ c ∈ (text.dropWhile Char.isDigit).head?, c.isDigit = false := by
  intro c hc
  have hhead := List.head?_dropWhile_not Char.isDigit text
  rw [hc] at hhead
  exact hhead

theorem isDigit_of_append_eq {digits more text : List Char} {c : Char}
    (h : Numeral.IsDigits digits) (htext : digits ++ more = c :: text) : c.isDigit := by
  cases digits with
  | nil => exact absurd rfl h.1
  | cons digit digits =>
      obtain ⟨rfl, -⟩ := List.cons.inj htext
      exact h.2 digit List.mem_cons_self

namespace Lexeme

theorem length_le_counted (otherwise : TokenKind) (start : List Char) {digits : List Char}
    (hdigits : ∀ c ∈ digits, c.isDigit) (rest : List Char) :
    (start ++ digits).length ≤ (counted otherwise start (digits ++ rest)).taken.length := by
  have htake : (digits ++ rest).takeWhile Char.isDigit = digits ++ rest.takeWhile Char.isDigit :=
    List.takeWhile_append_of_pos hdigits
  simp only [counted, htake]
  split <;> simp

theorem exists_counted_of_isSides (otherwise : TokenKind) (start : List Char)
    {count sides : List Char} (hcount : ∀ c ∈ count, c.isDigit) (hsides : IsSides sides)
    (rest : List Char) :
    ∃ digits behind, counted otherwise start (count ++ (sides ++ rest)) =
      ⟨.dice, start ++ count ++ (sides ++ digits), behind⟩ := by
  obtain ⟨mark, digits, rfl, hmark, hne, hdigits⟩ := hsides
  have hlonger : IsSides (mark :: digits ++ rest.takeWhile Char.isDigit) :=
    ⟨mark, digits ++ rest.takeWhile Char.isDigit, rfl, hmark, by simp [hne],
      List.forall_mem_append.2 ⟨hdigits, all_isDigit_takeWhile rest⟩⟩
  have hcounted := counted_of_isSides otherwise start hcount hlonger (head?_dropWhile_isDigit rest)
  rw [List.append_assoc, List.takeWhile_append_dropWhile] at hcounted
  exact ⟨_, _, hcounted⟩

/-- What has a written form at the start of a text is no longer than the first token. -/
theorem length_le_first {kind : TokenKind} {c : Char} {text piece : List Char}
    (h : kind.Matches piece) (hpiece : piece <+: c :: text) :
    (first c text).kind ≠ .unknown ∧ piece.length ≤ (first c text).taken.length := by
  obtain ⟨rest, htext⟩ := hpiece
  cases h with
  | integer hdigits =>
      rw [first_of_isDigit (isDigit_of_append_eq hdigits htext), ← htext]
      refine ⟨?_, length_le_counted .integer [] hdigits.2 rest⟩
      simp only [counted]
      split <;> simp
  | @standard count sides hcount hsides =>
      obtain ⟨digits, behind, hcounted⟩ :=
        exists_counted_of_isSides .integer [] hcount.2 hsides rest
      rw [List.append_assoc] at htext
      rw [first_of_isDigit (isDigit_of_append_eq hcount htext), ← htext, hcounted]
      simp
  | @middle letters count sides hletters hcount hsides =>
      obtain ⟨digits, behind, hcounted⟩ :=
        exists_counted_of_isSides .unknown letters hcount hsides rest
      simp only [List.append_assoc] at htext
      rw [first_of_middle hletters htext.symm, hcounted]
      simp
  | _ =>
      obtain ⟨rfl, rfl⟩ := List.cons.inj htext
      rw [first_of_single (by decide) (by decide)]
      simp [single]

theorem first_isPrefix (c : Char) (text : List Char) : (first c text).taken <+: c :: text :=
  ⟨_, first_append c text⟩

theorem first_kind_eq_unknown_iff {c : Char} {text : List Char} :
    (first c text).kind = .unknown ↔ HasNoForm (c :: text) := by
  constructor
  · intro hkind kind piece hpiece hform
    exact (length_le_first hform hpiece).1 hkind
  · intro h
    by_contra hkind
    exact h _ _ (first_isPrefix c text) (first_matches hkind)

theorem counted_taken_of_unknown {otherwise : TokenKind} {start text : List Char}
    (h : (counted otherwise start text).kind = .unknown) :
    otherwise = .unknown ∧
      (counted otherwise start text).taken = start ++ text.takeWhile Char.isDigit := by
  simp only [counted] at h ⊢
  split at h
  · cases h
  · exact ⟨h, rfl⟩

theorem middle?_eq_none_of_letters {text : List Char}
    (h : ∀ letters, letters <+: text → letters.map Char.toLower ≠ ['m', 'i', 'd']) :
    middle? text = none := by
  unfold middle?
  split
  case h_1 m i d rest => exact if_neg fun hletters => h [m, i, d] ⟨rest, rfl⟩ (by simp [hletters])
  case h_2 => rfl

theorem first_of_unknown {c : Char} {text : List Char} (hkind : (first c text).kind = .unknown)
    (hletters : ∀ letters, letters <+: c :: text → letters.map Char.toLower ≠ ['m', 'i', 'd']) :
    first c text = ⟨.unknown, [c], text⟩ := by
  have hdigit : c.isDigit = false := by
    rw [← Bool.not_eq_true]
    intro hdigit
    rw [first_of_isDigit hdigit] at hkind
    cases (counted_taken_of_unknown hkind).1
  have hfirst : first c text = ⟨single c, [c], text⟩ := by
    simp [first, hdigit, middle?_eq_none_of_letters hletters]
  rw [hfirst] at hkind ⊢
  rw [show single c = .unknown from hkind]

end Lexeme

open Lexeme in
theorem isLongest_first (c : Char) (text : List Char) :
    IsLongest (c :: text) (first c text).kind (first c text).taken := by
  by_cases hkind : (first c text).kind = .unknown
  case neg =>
      exact .known (first_matches hkind) (first_isPrefix c text)
        fun _ _ hform hpiece => (length_le_first hform hpiece).2
  case pos =>
      have hnone := first_kind_eq_unknown_iff.1 hkind
      by_cases hmiddle :
        ∃ letters, letters <+: c :: text ∧ letters.map Char.toLower = ['m', 'i', 'd']
      case pos =>
          obtain ⟨letters, ⟨rest, htext⟩, hletters⟩ := hmiddle
          rw [first_of_middle hletters htext.symm] at hkind ⊢
          rw [hkind, (counted_taken_of_unknown hkind).2]
          have hwhole : c :: text =
              letters ++ rest.takeWhile Char.isDigit ++ rest.dropWhile Char.isDigit := by
            rw [List.append_assoc, List.takeWhile_append_dropWhile, htext]
          exact .middle hnone hwhole hletters (all_isDigit_takeWhile rest)
            (head?_dropWhile_isDigit rest)
      case neg =>
          have hletters : ∀ letters, letters <+: c :: text →
              letters.map Char.toLower ≠ ['m', 'i', 'd'] :=
            fun letters hpiece hmid => hmiddle ⟨letters, hpiece, hmid⟩
          rw [first_of_unknown hkind hletters]
          exact .single hnone rfl hletters

open Lexeme in
theorem isLongest_iff {c : Char} {text piece : List Char} {kind : TokenKind} :
    IsLongest (c :: text) kind piece ↔
      kind = (first c text).kind ∧ piece = (first c text).taken := by
  constructor
  · intro h
    generalize hwhole : c :: text = whole at h
    cases h with
    | known hform hpiece hlongest =>
        subst hwhole
        obtain ⟨hkind, hlength⟩ := length_le_first hform hpiece
        have hfirst := first_matches hkind
        have hequal : piece = (first c text).taken :=
          (List.prefix_of_prefix_length_le hpiece (first_isPrefix c text) hlength).eq_of_length
            (Nat.le_antisymm hlength (hlongest _ _ hfirst (first_isPrefix c text)))
        rw [← hequal] at hfirst
        exact ⟨hform.kind_unique hfirst, hequal⟩
    | middle hnone htext hletters hdigits hrest =>
        subst hwhole
        have hkind := first_kind_eq_unknown_iff.2 hnone
        rw [List.append_assoc] at htext
        rw [first_of_middle hletters htext] at hkind ⊢
        rw [hkind, (counted_taken_of_unknown hkind).2, takeWhile_isDigit_append hdigits hrest]
        exact ⟨rfl, rfl⟩
    | single hnone htext hletters =>
        subst hwhole
        obtain ⟨rfl, rfl⟩ := List.cons.inj htext
        rw [first_of_unknown (first_kind_eq_unknown_iff.2 hnone) hletters]
        exact ⟨rfl, rfl⟩
  · rintro ⟨rfl, rfl⟩
    exact isLongest_first c text

def separators : List Char := [' ', '\t', '\r', '\n']

theorem mem_separators_iff {c : Char} : c ∈ separators ↔ c.isWhitespace := by
  simp [separators, Char.isWhitespace, or_assoc]

theorem not_mem_separators_of_toLower {c letter : Char} (h : c.toLower = letter)
    (hletter : letter.isWhitespace = false) : c ∉ separators := by
  rw [mem_separators_iff, isWhitespace_eq_false_of_toLower h hletter]
  decide

theorem not_mem_separators_of_isDigit {c : Char} (h : c.isDigit) : c ∉ separators := by
  rw [mem_separators_iff, isWhitespace_eq_false_of_isDigit h]
  decide

theorem not_mem_separators_of_letters {letters : List Char}
    (h : letters.map Char.toLower = ['m', 'i', 'd']) : ∀ c ∈ letters, c ∉ separators := by
  intro c hc
  have hletter : c.toLower ∈ ['m', 'i', 'd'] := h ▸ List.mem_map_of_mem hc
  simp only [List.mem_cons, List.not_mem_nil, or_false] at hletter
  rcases hletter with hletter | hletter | hletter <;>
    exact not_mem_separators_of_toLower hletter (by decide)

theorem TokenKind.Matches.not_mem_separators {kind : TokenKind} {piece : List Char}
    (h : kind.Matches piece) : ∀ c ∈ piece, c ∉ separators := by
  have hsides {sides : List Char} (h : IsSides sides) : ∀ c ∈ sides, c ∉ separators := by
    obtain ⟨mark, digits, rfl, hmark, -, hdigits⟩ := h
    exact List.forall_mem_cons.2 ⟨not_mem_separators_of_toLower hmark (by decide),
      fun c hc => not_mem_separators_of_isDigit (hdigits c hc)⟩
  cases h with
  | integer hdigits => exact fun c hc => not_mem_separators_of_isDigit (hdigits.2 c hc)
  | standard hcount hends =>
      exact List.forall_mem_append.2
        ⟨fun c hc => not_mem_separators_of_isDigit (hcount.2 c hc), hsides hends⟩
  | middle hletters hcount hends =>
      exact List.forall_mem_append.2 ⟨List.forall_mem_append.2
        ⟨not_mem_separators_of_letters hletters,
          fun c hc => not_mem_separators_of_isDigit (hcount c hc)⟩, hsides hends⟩
  | _ => exact List.forall_mem_singleton.2 (by decide)

theorem IsLongest.not_mem_separators {c : Char} {text piece : List Char} {kind : TokenKind}
    (h : IsLongest (c :: text) kind piece) (hc : c ∉ separators) :
    ∀ d ∈ piece, d ∉ separators := by
  cases h with
  | known hform => exact hform.not_mem_separators
  | middle hnone htext hletters hdigits =>
      exact List.forall_mem_append.2 ⟨not_mem_separators_of_letters hletters,
        fun d hd => not_mem_separators_of_isDigit (hdigits d hd)⟩
  | single hnone htext =>
      obtain ⟨rfl, -⟩ := List.cons.inj htext
      exact List.forall_mem_singleton.2 hc

/-! ## Segmentations -/

namespace Token

/--
The token stands in a text that begins at the byte `start`, and it is the longest
piece at its place.
-/
def StandsIn (token : Token) (start : Nat) (text : List Char) : Prop :=
  ∃ before behind, text = before ++ (token.text.toList ++ behind) ∧
    token.start = start + String.utf8Len before ∧
    IsLongest (token.text.toList ++ behind) token.kind token.text.toList

def Covers (token : Token) (place : Nat) : Prop := token.start ≤ place ∧ place < token.stop

end Token

/-- The tokens are those of a text that begins at the byte `start`. -/
structure IsSegmentation (start : Nat) (text : List Char) (tokens : List Token) : Prop where
  ordered : tokens.Pairwise fun first second => first.stop ≤ second.start
  nonempty : ∀ token ∈ tokens, token.start < token.stop
  stands : ∀ token ∈ tokens, token.StandsIn start text
  covers : ∀ before c behind, text = before ++ c :: behind →
    ((∃ token ∈ tokens, token.Covers (start + String.utf8Len before)) ↔ c ∉ separators)

namespace Token

theorem StandsIn.start_le {token : Token} {start : Nat} {text : List Char}
    (h : token.StandsIn start text) : start ≤ token.start := by
  obtain ⟨before, behind, -, hstart, -⟩ := h
  omega

theorem standsIn_append_iff {token : Token} {start : Nat} {front text : List Char} :
    token.StandsIn (start + String.utf8Len front) text ↔
      token.StandsIn start (front ++ text) ∧ start + String.utf8Len front ≤ token.start := by
  constructor
  · intro h
    have hle := h.start_le
    obtain ⟨before, behind, rfl, hstart, hlongest⟩ := h
    refine ⟨⟨front ++ before, behind, by simp, ?_, hlongest⟩, hle⟩
    rw [hstart, String.utf8Len_append]
    omega
  · rintro ⟨⟨before, behind, htext, hstart, hlongest⟩, hle⟩
    rcases List.append_eq_append_iff.1 htext with ⟨more, rfl, rfl⟩ | ⟨more, rfl, hmore⟩
    · refine ⟨more, behind, rfl, ?_, hlongest⟩
      rw [hstart, String.utf8Len_append]
      omega
    · rw [String.utf8Len_append] at hle
      obtain rfl : more = [] := String.utf8Len_eq_zero.1 (by omega)
      exact ⟨[], behind, by simpa using hmore.symm, by simp [hstart], hlongest⟩

end Token

namespace IsSegmentation

theorem nil_iff {start : Nat} {tokens : List Token} :
    IsSegmentation start [] tokens ↔ tokens = [] := by
  constructor
  · intro h
    cases tokens with
    | nil => rfl
    | cons token rest =>
        obtain ⟨before, behind, htext, -⟩ := h.stands token List.mem_cons_self
        have hempty : token.text = "" := by simp_all
        have hlt := h.nonempty token List.mem_cons_self
        simp [Token.stop, hempty] at hlt
  · rintro rfl
    exact ⟨.nil, by simp, by simp, by simp⟩

theorem blank_iff {start : Nat} {c : Char} {text : List Char} {tokens : List Token}
    (hc : c ∈ separators) :
    IsSegmentation start (c :: text) tokens ↔
      IsSegmentation (start + String.utf8Len [c]) text tokens := by
  constructor
  · intro h
    have hbehind : ∀ token ∈ tokens, token.StandsIn (start + String.utf8Len [c]) text := by
      intro token htoken
      refine Token.standsIn_append_iff.2 ⟨h.stands token htoken, ?_⟩
      have hlt := h.nonempty token htoken
      obtain ⟨before, behind, htext, hstart, -⟩ := h.stands token htoken
      cases before with
      | nil =>
          have hcovers : token.Covers (start + String.utf8Len []) := ⟨by omega, by omega⟩
          exact absurd hc ((h.covers [] c text rfl).1 ⟨token, htoken, hcovers⟩)
      | cons d before =>
          obtain ⟨rfl, -⟩ := List.cons.inj htext
          simp only [String.utf8Len_cons, String.utf8Len_nil] at hstart ⊢
          omega
    refine ⟨h.ordered, h.nonempty, hbehind, ?_⟩
    rintro before d behind rfl
    have hcovers := h.covers (c :: before) d behind rfl
    rwa [← List.singleton_append, String.utf8Len_append, ← Nat.add_assoc] at hcovers
  · intro h
    refine ⟨h.ordered, h.nonempty, ?_, ?_⟩
    · exact fun token htoken => (Token.standsIn_append_iff.1 (h.stands token htoken)).1
    · intro before d behind htext
      cases before with
      | nil =>
          obtain ⟨rfl, rfl⟩ := List.cons.inj htext
          simp only [hc, not_true_eq_false, iff_false]
          rintro ⟨token, htoken, hcovers, -⟩
          have hle := (h.stands token htoken).start_le
          have hpos := c.utf8Size_pos
          simp only [String.utf8Len_cons, String.utf8Len_nil] at hle hcovers
          omega
      | cons e before =>
          obtain ⟨rfl, rfl⟩ := List.cons.inj htext
          rw [← List.singleton_append, String.utf8Len_append, ← Nat.add_assoc]
          exact h.covers before d behind rfl

theorem exists_head {start : Nat} {c : Char} {text : List Char} {tokens : List Token}
    (h : IsSegmentation start (c :: text) tokens) (hc : c ∉ separators) :
    ∃ behind, tokens = ⟨(Lexeme.first c text).kind, start,
      String.ofList (Lexeme.first c text).taken⟩ :: behind := by
  obtain ⟨token, htoken, hcovers⟩ := (h.covers [] c text rfl).2 hc
  have hle : token.start ≤ start := by simpa using hcovers.1
  cases tokens with
  | nil => cases htoken
  | cons head behind =>
      obtain ⟨before, after, htext, hstart, hlongest⟩ := h.stands head List.mem_cons_self
      -- some token covers the first character, and no token starts in front of the head
      have hhead : head.start ≤ start := by
        rcases List.mem_cons.1 htoken with rfl | hbehind
        · exact hle
        · have hordered := (List.pairwise_cons.1 h.ordered).1 token hbehind
          simp only [Token.stop] at hordered
          omega
      obtain rfl : before = [] := String.utf8Len_eq_zero.1 (by omega)
      rw [List.nil_append] at htext
      rw [← htext, isLongest_iff] at hlongest
      obtain ⟨kind, place, piece⟩ := head
      simp only [String.utf8Len_nil, Nat.add_zero] at hstart hlongest
      refine ⟨behind, ?_⟩
      rw [hlongest.1, hstart, ← hlongest.2, String.ofList_toList]

theorem cons_iff {start : Nat} {kind : TokenKind} {piece rest : List Char} {tokens : List Token}
    (hpiece : piece ≠ []) (hlongest : IsLongest (piece ++ rest) kind piece)
    (hclean : ∀ c ∈ piece, c ∉ separators) :
    IsSegmentation start (piece ++ rest) (⟨kind, start, String.ofList piece⟩ :: tokens) ↔
      IsSegmentation (Token.stop ⟨kind, start, String.ofList piece⟩) rest tokens := by
  have hstop : Token.stop ⟨kind, start, String.ofList piece⟩ = start + String.utf8Len piece := by
    rw [Token.stop, String.utf8ByteSize_ofList]
  rw [hstop]
  have hpos : 0 < String.utf8Len piece :=
    Nat.pos_of_ne_zero fun hzero => hpiece (String.utf8Len_eq_zero.1 hzero)
  have hcovers (before : List Char) :
      (∃ token ∈ (⟨kind, start, String.ofList piece⟩ :: tokens : List Token),
        token.Covers (start + String.utf8Len (piece ++ before))) ↔
      ∃ token ∈ tokens, token.Covers (start + String.utf8Len piece + String.utf8Len before) := by
    rw [List.exists_mem_cons_iff, String.utf8Len_append, ← Nat.add_assoc]
    refine or_iff_right fun hcovers => ?_
    have hlt := hstop ▸ hcovers.2
    omega
  constructor
  · intro h
    obtain ⟨hbehind, hordered⟩ := List.pairwise_cons.1 h.ordered
    obtain ⟨-, hnonempty⟩ := List.forall_mem_cons.1 h.nonempty
    obtain ⟨-, hstands⟩ := List.forall_mem_cons.1 h.stands
    refine ⟨hordered, hnonempty, fun token htoken => ?_, ?_⟩
    · exact Token.standsIn_append_iff.2 ⟨hstands token htoken, hstop ▸ hbehind token htoken⟩
    · rintro before c behind rfl
      rw [← hcovers]
      exact h.covers (piece ++ before) c behind (by simp)
  · intro h
    refine ⟨List.pairwise_cons.2 ⟨fun token htoken => ?_, h.ordered⟩,
      List.forall_mem_cons.2 ⟨hstop ▸ Nat.lt_add_of_pos_right hpos, h.nonempty⟩,
      List.forall_mem_cons.2 ⟨⟨[], rest, by simp, by simp, by simpa using hlongest⟩,
        fun token htoken => (Token.standsIn_append_iff.1 (h.stands token htoken)).1⟩, ?_⟩
    · rw [hstop]
      exact (h.stands token htoken).start_le
    · intro before c behind htext
      have hbehind (more : List Char) (hrest : rest = more ++ c :: behind) :=
        (hcovers more).trans (h.covers more c behind hrest)
      -- the character stands behind the piece, or in it
      rcases List.append_eq_append_iff.1 htext with ⟨more, rfl, hrest⟩ | ⟨more, rfl, hmore⟩
      case inl => exact hbehind more hrest
      case inr =>
          cases more with
          | nil => simpa using hbehind [] hmore.symm
          | cons d more =>
              obtain ⟨rfl, rfl⟩ := List.cons.inj hmore
              refine iff_of_true ⟨_, List.mem_cons_self, by simp, ?_⟩ (hclean c (by simp))
              have hsize := c.utf8Size_pos
              rw [hstop, String.utf8Len_append, String.utf8Len_cons]
              omega

end IsSegmentation

theorem isSegmentation_iff (start : Nat) (text : List Char) :
    ∀ tokens, IsSegmentation start text tokens ↔ tokens = Token.scanFrom start text := by
  fun_induction Token.scanFrom start text with
  | case1 start => exact fun tokens => IsSegmentation.nil_iff
  | case2 start c text hblank ih =>
      intro tokens
      have hsize : String.utf8Len [c] = c.utf8Size := by simp
      rw [IsSegmentation.blank_iff (mem_separators_iff.2 hblank), hsize]
      exact ih tokens
  | case3 start c text hblank lexeme token ih =>
      intro tokens
      have hc : c ∉ separators := fun hmem => hblank (mem_separators_iff.1 hmem)
      have happend : lexeme.taken ++ lexeme.rest = c :: text := Lexeme.first_append c text
      have hlongest : IsLongest (c :: text) lexeme.kind lexeme.taken := isLongest_first c text
      have hclean := hlongest.not_mem_separators hc
      have hcons (behind : List Token) : IsSegmentation start (c :: text) (token :: behind) ↔
          IsSegmentation token.stop lexeme.rest behind := by
        rw [← happend] at hlongest ⊢
        exact IsSegmentation.cons_iff (Lexeme.first_taken_ne_nil c text) hlongest hclean
      constructor
      · intro h
        obtain ⟨behind, rfl⟩ := h.exists_head hc
        rw [(ih behind).1 ((hcons behind).1 h)]
      · rintro rfl
        exact (hcons _).2 ((ih _).2 rfl)

theorem Reader.run_of_advance {stop : Nat} {reader last : Reader} {tokens : List Token}
    {problem : ReadProblem} (h : reader.advance (tokens.map Token.word) = .ok last)
    (hlast : last.finish = .error problem) :
    reader.run stop tokens = .error ⟨problem, stop, stop, ""⟩ := by
  induction tokens generalizing reader with
  | nil =>
      obtain rfl : reader = last := by simpa [advance] using h
      simp [run, hlast]
  | cons token tokens ih =>
      cases hstep : reader.step token.word with
      | ok next =>
          simp only [List.map_cons, advance, hstep] at h
          simp only [run, hstep]
          exact ih h
      | error problem => simp [advance, hstep] at h

/--
The tokens of a text are its one segmentation by longest match.  Where they run
out with the text unfinished, the error is at the end of the text.
-/
theorem Token.scan_is_longest_match (text : String) :
    (∀ tokens, IsSegmentation 0 text.toList tokens ↔ tokens = Token.scan text) ∧
    ∀ (last : Reader) (problem : ReadProblem),
      Reader.start.advance ((Token.scan text).map Token.word) = .ok last →
      last.finish = .error problem →
      Expression.read text = .error ⟨problem, text.utf8ByteSize, text.utf8ByteSize, ""⟩ :=
  ⟨isSegmentation_iff 0 text.toList, fun _ _ => Reader.run_of_advance⟩

theorem Token.scan_is_longest_match_open :
    IsSegmentation 0 "(mid07D3\t* ".toList
      [⟨.leftParen, 0, "("⟩, ⟨.dice, 1, "mid07D3"⟩, ⟨.star, 9, "*"⟩] ∧
    Expression.read "(mid07D3\t* " = .error ⟨.unexpectedEnd .operand, 11, 11, ""⟩ := by
  have hscan : [⟨.leftParen, 0, "("⟩, ⟨.dice, 1, "mid07D3"⟩, ⟨.star, 9, "*"⟩] =
      Token.scan "(mid07D3\t* " := by
    decide +kernel
  obtain ⟨hsegmentation, hread⟩ := Token.scan_is_longest_match "(mid07D3\t* "
  refine ⟨(hsegmentation _).2 hscan, ?_⟩
  rw [← hscan] at hread
  exact hread (.operand ⟨none, some (.ofAtom (.dice "mid07D3"), .mul)⟩ [.empty])
    (.unexpectedEnd .operand) (by decide) rfl

end DiceNotation
