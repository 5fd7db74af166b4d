import DiceNotation.Numeral
import DiceNotation.Token.Scan

/-!
# Written forms of tokens

Which texts are tokens of a kind, said apart from how a text is cut into tokens.
What is unknown has no written form.  Cutting takes pieces of the right form
only.
-/

namespace DiceNotation

def IsSides (text : List Char) : Prop :=
  ∃ mark digits, text = mark :: digits ∧ mark.toLower = 'd' ∧ Numeral.IsDigits digits

inductive TokenKind.Matches : TokenKind → List Char → Prop where
  | integer {digits : List Char} (hdigits : Numeral.IsDigits digits) : Matches .integer digits
  | standard {count sides : List Char} (hcount : Numeral.IsDigits count)
      (hsides : IsSides sides) : Matches .dice (count ++ sides)
  | middle {letters count sides : List Char}
      (hletters : letters.map Char.toLower = ['m', 'i', 'd'])
      (hcount : ∀ c ∈ count, c.isDigit) (hsides : IsSides sides) :
      Matches .dice (letters ++ count ++ sides)
  | leftParen : Matches .leftParen ['(']
  | rightParen : Matches .rightParen [')']
  | plus : Matches .plus ['+']
  | minus : Matches .minus ['-']
  | star : Matches .star ['*']
  | slash : Matches .slash ['/']

namespace Lexeme

theorem all_isDigit_takeWhile (text : List Char) :
    ∀ c ∈ text.takeWhile Char.isDigit, c.isDigit := by
  intro c hc
  exact List.all_eq_true.1 List.all_takeWhile c hc

private theorem sides?_isSides {text sides rest : List Char}
    (h : sides? text = some (sides, rest)) : IsSides sides := by
  unfold sides? at h
  split at h
  · split at h
    case isTrue hc =>
        simp only [Option.some.injEq, Prod.mk.injEq] at h
        obtain ⟨rfl, rfl⟩ := h
        refine ⟨_, _, rfl, hc.1, by simp, ?_⟩
        rintro c (_ | ⟨_, hmem⟩)
        · exact hc.2
        · exact all_isDigit_takeWhile _ c hmem
    case isFalse => cases h
  · cases h

private theorem middle?_letters {text letters rest : List Char}
    (h : middle? text = some (letters, rest)) :
    letters.map Char.toLower = ['m', 'i', 'd'] := by
  unfold middle? at h
  split at h
  · split at h
    case isTrue hc =>
        simp only [Option.some.injEq, Prod.mk.injEq] at h
        simp [← h.1, hc]
    case isFalse => cases h
  · cases h

private theorem single_matches {c : Char} (h : single c ≠ .unknown) :
    (single c).Matches [c] := by
  unfold single at h ⊢
  split at h
  case h_7 => contradiction
  all_goals constructor

theorem first_matches {c : Char} {text : List Char} (h : (first c text).kind ≠ .unknown) :
    (first c text).kind.Matches (first c text).taken := by
  revert h
  unfold first
  split
  case isTrue hc =>
      have hdigits : Numeral.IsDigits ((c :: text).takeWhile Char.isDigit) :=
        ⟨by simp [hc], all_isDigit_takeWhile _⟩
      simp only [counted]
      split
      case h_1 sides rest hs => exact fun _ => .standard hdigits (sides?_isSides hs)
      case h_2 => exact fun _ => .integer hdigits
  case isFalse =>
      split
      case h_1 letters rest hl =>
          simp only [counted]
          split
          case h_1 sides rest hs =>
              exact fun _ =>
                .middle (middle?_letters hl) (all_isDigit_takeWhile _) (sides?_isSides hs)
          case h_2 => exact fun h => absurd rfl h
      case h_2 => exact single_matches

end Lexeme

def Word.IsWritten (word : Word) : Prop :=
  word.kind ≠ .unknown → word.kind.Matches word.text.toList

namespace Word

private theorem IsWritten.eq_of_kind {word : Word} {kind : TokenKind} {text : String}
    (h : word.IsWritten) (hkind : word.kind = kind) (hknown : kind ≠ .unknown)
    (honly : ∀ letters, kind.Matches letters → letters = text.toList) : word = ⟨kind, text⟩ := by
  obtain ⟨kind, letters⟩ := word
  obtain rfl := hkind
  have htext : letters = text := String.toList_inj.1 (honly _ (h hknown))
  rw [htext]

theorem IsWritten.eq_leftParen {word : Word} (h : word.IsWritten)
    (hkind : word.kind = .leftParen) : word = ⟨.leftParen, "("⟩ := by
  refine h.eq_of_kind hkind (by decide) ?_
  rintro _ ⟨⟩
  rfl

theorem IsWritten.eq_rightParen {word : Word} (h : word.IsWritten)
    (hkind : word.kind = .rightParen) : word = ⟨.rightParen, ")"⟩ := by
  refine h.eq_of_kind hkind (by decide) ?_
  rintro _ ⟨⟩
  rfl

theorem IsWritten.eq_ofOperator {word : Word} {op : Operator} (h : word.IsWritten)
    (hkind : word.kind.operator? = some op) : word = ofOperator op := by
  refine h.eq_of_kind (TokenKind.operator?_eq_some_iff.1 hkind) (by cases op <;> decide) ?_
  cases op <;> rintro _ ⟨⟩ <;> rfl

end Word

namespace Token

theorem isWritten_of_mem_scanFrom {start : Nat} {text : List Char} {token : Token}
    (h : token ∈ scanFrom start text) : token.word.IsWritten := by
  fun_induction scanFrom start text with
  | case1 => cases h
  | case2 start c text hblank ih => exact ih h
  | case3 start c text hblank lexeme first ih =>
      rcases List.mem_cons.1 h with rfl | hmem
      · intro hkind
        simpa [first, word] using Lexeme.first_matches hkind
      · exact ih hmem

theorem isWritten_of_mem_scan {text : String} {token : Token} (h : token ∈ scan text) :
    token.word.IsWritten :=
  isWritten_of_mem_scanFrom h

theorem isWritten_of_mem_words {text : String} :
    ∀ word ∈ (scan text).map Token.word, word.IsWritten :=
  List.forall_mem_map.2 fun _ htoken => isWritten_of_mem_scan htoken

end Token

end DiceNotation
