import DiceNotation.Token.Pattern
import DiceNotation.Tree.Basic

/-!
# Spelling trees

The grammar of dice notation as a relation between trees and rows of words, and
the writing of trees as text.  An integer has many spellings, one for each number
of leading zeros, and everything else has one.  Blanks may stand anywhere between
the words of a text.
-/

namespace DiceNotation

namespace Tree

/-- The tree of a text: its operators are at their levels, and its leaves have written forms. -/
def WellFormed {level : Level} : Tree level → Prop
  | .int value => 0 ≤ value.toInt
  | .dice text => TokenKind.dice.Matches text.toList
  | .group inner => inner.WellFormed
  | .ofAtom atom => atom.WellFormed
  | .times left op right => left.WellFormed ∧ op.level = .product ∧ right.WellFormed
  | .ofTerm term => term.WellFormed
  | .plus left op right => left.WellFormed ∧ op.level = .sum ∧ right.WellFormed

inductive Spells : {level : Level} → Tree level → List Word → Prop where
  | int {value : Int64} {digits : String} (hdigits : Numeral.IsDigits digits.toList)
      (hvalue : Nat.ofDigitChars 10 digits.toList 0 = value.toInt) :
      Spells (.int value) [⟨.integer, digits⟩]
  | dice (text : String) : Spells (.dice text) [⟨.dice, text⟩]
  | group {inner : Tree .sum} {words : List Word} (hinner : Spells inner words) :
      Spells (.group inner) (⟨.leftParen, "("⟩ :: words ++ [⟨.rightParen, ")"⟩])
  | ofAtom {atom : Tree .atom} {words : List Word} (hatom : Spells atom words) :
      Spells (.ofAtom atom) words
  | times {left : Tree .product} {right : Tree .atom} {before behind : List Word}
      (op : Operator) (hleft : Spells left before) (hright : Spells right behind) :
      Spells (.times left op right) (before ++ .ofOperator op :: behind)
  | ofTerm {term : Tree .product} {words : List Word} (hterm : Spells term words) :
      Spells (.ofTerm term) words
  | plus {left : Tree .sum} {right : Tree .product} {before behind : List Word}
      (op : Operator) (hleft : Spells left before) (hright : Spells right behind) :
      Spells (.plus left op right) (before ++ .ofOperator op :: behind)

def words {level : Level} : Tree level → List Word
  | .int value => [⟨.integer, Numeral.write value⟩]
  | .dice text => [⟨.dice, text⟩]
  | .group inner => ⟨.leftParen, "("⟩ :: inner.words ++ [⟨.rightParen, ")"⟩]
  | .ofAtom atom => atom.words
  | .times left op right => left.words ++ .ofOperator op :: right.words
  | .ofTerm term => term.words
  | .plus left op right => left.words ++ .ofOperator op :: right.words

theorem WellFormed.spells_words {level : Level} {tree : Tree level} (h : tree.WellFormed) :
    tree.Spells tree.words := by
  induction tree with
  | int value =>
      have hwrite : Numeral.write value = value.toInt.natAbs.repr :=
        if_neg (Int.not_lt.2 h)
      simp only [words, hwrite]
      refine .int (Numeral.isDigits_repr _) ?_
      rw [Numeral.ofDigitChars_repr]
      exact Int.natAbs_of_nonneg h
  | dice text => exact .dice text
  | group inner ih => exact .group (ih h)
  | ofAtom atom ih => exact .ofAtom (ih h)
  | times left op right ihl ihr => exact .times op (ihl h.1) (ihr h.2.2)
  | ofTerm term ih => exact .ofTerm (ih h)
  | plus left op right ihl ihr => exact .plus op (ihl h.1) (ihr h.2.2)

end Tree

/-- The text has these words, one after the other, with any blanks around them. -/
inductive Spaced : List Word → List Char → Prop where
  | nil {blanks : List Char} (hblanks : ∀ c ∈ blanks, c.isWhitespace) : Spaced [] blanks
  | cons {blanks text : List Char} {words : List Word} (hblanks : ∀ c ∈ blanks, c.isWhitespace)
      (word : Word) (hwords : Spaced words text) :
      Spaced (word :: words) (blanks ++ word.text.toList ++ text)

namespace Spaced

theorem blank {c : Char} {words : List Word} {text : List Char} (hc : c.isWhitespace)
    (h : Spaced words text) : Spaced words (c :: text) := by
  cases h with
  | nil hblanks => exact .nil (List.forall_mem_cons.2 ⟨hc, hblanks⟩)
  | cons hblanks word hwords =>
      exact .cons (List.forall_mem_cons.2 ⟨hc, hblanks⟩) word hwords

theorem concat {words : List Word} {text : List Char} (h : Spaced words text) (last : Word) :
    Spaced (words ++ [last]) (text ++ last.text.toList) := by
  induction h with
  | nil hblanks =>
      rw [← List.append_nil (_ ++ last.text.toList)]
      exact .cons hblanks last (.nil (by simp))
  | cons hblanks word hwords ih =>
      rw [List.append_assoc]
      exact .cons hblanks word ih

end Spaced

def Tree.text {level : Level} (tree : Tree level) : String :=
  String.ofList (tree.words.flatMap fun word => word.text.toList)

theorem Spaced.flatMap_text (words : List Word) :
    Spaced words (words.flatMap fun word => word.text.toList) := by
  induction words with
  | nil => exact .nil (by simp)
  | cons word words ih => exact @Spaced.cons [] _ _ (by simp) word ih

end DiceNotation
