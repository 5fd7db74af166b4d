import DiceNotation.Proofs.Reading
import DiceNotation.Proofs.Scanning

/-!
# Reading what has been written

The text of a well-formed tree is read as this tree, whatever blanks stand
between its words.
-/

namespace DiceNotation

theorem Tree.Derives.read_spaced {tree : Expression} {words : List Word} {text : String}
    (h : tree.Derives words) (hspaced : Spaced words text.toList) :
    Expression.read text = .ok tree := by
  have hwords := Tree.words_scan h.1 h.2 hspaced
  rw [read_eq_ok_iff_derives, hwords]
  exact h

theorem Tree.WellFormed.derives_words {tree : Expression} (h : tree.WellFormed) :
    tree.Derives tree.words :=
  ⟨h, h.spells_words⟩

theorem Tree.spaced_text (tree : Expression) : Spaced tree.words tree.text.toList := by
  rw [text, String.toList_ofList]
  exact Spaced.flatMap_text tree.words

/--
However a well-formed tree is spaced, its text is read as the tree.  So a tree
that a text has been read as is read again from its own text, and from every
other spacing of its words.
-/
theorem read_written_tree :
    (∀ (tree : Expression) (text : String), tree.WellFormed → Spaced tree.words text.toList →
      Expression.read text = .ok tree) ∧
    ∀ (text : String) (tree : Expression), Expression.read text = .ok tree →
      Expression.read tree.text = .ok tree ∧
        ∀ other : String, Spaced tree.words other.toList → Expression.read other = .ok tree := by
  have hspaced : ∀ (tree : Expression) (text : String), tree.WellFormed →
      Spaced tree.words text.toList → Expression.read text = .ok tree :=
    fun tree text hwell hspaced => hwell.derives_words.read_spaced hspaced
  refine ⟨hspaced, fun text tree hread => ?_⟩
  have hwell := (read_eq_ok_iff_derives.1 hread).1
  exact ⟨hspaced tree tree.text hwell tree.spaced_text, fun other => hspaced tree other hwell⟩

private def written : Expression :=
  .ofTerm (.times
    (.ofAtom (.group (.plus (.ofTerm (.ofAtom (.int 7))) .sub (.ofAtom (.dice "mid3D08")))))
    .mul (.int 10))

theorem read_written_tree_spaced :
    written.WellFormed ∧ Spaced written.words "\t(7 -mid3D08)\r\n*10".toList ∧
      Expression.read "\t(7 -mid3D08)\r\n*10" = .ok written ∧
      Expression.read written.text = .ok written := by
  have hdice : TokenKind.dice.Matches "mid3D08".toList :=
    @TokenKind.Matches.middle ['m', 'i', 'd'] ['3'] ['D', '0', '8'] (by decide) (by simp)
      ⟨'D', ['0', '8'], rfl, by decide, by decide, by simp⟩
  have hseven : 0 ≤ (7 : Int64).toInt := by decide
  have hten : 0 ≤ (10 : Int64).toInt := by decide
  have hwell : written.WellFormed := ⟨⟨hseven, rfl, hdice⟩, rfl, hten⟩
  have htext : "\t(7 -mid3D08)\r\n*10".toList =
      ['\t'] ++ "(".toList ++ ([] ++ "7".toList ++ ([' '] ++ "-".toList ++
        ([] ++ "mid3D08".toList ++ ([] ++ ")".toList ++ (['\r', '\n'] ++ "*".toList ++
          ([] ++ "10".toList ++ [])))))) := by
    decide
  have hspaced : Spaced written.words "\t(7 -mid3D08)\r\n*10".toList := by
    rw [htext]
    exact .cons (by simp) _ (.cons (by simp) _ (.cons (by simp) _ (.cons (by simp) _
      (.cons (by simp) _ (.cons (by simp) _ (.cons (by simp) _ (.nil (by simp))))))))
  have hread := read_written_tree.1 written _ hwell hspaced
  exact ⟨hwell, hspaced, hread, (read_written_tree.2 _ written hread).1⟩

end DiceNotation
