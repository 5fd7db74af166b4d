import DiceNotation.Tree.Reading
import DiceNotation.Tree.Spelling
import Mathlib.Logic.ExistsUnique

/-!
# Reading is the inverse of spelling

Along the words of a text the reader keeps trees whose words are those read so
far, and the words of a well-formed tree lead it from the place in front of the
tree to the place behind it.  So a text is read as the one well-formed tree that
its words spell, and it is not read if there is none.
-/

namespace DiceNotation

def Tree.Derives {level : Level} (tree : Tree level) (words : List Word) : Prop :=
  tree.WellFormed ∧ tree.Spells words

/-- The words of what an operand will be joined to: those of a chain and its operator, or none. -/
inductive SpellsLeft {level : Level} : Option (Tree level × Operator) → List Word → Prop where
  | none : SpellsLeft none []
  | some {left : Tree level} {op : Operator} {words : List Word} (hlevel : op.level = level)
      (hleft : left.Derives words) : SpellsLeft (some (left, op)) (words ++ [.ofOperator op])

namespace Pending

inductive Spells : Pending → List Word → Prop where
  | mk {sum? : Option (Expression × Operator)} {product? : Option (Term × Operator)}
      {before between : List Word} (hsum : SpellsLeft sum? before)
      (hproduct : SpellsLeft product? between) : Spells ⟨sum?, product?⟩ (before ++ between)

inductive SpellsOuter : List Pending → List Word → Prop where
  | nil : SpellsOuter [] []
  | cons {pending : Pending} {outer : List Pending} {words inner : List Word}
      (houter : SpellsOuter outer words) (hpending : pending.Spells inner) :
      SpellsOuter (pending :: outer) (words ++ inner ++ [⟨.leftParen, "("⟩])

theorem spells_empty : empty.Spells [] :=
  .mk .none .none

theorem joinProduct_derives {product? : Option (Term × Operator)} {atom : Atom}
    {before words : List Word} (hproduct : SpellsLeft product? before)
    (hatom : atom.Derives words) : (joinProduct product? atom).Derives (before ++ words) := by
  cases hproduct with
  | none => exact ⟨hatom.1, .ofAtom hatom.2⟩
  | some hlevel hleft =>
      rw [List.append_assoc]
      exact ⟨⟨hleft.1, hlevel, hatom.1⟩, .times _ hleft.2 hatom.2⟩

theorem joinSum_derives {sum? : Option (Expression × Operator)} {term : Term}
    {before words : List Word} (hsum : SpellsLeft sum? before)
    (hterm : term.Derives words) : (joinSum sum? term).Derives (before ++ words) := by
  cases hsum with
  | none => exact ⟨hterm.1, .ofTerm hterm.2⟩
  | some hlevel hleft =>
      rw [List.append_assoc]
      exact ⟨⟨hleft.1, hlevel, hterm.1⟩, .plus _ hleft.2 hterm.2⟩

end Pending

namespace Reader

inductive Spells : Reader → List Word → Prop where
  | operand {pending : Pending} {outer : List Pending} {words inner : List Word}
      (houter : Pending.SpellsOuter outer words) (hpending : pending.Spells inner) :
      Spells (.operand pending outer) (words ++ inner)
  | operator {sum? : Option (Expression × Operator)} {term : Term} {outer : List Pending}
      {words before inner : List Word} (houter : Pending.SpellsOuter outer words)
      (hsum : SpellsLeft sum? before) (hterm : term.Derives inner) :
      Spells (.operator sum? term outer) (words ++ (before ++ inner))

theorem start_spells : start.Spells [] :=
  .operand .nil Pending.spells_empty

theorem afterAtom_spells {pending : Pending} {atom : Atom} {outer : List Pending}
    {words inner behind : List Word} (houter : Pending.SpellsOuter outer words)
    (hpending : pending.Spells inner) (hatom : atom.Derives behind) :
    (afterAtom pending atom outer).Spells (words ++ inner ++ behind) := by
  cases hpending with
  | mk hsum hproduct =>
      have hterm := Pending.joinProduct_derives hproduct hatom
      simpa only [List.append_assoc, afterAtom] using Spells.operator houter hsum hterm

theorem step_spells {reader next : Reader} {words : List Word} {word : Word}
    (hreader : reader.Spells words) (hword : word.IsWritten)
    (h : reader.step word = .ok next) : next.Spells (words ++ [word]) := by
  cases hreader with
  | @operand pending outer words inner houter hpending =>
      simp only [step] at h
      split at h
      case h_1 hkind =>
          split at h
          case h_1 value hvalue =>
              cases h
              refine afterAtom_spells houter hpending ?_
              obtain ⟨kind, text⟩ := word
              obtain rfl : kind = .integer := hkind
              have hmatches := hword (by simp)
              cases hmatches with
              | integer hdigits =>
                  have hvalue := (Numeral.read_eq_ok_iff hdigits).1 hvalue
                  have hnonneg : 0 ≤ value.toInt := by omega
                  exact ⟨hnonneg, .int hdigits hvalue⟩
          case h_2 => cases h
      case h_2 hkind =>
          cases h
          refine afterAtom_spells houter hpending ?_
          obtain ⟨kind, text⟩ := word
          obtain rfl : kind = .dice := hkind
          exact ⟨hword (by simp), .dice text⟩
      case h_3 hkind =>
          cases h
          rw [hword.eq_leftParen hkind]
          simpa using Spells.operand (.cons houter hpending) Pending.spells_empty
      case h_4 => cases h
  | @operator sum? term outer words before inner houter hsum hterm =>
      simp only [step] at h
      split at h
      case h_1 op hop =>
          rw [hword.eq_ofOperator hop]
          split at h
          case isTrue hlevel =>
              cases h
              simpa only [List.append_assoc] using
                Spells.operand houter (.mk hsum (.some hlevel hterm))
          case isFalse hlevel =>
              cases h
              have hlevel : op.level = .sum := by
                cases op <;> first | rfl | exact absurd rfl hlevel
              have hjoined := Pending.joinSum_derives hsum hterm
              simpa only [List.append_assoc, List.append_nil] using
                Spells.operand houter (.mk (.some hlevel hjoined) .none)
      case h_2 hop =>
          split at h
          case h_1 => cases h
          case h_2 pending outer =>
              split at h
              case isTrue hkind =>
                  cases h
                  rw [hword.eq_rightParen hkind]
                  cases houter with
                  | cons houter hpending =>
                      have hjoined := Pending.joinSum_derives hsum hterm
                      have hgroup := afterAtom_spells houter hpending
                        ⟨hjoined.1, .group hjoined.2⟩
                      simpa only [List.append_assoc, List.cons_append, List.nil_append]
                        using hgroup
              case isFalse => cases h

theorem finish_derives {reader : Reader} {words : List Word} {tree : Expression}
    (hreader : reader.Spells words) (h : reader.finish = .ok tree) : tree.Derives words := by
  cases hreader with
  | operand => cases h
  | operator houter hsum hterm =>
      cases houter with
      | nil =>
          cases h
          simpa only [List.nil_append] using Pending.joinSum_derives hsum hterm
      | cons => cases h

def advance (reader : Reader) : List Word → Except ReadProblem Reader
  | [] => .ok reader
  | word :: rest =>
      match reader.step word with
      | .ok next => next.advance rest
      | .error problem => .error problem

theorem advance_append {reader next : Reader} {words : List Word}
    (h : reader.advance words = .ok next) (more : List Word) :
    reader.advance (words ++ more) = next.advance more := by
  induction words generalizing reader with
  | nil =>
      cases h
      rfl
  | cons word words ih =>
      simp only [advance, List.cons_append] at h ⊢
      cases hstep : reader.step word with
      | error problem =>
          simp only [hstep] at h
          cases h
      | ok behind =>
          simp only [hstep] at h ⊢
          exact ih h

theorem advance_spells {reader next : Reader} {before words : List Word}
    (hreader : reader.Spells before) (hwords : ∀ word ∈ words, word.IsWritten)
    (h : reader.advance words = .ok next) : next.Spells (before ++ words) := by
  induction words generalizing reader before with
  | nil =>
      cases h
      simpa only [List.append_nil] using hreader
  | cons word words ih =>
      obtain ⟨hword, hwords⟩ := List.forall_mem_cons.1 hwords
      simp only [advance] at h
      cases hstep : reader.step word with
      | error problem =>
          simp only [hstep] at h
          cases h
      | ok behind =>
          simp only [hstep] at h
          have hbehind := step_spells hreader hword hstep
          simpa only [List.append_assoc, List.singleton_append] using ih hbehind hwords h

theorem run_eq_ok_iff {stop : Nat} {reader : Reader} {tokens : List Token} {tree : Expression} :
    reader.run stop tokens = .ok tree ↔
      ∃ last, reader.advance (tokens.map Token.word) = .ok last ∧ last.finish = .ok tree := by
  induction tokens generalizing reader with
  | nil =>
      simp only [run, List.map_nil, advance, Except.ok.injEq, exists_eq_left']
      cases reader.finish <;> simp
  | cons token tokens ih =>
      simp only [run, List.map_cons, advance]
      cases reader.step token.word with
      | error problem => simp
      | ok next => exact ih

/-! ## The way through a tree -/

/--
Where a tree of this level may come, the words lead to the place behind this
one.  Behind a sum its last product is not yet joined to the products in front.
-/
def Passes : {level : Level} → Tree level → List Word → Prop
  | .atom, atom, words => ∀ pending outer,
      (operand pending outer).advance words = .ok (afterAtom pending atom outer)
  | .product, term, words => ∀ sum? outer,
      (operand ⟨sum?, none⟩ outer).advance words = .ok (operator sum? term outer)
  | .sum, expression, words => ∃ sum? term, Pending.joinSum sum? term = expression ∧
      ∀ outer, (operand .empty outer).advance words = .ok (operator sum? term outer)

theorem step_operator_of_product {op : Operator} (hop : op.level = .product)
    (sum? : Option (Expression × Operator)) (term : Term) (outer : List Pending) :
    (operator sum? term outer).step (.ofOperator op) =
      .ok (.operand ⟨sum?, some (term, op)⟩ outer) := by
  have hkind : (TokenKind.ofOperator op).operator? = some op :=
    TokenKind.operator?_eq_some_iff.2 rfl
  simp [step, Word.ofOperator, hkind, hop]

theorem step_operator_of_sum {op : Operator} (hop : op.level = .sum)
    (sum? : Option (Expression × Operator)) (term : Term) (outer : List Pending) :
    (operator sum? term outer).step (.ofOperator op) =
      .ok (.operand ⟨some (Pending.joinSum sum? term, op), none⟩ outer) := by
  have hkind : (TokenKind.ofOperator op).operator? = some op :=
    TokenKind.operator?_eq_some_iff.2 rfl
  simp [step, Word.ofOperator, hkind, hop]

theorem passes_of_spells {level : Level} {tree : Tree level} {words : List Word}
    (hwell : tree.WellFormed) (h : tree.Spells words) : Passes tree words := by
  induction h with
  | int hdigits hvalue =>
      intro pending outer
      have hread := (Numeral.read_eq_ok_iff hdigits).2 hvalue
      simp only [advance, step, hread]
  | dice text =>
      intro pending outer
      rfl
  | group hinner ih =>
      obtain ⟨sum?, term, rfl, hinside⟩ := ih hwell
      intro pending outer
      have hopen : (operand pending outer).step ⟨.leftParen, "("⟩ =
          .ok (.operand .empty (pending :: outer)) := rfl
      have hclose : (operator sum? term (pending :: outer)).step ⟨.rightParen, ")"⟩ =
          .ok (afterAtom pending (.group (Pending.joinSum sum? term)) outer) := rfl
      simp only [List.cons_append, advance, hopen]
      rw [advance_append (hinside _)]
      simp only [advance, hclose]
  | ofAtom hatom ih =>
      intro sum? outer
      exact ih hwell ⟨sum?, none⟩ outer
  | times op hleft hright ihl ihr =>
      intro sum? outer
      rw [advance_append (ihl hwell.1 sum? outer)]
      simp only [advance, step_operator_of_product hwell.2.1]
      exact ihr hwell.2.2 _ outer
  | ofTerm hterm ih =>
      exact ⟨none, _, rfl, fun outer => ih hwell none outer⟩
  | plus op hleft hright ihl ihr =>
      obtain ⟨sum?, term, rfl, hbefore⟩ := ihl hwell.1
      refine ⟨some (Pending.joinSum sum? term, op), _, rfl, fun outer => ?_⟩
      rw [advance_append (hbefore outer)]
      simp only [advance, step_operator_of_sum hwell.2.1]
      exact ihr hwell.2.2 _ outer

end Reader

theorem Tree.Derives.read {tree : Expression} {words : List Word} (h : tree.Derives words) :
    ∃ last, Reader.start.advance words = .ok last ∧ last.finish = .ok tree := by
  obtain ⟨sum?, term, rfl, hpasses⟩ := Reader.passes_of_spells h.1 h.2
  exact ⟨.operator sum? term [], hpasses [], rfl⟩

theorem Tree.Derives.unique {first second : Expression} {words : List Word}
    (hfirst : first.Derives words) (hsecond : second.Derives words) : first = second := by
  obtain ⟨last, hlast, hfinish⟩ := hfirst.read
  obtain ⟨last', hlast', hfinish'⟩ := hsecond.read
  obtain rfl := Except.ok.inj (hlast.symm.trans hlast')
  exact Except.ok.inj (hfinish.symm.trans hfinish')

theorem read_eq_ok_iff_derives {text : String} {tree : Expression} :
    Expression.read text = .ok tree ↔ tree.Derives ((Token.scan text).map Token.word) := by
  unfold Expression.read
  rw [Reader.run_eq_ok_iff]
  constructor
  · rintro ⟨last, hlast, hfinish⟩
    have hspells :=
      Reader.advance_spells Reader.start_spells Token.isWritten_of_mem_words hlast
    exact Reader.finish_derives hspells hfinish
  · exact Tree.Derives.read

/--
A text is read as a tree exactly if the tree is well-formed and the words of the
text are those of the tree, and a text that is read has no second tree.
-/
theorem read_exactly_the_grammar (text : String) :
    (∀ tree : Expression, Expression.read text = .ok tree ↔
      tree.WellFormed ∧ tree.Spells ((Token.scan text).map Token.word)) ∧
    ((∃ tree, Expression.read text = .ok tree) ↔
      ∃! tree : Expression,
        tree.WellFormed ∧ tree.Spells ((Token.scan text).map Token.word)) := by
  refine ⟨fun tree => read_eq_ok_iff_derives, ?_⟩
  constructor
  · rintro ⟨tree, hread⟩
    have hderives := read_eq_ok_iff_derives.1 hread
    exact ⟨tree, hderives, fun other hother => Tree.Derives.unique hother hderives⟩
  · rintro ⟨tree, hderives, -⟩
    exact ⟨tree, read_eq_ok_iff_derives.2 hderives⟩

end DiceNotation
