import DiceNotation.Failure
import DiceNotation.Proofs.Writing
import DiceNotation.Source.Counting
import DiceNotation.Source.Fused

/-!
# Redundant parentheses

Parentheses around a chain, where a chain may stand without them, change nothing
about a roll.  They check the flag once more, but before anything else happens,
and a flag that has been found down is still down then.
-/

namespace DiceNotation

namespace Tree

/--
The other tree is the tree with parentheses, as many as one likes, around the
whole of chains or around single operands.
-/
inductive Groups : {level : Level} → Tree level → Tree level → Prop where
  | refl {level : Level} (tree : Tree level) : Groups tree tree
  | sum {tree other : Expression} (h : Groups tree other) :
      Groups tree (.ofTerm (.ofAtom (.group other)))
  | product {tree other : Term} (h : Groups tree other) :
      Groups tree (.ofAtom (.group (.ofTerm other)))
  | operand {left other : Term} {op : Operator} {right atom : Atom} (hleft : Groups left other)
      (hright : Groups right atom) :
      Groups (.times left op right) (.times other op (.group (.ofTerm (.ofAtom atom))))
  | group {tree other : Expression} (h : Groups tree other) : Groups (.group tree) (.group other)
  | ofAtom {tree other : Atom} (h : Groups tree other) : Groups (.ofAtom tree) (.ofAtom other)
  | times {left other : Term} {op : Operator} {right atom : Atom} (hleft : Groups left other)
      (hright : Groups right atom) : Groups (.times left op right) (.times other op atom)
  | ofTerm {tree other : Term} (h : Groups tree other) : Groups (.ofTerm tree) (.ofTerm other)
  | plus {left other : Expression} {op : Operator} {right term : Term} (hleft : Groups left other)
      (hright : Groups right term) : Groups (.plus left op right) (.plus other op term)

theorem Groups.extend_sum {tree other : Expression} (h : tree.Groups other)
    (operands : List (Operator × Term)) :
    (Expression.extend tree operands).Groups (Expression.extend other operands) := by
  induction operands generalizing tree other with
  | nil => exact h
  | cons operand operands ih => exact ih (.plus h (.refl operand.2))

theorem Groups.extend_product {tree other : Term} (h : tree.Groups other)
    (operands : List (Operator × Atom)) :
    (Term.extend tree operands).Groups (Term.extend other operands) := by
  induction operands generalizing tree other with
  | nil => exact h
  | cons operand operands ih => exact ih (.times h (.refl operand.2))

end Tree

variable {σ : Type} [Source σ]

namespace Roll

theorem outcome_chain_congr {left first right second : Roll σ Int64}
    (hleft : ∀ play, first.outcome play = left.outcome play)
    (hright : ∀ play, play.table.isCancelled = false →
      second.outcome play = right.outcome play)
    (op : Operator) (play : Play σ) :
    (first >>= fun total => operand total op second).outcome play =
      (left >>= fun total => operand total op right).outcome play :=
  outcome_bind_congr (hleft play) fun total behind _ =>
    outcome_operand_congr (hright behind) total op

theorem outcome_checked_congr {roll other : Roll σ Int64}
    (h : ∀ play, other.outcome play = roll.outcome play) (play : Play σ) :
    (check >>= fun _ => other).outcome play = (check >>= fun _ => roll).outcome play :=
  outcome_bind_congr rfl fun _ behind _ => h behind

end Roll

namespace Tree

theorem outcome_of_cancelled {level : Level} (hlevel : level ≠ .atom) (tree : Tree level)
    {play : Play σ} (h : play.table.isCancelled = true) :
    tree.roll.outcome play =
      (.error .cancelled, { play with log := play.log.push (.cancelled play.table.rolls) }) := by
  induction tree with
  | int => exact absurd rfl hlevel
  | dice => exact absurd rfl hlevel
  | group => exact absurd rfl hlevel
  | ofAtom atom => exact if_pos h
  | ofTerm term => exact if_pos h
  | times left op right ihl => exact Roll.outcome_bind_of_error (ihl (by decide)) _
  | plus left op right ihl => exact Roll.outcome_bind_of_error (ihl (by decide)) _

/-- A chain begins with a check, so another one in front of it makes no difference. -/
theorem outcome_checked_roll {level : Level} (hlevel : level ≠ .atom) (tree : Tree level)
    (play : Play σ) :
    (Roll.check >>= fun _ => tree.roll).outcome play = tree.roll.outcome play := by
  rw [Roll.outcome_checked]
  split
  case isTrue h => rw [tree.outcome_of_cancelled hlevel h]
  case isFalse => rfl

theorem outcome_checked_twice {level : Level} (hlevel : level ≠ .atom) (tree : Tree level)
    (play : Play σ) :
    (Roll.check >>= fun _ => Roll.check >>= fun _ => tree.roll).outcome play =
      tree.roll.outcome play := by
  rw [Roll.outcome_checked_congr (tree.outcome_checked_roll hlevel),
    tree.outcome_checked_roll hlevel]

theorem Groups.outcome_eq {level : Level} {tree other : Tree level} (h : tree.Groups other)
    (play : Play σ) : other.roll.outcome play = tree.roll.outcome play := by
  induction h generalizing play with
  | refl => rfl
  | @sum tree other h ih => exact (other.outcome_checked_twice (by decide) play).trans (ih play)
  | @product tree other h ih =>
      exact (other.outcome_checked_twice (by decide) play).trans (ih play)
  | operand hleft hright ihl ihr =>
      refine Roll.outcome_chain_congr ihl (fun between hfree => ?_) _ play
      rw [← ihr]
      exact (if_neg (by simp [hfree])).trans (if_neg (by simp [hfree]))
  | group h ih => exact ih play
  | ofAtom h ih => exact Roll.outcome_checked_congr ih play
  | ofTerm h ih => exact Roll.outcome_checked_congr ih play
  | times hleft hright ihl ihr =>
      exact Roll.outcome_chain_congr ihl (fun between _ => ihr between) _ play
  | plus hleft hright ihl ihr =>
      exact Roll.outcome_chain_congr ihl (fun between _ => ihr between) _ play

end Tree

theorem read_grouped {text : String} {tree : Expression} (h : Expression.read text = .ok tree) :
    Expression.read ("(" ++ text ++ ")") = .ok (.ofTerm (.ofAtom (.group tree))) := by
  obtain ⟨hwell, hspells⟩ := read_eq_ok_iff_derives.1 h
  have hderives : (Tree.ofTerm (.ofAtom (.group tree))).Derives
      (⟨.leftParen, "("⟩ :: ((Token.scan text).map Token.word ++ [⟨.rightParen, ")"⟩])) :=
    ⟨hwell, .ofTerm (.ofAtom (.group hspells))⟩
  have hspaced := @Spaced.cons [] _ _ (by simp) ⟨.leftParen, "("⟩
    ((Token.spaced_scan text).concat ⟨.rightParen, ")"⟩)
  refine hderives.read_spaced ?_
  rw [String.toList_append, String.toList_append, List.append_assoc]
  exact hspaced

theorem rollText_grouped {text : String} {tree : Expression}
    (h : Expression.read text = .ok tree) (table : Table σ) :
    rollText ("(" ++ text ++ ")") table =
      ((rollText text table).1,
        ⟨(rollText text table).2.toPlay, some (.ofTerm (.ofAtom (.group tree)))⟩) := by
  have hroll := Tree.Groups.outcome_eq (.sum (.refl tree)) (⟨table, #[]⟩ : Play σ)
  rw [rollText_of_read h, rollText_of_read (read_grouped h), Roll.outcomeAt, hroll]
  rfl

/--
Parentheses around the first operands of a chain, around single operands anywhere
in a tree, or around a whole text, leave the outcome of a roll as it is, with the
table and the log, even if a flag goes up in the middle of it.  Those around a text
are seen in the notice of its tree, and there only.
-/
theorem redundant_groups_change_nothing {σ : Type} [Source σ] :
    (∀ (left : Term) (first second : List (Operator × Term)) (play : Play σ),
      (Expression.extend (.ofTerm left) (first ++ second)).roll.outcome play =
        (Expression.extend
          (.ofTerm (.ofAtom (.group (Expression.extend (.ofTerm left) first))))
          second).roll.outcome play) ∧
    (∀ (left : Atom) (first second : List (Operator × Atom)) (play : Play σ),
      (Term.extend (.ofAtom left) (first ++ second)).roll.outcome play =
        (Term.extend (.ofAtom (.group (.ofTerm (Term.extend (.ofAtom left) first))))
          second).roll.outcome play) ∧
    (∀ {level : Level} (tree other : Tree level), tree.Groups other →
      ∀ play : Play σ, tree.roll.outcome play = other.roll.outcome play) ∧
    ∀ (text : String) (tree : Expression), Expression.read text = .ok tree →
      ∀ table : Table σ,
        (rollText ("(" ++ text ++ ")") table).1 = (rollText text table).1 ∧
        (rollText ("(" ++ text ++ ")") table).2.toPlay = (rollText text table).2.toPlay ∧
        (rollText text table).2.lines =
          tree.notice :: (rollText text table).2.log.toList.map Event.line ∧
        (rollText ("(" ++ text ++ ")") table).2.lines =
          Expression.notice (.ofTerm (.ofAtom (.group tree))) ::
            (rollText text table).2.log.toList.map Event.line ∧
        Expression.notice (.ofTerm (.ofAtom (.group tree))) ≠ tree.notice := by
  refine ⟨?_, ?_, ?_, ?_⟩
  · intro left first second play
    have hgroups := (Tree.Groups.sum (.refl (Expression.extend (.ofTerm left) first))).extend_sum
      second
    rw [Expression.extend, List.foldl_append]
    exact (hgroups.outcome_eq play).symm
  · intro left first second play
    have hgroups :=
      (Tree.Groups.product (.refl (Term.extend (.ofAtom left) first))).extend_product second
    rw [Term.extend, List.foldl_append]
    exact (hgroups.outcome_eq play).symm
  · intro level tree other hgroups play
    exact (hgroups.outcome_eq play).symm
  · intro text tree hread table
    rw [rollText_grouped hread, rollText_of_read hread]
    exact ⟨rfl, rfl, rfl, rfl, notice_group_ne tree⟩

/-- The flag of the table goes up with the second value, in the middle of the dice. -/
private def fusedAtSecond : Table (Fused Counting) := .fresh none ⟨⟨4, 1⟩, 0, some 2, 0⟩

theorem redundant_groups_change_nothing_difference :
    (Tree.plus (.ofTerm (.ofAtom (.int 1))) .sub
        (.times (.ofAtom (.dice "2d6")) .mul (.int 3))).roll.outcome ⟨fusedAtSecond, #[]⟩ =
      (Tree.plus (.ofTerm (.ofAtom (.group (.ofTerm (.ofAtom (.int 1)))))) .sub
        (.times (.ofAtom (.group (.ofTerm (.ofAtom (.dice "2d6"))))) .mul
          (.group (.ofTerm (.ofAtom (.int 3)))))).roll.outcome ⟨fusedAtSecond, #[]⟩ ∧
    (rollText ("(" ++ "1 - 2d6*3" ++ ")") fusedAtSecond).1 =
      (rollText "1 - 2d6*3" fusedAtSecond).1 ∧
    (rollText ("(" ++ "1 - 2d6*3" ++ ")") fusedAtSecond).2.toPlay =
      (rollText "1 - 2d6*3" fusedAtSecond).2.toPlay := by
  have hclaim := redundant_groups_change_nothing (σ := Fused Counting)
  have hread : Expression.read "1 - 2d6*3" =
      .ok (.plus (.ofTerm (.ofAtom (.int 1))) .sub
        (.times (.ofAtom (.dice "2d6")) .mul (.int 3))) := by
    decide +kernel
  obtain ⟨hresult, hplay, -⟩ := hclaim.2.2.2 _ _ hread fusedAtSecond
  exact ⟨hclaim.2.2.1 _ _ (.plus (.ofTerm (.product (.refl _)))
    (.operand (.product (.refl _)) (.refl _))) _, hresult, hplay⟩

/-- All that is logged of `1` and of `(1)` is the tree, which has the parentheses. -/
theorem redundant_groups_are_logged :
    Expression.read "1" = .ok (.ofTerm (.ofAtom (.int 1))) ∧
    (rollText "1" fusedAtSecond).2.lines =
      ["DEBUG parsed roll: Expression \x7b left: " ++
        "Term \x7b left: Modifier(1), right: [] \x7d, right: [] \x7d"] ∧
    (rollText ("(" ++ "1" ++ ")") fusedAtSecond).2.lines =
      ["DEBUG parsed roll: Expression \x7b left: " ++
        "Term \x7b left: SubExpression(Expression \x7b left: " ++
        "Term \x7b left: Modifier(1), right: [] \x7d, right: [] \x7d), " ++
        "right: [] \x7d, right: [] \x7d"] ∧
    (rollText ("(" ++ "1" ++ ")") fusedAtSecond).2.lines ≠ (rollText "1" fusedAtSecond).2.lines := by
  decide +kernel

end DiceNotation
