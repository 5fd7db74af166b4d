import DiceNotation.Roll.Evaluation

/-!
# Rolls that stop

Between the values of a roll and its next check for cancellation there are at
most 256 further values, and dice are counted behind a check only.  Both are
read off the program of a roll, so they hold wherever the flag is raised.
-/

namespace DiceNotation

variable {σ α β : Type}

namespace Roll

/-- If the flag is up, the roll takes so many values at most, and it counts no dice. -/
def StopsWithin : Roll σ α → Nat → Prop
  | .finished _, _ => True
  | .failed _, _ => True
  | .recording _ next, limit => next.StopsWithin limit
  | .guarding _ _, _ => True
  | .charging _ _, _ => False
  | .receiving _ next, limit => 0 < limit ∧ ∀ value, (next value).StopsWithin (limit - 1)

/-- Wherever the flag goes up along with a value, at most 256 further values are taken. -/
def StopsPromptly : Roll σ α → Prop
  | .finished _ => True
  | .failed _ => True
  | .recording _ next => next.StopsPromptly
  | .guarding _ next => next.StopsPromptly
  | .charging _ next => next.StopsPromptly
  | .receiving _ next => ∀ value, (next value).StopsWithin 256 ∧ (next value).StopsPromptly

theorem StopsWithin.mono {roll : Roll σ α} {limit more : Nat} (h : roll.StopsWithin limit)
    (hle : limit ≤ more) : roll.StopsWithin more := by
  induction roll generalizing limit more with
  | finished value => trivial
  | failed error => trivial
  | recording event next ih => exact ih h hle
  | guarding event next ih => trivial
  | charging dice next ih => exact h
  | receiving draw next ih =>
      obtain ⟨hpos, hnext⟩ := h
      exact ⟨by omega, fun value => ih value (hnext value) (by omega)⟩

theorem StopsWithin.bind {roll : Roll σ α} {next : α → Roll σ β} {limit more : Nat}
    (h : roll.StopsWithin limit) (hnext : ∀ value, (next value).StopsWithin more) :
    (roll >>= next).StopsWithin (limit + more) := by
  change (roll.bind next).StopsWithin (limit + more)
  induction roll generalizing limit with
  | finished value => exact (hnext value).mono (by omega)
  | failed error => trivial
  | recording event roll ih => exact ih h
  | guarding event roll ih => trivial
  | charging dice roll ih => exact h.elim
  | receiving draw roll ih =>
      obtain ⟨hpos, hroll⟩ := h
      refine ⟨by omega, fun value => ?_⟩
      rw [show limit + more - 1 = limit - 1 + more by omega]
      exact ih value (hroll value)

theorem StopsPromptly.bind {roll : Roll σ α} {next : α → Roll σ β} (h : roll.StopsPromptly)
    (hstops : ∀ value, (next value).StopsWithin 0)
    (hnext : ∀ value, (next value).StopsPromptly) : (roll >>= next).StopsPromptly := by
  change (roll.bind next).StopsPromptly
  induction roll with
  | finished value => exact hnext value
  | failed error => trivial
  | recording event roll ih => exact ih h
  | guarding event roll ih => exact ih h
  | charging dice roll ih => exact ih h
  | receiving draw roll ih =>
      intro value
      exact ⟨(h value).1.bind hstops, ih value (h value).2⟩

theorem fit_bind_stopsWithin {total limit : Nat} {next : Nat → Roll σ β}
    (h : ∀ total, (next total).StopsWithin limit) : (fit total >>= next).StopsWithin limit := by
  unfold fit
  split
  · exact h total
  · trivial

theorem fit_bind_stopsPromptly {total : Nat} {next : Nat → Roll σ β}
    (h : ∀ total, (next total).StopsPromptly) : (fit total >>= next).StopsPromptly := by
  unfold fit
  split
  · exact h total
  · trivial

theorem checkAmong_bind_stopsWithin {done count limit : Nat} {next : Unit → Roll σ β}
    (h : ¬(0 < done ∧ done % 256 = 0) → (next ()).StopsWithin limit) :
    (checkAmong done count >>= next).StopsWithin limit := by
  unfold checkAmong
  split
  case isTrue => trivial
  case isFalse hskip => exact h hskip

theorem checkAmong_bind_stopsPromptly {done count : Nat} {next : Unit → Roll σ β}
    (h : (next ()).StopsPromptly) : (checkAmong done count >>= next).StopsPromptly := by
  unfold checkAmong
  split <;> exact h

theorem operand_stopsWithin (total : Int64) (op : Operator) (roll : Roll σ Int64) :
    (operand total op roll).StopsWithin 0 :=
  trivial

theorem operand_stopsPromptly (total : Int64) (op : Operator) {roll : Roll σ Int64}
    (h : roll.StopsPromptly) : (operand total op roll).StopsPromptly := by
  refine h.bind (fun value => ?_) (fun value => ?_)
  · change (ofExcept (op.apply total value) : Roll σ Int64).StopsWithin 0
    cases op.apply total value <;> trivial
  · change (ofExcept (op.apply total value) : Roll σ Int64).StopsPromptly
    cases op.apply total value <;> trivial

end Roll

variable [Source σ]

namespace Roll

/--
The values that are left until a check: the one that has `done` dice in front of
it is followed by a check at once if `done` is a multiple of 256.
-/
theorem addDice_stopsWithin {sides : Sides} {done left total limit : Nat} (hdone : 0 < done)
    (hlimit : 0 < limit) (h : done % 256 = 0 ∨ 257 ≤ limit + done % 256) :
    (addDice sides done left total : Roll σ Nat).StopsWithin limit := by
  induction left generalizing done total limit with
  | zero => trivial
  | succ left ih =>
      rw [addDice_succ]
      refine ⟨hlimit, fun value => checkAmong_bind_stopsWithin fun hskip => ?_⟩
      refine fit_bind_stopsWithin fun total => ih ?_ ?_ ?_ <;> omega

theorem addDice_stopsPromptly {sides : Sides} {done left total : Nat} :
    (addDice sides done left total : Roll σ Nat).StopsPromptly := by
  induction left generalizing done total with
  | zero => trivial
  | succ left ih =>
      rw [addDice_succ]
      refine fun value => ⟨checkAmong_bind_stopsWithin fun hskip => ?_,
        checkAmong_bind_stopsPromptly (fit_bind_stopsPromptly fun total => ih)⟩
      refine fit_bind_stopsWithin fun total => addDice_stopsWithin ?_ ?_ ?_ <;> omega

theorem throwMiddle_stopsPromptly {sides : Sides} :
    (throwMiddle sides : Roll σ Nat).StopsPromptly := by
  have hfit : ∀ total limit, (fit total : Roll σ Nat).StopsWithin limit ∧
      (fit total : Roll σ Nat).StopsPromptly := by
    intro total limit
    unfold fit
    split <;> exact ⟨trivial, trivial⟩
  intro a
  refine ⟨⟨by omega, fun b => ⟨by omega, fun c => (hfit _ _).1⟩⟩, fun b => ?_⟩
  exact ⟨⟨by omega, fun c => (hfit _ _).1⟩, fun c => hfit _ _⟩

end Roll

namespace Dice

theorem total_stopsPromptly (dice : Dice) (sides : Sides) :
    (dice.total sides : Roll σ Nat).StopsPromptly := by
  unfold total
  split
  · exact Roll.addDice_stopsPromptly
  · exact Roll.throwMiddle_stopsPromptly

theorem roll_stopsPromptly (dice : Dice) : (dice.roll : Roll σ Int64).StopsPromptly := by
  unfold roll
  cases Sides.ofInt? dice.sides with
  | none => trivial
  | some sides =>
      change Roll.StopsPromptly (if _ then _ else _)
      split
      · trivial
      · exact (total_stopsPromptly dice sides).bind (fun total => trivial) (fun total => trivial)

end Dice

namespace Roll

theorem leaf_stopsWithin (text : String) : (leaf text : Roll σ Int64).StopsWithin 0 :=
  trivial

theorem leaf_stopsPromptly (text : String) : (leaf text : Roll σ Int64).StopsPromptly := by
  change (ofExcept (Dice.ofLeaf text) >>= fun dice => dice.roll).StopsPromptly
  cases Dice.ofLeaf text with
  | error error => trivial
  | ok dice => exact dice.roll_stopsPromptly

end Roll

namespace Tree

theorem roll_stopsWithin {level : Level} (tree : Tree level) :
    (tree.roll : Roll σ Int64).StopsWithin 0 := by
  induction tree with
  | int value => trivial
  | dice text => exact Roll.leaf_stopsWithin text
  | group inner ih => exact ih
  | ofAtom atom ih => trivial
  | times left op right ihl ihr =>
      exact ihl.bind fun total => Roll.operand_stopsWithin total op right.roll
  | ofTerm term ih => trivial
  | plus left op right ihl ihr =>
      exact ihl.bind fun total => Roll.operand_stopsWithin total op right.roll

theorem roll_stopsPromptly {level : Level} (tree : Tree level) :
    (tree.roll : Roll σ Int64).StopsPromptly := by
  induction tree with
  | int value => trivial
  | dice text => exact Roll.leaf_stopsPromptly text
  | group inner ih => exact ih
  | ofAtom atom ih => exact ih
  | times left op right ihl ihr =>
      exact ihl.bind (fun total => Roll.operand_stopsWithin total op right.roll)
        (fun total => Roll.operand_stopsPromptly total op ihr)
  | ofTerm term ih => exact ih
  | plus left op right ihl ihr =>
      exact ihl.bind (fun total => Roll.operand_stopsWithin total op right.roll)
        (fun total => Roll.operand_stopsPromptly total op ihr)

end Tree

end DiceNotation
