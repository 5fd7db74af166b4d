import DiceNotation.Tree.Basic

/-!
# Leaves of trees

The dice of a tree from left to right, the tree that is left when numbers take
their places, and the shape that is left of it without their texts.
-/

namespace DiceNotation.Tree

def leaves {level : Level} : Tree level → List String
  | .int _ => []
  | .dice text => [text]
  | .group inner => inner.leaves
  | .ofAtom atom => atom.leaves
  | .times left _ right => left.leaves ++ right.leaves
  | .ofTerm term => term.leaves
  | .plus left _ right => left.leaves ++ right.leaves

def number? {level : Level} : Tree level → Option Int64
  | .int value => some value
  | _ => none

def lastAtom {level : Level} : Tree level → Atom
  | .int value => .int value
  | .dice text => .dice text
  | .group inner => inner.lastAtom
  | .ofAtom atom => atom.lastAtom
  | .times _ _ right => right.lastAtom
  | .ofTerm term => term.lastAtom
  | .plus _ _ right => right.lastAtom

/-- The tree with the first dice replaced by the first number, and so on. -/
def fill {level : Level} : Tree level → List Int64 → Tree level
  | .int value, _ => .int value
  | .dice text, totals =>
      match totals with
      | [] => .dice text
      | total :: _ => .int total
  | .group inner, totals => .group (inner.fill totals)
  | .ofAtom atom, totals => .ofAtom (atom.fill totals)
  | .times left op right, totals =>
      .times (left.fill totals) op (right.fill (totals.drop left.leaves.length))
  | .ofTerm term, totals => .ofTerm (term.fill totals)
  | .plus left op right, totals =>
      .plus (left.fill totals) op (right.fill (totals.drop left.leaves.length))

def mapDice {level : Level} (f : String → String) : Tree level → Tree level
  | .int value => .int value
  | .dice text => .dice (f text)
  | .group inner => .group (inner.mapDice f)
  | .ofAtom atom => .ofAtom (atom.mapDice f)
  | .times left op right => .times (left.mapDice f) op (right.mapDice f)
  | .ofTerm term => .ofTerm (term.mapDice f)
  | .plus left op right => .plus (left.mapDice f) op (right.mapDice f)

theorem leaves_mapDice {level : Level} (f : String → String) (tree : Tree level) :
    (tree.mapDice f).leaves = tree.leaves.map f := by
  induction tree with
  | int value => rfl
  | dice text => rfl
  | group inner ih => exact ih
  | ofAtom atom ih => exact ih
  | ofTerm term ih => exact ih
  | times left op right ihl ihr => simp [mapDice, leaves, ihl, ihr]
  | plus left op right ihl ihr => simp [mapDice, leaves, ihl, ihr]

def shape {level : Level} (tree : Tree level) : Tree level := tree.mapDice fun _ => ""

theorem length_leaves_of_shape {level : Level} {tree other : Tree level}
    (h : tree.shape = other.shape) : tree.leaves.length = other.leaves.length := by
  have hmap := congrArg (fun tree => tree.leaves.length) h
  simpa only [shape, leaves_mapDice, List.length_map] using hmap

theorem eq_of_shape {level : Level} {tree other : Tree level} (hshape : tree.shape = other.shape)
    (hleaves : tree.leaves = other.leaves) : tree = other := by
  induction tree with
  | int value => cases other <;> simp_all [shape, mapDice]
  | dice text => cases other <;> simp_all [shape, mapDice, leaves]
  | group inner ih =>
      cases other <;> simp only [shape, mapDice, reduceCtorEq, group.injEq] at hshape
      rw [ih hshape hleaves]
  | ofAtom atom ih =>
      cases other <;> simp only [shape, mapDice, reduceCtorEq, ofAtom.injEq] at hshape
      rw [ih hshape hleaves]
  | ofTerm term ih =>
      cases other <;> simp only [shape, mapDice, reduceCtorEq, ofTerm.injEq] at hshape
      rw [ih hshape hleaves]
  | times left op right ihl ihr =>
      cases other <;> simp only [shape, mapDice, reduceCtorEq, times.injEq] at hshape
      obtain ⟨hleft, rfl, hright⟩ := hshape
      obtain ⟨hfirst, hsecond⟩ := List.append_inj hleaves (length_leaves_of_shape hleft)
      rw [ihl hleft hfirst, ihr hright hsecond]
  | plus left op right ihl ihr =>
      cases other <;> simp only [shape, mapDice, reduceCtorEq, plus.injEq] at hshape
      obtain ⟨hleft, rfl, hright⟩ := hshape
      obtain ⟨hfirst, hsecond⟩ := List.append_inj hleaves (length_leaves_of_shape hleft)
      rw [ihl hleft hfirst, ihr hright hsecond]

theorem fill_append {level : Level} (tree : Tree level) {totals : List Int64}
    (h : tree.leaves.length ≤ totals.length) (more : List Int64) :
    tree.fill (totals ++ more) = tree.fill totals := by
  induction tree generalizing totals with
  | int value => rfl
  | dice text =>
      cases totals with
      | nil => cases h
      | cons total totals => rfl
  | group inner ih => exact congrArg Tree.group (ih h)
  | ofAtom atom ih => exact congrArg Tree.ofAtom (ih h)
  | ofTerm term ih => exact congrArg Tree.ofTerm (ih h)
  | times left op right ihl ihr =>
      simp only [leaves, List.length_append] at h
      simp only [fill]
      rw [ihl (by omega), List.drop_append_of_le_length (by omega),
        ihr (by simp only [List.length_drop]; omega)]
  | plus left op right ihl ihr =>
      simp only [leaves, List.length_append] at h
      simp only [fill]
      rw [ihl (by omega), List.drop_append_of_le_length (by omega),
        ihr (by simp only [List.length_drop]; omega)]

theorem fill_times {left : Tree .product} {before : List Int64}
    (h : before.length = left.leaves.length) (op : Operator) (right : Tree .atom)
    (behind : List Int64) :
    (times left op right).fill (before ++ behind) =
      .times (left.fill before) op (right.fill behind) := by
  rw [fill, fill_append left (Nat.le_of_eq h.symm), List.drop_left' h]

theorem fill_plus {left : Tree .sum} {before : List Int64}
    (h : before.length = left.leaves.length) (op : Operator) (right : Tree .product)
    (behind : List Int64) :
    (plus left op right).fill (before ++ behind) =
      .plus (left.fill before) op (right.fill behind) := by
  rw [fill, fill_append left (Nat.le_of_eq h.symm), List.drop_left' h]

end DiceNotation.Tree
