import DiceNotation.Tree.Leaves

/-!
# Values of trees

What a tree without dice comes to over the unbounded integers, as long as every
value on the way has 64 bits.  Chains are worked out from left to right.
-/

namespace DiceNotation.Tree

inductive HasValue : {level : Level} → Tree level → Int → Prop where
  | int (value : Int64) : HasValue (.int value) value.toInt
  | group {inner : Tree .sum} {value : Int} (hinner : HasValue inner value) :
      HasValue (.group inner) value
  | ofAtom {atom : Tree .atom} {value : Int} (hatom : HasValue atom value) :
      HasValue (.ofAtom atom) value
  | times {left : Tree .product} {op : Operator} {right : Tree .atom} {a b value : Int}
      (hleft : HasValue left a) (hright : HasValue right b)
      (hvalue : op.value? a b = some value)
      (hnarrow : Int64.minValue.toInt ≤ value ∧ value ≤ Int64.maxValue.toInt) :
      HasValue (.times left op right) value
  | ofTerm {term : Tree .product} {value : Int} (hterm : HasValue term value) :
      HasValue (.ofTerm term) value
  | plus {left : Tree .sum} {op : Operator} {right : Tree .product} {a b value : Int}
      (hleft : HasValue left a) (hright : HasValue right b)
      (hvalue : op.value? a b = some value)
      (hnarrow : Int64.minValue.toInt ≤ value ∧ value ≤ Int64.maxValue.toInt) :
      HasValue (.plus left op right) value

end DiceNotation.Tree
