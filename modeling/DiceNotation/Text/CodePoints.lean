/-!
# Sets of code points

A set of characters is given by closed ranges of code points, ascending and
apart from one another.
-/

namespace DiceNotation.Text

abbrev CodePoints := List (Nat × Nat)

namespace CodePoints

/-- Membership in ascending ranges: a range that starts above the code point ends the search. -/
def contains : CodePoints → Nat → Bool
  | [], _ => false
  | (low, high) :: rest, code =>
      if code < low then false else if code ≤ high then true else contains rest code

def ascending : CodePoints → Bool
  | [] => true
  | [(low, high)] => low ≤ high
  | (low, high) :: (low', high') :: rest =>
      low ≤ high && high + 1 < low' && ascending ((low', high') :: rest)

def size : CodePoints → Nat
  | [] => 0
  | (low, high) :: rest => high + 1 - low + size rest

end CodePoints

end DiceNotation.Text
