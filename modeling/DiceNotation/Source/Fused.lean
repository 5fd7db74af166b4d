import DiceNotation.Source.Basic

/-!
# A source with a fuse

A source that counts the raw values it has yielded.  Once they reach a limit, if
there is one, it raises a flag along with every value.
-/

namespace DiceNotation

structure Fused (σ : Type) where
  source : σ
  drawn : Nat
  limit? : Option Nat
  flag : Flag
  deriving DecidableEq, Repr

namespace Fused

def light {σ : Type} (fuse : Fused σ) (draw : Draw σ) : Draw (Fused σ) where
  value := draw.value
  rest := { fuse with source := draw.rest, drawn := fuse.drawn + draw.used }
  used := draw.used

instance {σ : Type} [Source σ] : Source (Fused σ) where
  single sides fuse := fuse.light (Source.single sides fuse.source)
  summand sides fuse := fuse.light (Source.summand sides fuse.source)
  alarms fuse :=
    match fuse.limit? with
    | none => []
    | some limit => if limit ≤ fuse.drawn then [fuse.flag] else []

end Fused

end DiceNotation
