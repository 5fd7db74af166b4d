import DiceNotation.Prompt
import DiceNotation.Source.Generator

/-!
# The command line

The prompt on the standard streams, with dice made from random words.  What is
logged is not shown.
-/

namespace DiceNotation.Prompt

/-- The next line of the input, of which the given bytes, last one first, have been read. -/
partial def readLine? (input : IO.FS.Stream) (line : List UInt8) : IO (Option (List UInt8)) := do
  match (← input.read 1).data[0]? with
  | none => return if line.isEmpty then none else some line.reverse
  | some byte => if byte = 10 then return some line.reverse else readLine? input (byte :: line)

partial def converse (budget : Nat) (source : Generator) : IO UInt32 := do
  let output ← IO.getStdout
  output.putStr sign
  output.flush
  let some line ← readLine? (← IO.getStdin) [] | return exitCode
  let some text := decode? line | return exitCode
  let (transcript, source) := answer budget source text
  output.putStr transcript.out
  (← IO.getStderr).putStr transcript.err
  converse budget source

end DiceNotation.Prompt

def main : IO UInt32 := do
  let budget := DiceNotation.Prompt.budget (← IO.getEnv "DICEPROB_MAX_ROLLS")
  let bytes ← IO.getRandomBytes 8
  let seed := bytes.foldl (fun (word : UInt64) byte => word <<< 8 ||| byte.toUInt64) 0
  DiceNotation.Prompt.converse budget ⟨[], seed⟩
