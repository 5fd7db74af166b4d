import DiceNotation.Main
import DiceNotation.Session
import DiceNotation.Source.Counting
import DiceNotation.Source.Cycle
import DiceNotation.Source.Fused
import DiceNotation.Source.Generator
import DiceNotation.Token.Pattern
import DiceNotation.Tree.Outline
import DiceNotation.Tree.Spelling
import DiceNotation.Tree.Value
import DiceNotation.Roll.Effect
import DiceNotation.Roll.Stage
import DiceNotation.Proofs.Reading
import DiceNotation.Proofs.Evaluation
import DiceNotation.Proofs.Stopping
import DiceNotation.Proofs.Cancellation
import DiceNotation.Proofs.Budget
import DiceNotation.Proofs.Writing
import DiceNotation.Proofs.Failing
import DiceNotation.Proofs.Viability
import DiceNotation.Proofs.Accounting
import DiceNotation.Proofs.LongestMatch
import DiceNotation.Proofs.FirstFailure
import DiceNotation.Proofs.Grouping
import DiceNotation.Proofs.LetterCase
import DiceNotation.Proofs.Lowering
import DiceNotation.Proofs.Numerals
import DiceNotation.Proofs.DiceText
import DiceNotation.Proofs.Summing
import DiceNotation.Proofs.Conversation
import DiceNotation.Proofs.Requests
import DiceNotation.Proofs.Median
import DiceNotation.Proofs.Bounds
import DiceNotation.Proofs.Additivity
import DiceNotation.Proofs.Separation
import DiceNotation.Proofs.Fairness
import DiceNotation.Proofs.Order
import DiceNotation.Proofs.Sharing
import DiceNotation.Proofs.Trail
import DiceNotation.Proofs.Messages
