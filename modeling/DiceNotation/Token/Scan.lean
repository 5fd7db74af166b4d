import DiceNotation.Token.Basic

/-!
# Cutting a text into tokens

At each place the longest token is taken, and blanks between tokens are
skipped.  A run of digits is the start of dice if a `d` and further digits
follow it, and an integer otherwise; `mid`, with or without digits, is the start
of dice under the same condition, and unknown otherwise.  Letter case does not
matter.
-/

namespace DiceNotation

structure Lexeme where
  kind : TokenKind
  taken : List Char
  rest : List Char
  deriving DecidableEq, Repr

namespace Lexeme

def sides? : List Char → Option (List Char × List Char)
  | mark :: digit :: rest =>
      if mark.toLower = 'd' ∧ digit.isDigit then
        some (mark :: digit :: rest.takeWhile Char.isDigit, rest.dropWhile Char.isDigit)
      else
        none
  | _ => none

/--
Digits, which may be none, and the sides that follow them.  All of it is dice
if there are sides, and of the kind `otherwise` if there are none.
-/
def counted (otherwise : TokenKind) (start text : List Char) : Lexeme :=
  let count := text.takeWhile Char.isDigit
  let rest := text.dropWhile Char.isDigit
  match sides? rest with
  | some (sides, rest) => ⟨.dice, start ++ count ++ sides, rest⟩
  | none => ⟨otherwise, start ++ count, rest⟩

def middle? : List Char → Option (List Char × List Char)
  | m :: i :: d :: rest =>
      if m.toLower = 'm' ∧ i.toLower = 'i' ∧ d.toLower = 'd' then
        some ([m, i, d], rest)
      else
        none
  | _ => none

def single : Char → TokenKind
  | '(' => .leftParen
  | ')' => .rightParen
  | '+' => .plus
  | '-' => .minus
  | '*' => .star
  | '/' => .slash
  | _ => .unknown

def first (c : Char) (text : List Char) : Lexeme :=
  if c.isDigit then
    counted .integer [] (c :: text)
  else
    match middle? (c :: text) with
    | some (letters, rest) => counted .unknown letters rest
    | none => ⟨single c, [c], text⟩

end Lexeme

namespace Lexeme

private theorem sides?_append {text sides rest : List Char}
    (h : sides? text = some (sides, rest)) : sides ++ rest = text := by
  unfold sides? at h
  split at h
  · split at h
    · simp only [Option.some.injEq, Prod.mk.injEq] at h
      obtain ⟨rfl, rfl⟩ := h
      simp
    · cases h
  · cases h

theorem counted_append (otherwise : TokenKind) (start text : List Char) :
    (counted otherwise start text).taken ++ (counted otherwise start text).rest =
      start ++ text := by
  simp only [counted]
  split
  case h_1 sides rest h => simp [sides?_append h]
  case h_2 => simp

private theorem middle?_append {text letters rest : List Char}
    (h : middle? text = some (letters, rest)) : letters ++ rest = text := by
  unfold middle? at h
  split at h
  · split at h
    · simp only [Option.some.injEq, Prod.mk.injEq] at h
      obtain ⟨rfl, rfl⟩ := h
      simp
    · cases h
  · cases h

theorem first_append (c : Char) (text : List Char) :
    (first c text).taken ++ (first c text).rest = c :: text := by
  unfold first
  split
  · simp [counted_append]
  · split
    case h_1 letters rest h => rw [counted_append, middle?_append h]
    case h_2 => simp

private theorem counted_taken_ne_nil {otherwise : TokenKind} {start text : List Char}
    (h : start ++ text.takeWhile Char.isDigit ≠ []) :
    (counted otherwise start text).taken ≠ [] := by
  simp only [counted]
  split <;> simp_all

theorem first_taken_ne_nil (c : Char) (text : List Char) : (first c text).taken ≠ [] := by
  unfold first
  split
  case isTrue hc => exact counted_taken_ne_nil (by simp [hc])
  case isFalse =>
      split
      case h_1 letters rest h =>
          apply counted_taken_ne_nil
          unfold middle? at h
          split at h
          · split at h
            · simp only [Option.some.injEq, Prod.mk.injEq] at h
              simp [← h.1]
            · cases h
          · cases h
      case h_2 => simp

theorem first_rest_length (c : Char) (text : List Char) :
    (first c text).rest.length < (c :: text).length := by
  have h := congrArg List.length (first_append c text)
  have := List.length_pos_iff.2 (first_taken_ne_nil c text)
  simp only [List.length_append] at h
  omega

end Lexeme

namespace Token

def scanFrom (start : Nat) : List Char → List Token
  | [] => []
  | c :: text =>
      if c.isWhitespace then
        scanFrom (start + c.utf8Size) text
      else
        let lexeme := Lexeme.first c text
        let token : Token := ⟨lexeme.kind, start, String.ofList lexeme.taken⟩
        token :: scanFrom token.stop lexeme.rest
termination_by text => text.length
decreasing_by
  · simp
  · exact Lexeme.first_rest_length c text

def scan (text : String) : List Token := scanFrom 0 text.toList

end Token

end DiceNotation
