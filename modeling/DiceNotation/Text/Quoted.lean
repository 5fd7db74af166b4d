import DiceNotation.Text.Extending
import DiceNotation.Text.Unprintable

/-!
# Quoted texts

A text between double quotes, as messages show it.  Quotes and backslashes
stand behind a backslash, the common control characters have a letter, and any
other character that cannot be told apart on its own is given by its code point
in hexadecimal.
-/

namespace DiceNotation.Text

def letter? : Char → Option Char
  | '"' => some '"'
  | '\\' => some '\\'
  | '\n' => some 'n'
  | '\r' => some 'r'
  | '\t' => some 't'
  | '\x00' => some '0'
  | _ => none

def escape (c : Char) : List Char :=
  match letter? c with
  | some letter => ['\\', letter]
  | none =>
      if isExtending c || isUnprintable c then
        ['\\', 'u', '\x7b'] ++ Nat.toDigits 16 c.toNat ++ ['\x7d']
      else
        [c]

def quote (text : String) : String :=
  String.ofList ('"' :: text.toList.flatMap escape ++ ['"'])

end DiceNotation.Text
