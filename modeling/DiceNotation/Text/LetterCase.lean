/-!
# Letter case

Lower-casing changes the letters from `A` to `Z` only.  It makes no digit and no
blank of another character, nor another character of a digit or a blank, and
keeps the number of bytes.
-/

namespace DiceNotation

theorem toLower_eq_self_or_capital (c : Char) :
    c.toLower = c ∨ ∃ n < 26, c = Char.ofNat (65 + n) := by
  by_cases hupper : c.val ≥ 'A'.val ∧ c.val ≤ 'Z'.val
  case pos =>
      have hleft : 65 ≤ c.toNat := UInt32.le_iff_toNat_le.1 hupper.1
      have hright : c.toNat ≤ 90 := UInt32.le_iff_toNat_le.1 hupper.2
      refine .inr ⟨c.toNat - 65, by omega, ?_⟩
      rw [Nat.add_sub_cancel' hleft, Char.ofNat_toNat]
  case neg => exact .inl (dif_neg hupper)

/-- What lower-casing keeps of the capital letters, it keeps of every character. -/
theorem toLower_keeps {α : Type} (f : Char → α)
    (h : ∀ n < 26, f (Char.ofNat (65 + n)).toLower = f (Char.ofNat (65 + n))) (c : Char) :
    f c.toLower = f c := by
  rcases toLower_eq_self_or_capital c with hself | ⟨n, hn, rfl⟩
  · rw [hself]
  · exact h n hn

@[simp]
theorem isDigit_toLower (c : Char) : c.toLower.isDigit = c.isDigit :=
  toLower_keeps Char.isDigit (by decide) c

@[simp]
theorem isWhitespace_toLower (c : Char) : c.toLower.isWhitespace = c.isWhitespace :=
  toLower_keeps Char.isWhitespace (by decide) c

@[simp]
theorem utf8Size_toLower (c : Char) : c.toLower.utf8Size = c.utf8Size :=
  toLower_keeps Char.utf8Size (by decide) c

@[simp]
theorem toLower_toLower (c : Char) : c.toLower.toLower = c.toLower :=
  toLower_keeps Char.toLower (by decide) c

theorem toLower_of_isDigit {c : Char} (h : c.isDigit) : c.toLower = c := by
  rcases toLower_eq_self_or_capital c with hself | ⟨n, hn, rfl⟩
  · exact hself
  · revert n
    decide

theorem isDigit_eq_false_of_toLower {c letter : Char} (h : c.toLower = letter)
    (hletter : letter.isDigit = false) : c.isDigit = false := by
  rw [← isDigit_toLower, h, hletter]

theorem isWhitespace_eq_false_of_toLower {c letter : Char} (h : c.toLower = letter)
    (hletter : letter.isWhitespace = false) : c.isWhitespace = false := by
  rw [← isWhitespace_toLower, h, hletter]

theorem map_toLower_digits {digits : List Char} (h : ∀ c ∈ digits, c.isDigit) :
    digits.map Char.toLower = digits := by
  rw [List.map_congr_left fun c hc => toLower_of_isDigit (h c hc), List.map_id']

theorem isDigit_comp_toLower : Char.isDigit ∘ Char.toLower = Char.isDigit :=
  funext isDigit_toLower

theorem takeWhile_isDigit_toLower (text : List Char) :
    (text.map Char.toLower).takeWhile Char.isDigit =
      (text.takeWhile Char.isDigit).map Char.toLower := by
  rw [List.takeWhile_map, isDigit_comp_toLower]

theorem dropWhile_isDigit_toLower (text : List Char) :
    (text.map Char.toLower).dropWhile Char.isDigit =
      (text.dropWhile Char.isDigit).map Char.toLower := by
  rw [List.dropWhile_map, isDigit_comp_toLower]

theorem toList_toLower (text : String) : text.toLower.toList = text.toList.map Char.toLower :=
  String.toList_map

@[simp]
theorem toLower_empty : "".toLower = "" := by
  rw [← String.toList_inj, toList_toLower]
  rfl

theorem ofList_toLower (text : List Char) :
    (String.ofList text).toLower = String.ofList (text.map Char.toLower) := by
  rw [← String.toList_inj, toList_toLower, String.toList_ofList, String.toList_ofList]

theorem utf8ByteSize_toLower (text : String) :
    text.toLower.utf8ByteSize = text.utf8ByteSize := by
  have hmap (letters : List Char) : (String.ofList (letters.map Char.toLower)).utf8ByteSize =
      (String.ofList letters).utf8ByteSize := by
    induction letters with
    | nil => rfl
    | cons c letters ih =>
        rw [List.map_cons, String.ofList_cons, String.ofList_cons]
        simp [ih]
  rw [← String.ofList_toList (s := text), ofList_toLower, hmap]

end DiceNotation
