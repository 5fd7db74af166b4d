import DiceNotation.Dice
import DiceNotation.Text.LetterCase

/-!
# Dice and all of Unicode

Lower-casing in the sense of Unicode puts other characters, or several, in the
place of capital letters outside of ASCII.  Two of them turn into ASCII letters:
the sign for kelvin into a `k`, and the capital `İ` into an `i` and a dot that
stands behind it.  None of this makes dice of a text that is no dice otherwise.
-/

namespace DiceNotation

/--
What takes the place of a character outside of ASCII has no part in dice: no
digit, no sign, no `m` and no `d`, and not an `i` alone.
-/
structure IsInert (piece : List Char) : Prop where
  ne_nil : piece ≠ []
  ne_letter : piece ≠ ['i']
  not_digit : ∀ c ∈ piece, c.isDigit = false
  not_mark : ∀ c ∈ piece, c ∉ ['m', 'd', '+', '-']

inductive IsLowered : List Char → List Char → Prop where
  | nil : IsLowered [] []
  | letter (c : Char) {text lowered : List Char} (h : IsLowered text lowered) :
      IsLowered (c :: text) (c.toLower :: lowered)
  | other {c : Char} {piece text lowered : List Char} (hc : 128 ≤ c.toNat)
      (hpiece : IsInert piece) (h : IsLowered text lowered) :
      IsLowered (c :: text) (piece ++ lowered)

inductive Alike : List Char → List Char → Prop where
  | nil : Alike [] []
  | keep (c : Char) {text other : List Char} (h : Alike text other) : Alike (c :: text) (c :: other)
  | put {piece instead text other : List Char} (hpiece : IsInert piece)
      (hinstead : IsInert instead) (h : Alike text other) :
      Alike (piece ++ text) (instead ++ other)

theorem isInert_of_le {c : Char} (h : 128 ≤ c.toNat) : IsInert [c] := by
  have hne {other : Char} (hother : other.toNat < 128) : c ≠ other := by
    rintro rfl
    omega
  refine ⟨by simp, ?_, ?_, ?_⟩
  · simpa using hne (by decide)
  · refine List.forall_mem_singleton.2 ?_
    rw [← Bool.not_eq_true]
    intro hdigit
    simp only [Char.isDigit, Bool.and_eq_true, decide_eq_true_eq] at hdigit
    have hle : c.toNat ≤ 57 := UInt32.le_iff_toNat_le.1 hdigit.2
    omega
  · refine List.forall_mem_singleton.2 ?_
    simp only [List.mem_cons, List.not_mem_nil, or_false, not_or]
    exact ⟨hne (by decide), hne (by decide), hne (by decide), hne (by decide)⟩

theorem toLower_of_le {c : Char} (h : 128 ≤ c.toNat) : c.toLower = c := by
  rcases toLower_eq_self_or_capital c with hself | ⟨n, hn, rfl⟩
  · exact hself
  · revert n
    decide

theorem IsLowered.alike {text lowered : List Char} (h : IsLowered text lowered) :
    Alike (text.map Char.toLower) lowered := by
  induction h with
  | nil => exact .nil
  | letter c h ih => exact .keep c.toLower ih
  | other hc hpiece h ih =>
      rw [List.map_cons, toLower_of_le hc]
      exact .put (isInert_of_le hc) hpiece ih

namespace IsInert

variable {piece : List Char}

theorem exists_cons (h : IsInert piece) :
    ∃ c tail, piece = c :: tail ∧ c.isDigit = false ∧ c ∉ ['m', 'd', '+', '-'] := by
  obtain ⟨c, tail, rfl⟩ := List.exists_cons_of_ne_nil h.ne_nil
  exact ⟨c, tail, rfl, h.not_digit c (by simp), h.not_mark c (by simp)⟩

theorem readDigits_append (h : IsInert piece) (limit : Nat) (excess : NumeralError) (value : Nat)
    (rest : List Char) :
    Numeral.readDigits limit excess value (piece ++ rest) = .error .invalidDigit := by
  obtain ⟨c, tail, rfl, hdigit, -⟩ := h.exists_cons
  simp [Numeral.readDigits, hdigit]

theorem read_append (h : IsInert piece) (rest : List Char) :
    Numeral.read (piece ++ rest) = .error .invalidDigit := by
  obtain ⟨c, tail, rfl, hdigit, hmark⟩ := h.exists_cons
  simp only [List.mem_cons, List.not_mem_nil, or_false, not_or] at hmark
  obtain ⟨-, -, hplus, hminus⟩ := hmark
  rw [List.cons_append, Numeral.read_of_no_sign hminus hplus]
  simp [Numeral.readUnsigned, Numeral.readDigits, hdigit, Except.map]

end IsInert

namespace Alike

variable {text other : List Char}

theorem symm (h : Alike text other) : Alike other text := by
  induction h with
  | nil => exact .nil
  | keep c h ih => exact .keep c ih
  | put hpiece hinstead h ih => exact .put hinstead hpiece ih

theorem nil_iff (h : Alike text other) : text = [] ↔ other = [] := by
  cases h with
  | nil => exact Iff.rfl
  | keep c h => simp
  | put hpiece hinstead h => simp [hpiece.ne_nil, hinstead.ne_nil]

theorem readDigits_eq (h : Alike text other) (limit : Nat) (excess : NumeralError) (value : Nat) :
    Numeral.readDigits limit excess value text = Numeral.readDigits limit excess value other := by
  induction h generalizing value with
  | nil => rfl
  | keep c h ih => simp only [Numeral.readDigits, ih]
  | put hpiece hinstead h ih => rw [hpiece.readDigits_append, hinstead.readDigits_append]

theorem readUnsigned_eq (h : Alike text other) (limit : Nat) (excess : NumeralError) :
    Numeral.readUnsigned limit excess text = Numeral.readUnsigned limit excess other := by
  by_cases htext : text = []
  case pos =>
      obtain rfl := htext
      obtain rfl := h.nil_iff.1 rfl
      rfl
  case neg =>
      rw [Numeral.readUnsigned, Numeral.readUnsigned, h.readDigits_eq]
      · exact fun hother => htext (h.nil_iff.2 hother)
      · exact htext

theorem read_eq (h : Alike text other) : Numeral.read text = Numeral.read other := by
  cases h with
  | nil => rfl
  | put hpiece hinstead h => rw [hpiece.read_append, hinstead.read_append]
  | @keep c text other h =>
      by_cases hminus : c = '-'
      case pos =>
          obtain rfl := hminus
          rw [Numeral.read, Numeral.read, h.readUnsigned_eq]
      case neg =>
          by_cases hplus : c = '+'
          case pos =>
              obtain rfl := hplus
              rw [Numeral.read, Numeral.read, h.readUnsigned_eq]
          case neg =>
              rw [Numeral.read_of_no_sign hminus hplus, Numeral.read_of_no_sign hminus hplus,
                (h.keep c).readUnsigned_eq]

theorem split_eq (h : Alike text other) :
    (Dice.split text = .error .noDelimiter ∧ Dice.split other = .error .noDelimiter) ∨
      ∃ before behind first second, Dice.split text = .ok (before, behind) ∧
        Dice.split other = .ok (first, second) ∧ Alike before first ∧ Alike behind second := by
  induction h with
  | nil => exact .inl ⟨rfl, rfl⟩
  | @keep c text other h ih =>
      by_cases hmark : c = 'd'
      case pos =>
          obtain rfl := hmark
          exact .inr ⟨[], text, [], other, rfl, rfl, .nil, h⟩
      case neg =>
          have hc : 'd' ∉ [c] := by simpa using fun hd => hmark hd.symm
          rw [← List.singleton_append, ← List.singleton_append (l := other),
            Dice.split_append hc, Dice.split_append hc]
          rcases ih with ⟨htext, hother⟩ | ⟨before, behind, first, second, htext, hother, hfirst, hsecond⟩
          · exact .inl ⟨by rw [htext]; rfl, by rw [hother]; rfl⟩
          · exact .inr ⟨c :: before, behind, c :: first, second, by rw [htext]; rfl,
              by rw [hother]; rfl, .keep c hfirst, hsecond⟩
  | put hpiece hinstead h ih =>
      rw [Dice.split_append fun hd => hpiece.not_mark 'd' hd (by decide),
        Dice.split_append fun hd => hinstead.not_mark 'd' hd (by decide)]
      rcases ih with ⟨htext, hother⟩ | ⟨before, behind, first, second, htext, hother, hfirst, hsecond⟩
      · exact .inl ⟨by rw [htext]; rfl, by rw [hother]; rfl⟩
      · exact .inr ⟨_, behind, _, second, by rw [htext]; rfl, by rw [hother]; rfl,
          .put hpiece hinstead hfirst, hsecond⟩

theorem readStandard_eq (h : Alike text other) :
    Dice.readStandard text = Dice.readStandard other := by
  unfold Dice.readStandard Dice.readCount Dice.readSides
  rcases h.split_eq with ⟨htext, hother⟩ | ⟨_, _, _, _, htext, hother, hcount, hsides⟩
  · rw [htext, hother]
  · rw [htext, hother]
    simp only [bind, Except.bind, hcount.read_eq, hsides.read_eq]

theorem readMiddle_eq (h : Alike text other) :
    Dice.readMiddle text = Dice.readMiddle other := by
  unfold Dice.readMiddle Dice.readCount Dice.readSides
  rcases h.split_eq with ⟨htext, hother⟩ | ⟨_, _, _, _, htext, hother, hcount, hsides⟩
  · rw [htext, hother]
  · rw [htext, hother]
    simp only [bind, Except.bind, hcount.read_eq, hsides.read_eq, ne_eq, hcount.nil_iff]

theorem cons_inv {c : Char} (h : Alike (c :: text) other) :
    (∃ rest, other = c :: rest ∧ Alike text rest) ∨
      ∃ piece behind, IsInert piece ∧ c :: text = piece ++ behind := by
  generalize hwhole : c :: text = whole at h
  cases h with
  | nil => cases hwhole
  | keep d h =>
      obtain ⟨rfl, rfl⟩ := List.cons.inj hwhole
      exact .inl ⟨_, rfl, h⟩
  | put hpiece hinstead h => exact .inr ⟨_, _, hpiece, rfl⟩

theorem middle_inv (h : Alike ('m' :: 'i' :: 'd' :: text) other) :
    ∃ rest, other = 'm' :: 'i' :: 'd' :: rest ∧ Alike text rest := by
  rcases h.cons_inv with ⟨first, rfl, hfirst⟩ | ⟨piece, behind, hpiece, hwhole⟩
  case inr =>
      obtain ⟨c, tail, rfl, -, hmark⟩ := hpiece.exists_cons
      obtain ⟨rfl, -⟩ := List.cons.inj hwhole
      exact absurd hmark (by decide)
  rcases hfirst.cons_inv with ⟨second, rfl, hsecond⟩ | ⟨piece, behind, hpiece, hwhole⟩
  case inr =>
      -- an inert piece that starts with `i` goes on, but not with `d`
      match piece, hpiece with
      | [], hpiece => exact absurd rfl hpiece.ne_nil
      | [c], hpiece =>
          obtain ⟨rfl, -⟩ := List.cons.inj hwhole
          exact absurd rfl hpiece.ne_letter
      | c :: d :: piece, hpiece =>
          obtain ⟨-, hwhole⟩ := List.cons.inj hwhole
          obtain ⟨rfl, -⟩ := List.cons.inj hwhole
          exact absurd (hpiece.not_mark 'd' (by simp)) (by decide)
  rcases hsecond.cons_inv with ⟨rest, rfl, hrest⟩ | ⟨piece, behind, hpiece, hwhole⟩
  case inr =>
      obtain ⟨c, tail, rfl, -, hmark⟩ := hpiece.exists_cons
      obtain ⟨rfl, -⟩ := List.cons.inj hwhole
      exact absurd hmark (by decide)
  exact ⟨rest, rfl, hrest⟩

end Alike

namespace Dice

def readLowered : List Char → Except DiceError Dice
  | 'm' :: 'i' :: 'd' :: rest => readMiddle rest
  | letters => readStandard letters

theorem read_eq_readLowered (text : String) :
    read text = readLowered (text.toList.map Char.toLower) :=
  rfl

theorem readLowered_eq {text other : List Char} (h : Alike text other) :
    readLowered text = readLowered other := by
  unfold readLowered
  split
  case h_1 rest =>
      obtain ⟨behind, rfl, hrest⟩ := h.middle_inv
      exact hrest.readMiddle_eq
  case h_2 hstandard =>
      split
      case h_1 rest =>
          obtain ⟨behind, rfl, -⟩ := h.symm.middle_inv
          exact absurd rfl (hstandard behind)
      case h_2 => exact h.readStandard_eq

/-- Dice are read as they are from a text that has been lower-cased in any way. -/
theorem readLowered_of_isLowered {text : String} {lowered : List Char}
    (h : IsLowered text.toList lowered) : readLowered lowered = read text := by
  rw [read_eq_readLowered, readLowered_eq h.alike]

end Dice

end DiceNotation
