import DiceNotation.Proofs.Lowering
import DiceNotation.Proofs.Numerals

/-!
# The text of dice

The texts that stand for dice are two numerals around a `d`, and the same behind a
`mid`, where the first numeral may be missing.  A text that stands for no dice has
no `d`, or it goes wrong in front of its first one, or it goes wrong behind it.
Dice are read back from the text that is written for them.
-/

namespace DiceNotation.Dice

/-- A `mid` in front, in any case, makes the text one of middle dice, which goes on behind it. -/
inductive Heads : List Char → Mode → List Char → Prop where
  | middle {letters : List Char} (h : letters.map Char.toLower = ['m', 'i', 'd'])
      (rest : List Char) : Heads (letters ++ rest) .middle rest
  | standard {text : List Char}
      (h : ∀ letters rest, text = letters ++ rest → letters.map Char.toLower ≠ ['m', 'i', 'd']) :
      Heads text .standard text

def IsMark (c : Char) : Prop := c = 'd' ∨ c = 'D'

instance (c : Char) : Decidable (IsMark c) := inferInstanceAs (Decidable (_ ∨ _))

/-- What stands in front of the first mark of a text, and what stands behind it. -/
inductive Parts : List Char → List Char → List Char → Prop where
  | intro {before behind : List Char} {mark : Char} (hmark : IsMark mark)
      (hbefore : ∀ c ∈ before, ¬IsMark c) : Parts (before ++ mark :: behind) before behind

def Counts : Mode → List Char → Int64 → Prop
  | .standard, text, count => Numeral.Denotes text count.toInt
  | .middle, text, count => text = [] ∨ Numeral.Denotes text count.toInt

def ofMode : Mode → Int64 → Int64 → Dice
  | .standard, count, sides => standard count sides
  | .middle, _, sides => middle sides

/-- What the texts around the mark come to: the first of them that is wrong is refused. -/
inductive Reads (mode : Mode) (before behind : List Char) : Except DiceError Dice → Prop where
  | invalidCount {cause : NumeralError} (hcount : ∀ count, ¬Counts mode before count)
      (hcause : Numeral.FirstProblem before cause) :
      Reads mode before behind (.error (.invalidCount cause))
  | invalidSides {count : Int64} {cause : NumeralError} (hcount : Counts mode before count)
      (hcause : Numeral.FirstProblem behind cause) :
      Reads mode before behind (.error (.invalidSides cause))
  | dice {count sides : Int64} (hcount : Counts mode before count)
      (hsides : Numeral.Denotes behind sides.toInt) :
      Reads mode before behind (.ok (ofMode mode count sides))

def SpellsStandard (text : List Char) (count sides : Int64) : Prop :=
  ∃ before mark behind, text = before ++ mark :: behind ∧ IsMark mark ∧
    Numeral.Denotes before count.toInt ∧ Numeral.Denotes behind sides.toInt

def SpellsMiddle (text : List Char) (sides : Int64) : Prop :=
  ∃ letters before mark behind, text = letters ++ (before ++ mark :: behind) ∧
    letters.map Char.toLower = ['m', 'i', 'd'] ∧ IsMark mark ∧
    (before = [] ∨ ∃ count : Int64, Numeral.Denotes before count.toInt) ∧
    Numeral.Denotes behind sides.toInt

theorem isMark_iff {c : Char} : IsMark c ↔ c.toLower = 'd' := by
  constructor
  · rintro (rfl | rfl) <;> rfl
  · intro h
    rcases toLower_eq_self_or_capital c with hself | ⟨n, hn, rfl⟩
    · exact .inl (hself.symm.trans h)
    · unfold IsMark
      revert n
      decide

theorem exists_heads (text : List Char) : ∃ mode rest, Heads text mode rest := by
  by_cases h : ∃ letters rest, text = letters ++ rest ∧ letters.map Char.toLower = ['m', 'i', 'd']
  case pos =>
      obtain ⟨letters, rest, rfl, hletters⟩ := h
      exact ⟨.middle, rest, .middle hletters rest⟩
  case neg =>
      refine ⟨.standard, text, .standard fun letters rest htext hletters => ?_⟩
      exact h ⟨letters, rest, htext, hletters⟩

theorem Heads.eq_of_standard {text rest : List Char} (h : Heads text .standard rest) :
    text = rest := by
  cases h
  rfl

theorem Heads.exists_of_middle {text rest : List Char} (h : Heads text .middle rest) :
    ∃ letters, text = letters ++ rest ∧ letters.map Char.toLower = ['m', 'i', 'd'] := by
  cases h with
  | middle hletters => exact ⟨_, rfl, hletters⟩

theorem exists_parts {rest : List Char} (h : ∃ c ∈ rest, IsMark c) :
    ∃ before behind, Parts rest before behind := by
  induction rest with
  | nil => simp at h
  | cons c rest ih =>
      by_cases hmark : IsMark c
      case pos => exact ⟨[], rest, Parts.intro hmark (List.forall_mem_nil _)⟩
      case neg =>
          obtain ⟨other, hother, hmarked⟩ := h
          rcases List.mem_cons.1 hother with rfl | hrest
          · exact absurd hmarked hmark
          · obtain ⟨before, behind, hparts⟩ := ih ⟨other, hrest, hmarked⟩
            cases hparts with
            | intro hfirst hbefore =>
                have hnone : ∀ other ∈ c :: before, ¬IsMark other :=
                  List.forall_mem_cons.2 ⟨hmark, hbefore⟩
                exact ⟨c :: before, behind, .intro hfirst hnone⟩

theorem Counts.of_denotes (mode : Mode) {text : List Char} {count : Int64}
    (h : Numeral.Denotes text count.toInt) : Counts mode text count := by
  cases mode with
  | standard => exact h
  | middle => exact .inr h

theorem exists_reads (mode : Mode) (before behind : List Char) :
    ∃ result, Reads mode before behind result := by
  by_cases hcount : ∃ count, Counts mode before count
  case pos =>
      obtain ⟨count, hcount⟩ := hcount
      rcases Numeral.denotes_or_firstProblem behind with ⟨sides, hsides⟩ | ⟨cause, hcause⟩
      · exact ⟨_, .dice hcount hsides⟩
      · exact ⟨_, .invalidSides hcount hcause⟩
  case neg =>
      have hnot := not_exists.1 hcount
      rcases Numeral.denotes_or_firstProblem before with ⟨count, hdenotes⟩ | ⟨cause, hcause⟩
      · exact absurd (.of_denotes mode hdenotes) (hnot count)
      · exact ⟨_, .invalidCount hnot hcause⟩

/-! ## Reading the parts -/

theorem not_mem_map_toLower {text : List Char} (h : ∀ c ∈ text, ¬IsMark c) :
    'd' ∉ text.map Char.toLower := by
  intro hd
  obtain ⟨c, hc, hlower⟩ := List.mem_map.1 hd
  exact h c hc (isMark_iff.2 hlower)

theorem split_of_parts {rest before behind : List Char} (h : Parts rest before behind) :
    split (rest.map Char.toLower) = .ok (before.map Char.toLower, behind.map Char.toLower) := by
  cases h with
  | intro hmark hbefore =>
      rw [List.map_append, List.map_cons, isMark_iff.1 hmark,
        split_append (not_mem_map_toLower hbefore)]
      simp [split, Except.map]

theorem split_of_no_mark {rest : List Char} (h : ∀ c ∈ rest, ¬IsMark c) :
    split (rest.map Char.toLower) = .error .noDelimiter := by
  have happend := split_append (not_mem_map_toLower h) []
  rwa [List.append_nil] at happend

def readIn : Mode → List Char → Except DiceError Dice
  | .standard => readStandard
  | .middle => readMiddle

theorem read_of_heads {text : String} {mode : Mode} {rest : List Char}
    (h : Heads text.toList mode rest) : read text = readIn mode (rest.map Char.toLower) := by
  unfold read
  generalize text.toList = whole at h
  cases h with
  | middle hletters =>
      rw [List.map_append, hletters]
      rfl
  | standard hstandard =>
      split
      case h_1 behind hmiddle =>
          obtain ⟨letters, others, htext, hletters, -⟩ := List.map_eq_append_iff.1
            (show rest.map Char.toLower = ['m', 'i', 'd'] ++ behind from hmiddle)
          exact absurd hletters (hstandard letters others htext)
      case h_2 => rfl

theorem read_of_no_mark {text : String} {mode : Mode} {rest : List Char}
    (h : Heads text.toList mode rest) (hrest : ∀ c ∈ rest, ¬IsMark c) :
    read text = .error .noDelimiter := by
  rw [read_of_heads h]
  cases mode with
  | standard => rw [readIn, readStandard, split_of_no_mark hrest]; rfl
  | middle => rw [readIn, readMiddle, split_of_no_mark hrest]; rfl

theorem readCount_toLower (text : List Char) :
    readCount (text.map Char.toLower) = readCount text :=
  congrArg (Except.mapError _) (Numeral.read_toLower text)

theorem readSides_toLower (text : List Char) :
    readSides (text.map Char.toLower) = readSides text :=
  congrArg (Except.mapError _) (Numeral.read_toLower text)

theorem readCount_eq_ok {text : List Char} {count : Int64}
    (h : Numeral.Denotes text count.toInt) : readCount text = .ok count :=
  congrArg (Except.mapError _) (Numeral.read_eq_ok_iff_denotes.2 h)

theorem readCount_eq_error {text : List Char} {cause : NumeralError}
    (h : Numeral.FirstProblem text cause) : readCount text = .error (.invalidCount cause) :=
  congrArg (Except.mapError _) (Numeral.read_eq_error_iff_firstProblem.2 h)

theorem readSides_eq_ok {text : List Char} {sides : Int64}
    (h : Numeral.Denotes text sides.toInt) : readSides text = .ok sides :=
  congrArg (Except.mapError _) (Numeral.read_eq_ok_iff_denotes.2 h)

theorem readSides_eq_error {text : List Char} {cause : NumeralError}
    (h : Numeral.FirstProblem text cause) : readSides text = .error (.invalidSides cause) :=
  congrArg (Except.mapError _) (Numeral.read_eq_error_iff_firstProblem.2 h)

section

variable {text : String} {mode : Mode} {rest before behind : List Char}
  (h : Heads text.toList mode rest) (hparts : Parts rest before behind)

include h hparts

theorem read_of_counts {count : Int64} (hcount : Counts mode before count) :
    read text = (readSides behind).map (ofMode mode count) := by
  rw [read_of_heads h]
  cases mode with
  | standard =>
      rw [readIn, readStandard, split_of_parts hparts]
      simp only [bind, Except.bind, readCount_toLower, readSides_toLower, readCount_eq_ok hcount]
      cases readSides behind <;> rfl
  | middle =>
      rw [readIn, readMiddle, split_of_parts hparts]
      rcases hcount with rfl | hcount
      · simp only [bind, Except.bind, readSides_toLower]
        cases readSides behind <;> rfl
      · simp only [bind, Except.bind, readCount_toLower, readSides_toLower,
          readCount_eq_ok hcount]
        cases readSides behind <;> split <;> rfl

theorem read_of_not_counts {cause : NumeralError} (hcount : ∀ count, ¬Counts mode before count)
    (hcause : Numeral.FirstProblem before cause) : read text = .error (.invalidCount cause) := by
  rw [read_of_heads h]
  cases mode with
  | standard =>
      rw [readIn, readStandard, split_of_parts hparts]
      simp only [bind, Except.bind, readCount_toLower, readCount_eq_error hcause]
  | middle =>
      rw [readIn, readMiddle, split_of_parts hparts]
      have hne : before.map Char.toLower ≠ [] :=
        fun hnil => hcount 0 (.inl (List.map_eq_nil_iff.1 hnil))
      simp only [bind, Except.bind, readCount_toLower, readCount_eq_error hcause, if_pos hne]

theorem read_eq_iff_reads {result : Except DiceError Dice} :
    read text = result ↔ Reads mode before behind result := by
  have hrules : ∀ result, Reads mode before behind result → read text = result := by
    intro result hreads
    cases hreads with
    | invalidCount hcount hcause => exact read_of_not_counts h hparts hcount hcause
    | invalidSides hcount hcause =>
        rw [read_of_counts h hparts hcount, readSides_eq_error hcause]
        rfl
    | dice hcount hsides =>
        rw [read_of_counts h hparts hcount, readSides_eq_ok hsides]
        rfl
  obtain ⟨other, hother⟩ := exists_reads mode before behind
  constructor
  · rintro rfl
    rwa [hrules other hother]
  · exact hrules result

end

theorem not_isMark_of_denotes {text : List Char} {value : Int} (h : Numeral.Denotes text value) :
    ∀ c ∈ text, ¬IsMark c := by
  rintro c hc (rfl | rfl)
  · exact absurd (h.isNumeric _ hc) (by decide)
  · exact absurd (h.isNumeric _ hc) (by decide)

theorem Heads.of_denotes {text : List Char} {value : Int} (h : Numeral.Denotes text value)
    (rest : List Char) : Heads (text ++ rest) .standard (text ++ rest) := by
  obtain ⟨c, behind, rfl⟩ := h.exists_cons
  have hc := h.isNumeric c List.mem_cons_self
  refine .standard fun letters others htext hletters => ?_
  cases letters with
  | nil => cases hletters
  | cons letter letters =>
      obtain ⟨rfl, -⟩ := List.cons.inj htext
      obtain ⟨hm, -⟩ := List.cons.inj hletters
      rcases hc with rfl | rfl | hdigit
      · exact absurd hm (by decide)
      · exact absurd hm (by decide)
      · rw [toLower_of_isDigit hdigit] at hm
        exact absurd (hm ▸ hdigit) (by decide)

theorem Parts.of_counts {mode : Mode} {before behind : List Char} {count : Int64} {mark : Char}
    (h : Counts mode before count) (hmark : IsMark mark) :
    Parts (before ++ mark :: behind) before behind := by
  refine .intro hmark ?_
  cases mode with
  | standard => exact not_isMark_of_denotes h
  | middle =>
      rcases h with rfl | h
      · simp
      · exact not_isMark_of_denotes h

theorem read_eq_ok_iff {text : String} {dice : Dice} :
    read text = .ok dice ↔ ∃ mode before mark behind count sides,
      Heads text.toList mode (before ++ mark :: behind) ∧ IsMark mark ∧
        Counts mode before count ∧ Numeral.Denotes behind sides.toInt ∧
          dice = ofMode mode count sides := by
  constructor
  · intro hread
    obtain ⟨mode, rest, hheads⟩ := exists_heads text.toList
    by_cases hrest : ∃ c ∈ rest, IsMark c
    case neg =>
        rw [read_of_no_mark hheads (by simpa using hrest)] at hread
        cases hread
    case pos =>
        obtain ⟨before, behind, hparts⟩ := exists_parts hrest
        have hreads := (read_eq_iff_reads hheads hparts).1 hread
        cases hparts with
        | intro hmark hbefore =>
            cases hreads with
            | dice hcount hsides =>
                exact ⟨mode, before, _, behind, _, _, hheads, hmark, hcount, hsides, rfl⟩
  · rintro ⟨mode, before, mark, behind, count, sides, hheads, hmark, hcount, hsides, rfl⟩
    exact (read_eq_iff_reads hheads (.of_counts hcount hmark)).2 (.dice hcount hsides)

theorem read_eq_standard_iff {text : String} {count sides : Int64} :
    read text = .ok (standard count sides) ↔ SpellsStandard text.toList count sides := by
  rw [read_eq_ok_iff]
  constructor
  · rintro ⟨mode, before, mark, behind, n, m, hheads, hmark, hcount, hsides, hdice⟩
    cases mode with
    | middle => cases hdice
    | standard =>
        cases hdice
        exact ⟨before, mark, behind, hheads.eq_of_standard, hmark, hcount, hsides⟩
  · rintro ⟨before, mark, behind, htext, hmark, hcount, hsides⟩
    have hheads : Heads text.toList .standard (before ++ mark :: behind) := by
      rw [htext]
      exact .of_denotes hcount _
    exact ⟨.standard, before, mark, behind, count, sides, hheads, hmark, hcount, hsides, rfl⟩

theorem read_eq_middle_iff {text : String} {sides : Int64} :
    read text = .ok (middle sides) ↔ SpellsMiddle text.toList sides := by
  rw [read_eq_ok_iff]
  constructor
  · rintro ⟨mode, before, mark, behind, n, m, hheads, hmark, hcount, hsides, hdice⟩
    cases mode with
    | standard => cases hdice
    | middle =>
        cases hdice
        obtain ⟨letters, htext, hletters⟩ := hheads.exists_of_middle
        have hnumeral : before = [] ∨ ∃ count : Int64, Numeral.Denotes before count.toInt :=
          Or.imp_right (fun h => ⟨n, h⟩) (show before = [] ∨ _ from hcount)
        exact ⟨letters, before, mark, behind, htext, hletters, hmark, hnumeral, hsides⟩
  · rintro ⟨letters, before, mark, behind, htext, hletters, hmark, hnumeral, hsides⟩
    have hheads := Heads.middle hletters (before ++ mark :: behind)
    rw [← htext] at hheads
    have hcounts : ∃ count, Counts .middle before count := by
      rcases hnumeral with hnil | ⟨count, hcount⟩
      · exact ⟨0, .inl hnil⟩
      · exact ⟨count, .inr hcount⟩
    obtain ⟨count, hcount⟩ := hcounts
    exact ⟨.middle, before, mark, behind, count, sides, hheads, hmark, hcount, hsides, rfl⟩

theorem read_eq_noDelimiter_iff {text : String} {mode : Mode} {rest : List Char}
    (h : Heads text.toList mode rest) :
    read text = .error .noDelimiter ↔ ∀ c ∈ rest, ¬IsMark c := by
  constructor
  · intro hread c hc hmark
    obtain ⟨before, behind, hparts⟩ := exists_parts ⟨c, hc, hmark⟩
    cases (read_eq_iff_reads h hparts).1 hread
  · exact read_of_no_mark h

section

variable {text : String} {mode : Mode} {rest before behind : List Char}
  (h : Heads text.toList mode rest) (hparts : Parts rest before behind)

include h hparts

theorem read_eq_invalidCount_iff {cause : NumeralError} :
    read text = .error (.invalidCount cause) ↔
      (∀ count, ¬Counts mode before count) ∧ Numeral.FirstProblem before cause := by
  rw [read_eq_iff_reads h hparts]
  constructor
  · intro hreads
    cases hreads with
    | invalidCount hcount hcause => exact ⟨hcount, hcause⟩
  · rintro ⟨hcount, hcause⟩
    exact .invalidCount hcount hcause

theorem read_eq_invalidSides_iff {cause : NumeralError} :
    read text = .error (.invalidSides cause) ↔
      (∃ count, Counts mode before count) ∧ Numeral.FirstProblem behind cause := by
  rw [read_eq_iff_reads h hparts]
  constructor
  · intro hreads
    cases hreads with
    | invalidSides hcount hcause => exact ⟨⟨_, hcount⟩, hcause⟩
  · rintro ⟨⟨count, hcount⟩, hcause⟩
    exact .invalidSides hcount hcause

end

/--
Standard dice are read from two numerals around a mark, and middle dice from a
`mid`, a mark and the number of sides, with a numeral between the former or none.
No text stands for both.  Of all other texts, those without a mark have no
delimiter, and those with one are refused for the first problem of what stands in
front of the first mark, or else of what stands behind it.  Lower-casing in the
sense of Unicode makes no difference.
-/
theorem read_exactly_dice_texts (text : String) :
    (∀ count sides,
      read text = .ok (standard count sides) ↔ SpellsStandard text.toList count sides) ∧
    (∀ sides, read text = .ok (middle sides) ↔ SpellsMiddle text.toList sides) ∧
    (∀ dice, read text = .ok dice → ∃ mode count sides, dice = ofMode mode count sides) ∧
    (∀ count sides others,
      ¬(SpellsStandard text.toList count sides ∧ SpellsMiddle text.toList others)) ∧
    (∃ mode rest, Heads text.toList mode rest) ∧
    (∀ mode rest, Heads text.toList mode rest →
      (read text = .error .noDelimiter ↔ ∀ c ∈ rest, ¬IsMark c) ∧
      ∀ before behind, Parts rest before behind → ∀ cause,
        (read text = .error (.invalidCount cause) ↔
          (∀ count, ¬Counts mode before count) ∧ Numeral.FirstProblem before cause) ∧
        (read text = .error (.invalidSides cause) ↔
          (∃ count, Counts mode before count) ∧ Numeral.FirstProblem behind cause)) ∧
    ∀ lowered, IsLowered text.toList lowered → readLowered lowered = read text := by
  refine ⟨fun _ _ => read_eq_standard_iff, fun _ => read_eq_middle_iff, ?_, ?_,
    exists_heads text.toList, ?_, fun lowered => readLowered_of_isLowered⟩
  · intro dice hread
    obtain ⟨mode, -, -, -, count, sides, -, -, -, -, hdice⟩ := read_eq_ok_iff.1 hread
    exact ⟨mode, count, sides, hdice⟩
  · rintro count sides others ⟨hstandard, hmiddle⟩
    have hread := (read_eq_standard_iff.2 hstandard).symm.trans (read_eq_middle_iff.2 hmiddle)
    cases hread
  · intro mode rest hheads
    refine ⟨read_eq_noDelimiter_iff hheads, fun before behind hparts cause => ?_⟩
    exact ⟨read_eq_invalidCount_iff hheads hparts, read_eq_invalidSides_iff hheads hparts⟩

theorem read_exactly_dice_texts_misspelt :
    read "Mid-7Dx" = .error (.invalidSides .invalidDigit) ∧
      readLowered ['m', 'i', 'd', '-', '7', 'd', 'x'] = read "Mid-7Dx" := by
  obtain ⟨-, -, -, -, -, herrors, hlower⟩ := read_exactly_dice_texts "Mid-7Dx"
  have hheads : Heads "Mid-7Dx".toList .middle ['-', '7', 'D', 'x'] :=
    .middle (show ['M', 'i', 'd'].map Char.toLower = _ from rfl) _
  have hparts : Parts (['-', '7'] ++ 'D' :: ['x']) ['-', '7'] ['x'] :=
    .intro (.inr rfl) (by simp [IsMark])
  have hcount : Counts .middle ['-', '7'] (-7) :=
    .of_denotes .middle (Numeral.read_eq_ok_iff_denotes.1 rfl)
  have hproblem : Numeral.FirstProblem ['x'] .invalidDigit :=
    Numeral.read_eq_error_iff_firstProblem.1 rfl
  have hlowered : IsLowered "Mid-7Dx".toList ['m', 'i', 'd', '-', '7', 'd', 'x'] :=
    .letter 'M' (.letter 'i' (.letter 'd' (.letter '-' (.letter '7' (.letter 'D'
      (.letter 'x' .nil))))))
  have hsides := ((herrors _ _ hheads).2 _ _ hparts .invalidDigit).2
  exact ⟨hsides.2 ⟨⟨-7, hcount⟩, hproblem⟩, hlower _ hlowered⟩

/-! ## Texts that are written -/

theorem spellsStandard_text (count sides : Int64) :
    SpellsStandard (text ⟨.standard, count, sides⟩).toList count sides := by
  refine ⟨_, 'd', _, ?_, .inl rfl, Numeral.denotes_write count, Numeral.denotes_write sides⟩
  simp [text]

theorem spellsMiddle_text (count sides : Int64) :
    SpellsMiddle (text ⟨.middle, count, sides⟩).toList sides := by
  refine ⟨['m', 'i', 'd'], _, 'd', _, ?_, rfl, .inl rfl, .inr ⟨count, Numeral.denotes_write count⟩,
    Numeral.denotes_write sides⟩
  simp [text]

/--
The text of dice stands for these dice, but that three dice are always thrown of
middle dice, whatever the count is.  Dice that have been read stay the same if
their text is read.
-/
theorem dice_text_reads_back :
    (∀ count sides, read (text ⟨.standard, count, sides⟩) = .ok (standard count sides) ∧
      read (text ⟨.middle, count, sides⟩) = .ok (middle sides)) ∧
    (∀ count sides, read (standard count sides).text = .ok (standard count sides) ∧
      read (middle sides).text = .ok (middle sides)) ∧
    ∀ (line : String) (dice : Dice), read line = .ok dice → read dice.text = .ok dice := by
  have hmodes : ∀ count sides, read (text ⟨.standard, count, sides⟩) = .ok (standard count sides) ∧
      read (text ⟨.middle, count, sides⟩) = .ok (middle sides) := by
    intro count sides
    exact ⟨read_eq_standard_iff.2 (spellsStandard_text count sides),
      read_eq_middle_iff.2 (spellsMiddle_text count sides)⟩
  refine ⟨hmodes, fun count sides => ⟨(hmodes count sides).1, (hmodes 3 sides).2⟩, ?_⟩
  intro line dice hread
  obtain ⟨mode, -, -, -, count, sides, -, -, -, -, rfl⟩ := read_eq_ok_iff.1 hread
  cases mode with
  | standard => exact (hmodes count sides).1
  | middle => exact (hmodes 3 sides).2

theorem dice_text_reads_back_middle :
    read "MID+07d-0" = .ok (middle 0) ∧ read (middle 0).text = .ok (middle 0) := by
  have hread : read "MID+07d-0" = .ok (middle 0) := rfl
  exact ⟨hread, dice_text_reads_back.2.2 _ _ hread⟩

end DiceNotation.Dice
