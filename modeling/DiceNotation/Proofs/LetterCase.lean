import DiceNotation.Proofs.Failing
import DiceNotation.Proofs.Lowering
import DiceNotation.Proofs.Viability

/-!
# Letter case does not matter

Everything that is done to a text, from cutting it into tokens to rolling it, can
be done to the text in small letters instead, and comes to the same but for the
case of the letters that are carried along.
-/

namespace DiceNotation

namespace Lexeme

def lower (lexeme : Lexeme) : Lexeme where
  kind := lexeme.kind
  taken := lexeme.taken.map Char.toLower
  rest := lexeme.rest.map Char.toLower

theorem sides?_toLower (text : List Char) :
    sides? (text.map Char.toLower) =
      (sides? text).map (Prod.map (List.map Char.toLower) (List.map Char.toLower)) := by
  unfold sides?
  rcases text with _ | ⟨mark, _ | ⟨digit, rest⟩⟩
  · rfl
  · rfl
  · simp only [List.map_cons, toLower_toLower, isDigit_toLower, takeWhile_isDigit_toLower,
      dropWhile_isDigit_toLower]
    split <;> rfl

theorem counted_toLower (otherwise : TokenKind) (start text : List Char) :
    counted otherwise (start.map Char.toLower) (text.map Char.toLower) =
      (counted otherwise start text).lower := by
  simp only [counted, takeWhile_isDigit_toLower, dropWhile_isDigit_toLower, sides?_toLower]
  rcases sides? (text.dropWhile Char.isDigit) with _ | ⟨sides, rest⟩ <;> simp [lower]

theorem middle?_toLower (text : List Char) :
    middle? (text.map Char.toLower) =
      (middle? text).map (Prod.map (List.map Char.toLower) (List.map Char.toLower)) := by
  unfold middle?
  rcases text with _ | ⟨m, _ | ⟨i, _ | ⟨d, rest⟩⟩⟩
  · rfl
  · rfl
  · rfl
  · simp only [List.map_cons, toLower_toLower]
    split <;> rfl

theorem single_toLower (c : Char) : single c.toLower = single c :=
  toLower_keeps single (by decide) c

theorem first_toLower (c : Char) (text : List Char) :
    first c.toLower (text.map Char.toLower) = (first c text).lower := by
  have hmiddle := middle?_toLower (c :: text)
  rw [List.map_cons] at hmiddle
  simp only [first, isDigit_toLower, hmiddle, single_toLower]
  split
  case isTrue => exact counted_toLower .integer [] (c :: text)
  case isFalse =>
      rcases middle? (c :: text) with _ | ⟨letters, rest⟩
      · rfl
      · exact counted_toLower .unknown letters rest

end Lexeme

def Word.lower (word : Word) : Word := { word with text := word.text.toLower }

namespace Token

def lower (token : Token) : Token := { token with text := token.text.toLower }

theorem stop_lower (token : Token) : token.lower.stop = token.stop :=
  congrArg (token.start + ·) (utf8ByteSize_toLower token.text)

def place (token : Token) : TokenKind × Nat × Nat := (token.kind, token.start, token.stop)

theorem place_lower (token : Token) : token.lower.place = token.place := by
  rw [place, stop_lower]
  rfl

theorem scanFrom_toLower (start : Nat) (text : List Char) :
    scanFrom start (text.map Char.toLower) = (scanFrom start text).map lower := by
  fun_induction scanFrom start text with
  | case1 start => rw [List.map_nil, scanFrom, List.map_nil]
  | case2 start c text hblank ih =>
      rw [List.map_cons, scanFrom, isWhitespace_toLower, if_pos hblank, utf8Size_toLower, ih]
  | case3 start c text hblank lexeme token ih =>
      have hfirst : Lexeme.first c.toLower (text.map Char.toLower) = lexeme.lower :=
        Lexeme.first_toLower c text
      have htoken : (⟨lexeme.kind, start, String.ofList (lexeme.taken.map Char.toLower)⟩ : Token) =
          token.lower := by
        rw [lower, ofList_toLower]
      rw [List.map_cons, scanFrom, isWhitespace_toLower, if_neg hblank, hfirst, List.map_cons]
      simp only [Lexeme.lower, htoken, stop_lower, ih]

theorem scan_toLower (text : String) : scan text.toLower = (scan text).map lower := by
  rw [scan, toList_toLower, scanFrom_toLower, scan]

theorem places_toLower (text : String) :
    (scan text.toLower).map place = (scan text).map place := by
  rw [scan_toLower, List.map_map]
  exact List.map_congr_left fun token _ => place_lower token

end Token

def Tree.lower {level : Level} (tree : Tree level) : Tree level := tree.mapDice String.toLower

namespace Pending

def lowerLeft {level : Level} (left? : Option (Tree level × Operator)) :
    Option (Tree level × Operator) :=
  left?.map (Prod.map Tree.lower id)

def lower (pending : Pending) : Pending :=
  ⟨lowerLeft pending.sum?, lowerLeft pending.product?⟩

theorem joinProduct_lower (product? : Option (Term × Operator)) (atom : Atom) :
    joinProduct (lowerLeft product?) atom.lower = (joinProduct product? atom).lower := by
  rcases product? with _ | ⟨left, op⟩ <;> rfl

theorem joinSum_lower (sum? : Option (Expression × Operator)) (term : Term) :
    joinSum (lowerLeft sum?) term.lower = (joinSum sum? term).lower := by
  rcases sum? with _ | ⟨left, op⟩ <;> rfl

end Pending

def ReadError.lower (error : ReadError) : ReadError := { error with slice := error.slice.toLower }

namespace Reader

def lower : Reader → Reader
  | .operand pending outer => .operand pending.lower (outer.map Pending.lower)
  | .operator sum? term outer =>
      .operator (Pending.lowerLeft sum?) term.lower (outer.map Pending.lower)

theorem afterAtom_lower (pending : Pending) (atom : Atom) (outer : List Pending) :
    afterAtom pending.lower atom.lower (outer.map Pending.lower) =
      (afterAtom pending atom outer).lower := by
  simp only [afterAtom, lower, Pending.lower, Pending.joinProduct_lower]

theorem step_lower {reader : Reader} {word : Word} (hword : word.IsWritten) :
    reader.lower.step word.lower = (reader.step word).map lower := by
  obtain ⟨kind, text⟩ := word
  cases reader with
  | operand pending outer =>
      cases kind with
      | integer =>
          have hdigits : ∀ c ∈ text.toList, c.isDigit := by
            cases hword (by simp) with
            | integer hdigits => exact hdigits.2
          have hread : Numeral.read text.toLower.toList = Numeral.read text.toList := by
            rw [toList_toLower, map_toLower_digits hdigits]
          simp only [lower, step, Word.lower, hread]
          cases Numeral.read text.toList with
          | ok value => exact congrArg Except.ok (afterAtom_lower pending (.int value) outer)
          | error cause => rfl
      | dice => exact congrArg Except.ok (afterAtom_lower pending (.dice text) outer)
      | leftParen => rfl
      | _ => rfl
  | operator sum? term outer =>
      simp only [lower, step, Word.lower]
      cases kind.operator? with
      | some op =>
          simp only
          split
          · rfl
          · simp only [Pending.joinSum_lower]
            rfl
      | none =>
          cases outer with
          | nil => rfl
          | cons pending outer =>
              simp only [List.map_cons]
              split
              · simp only [Pending.joinSum_lower]
                exact congrArg Except.ok
                  (afterAtom_lower pending (.group (Pending.joinSum sum? term)) outer)
              · rfl

theorem finish_lower (reader : Reader) : reader.lower.finish = reader.finish.map Tree.lower := by
  rcases reader with _ | ⟨sum?, term, _ | _⟩
  · rfl
  · exact congrArg Except.ok (Pending.joinSum_lower sum? term)
  · rfl

theorem run_lower {stop : Nat} {reader : Reader} {tokens : List Token}
    (h : ∀ token ∈ tokens, token.word.IsWritten) :
    reader.lower.run stop (tokens.map Token.lower) =
      ((reader.run stop tokens).map Tree.lower).mapError ReadError.lower := by
  induction tokens generalizing reader with
  | nil =>
      simp only [List.map_nil, run, finish_lower]
      cases reader.finish with
      | ok tree => rfl
      | error problem => simp [Except.map, Except.mapError, ReadError.lower]
  | cons token tokens ih =>
      obtain ⟨hword, hwords⟩ := List.forall_mem_cons.1 h
      have hstep : reader.lower.step token.lower.word = (reader.step token.word).map lower :=
        step_lower hword
      simp only [List.map_cons, run, hstep]
      cases reader.step token.word with
      | ok next => exact ih hwords
      | error problem =>
          rw [Token.stop_lower]
          rfl

end Reader

theorem read_toLower (text : String) :
    Expression.read text.toLower =
      ((Expression.read text).map Tree.lower).mapError ReadError.lower := by
  rw [Expression.read, Token.scan_toLower, utf8ByteSize_toLower]
  exact @Reader.run_lower _ .start _ fun token => Token.isWritten_of_mem_scan

/-! ## Rolling -/

theorem Dice.read_toLower (text : String) : Dice.read text.toLower = Dice.read text := by
  have hmap : text.toLower.toList.map Char.toLower = text.toList.map Char.toLower := by
    rw [toList_toLower, List.map_map]
    exact List.map_congr_left fun c _ => toLower_toLower c
  rw [read, hmap, read]

def RollError.lower : RollError → RollError
  | .invalidDice text cause => .invalidDice text.toLower cause
  | error => error

variable {σ : Type} [Source σ]

theorem RollError.lower_eq_of_isGeneral (error : RollError) (h : error.IsGeneral) :
    error.lower = error := by
  cases error <;> first | rfl | cases h

namespace Roll

def LowersTo {α : Type} (roll other : Roll σ α) : Prop :=
  ∀ play, other.outcome play =
    ((roll.outcome play).1.mapError RollError.lower, (roll.outcome play).2)

theorem LowersTo.bind {α β : Type} {roll other : Roll σ α} {next after : α → Roll σ β}
    (h : roll.LowersTo other) (hnext : ∀ value, (next value).LowersTo (after value)) :
    (roll >>= next).LowersTo (other >>= after) := by
  intro play
  have hother := h play
  rcases hroll : roll.outcome play with ⟨error | value, behind⟩
  · rw [hroll] at hother
    rw [outcome_bind_of_error hroll, outcome_bind_of_error hother]
    rfl
  · rw [hroll] at hother
    rw [outcome_bind_of_ok hroll, outcome_bind_of_ok hother, hnext value behind]

theorem LowersTo.of_failsOnlyBy {α : Type} {roll : Roll σ α}
    (h : roll.FailsOnlyBy fun error => error.lower = error) : roll.LowersTo roll := by
  intro play
  rcases hroll : roll.outcome play with ⟨error | value, behind⟩
  · have herror : error.lower = error := h.of_outcome (congrArg Prod.fst hroll)
    rw [Except.mapError, herror]
  · rfl

theorem check_lowersTo : (check : Roll σ Unit).LowersTo check :=
  .of_failsOnlyBy ⟨rfl, trivial⟩

theorem leaf_lowersTo (text : String) :
    (leaf text : Roll σ Int64).LowersTo (leaf text.toLower) := by
  refine check_lowersTo.bind fun _ => LowersTo.bind (fun play => ?_) fun dice => ?_
  · rw [outcome_ofExcept, outcome_ofExcept, Dice.ofLeaf, Dice.ofLeaf, Dice.read_toLower]
    cases Dice.read text <;> rfl
  · exact .of_failsOnlyBy (Dice.roll_failsOnlyBy RollError.lower_eq_of_isGeneral
      (fun _ => rfl) fun _ _ => rfl)

theorem operand_lowersTo {roll other : Roll σ Int64} (h : roll.LowersTo other) (total : Int64)
    (op : Operator) : (operand total op roll).LowersTo (operand total op other) := by
  refine check_lowersTo.bind fun _ => h.bind fun value => .of_failsOnlyBy ?_
  exact failsOnlyBy_ofExcept fun _ => Operator.apply_error RollError.lower_eq_of_isGeneral

end Roll

theorem Tree.roll_lowersTo {level : Level} (tree : Tree level) :
    (tree.roll : Roll σ Int64).LowersTo tree.lower.roll := by
  induction tree with
  | int value => exact fun play => rfl
  | dice text => exact Roll.leaf_lowersTo text
  | group inner ih => exact ih
  | ofAtom atom ih => exact Roll.check_lowersTo.bind fun _ => ih
  | ofTerm term ih => exact Roll.check_lowersTo.bind fun _ => ih
  | times left op right ihl ihr => exact ihl.bind fun total => Roll.operand_lowersTo ihr total op
  | plus left op right ihl ihr => exact ihl.bind fun total => Roll.operand_lowersTo ihr total op

def Failure.lower : Failure → Failure
  | .reading error => .reading error.lower
  | .rolling error => .rolling error.lower

def TextPlay.lower (play : TextPlay σ) : TextPlay σ :=
  { play with tree? := play.tree?.map Tree.lower }

theorem rollText_toLower (text : String) (table : Table σ) :
    rollText text.toLower table =
      ((rollText text table).1.mapError Failure.lower, (rollText text table).2.lower) := by
  have hlower := read_toLower text
  cases hread : Expression.read text with
  | error error =>
      rw [hread] at hlower
      rw [rollText_of_unread hread, rollText_of_unread hlower]
      rfl
  | ok tree =>
      rw [hread] at hlower
      have htree := tree.roll_lowersTo (⟨table, #[]⟩ : Play σ)
      rw [rollText_of_read hread, rollText_of_read hlower, Roll.outcomeAt, htree, Roll.outcomeAt]
      cases (tree.roll.outcome ⟨table, #[]⟩).1 <;> rfl

/-- What a failure shows of a text stands in the text, in its own letters. -/
def Failure.IsOfText (text : String) : Failure → Prop
  | .reading error => error.IsSliceOf text
  | .rolling error => error.IsOfWords ((Token.scan text).map Token.word)

theorem Failure.isOfText_of_rollText {text : String} {table : Table σ} {failure : Failure}
    (h : (rollText text table).1 = .error failure) : failure.IsOfText text := by
  cases failure with
  | reading error =>
      cases hread : Expression.read text with
      | error other =>
          rw [rollText_of_unread hread] at h
          cases h
          obtain ⟨k, hat, -⟩ := exists_isAt_of_read_error hread
          exact hat.isSliceOf
      | ok tree =>
          rw [rollText_of_read hread] at h
          obtain ⟨cause, -, hcause⟩ := mapError_eq_error_iff.1 h
          cases hcause
  | rolling error =>
      obtain ⟨tree, hread, hfail⟩ := exists_tree_of_rollText h
      exact tree.isOfWords_of_roll hread hfail

theorem Tree.mem_leaves_of_invalidDice {level : Level} {tree : Tree level} {play : Play σ}
    {text : String} {cause : DiceError}
    (h : (tree.roll.outcome play).1 = .error (.invalidDice text cause)) : text ∈ tree.leaves := by
  have hroll : (tree.roll : Roll σ Int64).FailsOnlyBy fun error =>
      ∀ text cause, error = .invalidDice text cause → text ∈ tree.leaves := by
    refine tree.roll_failsOnlyBy (fun error hgeneral => ?_) fun dice hdice error herror => ?_
    · rintro text cause rfl
      cases hgeneral
    · rintro text cause rfl
      cases herror with
      | unread hread => exact hdice
  exact hroll.of_outcome h text cause rfl

/-! ## Two texts -/

def SameLetters (text other : String) : Prop := text.toLower = other.toLower

theorem sameLetters_iff {text other : String} :
    SameLetters text other ↔
      text.toList.map Char.toLower = other.toList.map Char.toLower := by
  rw [SameLetters, ← String.toList_inj, toList_toLower, toList_toLower]

instance (text other : String) : Decidable (SameLetters text other) :=
  decidable_of_iff' _ sameLetters_iff

/-- Both succeed or both fail, and what `value` and `cause` keep of them is the same. -/
inductive SameUpTo {ε α ζ β : Type} (value : α → β) (cause : ε → ζ) :
    Except ε α → Except ε α → Prop where
  | ok {first second : α} (h : value first = value second) :
      SameUpTo value cause (.ok first) (.ok second)
  | error {first second : ε} (h : cause first = cause second) :
      SameUpTo value cause (.error first) (.error second)

theorem sameUpTo_of_map {ε α ζ β : Type} {value : α → β} {cause : ε → ζ}
    {first second : Except ε α}
    (h : (first.map value).mapError cause = (second.map value).mapError cause) :
    SameUpTo value cause first second := by
  cases first with
  | ok a =>
      cases second with
      | ok b => exact .ok (Except.ok.inj h)
      | error e => cases h
  | error d =>
      cases second with
      | ok b => cases h
      | error e => exact .error (Except.error.inj h)

theorem SameLetters.sameUpTo_read {text other : String} (h : SameLetters text other) :
    SameUpTo Tree.lower ReadError.lower (Expression.read text) (Expression.read other) := by
  refine sameUpTo_of_map ?_
  rw [← read_toLower, ← read_toLower, h]

theorem sameUpTo_of_lower {ε α γ : Type} {lower : ε → ε} {first second : Except ε α}
    {play other : γ} (h : (first.mapError lower, play) = (second.mapError lower, other)) :
    play = other ∧ SameUpTo id lower first second := by
  obtain ⟨hresult, hplay⟩ := Prod.mk.inj h
  refine ⟨hplay, sameUpTo_of_map ?_⟩
  rw [Except.map_id]
  exact hresult

/--
Two texts that differ in the case of letters only have tokens of the same kinds at
the same places, and are read and rolled alike: as trees that differ in the case of
letters only, with the same total, table and events, or with errors that differ in
the case of letters only and show the letters of their own text.  The same holds for
trees, whatever texts stand for their dice, and dice are read alike also if other
characters are lower-cased along with them.
-/
theorem letter_case_does_not_matter {σ : Type} [Source σ] :
    (∀ text other : String, SameLetters text other →
      (Token.scan text).map Token.place = (Token.scan other).map Token.place ∧
      SameUpTo Tree.lower ReadError.lower (Expression.read text) (Expression.read other) ∧
      ∀ table : Table σ, (rollText text table).2.toPlay = (rollText other table).2.toPlay ∧
        (rollText text table).2.tree?.map Tree.lower =
          (rollText other table).2.tree?.map Tree.lower ∧
        SameUpTo id Failure.lower (rollText text table).1 (rollText other table).1 ∧
        ∀ failure, (rollText text table).1 = .error failure → failure.IsOfText text) ∧
    (∀ {level : Level} (tree other : Tree level), tree.lower = other.lower →
      ∀ play : Play σ, (tree.roll.outcome play).2 = (other.roll.outcome play).2 ∧
        SameUpTo id RollError.lower (tree.roll.outcome play).1 (other.roll.outcome play).1 ∧
        ∀ text cause, (tree.roll.outcome play).1 = .error (.invalidDice text cause) →
          text ∈ tree.leaves) ∧
    ∀ text other : String, SameLetters text other →
      Dice.read text = Dice.read other ∧
        ∀ lowered, IsLowered text.toList lowered → Dice.readLowered lowered = Dice.read other := by
  refine ⟨?_, ?_, ?_⟩
  · intro text other h
    refine ⟨?_, h.sameUpTo_read, fun table => ?_⟩
    · rw [← Token.places_toLower, ← Token.places_toLower other, h]
    · obtain ⟨hplay, hresult⟩ :
          (rollText text table).2.lower = (rollText other table).2.lower ∧
            SameUpTo id Failure.lower (rollText text table).1 (rollText other table).1 := by
        refine sameUpTo_of_lower ?_
        rw [← rollText_toLower, ← rollText_toLower, h]
      have hevents := congrArg TextPlay.toPlay hplay
      have htree := congrArg TextPlay.tree? hplay
      exact ⟨hevents, htree, hresult, fun failure => Failure.isOfText_of_rollText⟩
  · intro level tree other h play
    obtain ⟨hplay, hresult⟩ : (tree.roll.outcome play).2 = (other.roll.outcome play).2 ∧
        SameUpTo id RollError.lower (tree.roll.outcome play).1 (other.roll.outcome play).1 := by
      refine sameUpTo_of_lower ?_
      rw [← tree.roll_lowersTo, ← other.roll_lowersTo, h]
    exact ⟨hplay, hresult, fun text cause => Tree.mem_leaves_of_invalidDice⟩
  · intro text other h
    have hread : Dice.read text = Dice.read other := by
      rw [← Dice.read_toLower, ← Dice.read_toLower other, h]
    exact ⟨hread, fun lowered hlowered => (Dice.readLowered_of_isLowered hlowered).trans hread⟩

private def stepping : Table Counting := .fresh none ⟨3, 1⟩

/-- Texts that cannot be read from the letter `x` on, and dice with a dot above the capital `I`. -/
theorem letter_case_does_not_matter_middle :
    SameUpTo id Failure.lower (rollText "Mid7D6 - x" stepping).1
        (rollText "mID7d6 - X" stepping).1 ∧
      (∀ failure, (rollText "Mid7D6 - x" stepping).1 = .error failure →
        failure.IsOfText "Mid7D6 - x") ∧
      SameUpTo id RollError.lower ((Tree.dice "mİ3D6").roll.outcome ⟨stepping, #[]⟩).1
        ((Tree.dice "Mİ3d6").roll.outcome ⟨stepping, #[]⟩).1 ∧
      Dice.readLowered ['m', 'i', '\u0307', '3', 'd', '6'] = Dice.read "Mİ3d6" := by
  have hclaim := letter_case_does_not_matter (σ := Counting)
  have hwords : SameLetters "Mid7D6 - x" "mID7d6 - X" := by decide
  have hleaves : SameLetters "mİ3D6" "Mİ3d6" := by decide
  have hdotted : IsInert ['i', '\u0307'] := ⟨by simp, by simp,
    List.forall_mem_cons.2 ⟨rfl, List.forall_mem_singleton.2 rfl⟩,
    List.forall_mem_cons.2 ⟨by decide, List.forall_mem_singleton.2 (by decide)⟩⟩
  have hlowered : IsLowered "mİ3D6".toList ['m', 'i', '\u0307', '3', 'd', '6'] :=
    .letter 'm' (.other (by decide) hdotted (.letter '3' (.letter 'D' (.letter '6' .nil))))
  have htexts := (hclaim.1 _ _ hwords).2.2 stepping
  have htrees := hclaim.2.1 (.dice "mİ3D6") (.dice "Mİ3d6") (congrArg Tree.dice hleaves)
    ⟨stepping, #[]⟩
  exact ⟨htexts.2.2.1, htexts.2.2.2, htrees.2.1, (hclaim.2.2 _ _ hleaves).2 _ hlowered⟩

end DiceNotation
