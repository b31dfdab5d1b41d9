import ObjectQuery.Proofs.Text.Words
import ObjectQuery.Proofs.Token.Lossless

/-!
Contract: the letter case of words does not show in how a text is cut into tokens.

No test that cuts a text tells a capital from its small letter, so where the pieces of a text end
does not depend on the case of its letters. A text whose words are written in other cases has the
same tokens, but for the letters in its words.

Owns:
- `firstPiece_toLower`, and the tests of characters that see no case;
- `Recased`, a text with other letter cases in its words and nowhere else, which can be decided;
- `Token.lowered`, and `scanFrom_recased`.

Does not own: what tokens mean.
-/

namespace ObjectQuery

variable {c : Char} {text text' piece' rest' : List Char} {kind : TokenKind}

/-! ### Characters -/

/-- The capitals. -/
def capitals : List Char :=
  (List.range' 65 26).map Char.ofNat

theorem mem_capitals_of_isUpper (upper : c.isUpper = true) : c ∈ capitals := by
  simp only [Char.isUpper, decide_eq_true_eq, ge_iff_le, UInt32.le_iff_toNat_le] at upper
  have range : c.toNat ∈ List.range' 65 26 := by
    rw [List.mem_range'_1]
    exact ⟨upper.1, Nat.lt_succ_of_le upper.2⟩
  exact List.mem_map.mpr ⟨c.toNat, range, Char.ofNat_toNat c⟩

/-- What takes capitals and small letters alike takes any character like its small letter. -/
theorem apply_toLower
    {β : Type}
    [DecidableEq β]
    (test : Char → β)
    (same : capitals.all fun c => test c.toLower = test c)
    (c : Char) :
    test c.toLower = test c := by
  by_cases upper : c.isUpper = true
  · exact of_decide_eq_true (List.all_eq_true.mp same c (mem_capitals_of_isUpper upper))
  · rw [Char.toLower_eq_of_not_isUpper upper]

theorem isTokenBlank_toLower (c : Char) : isTokenBlank c.toLower = isTokenBlank c :=
  apply_toLower isTokenBlank (by decide) c

theorem isNumberPart_toLower (c : Char) : isNumberPart c.toLower = isNumberPart c :=
  apply_toLower isNumberPart (by decide) c

theorem isWordStart_toLower (c : Char) : isWordStart c.toLower = isWordStart c :=
  apply_toLower isWordStart (by decide) c

theorem isWordPart_toLower (c : Char) : isWordPart c.toLower = isWordPart c :=
  apply_toLower isWordPart (by decide) c

theorem utf8Size_toLower (c : Char) : c.toLower.utf8Size = c.utf8Size :=
  apply_toLower Char.utf8Size (by decide) c

theorem toLower_toLower (c : Char) : c.toLower.toLower = c.toLower :=
  apply_toLower Char.toLower (by decide) c

theorem toLower_eq_quote_iff (c : Char) : c.toLower = '\'' ↔ c = '\'' := by
  have same : decide (c.toLower = '\'') = decide (c = '\'') :=
    apply_toLower (fun c => decide (c = '\'')) (by decide) c
  exact decide_eq_decide.mp same

theorem isWordStart_of_isUpper (upper : c.isUpper = true) : isWordStart c = true := by
  simp [isWordStart, Char.isAlpha, upper]

/-- A letter makes no longer symbol of the character in front of it. -/
theorem symbolAt?_of_isWordStart
    (start : isWordStart c = true)
    (first : Char) :
    symbolAt? first (some c) = symbolAt? first none := by
  apply symbolAt?_of_not_mem
  intro member
  have noStart : ['>', '=', '&', '|'].all fun c => !isWordStart c := by decide
  have outside := List.all_eq_true.mp noStart c member
  rw [start] at outside
  cases outside


theorem symbolAt?_toLower
    (c : Char)
    (next : Option Char) :
    symbolAt? c (next.map Char.toLower) = symbolAt? c next := by
  cases next with
  | none => rfl
  | some d =>
    by_cases upper : d.isUpper = true
    · have start : isWordStart d = true := isWordStart_of_isUpper upper
      rw [Option.map_some, symbolAt?_of_isWordStart start, symbolAt?_of_isWordStart]
      rwa [isWordStart_toLower]
    · rw [Option.map_some, Char.toLower_eq_of_not_isUpper upper]

/-! ### Pieces -/

theorem firstPiece_of_isWordStart
    (start : isWordStart c = true)
    (text : List Char) :
    firstPiece c text = (some .word, (text.takeWhile isWordPart).length) := by
  unfold firstPiece
  simp [isTokenBlank_of_isWordStart start, isDigit_of_isWordStart start, start]

theorem length_takeWhile_toLower
    {isPart : Char → Bool}
    (same : ∀ c, isPart c.toLower = isPart c)
    (text : List Char) :
    ((text.map Char.toLower).takeWhile isPart).length = (text.takeWhile isPart).length := by
  rw [List.takeWhile_map, List.length_map]
  congr 2
  funext c
  exact same c

/-- Where a quotation ends does not depend on the case of its letters. -/
theorem scan_toLower (text : List Char) :
    Text.Quoted.scan '\'' (text.map Char.toLower) =
      (Text.Quoted.scan '\'' text).map fun (content, after) =>
        (content.map Char.toLower, after.map Char.toLower) := by
  have quote : Char.toLower '\'' = '\'' := by decide
  have unlike {c : Char} (other : ¬c = '\'') : ¬c.toLower = '\'' :=
    mt (toLower_eq_quote_iff c).mp other
  induction text using Text.Quoted.scan.induct '\'' with
  | case1 => rfl
  | case2 => simp [Text.Quoted.scan]
  | case3 c other => simp [Text.Quoted.scan, other, unlike other]
  | case4 rest inductionHypothesis =>
    simp only [List.map_cons, quote, Text.Quoted.scan, if_true, inductionHypothesis, Option.map_map]
    congr 1
  | case5 d rest other => simp [Text.Quoted.scan, other, unlike other]
  | case6 c d rest other inductionHypothesis =>
    rw [List.map_cons] at inductionHypothesis
    simp only [List.map_cons, Text.Quoted.scan, if_neg other, if_neg (unlike other),
      inductionHypothesis, Option.map_map]
    congr 1

/-- Which piece a text begins with, and where it ends, does not depend on the case of letters. -/
theorem firstPiece_toLower
    (c : Char)
    (text : List Char) :
    firstPiece c.toLower (text.map Char.toLower) = firstPiece c text := by
  have blanks := length_takeWhile_toLower isTokenBlank_toLower text
  have numbers := length_takeWhile_toLower isNumberPart_toLower text
  have words := length_takeWhile_toLower isWordPart_toLower text
  by_cases upper : c.isUpper = true
  · -- A letter begins a word, in either case.
    have start : isWordStart c = true := isWordStart_of_isUpper upper
    have start' : isWordStart c.toLower = true := by rw [isWordStart_toLower, start]
    rw [firstPiece_of_isWordStart start, firstPiece_of_isWordStart start', words]
  · rw [Char.toLower_eq_of_not_isUpper upper]
    unfold firstPiece
    rw [blanks, numbers, words, scan_toLower, List.head?_map, symbolAt?_toLower, List.length_map]
    cases Text.Quoted.scan '\'' text with
    | none => rfl
    | some found => simp only [Option.map_some, List.length_map]

/-- A text that begins like the first piece of another one, up to case, has it as its first piece
when it goes on like the other one, up to case. -/
theorem Lexeme.first_of_toLower
    (letters : piece'.map Char.toLower = (first c text).text.map Char.toLower)
    (behind : rest'.map Char.toLower = (first c text).rest.map Char.toLower) :
    ∃ c' text', piece' ++ rest' = c' :: text' ∧
      first c' text' = ⟨(first c text).kind, piece', rest'⟩ := by
  cases piece' with
  | nil => simp [first] at letters
  | cons c' more =>
    have whole : (c' :: (more ++ rest')).map Char.toLower = (c :: text).map Char.toLower := by
      rw [← List.cons_append, List.map_append, letters, behind, ← List.map_append,
        text_append_rest]
    obtain ⟨ofFirst, ofRest⟩ := List.cons.inj whole
    have piece : firstPiece c' (more ++ rest') = firstPiece c text := by
      rw [← firstPiece_toLower, ofFirst, ofRest, firstPiece_toLower]
    refine ⟨c', more ++ rest', rfl, ?_⟩
    simp only [first] at letters behind ⊢
    rw [piece]
    have split :
        (more ++ rest').take (firstPiece c text).2 ++ (more ++ rest').drop (firstPiece c text).2 =
          more ++ rest' := List.take_append_drop ..
    have sameLength : ((more ++ rest').take (firstPiece c text).2).length = more.length := by
      have ofLetters := congrArg List.length letters
      have ofRest := congrArg List.length ofRest
      simp only [List.length_map, List.length_cons, List.length_take] at ofLetters ofRest ⊢
      omega
    obtain ⟨ofPiece, ofRest⟩ := List.append_inj split sameLength
    simp only [ofPiece, ofRest]

/-! ### Words in other cases -/

/-- The second text is the first one with other letter cases in its words. Everything else is the
same: blanks, numbers, strings, symbols and characters that start no token. -/
inductive Recased : List Char → List Char → Prop where
  | nil : Recased [] []
  | word {c : Char} {text word' rest' : List Char}
      (isWord : (Lexeme.first c text).kind = some .word)
      (letters : word'.map Char.toLower = (Lexeme.first c text).text.map Char.toLower)
      (behind : Recased (Lexeme.first c text).rest rest') :
      Recased (c :: text) (word' ++ rest')
  | other {c : Char} {text rest' : List Char}
      (noWord : (Lexeme.first c text).kind ≠ some .word)
      (behind : Recased (Lexeme.first c text).rest rest') :
      Recased (c :: text) ((Lexeme.first c text).text ++ rest')

theorem recased_nil_iff : Recased [] text' ↔ text' = [] := by
  constructor
  · intro recased
    cases recased
    rfl
  · rintro rfl
    exact .nil

/-- The first piece is written again, in any case when it is a word, and what follows it is
recased. -/
theorem recased_cons_iff :
    Recased (c :: text) text' ↔
      let piece := Lexeme.first c text
      let written := text'.take piece.text.length
      (written.map Char.toLower = piece.text.map Char.toLower ∧
        (piece.kind = some .word ∨ written = piece.text)) ∧
      Recased piece.rest (text'.drop piece.text.length) := by
  constructor
  · intro recased
    cases recased with
    | @word _ _ word' rest' isWord letters behind =>
      have sameLength : (Lexeme.first c text).text.length = word'.length := by
        simpa using (congrArg List.length letters).symm
      dsimp only
      rw [sameLength, List.take_left, List.drop_left]
      exact ⟨⟨letters, .inl isWord⟩, behind⟩
    | other noWord behind =>
      dsimp only
      rw [List.take_left, List.drop_left]
      exact ⟨⟨rfl, .inr rfl⟩, behind⟩
  · rintro ⟨⟨letters, written⟩, behind⟩
    rw [← List.take_append_drop (Lexeme.first c text).text.length text']
    by_cases isWord : (Lexeme.first c text).kind = some .word
    · exact .word isWord letters behind
    · rw [written.resolve_left isWord]
      exact .other isWord behind

instance decidableRecased : (text : List Char) → DecidablePred (Recased text)
  | [] => fun _ => decidable_of_iff _ recased_nil_iff.symm
  | c :: text => fun _ =>
    have := decidableRecased (Lexeme.first c text).rest
    decidable_of_iff _ recased_cons_iff.symm
  termination_by text => text.length
  decreasing_by
    have := Lexeme.rest_length_le c text
    simp only [List.length_cons]
    omega

-- The letters of a string stay as they are.
example : ¬Recased "Name = 'x'".toList "nAME = 'X'".toList := by
  decide +kernel

theorem Recased.map_toLower_eq (recased : Recased text text') :
    text'.map Char.toLower = text.map Char.toLower := by
  induction recased with
  | nil => rfl
  | @word c text word' rest' isWord letters behind inductionHypothesis =>
    rw [List.map_append, letters, inductionHypothesis, ← List.map_append, Lexeme.text_append_rest]
  | @other c text rest' noWord behind inductionHypothesis =>
    rw [List.map_append, inductionHypothesis, ← List.map_append, Lexeme.text_append_rest]

theorem byteLength_map_toLower (text : List Char) :
    byteLength (text.map Char.toLower) = byteLength text := by
  induction text with
  | nil => rfl
  | cons c text inductionHypothesis =>
    rw [List.map_cons, byteLength, byteLength, utf8Size_toLower, inductionHypothesis]

theorem byteLength_of_toLower (same : text'.map Char.toLower = text.map Char.toLower) :
    byteLength text' = byteLength text := by
  rw [← byteLength_map_toLower, same, byteLength_map_toLower]

namespace Token

/-- A word in lower case; any other token as it is. -/
def lowered (token : Token) : Token :=
  if token.kind = .word then { token with text := token.lower } else token

section

variable (token : Token)

@[simp]
theorem kind_lowered : token.lowered.kind = token.kind := by
  unfold lowered
  split <;> rfl

@[simp]
theorem position_lowered : token.lowered.position = token.position := by
  unfold lowered
  split <;> rfl

theorem lowered_of_ne_word (noWord : token.kind ≠ .word) : token.lowered = token :=
  if_neg noWord

theorem text_lowered_of_word (isWord : token.kind = .word) :
    token.lowered.text = token.text.toLower := by
  rw [lowered, if_pos isWord]
  rfl

theorem lower_lowered (isWord : token.kind = .word) : token.lowered.lower = token.lower := by
  unfold lower
  rw [token.text_lowered_of_word isWord]
  apply Text.toLower_eq
  rw [Text.toList_toLower, List.map_map]
  congr 1
  funext c
  exact toLower_toLower c

@[simp]
theorem isWord_lowered (word : String) : token.lowered.isWord word = token.isWord word := by
  by_cases isWord : token.kind = .word
  · rw [Token.isWord, Token.isWord, kind_lowered, token.lower_lowered isWord]
  · rw [token.lowered_of_ne_word isWord]

end

/-- What tokens say in any letter case of their words. -/
def loweredAll (outcome : Except Error (List Token)) : Except Error (List Token) :=
  outcome.map (List.map lowered)

/-- Texts that say the same are refused alike, or have tokens that are the same in lower case. -/
theorem cases_of_loweredAll
    {first second : Except Error (List Token)}
    (alike : loweredAll first = loweredAll second) :
    (∃ error, first = .error error ∧ second = .error error) ∨
      ∃ tokens tokens', first = .ok tokens ∧ second = .ok tokens' ∧
        tokens.map lowered = tokens'.map lowered := by
  cases first with
  | error error =>
    cases second with
    | error error' =>
      rw [Except.error.inj alike]
      exact .inl ⟨error', rfl, rfl⟩
    | ok tokens' => cases alike
  | ok tokens =>
    cases second with
    | error error' => cases alike
    | ok tokens' => exact .inr ⟨tokens, tokens', rfl, rfl, Except.ok.inj alike⟩

theorem loweredAll_map
    {first second : Except Error (List Token)}
    {change change' : List Token → List Token}
    (same : ∀ tokens tokens', tokens.map lowered = tokens'.map lowered →
      (change tokens).map lowered = (change' tokens').map lowered)
    (alike : loweredAll first = loweredAll second) :
    loweredAll (first.map change) = loweredAll (second.map change') := by
  rcases cases_of_loweredAll alike with ⟨error, rfl, rfl⟩ | ⟨tokens, tokens', rfl, rfl, equal⟩
  · rfl
  · exact congrArg Except.ok (same tokens tokens' equal)

/-- Words in other cases change no token but the letters of the words, and no error. -/
theorem scanFrom_recased
    (recased : Recased text text')
    (position : Nat) :
    loweredAll (scanFrom false position text) = loweredAll (scanFrom false position text') := by
  induction recased generalizing position with
  | nil => rfl
  | @word c text word' rest' isWord letters behind inductionHypothesis =>
    obtain ⟨c', text', split, first⟩ := Lexeme.first_of_toLower letters behind.map_toLower_eq
    have isWord' : (Lexeme.first c' text').kind = some .word := by rw [first, isWord]
    rw [split, scanFrom_first isWord, scanFrom_first isWord', first, byteLength_of_toLower letters]
    apply loweredAll_map _ (inductionHypothesis _)
    intro tokens tokens' same
    have lower :
        (String.ofList (Lexeme.first c text).text).toLower = (String.ofList word').toLower := by
      rw [Text.toLower_ofList, Text.toLower_ofList, letters]
    simp [lowered, Token.lower, lower, same]
  | @other c text rest' noWord behind inductionHypothesis =>
    obtain ⟨c', text', split, first⟩ := Lexeme.first_of_toLower rfl behind.map_toLower_eq
    have sameHead : c' = c := (List.cons.inj split).1.symm
    rw [split]
    cases kind : (Lexeme.first c text).kind with
    | none =>
      have refused : (Lexeme.first c' text').kind = none := by rw [first, kind]
      rw [scanFrom_of_refused kind, scanFrom_of_refused refused, sameHead]
    | some kind' =>
      have isToken : (Lexeme.first c' text').kind = some kind' := by rw [first, kind]
      rw [scanFrom_first kind, scanFrom_first isToken, first]
      apply loweredAll_map _ (inductionHypothesis _)
      intro tokens tokens' same
      split
      · exact same
      · rw [List.map_cons, List.map_cons, same]

end Token

end ObjectQuery
