import ObjectQuery.Proofs.Success
import ObjectQuery.Proofs.Token.Pieces

/-!
Contract: the tokens of a text, stated piece by piece.

Owns:
- `pieces_induction`, and `scanFrom_first`, by which reading goes on behind the first piece, whether
  blanks are kept or not;
- `Token.Scans`, the tokens of a text that starts at a position, and `scanFrom_eq_ok_iff`, by which
  reading computes them;
- joining two texts at a separator, and cutting a text in front of a closing parenthesis;
- the same text at another position.

Does not own: what tokens mean.
-/

namespace ObjectQuery

@[simp]
theorem byteLength_nil : byteLength [] = 0 :=
  rfl

@[simp]
theorem byteLength_cons (c : Char) (text : List Char) :
    byteLength (c :: text) = c.utf8Size + byteLength text :=
  rfl

@[simp]
theorem byteLength_append (first second : List Char) :
    byteLength (first ++ second) = byteLength first + byteLength second := by
  induction first with
  | nil => simp
  | cons c first inductionHypothesis =>
    rw [List.cons_append, byteLength_cons, inductionHypothesis, byteLength_cons, Nat.add_assoc]

/-- What holds of a text whenever it holds of what stands behind the first piece holds of every
text. -/
theorem pieces_induction
    {motive : List Char → Prop}
    (nil : motive [])
    (piece : ∀ c text, motive (Lexeme.first c text).rest → motive (c :: text))
    (text : List Char) :
    motive text := by
  induction count : text.length using Nat.strongRecOn generalizing text with
  | ind count inductionHypothesis =>
    cases text with
    | nil => exact nil
    | cons c text =>
      have shorter := Lexeme.rest_length_le c text
      rw [List.length_cons] at count
      exact piece c text (inductionHypothesis _ (by omega) _ rfl)

namespace Token

variable {position : Nat} {c : Char} {kind : TokenKind} {text more rest : List Char}
variable {keepBlanks : Bool} {tokens : List Token}

/-- The tokens of a text that starts at a position: blanks are passed over, and each other piece is
the longest one that stands there. -/
inductive Scans : Nat → List Char → List Token → Prop where
  | nil {position : Nat} : Scans position [] []
  | blank {position : Nat} {c : Char} {text : List Char} {tokens : List Token}
      (isBlank : isTokenBlank c = true)
      (behind : Scans (position + c.utf8Size) text tokens) : Scans position (c :: text) tokens
  | piece {position : Nat} {c : Char} {kind : TokenKind} {text more rest : List Char}
      {tokens : List Token}
      (solid : isTokenBlank c = false)
      (split : text = more ++ rest)
      (first : firstPiece c text = (some kind, more.length))
      (behind : Scans (position + byteLength (c :: more)) rest tokens) :
      Scans position (c :: text) (⟨kind, String.ofList (c :: more), position⟩ :: tokens)

/-! ### One piece -/

/-- Reading goes on behind the first piece, which is a token unless it is passed over. -/
theorem scanFrom_first (first : (Lexeme.first c text).kind = some kind) :
    scanFrom keepBlanks position (c :: text) =
      (scanFrom keepBlanks (position + byteLength (Lexeme.first c text).text)
        (Lexeme.first c text).rest).map fun tokens =>
          if kind = .blank ∧ !keepBlanks then tokens
          else ⟨kind, String.ofList (Lexeme.first c text).text, position⟩ :: tokens := by
  rw [scanFrom]
  simp only [first]
  cases scanFrom keepBlanks _ (Lexeme.first c text).rest with
  | error error => rfl
  | ok tokens =>
    by_cases passed : kind = .blank ∧ !keepBlanks
    · simp only [if_pos passed, Except.map]
    · simp only [if_neg passed, Except.map]

/-- A refused piece ends the reading in both modes. -/
theorem scanFrom_of_refused (first : (Lexeme.first c text).kind = none) :
    scanFrom keepBlanks position (c :: text) = .error (.invalidCharacter c position) := by
  rw [scanFrom]
  simp only [first]

/-- Reading fails by a character that starts no token. -/
theorem kind_of_scanFrom_eq_error
    {error : Error}
    (failed : scanFrom keepBlanks position text = .error error) :
    error.kind = .lexical := by
  induction text using pieces_induction generalizing position with
  | nil =>
    rw [scanFrom] at failed
    cases failed
  | piece c text inductionHypothesis =>
    cases first : (Lexeme.first c text).kind with
    | none =>
      rw [scanFrom_of_refused first] at failed
      rw [← Except.error.inj failed]
      rfl
    | some kind =>
      rw [scanFrom_first first] at failed
      cases behind : scanFrom keepBlanks _ (Lexeme.first c text).rest with
      | error error' =>
        rw [behind] at failed
        rw [Except.error.inj failed] at behind
        exact inductionHypothesis behind
      | ok others =>
        rw [behind] at failed
        cases failed

/-! ### Reading computes the tokens -/

theorem scanFrom_blank_run (isBlank : isTokenBlank c = true) :
    scanFrom false position (c :: text) =
      scanFrom false (position + byteLength (c :: text.takeWhile isTokenBlank))
        (text.dropWhile isTokenBlank) := by
  have first : firstPiece c text = (some .blank, (text.takeWhile isTokenBlank).length) := by
    simp [firstPiece, isBlank]
  have dropped : text.drop (text.takeWhile isTokenBlank).length = text.dropWhile isTokenBlank :=
    calc
      text.drop (text.takeWhile isTokenBlank).length
        = (text.takeWhile isTokenBlank ++ text.dropWhile isTokenBlank).drop
            (text.takeWhile isTokenBlank).length := by rw [List.takeWhile_append_dropWhile]
      _ = text.dropWhile isTokenBlank := List.drop_left
  have isRun : (Lexeme.first c text).kind = some .blank := by rw [Lexeme.first, first]
  rw [scanFrom_first isRun]
  simp only [Lexeme.first, first, takeWhile_length_take, dropped]
  cases scanFrom false _ (text.dropWhile isTokenBlank) <;> rfl

theorem scanFrom_skip_blanks (position : Nat) (text : List Char) :
    scanFrom false (position + byteLength (text.takeWhile isTokenBlank))
        (text.dropWhile isTokenBlank) =
      scanFrom false position text := by
  cases text with
  | nil => rfl
  | cons c text =>
    by_cases isBlank : isTokenBlank c = true
    · rw [scanFrom_blank_run isBlank]
      simp [isBlank]
    · simp [isBlank]

/-- One blank is passed over at a time. -/
theorem scanFrom_blank (isBlank : isTokenBlank c = true) :
    scanFrom false position (c :: text) = scanFrom false (position + c.utf8Size) text := by
  rw [scanFrom_blank_run isBlank, ← scanFrom_skip_blanks (position + c.utf8Size) text,
    byteLength_cons, Nat.add_assoc]

theorem ne_blank_of_firstPiece
    {count : Nat}
    (solid : isTokenBlank c = false)
    (first : firstPiece c text = (some kind, count)) :
    kind ≠ .blank := by
  rintro rfl
  have isBlank : isTokenBlank c = true := spelled_of_firstPiece first c (List.mem_cons_self ..)
  simp [solid] at isBlank

theorem scanFrom_piece
    (solid : isTokenBlank c = false)
    (first : firstPiece c (more ++ rest) = (some kind, more.length)) :
    scanFrom false position (c :: (more ++ rest)) =
      (scanFrom false (position + byteLength (c :: more)) rest).map
        (⟨kind, String.ofList (c :: more), position⟩ :: ·) := by
  have notBlank := ne_blank_of_firstPiece solid first
  have isPiece : (Lexeme.first c (more ++ rest)).kind = some kind := by rw [Lexeme.first, first]
  rw [scanFrom_first isPiece]
  simp only [Lexeme.first, first, List.take_left, List.drop_left, notBlank, false_and, if_false]

theorem Scans.scanFrom_eq_ok (scans : Scans position text tokens) :
    scanFrom false position text = .ok tokens := by
  induction scans with
  | nil => rw [scanFrom]
  | blank isBlank behind inductionHypothesis =>
    rw [scanFrom_blank isBlank, inductionHypothesis]
  | piece solid split first behind inductionHypothesis =>
    subst split
    rw [scanFrom_piece solid first, inductionHypothesis]
    rfl

theorem scans_of_scanFrom (read : scanFrom false position text = .ok tokens) :
    Scans position text tokens := by
  -- On the length of the text: a piece is not shorter than its first character.
  induction count : text.length using Nat.strongRecOn generalizing position text tokens with
  | ind count inductionHypothesis =>
    cases text with
    | nil =>
      rw [scanFrom] at read
      obtain rfl := Except.ok.inj read
      exact .nil
    | cons c text =>
      rw [List.length_cons] at count
      by_cases isBlank : isTokenBlank c = true
      · rw [scanFrom_blank isBlank] at read
        exact .blank isBlank (inductionHypothesis text.length (by omega) read rfl)
      · have solid : isTokenBlank c = false := by simpa using isBlank
        rcases first : firstPiece c text with ⟨found, length⟩
        cases found with
        | none =>
          rw [scanFrom_of_refused (by rw [Lexeme.first, first])] at read
          simp at read
        | some kind =>
          obtain ⟨more, rest, rfl, rfl⟩ :
              ∃ more rest, text = more ++ rest ∧ length = more.length := by
            refine ⟨text.take length, text.drop length, by simp, ?_⟩
            rw [List.length_take, Nat.min_eq_left (firstPiece_le first)]
          rw [scanFrom_piece solid first] at read
          cases behind : scanFrom false (position + byteLength (c :: more)) rest with
          | error error =>
            rw [behind] at read
            simp [Except.map] at read
          | ok others =>
            rw [behind] at read
            obtain rfl := Except.ok.inj read
            rw [List.length_append] at count
            exact .piece solid rfl first
              (inductionHypothesis rest.length (by omega) behind rfl)

/-- Reading a text finds its tokens, and fails when it has none. -/
theorem scanFrom_eq_ok_iff :
    scanFrom false position text = .ok tokens ↔ Scans position text tokens := by
  constructor
  · exact scans_of_scanFrom
  · exact Scans.scanFrom_eq_ok

/-! ### Texts side by side -/

/-- The tokens of two texts with a separator between them. -/
theorem Scans.append
    {others : List Token}
    (front : Scans position text tokens)
    (separated : Separated rest)
    (behind : Scans (position + byteLength text) rest others) :
    Scans position (text ++ rest) (tokens ++ others) := by
  induction front with
  | nil => simpa using behind
  | blank isBlank front inductionHypothesis =>
    refine .blank isBlank (inductionHypothesis ?_)
    simpa [Nat.add_assoc] using behind
  | @piece position c kind text more tail tokens solid split first front inductionHypothesis =>
    subst split
    refine .piece solid (List.append_assoc more tail rest) ?_ (inductionHypothesis ?_)
    · exact (firstPiece_append_iff solid separated (by simp)).mpr first
    · simpa [Nat.add_assoc] using behind

/-- A closing parenthesis among the tokens cuts the text in two. -/
theorem Scans.cut
    {inner others : List Token}
    {close : Token}
    (scans : Scans position text (inner ++ close :: others))
    (closes : close.kind = .rightParen) :
    ∃ front behind, text = front ++ ')' :: behind ∧ Scans position front inner ∧
      close.position = position + byteLength front := by
  generalize whole : inner ++ close :: others = tokens at scans
  induction scans generalizing inner with
  | nil => simp at whole
  | @blank position c text tokens isBlank tail inductionHypothesis =>
    obtain ⟨front, behind, rfl, scansFront, place⟩ := inductionHypothesis whole
    refine ⟨c :: front, behind, rfl, .blank isBlank scansFront, ?_⟩
    simp [place, Nat.add_assoc]
  | @piece position c kind text more tail tokens solid split first scansTail inductionHypothesis =>
    subst split
    cases inner with
    | nil =>
      obtain ⟨rfl, rfl⟩ := List.cons.inj whole
      have spelled := spelled_of_firstPiece first
      simp only at closes
      rw [closes, List.take_left] at spelled
      obtain ⟨rfl, rfl⟩ : c = ')' ∧ more = [] := by simpa [TokenKind.Spelled] using spelled
      exact ⟨[], tail, rfl, .nil, rfl⟩
    | cons token inner =>
      obtain ⟨rfl, others'⟩ := List.cons.inj whole
      obtain ⟨front, behind, rfl, scansFront, place⟩ := inductionHypothesis others'
      refine ⟨c :: (more ++ front), behind, by simp, .piece solid rfl ?_ scansFront, ?_⟩
      · rw [← List.append_assoc] at first
        exact (firstPiece_append_iff solid (separated_cons (by decide)) (by simp)).mp first
      · simp [place, Nat.add_assoc]

/-- The first token stands behind blanks, and the others stand behind it. -/
theorem Scans.head
    {token : Token}
    (scans : Scans position text (token :: tokens)) :
    ∃ blanks behind, text = blanks ++ (token.text.toList ++ behind) ∧
      token.position = position + byteLength blanks ∧
      token.kind.Spelled token.text.toList ∧
      Scans (token.position + byteLength token.text.toList) behind tokens := by
  generalize whole : token :: tokens = all at scans
  induction scans with
  | nil => simp at whole
  | @blank position c text all isBlank tail inductionHypothesis =>
    obtain ⟨blanks, behind, rfl, place, spelled, scansBehind⟩ := inductionHypothesis whole
    refine ⟨c :: blanks, behind, rfl, ?_, spelled, scansBehind⟩
    simp [place, Nat.add_assoc]
  | @piece position c kind text more tail all solid split first scansTail inductionHypothesis =>
    subst split
    obtain ⟨rfl, rfl⟩ := List.cons.inj whole
    have spelled := spelled_of_firstPiece first
    rw [List.take_left] at spelled
    refine ⟨[], tail, by simp, rfl, ?_, ?_⟩
    · simpa only [String.toList_ofList] using spelled
    · simpa only [String.toList_ofList] using scansTail

/-- The same text at another position has tokens of the same kinds. -/
theorem Scans.reposition
    (scans : Scans position text tokens)
    (other : Nat) :
    ∃ moved, Scans other text moved ∧ moved.map (·.kind) = tokens.map (·.kind) := by
  induction scans generalizing other with
  | nil => exact ⟨[], .nil, rfl⟩
  | @blank position c text tokens isBlank behind inductionHypothesis =>
    obtain ⟨moved, scansMoved, kinds⟩ := inductionHypothesis (other + c.utf8Size)
    exact ⟨moved, .blank isBlank scansMoved, kinds⟩
  | @piece position c kind text more rest tokens solid split first behind inductionHypothesis =>
    obtain ⟨moved, scansMoved, kinds⟩ := inductionHypothesis (other + byteLength (c :: more))
    exact ⟨_, .piece solid split first scansMoved, by simp [kinds]⟩

/-! ### Leading names, numbers, strings and symbols -/

theorem Scans.name
    (isName : IsName text)
    (boundary : ∀ d ∈ rest.head?, isWordPart d = false)
    (behind : Scans (position + byteLength text) rest tokens) :
    Scans position (text ++ rest) (⟨.word, String.ofList text, position⟩ :: tokens) := by
  obtain ⟨c, parts, rfl, start, inside⟩ := isName
  exact .piece (isTokenBlank_of_isWordStart start) rfl (firstPiece_name start inside boundary) behind

/-- A name by itself. -/
theorem Scans.wholeName
    {name : String}
    (isName : IsName name.toList)
    (position : Nat) :
    Scans position name.toList [⟨.word, name, position⟩] := by
  have scans : Scans position (name.toList ++ [])
      [⟨.word, String.ofList name.toList, position⟩] := .name isName (by simp) .nil
  rwa [List.append_nil, String.ofList_toList] at scans

theorem Scans.number
    (isNumber : IsNumber text)
    (boundary : ∀ d ∈ rest.head?, isNumberPart d = false)
    (behind : Scans (position + byteLength text) rest tokens) :
    Scans position (text ++ rest) (⟨.number, String.ofList text, position⟩ :: tokens) := by
  obtain ⟨c, parts, rfl, start, inside⟩ := isNumber
  exact .piece (isTokenBlank_of_isDigit start) rfl (firstPiece_number start inside boundary) behind

theorem Scans.quotation
    (content : List Char)
    (boundary : rest.head? ≠ some '\'')
    (behind : Scans (position + byteLength ('\'' :: Text.Quoted.escape '\'' content ++ ['\'']))
      rest tokens) :
    Scans position ('\'' :: Text.Quoted.escape '\'' content ++ ['\''] ++ rest)
      (⟨.string, String.ofList ('\'' :: Text.Quoted.escape '\'' content ++ ['\'']), position⟩
        :: tokens) := by
  have first : firstPiece '\'' (Text.Quoted.escape '\'' content ++ ['\''] ++ rest) =
      (some .string, (Text.Quoted.escape '\'' content ++ ['\'']).length) :=
    firstPiece_quote_eq_iff.mpr ⟨rfl, content, rest, by simp, boundary, by simp⟩
  exact .piece (by decide) rfl first behind

/-- A number by itself. -/
theorem Scans.wholeNumber
    {number : String}
    (isNumber : IsNumber number.toList)
    (position : Nat) :
    Scans position number.toList [⟨.number, number, position⟩] := by
  have scans : Scans position (number.toList ++ [])
      [⟨.number, String.ofList number.toList, position⟩] := .number isNumber (by simp) .nil
  rwa [List.append_nil, String.ofList_toList] at scans

/-- A quoted string by itself. -/
theorem Scans.wholeQuote (text : String) (position : Nat) :
    Scans position (Text.quote text).toList [⟨.string, Text.quote text, position⟩] := by
  have quoted : (Text.quote text).toList =
      '\'' :: Text.Quoted.escape '\'' text.toList ++ ['\''] ++ [] := by
    simp [Text.quote, Text.Quoted.quoteWith]
  have scans : Scans position ('\'' :: Text.Quoted.escape '\'' text.toList ++ ['\''] ++ []) _ :=
    .quotation text.toList (by simp) .nil
  rw [← quoted] at scans
  simpa [Text.quote, Text.Quoted.quoteWith] using scans

theorem Scans.symbol
    (solid : isTokenBlank c = false)
    (first : firstPiece c text = (some kind, 0))
    (behind : Scans (position + c.utf8Size) text tokens) :
    Scans position (c :: text) (⟨kind, String.ofList [c], position⟩ :: tokens) :=
  .piece solid rfl first (by simpa using behind)

theorem Scans.leftParen (behind : Scans (position + 1) text tokens) :
    Scans position ('(' :: text) (⟨.leftParen, "(", position⟩ :: tokens) :=
  .symbol (by decide) rfl behind

theorem Scans.rightParen (behind : Scans (position + 1) text tokens) :
    Scans position (')' :: text) (⟨.rightParen, ")", position⟩ :: tokens) :=
  .symbol (by decide) rfl behind

theorem Scans.leftCurly (behind : Scans (position + 1) text tokens) :
    Scans position ('\x7b' :: text) (⟨.leftCurly, "\x7b", position⟩ :: tokens) :=
  .symbol (by decide) rfl behind

theorem Scans.rightCurly (behind : Scans (position + 1) text tokens) :
    Scans position ('\x7d' :: text) (⟨.rightCurly, "\x7d", position⟩ :: tokens) :=
  .symbol (by decide) rfl behind

theorem Scans.colon (behind : Scans (position + 1) text tokens) :
    Scans position (':' :: text) (⟨.colon, ":", position⟩ :: tokens) :=
  .symbol (by decide) rfl behind

theorem Scans.comma (behind : Scans (position + 1) text tokens) :
    Scans position (',' :: text) (⟨.comma, ",", position⟩ :: tokens) :=
  .symbol (by decide) rfl behind

theorem Scans.dot (behind : Scans (position + 1) text tokens) :
    Scans position ('.' :: text) (⟨.dot, ".", position⟩ :: tokens) :=
  .symbol (by decide) rfl behind

theorem Scans.minus (behind : Scans (position + 1) text tokens) :
    Scans position ('-' :: text) (⟨.minus, "-", position⟩ :: tokens) :=
  .symbol (by decide) rfl behind

theorem Scans.star (behind : Scans (position + 1) text tokens) :
    Scans position ('*' :: text) (⟨.star, "*", position⟩ :: tokens) :=
  .symbol (by decide) rfl behind

end Token

theorem tokenize_eq_ok_iff {source : String} :
    tokenize keepBlanks source = .ok tokens ↔
      ∃ pieces, Token.scanFrom keepBlanks 0 source.toList = .ok pieces ∧
        tokens = pieces ++ [Token.endOfInput source.utf8ByteSize] := by
  unfold tokenize
  rw [bind_eq_ok]
  constructor
  · rintro ⟨pieces, scanned, made⟩
    exact ⟨pieces, scanned, (Except.ok.inj made).symm⟩
  · rintro ⟨pieces, scanned, rfl⟩
    exact ⟨pieces, scanned, rfl⟩

end ObjectQuery
