import ObjectQuery.Expr.Parser
import ObjectQuery.Proofs.Token.Trimming

/-!
Contract: raw text is the source between two matching parentheses.

Owns:
- `Located` and `Placed`, tokens and texts at their place in a source;
- `Balanced` and `closing?_eq_some_iff`, which find the matching parenthesis by kinds alone;
- `RawReadable`, the raw texts that reading yields, and both directions of `rawText`.

Does not own: the other forms of the language.
-/

namespace ObjectQuery

open Token

variable {source text : List Char} {position : Nat} {tokens rest : List Token}

/-! ### Places in a source -/

/-- The tokens of the source from some place to its end. -/
def Located (source : List Char) (tokens : List Token) : Prop :=
  ∃ before text, source = before ++ text ∧ Scans (byteLength before) text tokens

/-- The text stands in the source at a position. -/
def Placed (source : List Char) (position : Nat) (text : List Char) : Prop :=
  ∃ before after, source = before ++ (text ++ after) ∧ position = byteLength before

theorem Placed.front
    {behind : List Char}
    (placed : Placed source position (text ++ behind)) :
    Placed source position text := by
  obtain ⟨before, after, rfl, rfl⟩ := placed
  exact ⟨before, behind ++ after, by simp, rfl⟩

theorem Placed.back
    {behind : List Char}
    (placed : Placed source position (text ++ behind)) :
    Placed source (position + byteLength text) behind := by
  obtain ⟨before, after, rfl, rfl⟩ := placed
  exact ⟨before ++ text, after, by simp, by simp⟩

theorem placed_whole (source : List Char) : Placed source 0 source :=
  ⟨[], [], by simp, rfl⟩

theorem located_of_scan
    {text : String}
    (scanned : Token.scan text = .ok tokens) :
    Located text.toList tokens :=
  ⟨[], text.toList, rfl, scanFrom_eq_ok_iff.mp scanned⟩

theorem Located.head
    {token : Token}
    (located : Located source (token :: tokens)) :
    ∃ before behind, source = before ++ (token.text.toList ++ behind) ∧
      token.position = byteLength before ∧ token.kind.Spelled token.text.toList ∧
      Scans (token.position + byteLength token.text.toList) behind tokens := by
  obtain ⟨before, text, rfl, scans⟩ := located
  obtain ⟨blanks, behind, rfl, place, spelled, others⟩ := scans.head
  refine ⟨before ++ blanks, behind, by simp, ?_, spelled, others⟩
  rw [place, byteLength_append]

theorem Located.tail
    {token : Token}
    (located : Located source (token :: tokens)) :
    Located source tokens := by
  obtain ⟨before, behind, split, place, -, others⟩ := located.head
  refine ⟨before ++ token.text.toList, behind, by simp [split], ?_⟩
  rwa [byteLength_append, ← place]

theorem Located.of_suffix
    (located : Located source tokens)
    (suffix : rest <:+ tokens) :
    Located source rest := by
  obtain ⟨front, rfl⟩ := suffix
  induction front with
  | nil => exact located
  | cons token front inductionHypothesis => exact inductionHypothesis located.tail

theorem Located.spelled
    {token : Token}
    (located : Located source (token :: tokens)) :
    token.kind.Spelled token.text.toList := by
  obtain ⟨-, -, -, -, spelled, -⟩ := located.head
  exact spelled

/-! ### Slices -/

namespace Grammar

theorem dropBytes_byteLength (front behind : List Char) :
    dropBytes (byteLength front) (front ++ behind) = behind := by
  induction front with
  | nil => cases behind <;> rfl
  | cons c front inductionHypothesis =>
    have size := c.utf8Size_pos
    obtain ⟨bytes, equal⟩ : ∃ bytes, c.utf8Size = bytes + 1 := ⟨c.utf8Size - 1, by omega⟩
    have rest : bytes + byteLength front + 1 - c.utf8Size = byteLength front := by omega
    rw [byteLength_cons, equal, Nat.add_right_comm, List.cons_append, dropBytes, rest,
      inductionHypothesis]

theorem takeBytes_append_dropBytes (bytes : Nat) (text : List Char) :
    takeBytes bytes text ++ dropBytes bytes text = text := by
  induction bytes, text using takeBytes.induct with
  | case1 bytes => cases bytes <;> rfl
  | case2 text _ => cases text <;> rfl
  | case3 bytes c rest inductionHypothesis =>
    rw [takeBytes, dropBytes, List.cons_append, inductionHypothesis]

theorem takeBytes_byteLength (front behind : List Char) :
    takeBytes (byteLength front) (front ++ behind) = front := by
  have whole := takeBytes_append_dropBytes (byteLength front) (front ++ behind)
  rw [dropBytes_byteLength] at whole
  exact List.append_cancel_right whole

theorem slice_of_placed (placed : Placed source position text) :
    slice source position (position + byteLength text) = text := by
  obtain ⟨before, after, rfl, rfl⟩ := placed
  rw [slice, dropBytes_byteLength, Nat.add_sub_cancel_left, takeBytes_byteLength]

/-! ### Matching parentheses -/

/-- Behind these kinds, with `depth` parentheses open in front, the next closing one closes the
first of them. -/
def Balanced : Nat → List TokenKind → Prop
  | depth, [] => depth ≤ 1
  | depth, .leftParen :: kinds => Balanced (depth + 1) kinds
  | depth, .rightParen :: kinds => 1 < depth ∧ Balanced (depth - 1) kinds
  | depth, _ :: kinds => Balanced depth kinds

theorem closing?_eq_some_iff
    {depth : Nat}
    {close : Token} :
    closing? depth tokens = some (close, rest) ↔
      ∃ inner, tokens = inner ++ close :: rest ∧ close.kind = .rightParen ∧
        Balanced depth (inner.map (·.kind)) := by
  induction tokens generalizing depth with
  | nil => simp [closing?]
  | cons token tokens inductionHypothesis =>
    constructor
    · intro found
      unfold closing? at found
      split at found
      · rename_i kind
        obtain ⟨inner, rfl, closes, balanced⟩ := inductionHypothesis.mp found
        exact ⟨token :: inner, rfl, closes, by simpa [kind, Balanced] using balanced⟩
      · rename_i kind
        split at found
        · rename_i last
          obtain ⟨rfl, rfl⟩ : token = close ∧ tokens = rest := by simpa using found
          exact ⟨[], rfl, kind, last⟩
        · rename_i deeper
          obtain ⟨inner, rfl, closes, balanced⟩ := inductionHypothesis.mp found
          refine ⟨token :: inner, rfl, closes, ?_⟩
          rw [List.map_cons, kind]
          exact ⟨by omega, balanced⟩
      · rename_i noLeft noRight
        obtain ⟨inner, rfl, closes, balanced⟩ := inductionHypothesis.mp found
        refine ⟨token :: inner, rfl, closes, ?_⟩
        rw [List.map_cons, Balanced]
        · exact balanced
        · exact noLeft
        · exact noRight
    · rintro ⟨inner, split, closes, balanced⟩
      cases inner with
      | nil =>
        obtain ⟨rfl, rfl⟩ := List.cons.inj split
        have last : depth ≤ 1 := balanced
        simp [closing?, closes, last]
      | cons token' inner =>
        obtain ⟨rfl, rfl⟩ := List.cons.inj split
        unfold closing?
        split
        · rename_i kind
          refine inductionHypothesis.mpr ⟨inner, rfl, closes, ?_⟩
          simpa [kind, Balanced] using balanced
        · rename_i kind
          rw [List.map_cons, kind] at balanced
          obtain ⟨deeper, balanced⟩ : 1 < depth ∧ Balanced (depth - 1) _ := balanced
          rw [if_neg (by omega)]
          exact inductionHypothesis.mpr ⟨inner, rfl, closes, balanced⟩
        · rename_i noLeft noRight
          rw [List.map_cons, Balanced] at balanced
          · exact inductionHypothesis.mpr ⟨inner, rfl, closes, balanced⟩
          · exact noLeft
          · exact noRight

/-! ### Raw text -/

/-- A raw text that stands between matching parentheses: it is trimmed, has tokens, and closes what
it opens. -/
def RawReadable (text : List Char) : Prop :=
  Text.trimChars text = text ∧
    ∃ position tokens, Scans position text tokens ∧ Balanced 1 (tokens.map (·.kind))

theorem readable_of_rawText
    {opening : Token}
    {e : Expr}
    (located : Located source (opening :: tokens))
    (opens : opening.kind = .leftParen)
    (read : rawText source opening tokens = .ok (e, rest)) :
    rest <:+ tokens ∧ ∃ raw, e = .raw raw ∧ RawReadable raw.toList := by
  unfold rawText at read
  split at read
  · rename_i close rest' found
    obtain ⟨rfl, rfl⟩ := Prod.mk.inj (Except.ok.inj read)
    obtain ⟨inner, rfl, closes, balanced⟩ := closing?_eq_some_iff.mp found
    refine ⟨⟨inner ++ [close], by simp⟩, _, rfl, ?_⟩
    obtain ⟨before, behind, rfl, place, spelled, others⟩ := located.head
    rw [opens] at spelled
    have parenthesis : opening.text.toList = ['('] := spelled
    rw [parenthesis] at others ⊢
    obtain ⟨raw, after, rfl, scans, ends⟩ := others.cut closes
    have one : byteLength ['('] = 1 := by decide
    rw [one] at scans ends
    have placed : Placed (before ++ (['('] ++ (raw ++ ')' :: after))) (opening.position + 1) raw :=
      ⟨before ++ ['('], ')' :: after, by simp, by rw [byteLength_append, place, one]⟩
    rw [ends, slice_of_placed placed, String.toList_ofList]
    obtain ⟨moved, trimmed⟩ := scans.trimChars
    exact ⟨Text.trimChars_trimChars raw, moved, inner, trimmed, balanced⟩
  · simp at read

theorem rawText_of_readable
    {raw : String}
    {opening close : Token}
    (readable : RawReadable raw.toList)
    (placed : Placed source (opening.position + 1) raw.toList)
    (closes : close.kind = .rightParen)
    (ends : close.position = opening.position + 1 + byteLength raw.toList) :
    ∃ inner, Scans (opening.position + 1) raw.toList inner ∧
      ∀ rest, rawText source opening (inner ++ close :: rest) = .ok (.raw raw, rest) := by
  obtain ⟨trimmed, elsewhere, tokens, scans, balanced⟩ := readable
  obtain ⟨inner, scansHere, kinds⟩ := scans.reposition (opening.position + 1)
  refine ⟨inner, scansHere, ?_⟩
  intro rest
  have found : closing? 1 (inner ++ close :: rest) = some (close, rest) :=
    closing?_eq_some_iff.mpr ⟨inner, rfl, closes, by rwa [kinds]⟩
  unfold rawText
  rw [found]
  simp only [ends, slice_of_placed placed, trimmed, String.ofList_toList]

end Grammar

end ObjectQuery
