import Mathlib.Data.List.Basic
import ObjectQuery.Proofs.Text.Quoted

/-!
Contract: what is seen of an SQL text outside brackets and string literals.

A reader goes through the text once and remembers how many brackets are open and whether a literal
is. A doubled quote in a literal closes it and opens it again, which comes to the same.

Owns:
- `outline`, the characters outside brackets and literals together with the brackets and quotes
  around what is left out, for a text that closes all it opens;
- the outlines of texts that are joined, put in brackets or quoted.

Does not own: which texts close what they open.
-/

namespace ObjectQuery.Text

/-- Where a reader of an SQL text is: how many brackets are open, and whether a literal is. -/
structure Place where
  depth : Nat
  quoted : Bool
deriving DecidableEq, Repr

/-- A character that neither opens nor closes a bracket or a literal. -/
def Flat (c : Char) : Prop :=
  c ≠ '\'' ∧ c ≠ '(' ∧ c ≠ ')'

instance : DecidablePred Flat :=
  fun c => inferInstanceAs (Decidable (c ≠ '\'' ∧ c ≠ '(' ∧ c ≠ ')'))

namespace Place

/-- Nothing is open. -/
def outside : Place := ⟨0, false⟩

/-- The place behind a character, unless it closes a bracket where none is open. -/
def behind (place : Place) (c : Char) : Option Place :=
  if c = '\'' then some ⟨place.depth, !place.quoted⟩
  else if place.quoted then some place
  else if c = '(' then some ⟨place.depth + 1, false⟩
  else if c = ')' then
    match place.depth with
    | 0 => none
    | depth + 1 => some ⟨depth, false⟩
  else some place

/-- Reads a text from a place: the place behind it, and the characters that are seen, those with
nothing open in front of them or behind them. -/
def read : Place → List Char → Option (Place × List Char)
  | place, [] => some (place, [])
  | place, c :: rest =>
    match place.behind c with
    | none => none
    | some next =>
      match read next rest with
      | none => none
      | some (last, seen) =>
        some (last, if place = outside ∨ next = outside then c :: seen else seen)

/-- The same place with one more bracket open. -/
def deeper (place : Place) : Place := ⟨place.depth + 1, place.quoted⟩

variable {place next last : Place} {c : Char} {text rest seen seen' : List Char}

theorem read_cons (isBehind : place.behind c = some next)
    (reads : next.read rest = some (last, seen)) :
    place.read (c :: rest) =
      some (last, if place = outside ∨ next = outside then c :: seen else seen) := by
  rw [read, isBehind]
  dsimp only
  rw [reads]

theorem exists_of_read_cons (reads : place.read (c :: rest) = some (last, seen)) :
    ∃ next others, place.behind c = some next ∧ next.read rest = some (last, others) ∧
      seen = if place = outside ∨ next = outside then c :: others else others := by
  rw [read] at reads
  split at reads
  · cases reads
  · next next behind =>
    split at reads
    · cases reads
    · next last' others behindRest =>
      obtain ⟨rfl, rfl⟩ := Prod.mk.inj (Option.some.inj reads)
      exact ⟨next, others, behind, behindRest, rfl⟩

/-- A text is read on where the text in front of it ends. -/
theorem read_append (ofFirst : place.read text = some (next, seen))
    (ofRest : next.read rest = some (last, seen')) :
    place.read (text ++ rest) = some (last, seen ++ seen') := by
  induction text generalizing place seen with
  | nil =>
    obtain ⟨rfl, rfl⟩ := Prod.mk.inj (Option.some.inj ofFirst)
    exact ofRest
  | cons c text inductionHypothesis =>
    obtain ⟨between, others, behind, reads, rfl⟩ := exists_of_read_cons ofFirst
    rw [List.cons_append, read_cons behind (inductionHypothesis reads)]
    split <;> rfl

theorem behind_quoted {depth : Nat} (noQuote : c ≠ '\'') :
    behind ⟨depth, true⟩ c = some ⟨depth, true⟩ := by
  simp [behind, noQuote]

theorem behind_flat {depth : Nat} (flat : Flat c) :
    behind ⟨depth, false⟩ c = some ⟨depth, false⟩ := by
  obtain ⟨noQuote, notOpening, notClosing⟩ := flat
  simp [behind, noQuote, notOpening, notClosing]

theorem behind_deeper (isBehind : place.behind c = some next) :
    place.deeper.behind c = some next.deeper := by
  obtain ⟨depth, quoted⟩ := place
  by_cases isQuote : c = '\''
  · subst isQuote
    obtain rfl := Option.some.inj isBehind
    rfl
  · cases quoted with
    | true =>
      obtain rfl := Option.some.inj ((behind_quoted isQuote).symm.trans isBehind)
      exact behind_quoted isQuote
    | false =>
      by_cases opens : c = '('
      · subst opens
        obtain rfl := Option.some.inj isBehind
        rfl
      · by_cases closes : c = ')'
        · subst closes
          cases depth with
          | zero => cases isBehind
          | succ depth =>
            obtain rfl := Option.some.inj isBehind
            rfl
        · have flat : Flat c := ⟨isQuote, opens, closes⟩
          obtain rfl := Option.some.inj ((behind_flat flat).symm.trans isBehind)
          exact behind_flat flat

/-- What is read without going back behind the start is read in brackets as well, unseen. -/
theorem read_deeper (reads : place.read text = some (last, seen)) :
    place.deeper.read text = some (last.deeper, []) := by
  induction text generalizing place seen with
  | nil =>
    obtain ⟨rfl, rfl⟩ := Prod.mk.inj (Option.some.inj reads)
    rfl
  | cons c text inductionHypothesis =>
    obtain ⟨next, others, isBehind, reads, -⟩ := exists_of_read_cons reads
    rw [read_cons (behind_deeper isBehind) (inductionHypothesis reads)]
    simp [deeper, outside]

/-- Flat text is read at any depth, and seen outside all brackets. -/
theorem read_flat (depth : Nat) (flat : ∀ c ∈ text, Flat c) :
    read ⟨depth, false⟩ text = some (⟨depth, false⟩, if depth = 0 then text else []) := by
  induction text with
  | nil =>
    rw [read, ite_self]
  | cons c rest inductionHypothesis =>
    obtain ⟨ofFirst, ofRest⟩ := List.forall_mem_cons.mp flat
    rw [read_cons (behind_flat ofFirst) (inductionHypothesis ofRest)]
    by_cases isOutside : depth = 0 <;> simp [isOutside, outside]

/-- A quoted text is read at any depth, and of it at most quotes are seen. -/
theorem read_quoted (depth : Nat) (content : List Char) :
    ∃ seen, read ⟨depth, false⟩ ('\'' :: Quoted.escape '\'' content ++ ['\'']) =
      some (⟨depth, false⟩, seen) ∧ ∀ c ∈ seen, c = '\'' := by
  have opens : behind ⟨depth, false⟩ '\'' = some ⟨depth, true⟩ := rfl
  have closes : behind ⟨depth, true⟩ '\'' = some ⟨depth, false⟩ := rfl
  have onlyQuotes {seen : List Char} {visible : Prop} [Decidable visible]
      (quotes : ∀ c ∈ seen, c = '\'') : ∀ c ∈ if visible then '\'' :: seen else seen, c = '\'' := by
    split
    · exact List.forall_mem_cons.mpr ⟨rfl, quotes⟩
    · exact quotes
  have inside (chars : List Char) : ∃ seen, read ⟨depth, true⟩ (Quoted.escape '\'' chars) =
      some (⟨depth, true⟩, seen) ∧ ∀ c ∈ seen, c = '\'' := by
    induction chars with
    | nil => exact ⟨[], rfl, List.forall_mem_nil _⟩
    | cons c rest inductionHypothesis =>
      obtain ⟨seen, reads, quotes⟩ := inductionHypothesis
      rw [Quoted.escape]
      by_cases isQuote : c = '\''
      · rw [if_pos isQuote]
        exact ⟨_, read_cons closes (read_cons opens reads), onlyQuotes (onlyQuotes quotes)⟩
      · rw [if_neg isQuote]
        refine ⟨_, read_cons (behind_quoted isQuote) reads, ?_⟩
        simpa [outside] using quotes
  obtain ⟨seen, reads, quotes⟩ := inside content
  have closing := read_cons closes (read.eq_1 ⟨depth, false⟩)
  refine ⟨_, read_cons opens (read_append reads closing), onlyQuotes ?_⟩
  exact List.forall_mem_append.mpr ⟨quotes, onlyQuotes (List.forall_mem_nil _)⟩

end Place

/-! ## Outlines -/

/-- What is seen of a text that closes all it opens. -/
def outline (text : String) : Option (List Char) :=
  match Place.outside.read text.toList with
  | some (⟨0, false⟩, seen) => some seen
  | _ => none

variable {first second text : String} {seen seen' : List Char}

theorem outline_eq_some_iff :
    outline text = some seen ↔ Place.outside.read text.toList = some (Place.outside, seen) := by
  unfold outline
  split
  · next reads =>
    rw [reads]
    simp [Place.outside]
  · next other =>
    constructor
    · rintro ⟨⟩
    · intro reads
      exact absurd reads (other seen)

theorem outline_append (ofFirst : outline first = some seen) (ofSecond : outline second = some seen') :
    outline (first ++ second) = some (seen ++ seen') := by
  rw [outline_eq_some_iff] at *
  rw [String.toList_append]
  exact Place.read_append ofFirst ofSecond

/-- All that stands in brackets is left out. -/
theorem outline_brackets (closed : (outline text).isSome) :
    outline ("(" ++ text ++ ")") = some ['(', ')'] := by
  obtain ⟨seen, isSeen⟩ := Option.isSome_iff_exists.mp closed
  have inside := Place.read_deeper (outline_eq_some_iff.mp isSeen)
  have closing : Place.outside.deeper.read [')'] = some (Place.outside, [')']) := rfl
  rw [outline_eq_some_iff, String.toList_append, String.toList_append]
  exact Place.read_cons rfl (Place.read_append inside closing)

theorem outline_flat (flat : ∀ c ∈ text.toList, Flat c) : outline text = some text.toList :=
  outline_eq_some_iff.mpr (Place.read_flat 0 flat)

/-- Texts with a separator between them. -/
theorem outline_intercalate {separator : String} {texts : List String} {outlines : List (List Char)}
    (flat : ∀ c ∈ separator.toList, Flat c)
    (each : List.Forall₂ (fun text seen => outline text = some seen) texts outlines) :
    outline (separator.intercalate texts) = some (separator.toList.intercalate outlines) := by
  induction each with
  | nil => rfl
  | cons ofFirst ofRest inductionHypothesis =>
    cases ofRest with
    | nil => simpa [List.intercalate] using ofFirst
    | cons =>
      rw [String.intercalate_cons_cons, List.intercalate_cons_cons]
      exact outline_append (outline_append ofFirst (outline_flat flat)) inductionHypothesis

/-- Of a quoted text only quotes are seen. -/
theorem outline_quote (content : String) :
    ∃ seen, outline (quote content) = some seen ∧ ∀ c ∈ seen, c = '\'' := by
  obtain ⟨seen, reads, quotes⟩ := Place.read_quoted 0 content.toList
  refine ⟨seen, outline_eq_some_iff.mpr ?_, quotes⟩
  rw [quote, Quoted.quoteWith, String.toList_ofList]
  exact reads

end ObjectQuery.Text
