import Mathlib.Data.List.Chain
import ObjectQuery.Proofs.Text.Quoted

/-!
Contract: a text cut into its string literals and what stands outside them.

A text that is put together from plain characters and quoted contents is cut where it was put
together, as long as no plain character is a quote and no two contents touch.

Owns:
- `Cut`, `cutLiterals` and `Cut.CommentFree`;
- `Template`, a text whose literals are filled in later, and that it is cut into its pieces;
- the laws by which templates are put together.

Does not own: the texts of statements.
-/

namespace ObjectQuery.Text

/-- What stands outside the string literals of a text, where none marks a literal, and the contents
of the literals. -/
structure Cut where
  outside : List (Option Char)
  literals : List String
deriving DecidableEq, Repr

/-- A quote opens a literal, a doubled quote inside it stands for one, and the literal ends at a
quote that is not doubled. A text whose last literal does not end is not cut. -/
def cutLiterals : List Char → Option Cut
  | [] => some ⟨[], []⟩
  | c :: rest =>
    if c = '\'' then
      match _found : Quoted.scan '\'' rest with
      | none => none
      | some (content, after) =>
        (cutLiterals after).map fun cut =>
          ⟨none :: cut.outside, String.ofList content :: cut.literals⟩
    else
      (cutLiterals rest).map fun cut => ⟨some c :: cut.outside, cut.literals⟩
termination_by text => text.length
decreasing_by
  · have shorter := congrArg List.length (Quoted.eq_escape_append_of_scan _found).1
    simp only [List.length_append, List.length_cons] at shorter ⊢
    omega
  · exact Nat.lt_succ_self _

/-- Two characters that open a comment. -/
def OpensComment (first second : Option Char) : Prop :=
  (first = some '-' ∧ second = some '-') ∨ (first = some '/' ∧ second = some '*')

/-- No comment is opened outside the literals. -/
def CommentFree (outside : List (Option Char)) : Prop :=
  List.IsChain (fun first second => ¬OpensComment first second) outside

/-! ## Templates -/

/-- Contents of literals by an address. -/
abbrev Strings := List Nat → String

/-- The contents below an address of one number. -/
def Strings.under (strings : Strings) (index : Nat) : Strings :=
  fun address => strings (index :: address)

/-- Where the content of a literal comes from. -/
inductive Slot where
  | fixed (content : String)
  | node (address : List Nat)
deriving DecidableEq, Repr

/-- The content of a literal. -/
def Slot.content (strings : Strings) : Slot → String
  | .fixed content => content
  | .node address => strings address

/-- The slot with its content below an address. -/
def Slot.under (index : Nat) : Slot → Slot
  | .fixed content => .fixed content
  | .node address => .node (index :: address)

/-- A character outside literals, or a literal. -/
inductive Piece where
  | plain (c : Char)
  | literal (slot : Slot)
deriving DecidableEq, Repr

/-- The text of a piece. -/
def Piece.written (strings : Strings) : Piece → List Char
  | .plain c => [c]
  | .literal slot => '\'' :: Quoted.escape '\'' (slot.content strings).toList ++ ['\'']

/-- What is seen of a piece outside literals. -/
def Piece.mark : Piece → Option Char
  | .plain c => some c
  | .literal _ => none

/-- The slot of a literal. -/
def Piece.slot? : Piece → Option Slot
  | .plain _ => none
  | .literal slot => some slot

/-- The piece with the content of a literal below an address. -/
def Piece.under (index : Nat) : Piece → Piece
  | .plain c => .plain c
  | .literal slot => .literal (slot.under index)

theorem Piece.mark_under (index : Nat) (piece : Piece) : (piece.under index).mark = piece.mark := by
  cases piece <;> rfl

/-- A text whose literals are filled in later. -/
abbrev Template := List Piece

namespace Template

/-- The text with the literals filled in. -/
def fill (strings : Strings) (template : Template) : List Char :=
  template.flatMap (·.written strings)

/-- The template whose contents are found below an address. -/
def under (index : Nat) (template : Template) : Template :=
  template.map (·.under index)

theorem fill_under (strings : Strings) (index : Nat) (template : Template) :
    fill strings (template.under index) = fill (strings.under index) template := by
  rw [fill, under, List.flatMap_map]
  refine List.flatMap_congr fun piece _ => ?_
  cases piece with
  | plain c => rfl
  | literal slot => cases slot <;> rfl

/-- No plain character is a quote, and no two literals touch. -/
structure Sound (template : Template) : Prop where
  unquoted : .plain '\'' ∉ template
  apart : List.IsChain (fun first second => ¬(first.mark = none ∧ second.mark = none)) template

/-- The first character behind a literal is no quote. -/
theorem head?_fill_ne_quote {template : Template} {slot : Slot} (strings : Strings)
    (sound : Sound (.literal slot :: template)) : (fill strings template).head? ≠ some '\'' := by
  cases template with
  | nil => simp [fill]
  | cons piece rest =>
    cases piece with
    | literal slot' =>
      have touching := (List.isChain_cons_cons.mp sound.apart).1
      exact absurd ⟨rfl, rfl⟩ touching
    | plain c =>
      have unquoted := sound.unquoted
      simp only [List.mem_cons, reduceCtorEq, Piece.plain.injEq, false_or, not_or] at unquoted
      simpa [fill, Piece.written, eq_comm] using unquoted.1

theorem Sound.tail {piece : Piece} {template : Template} (sound : Sound (piece :: template)) :
    Sound template :=
  ⟨fun member => sound.unquoted (List.mem_cons_of_mem _ member), sound.apart.tail⟩

/-- A filled template is cut into its pieces. -/
theorem cutLiterals_fill {template : Template} (strings : Strings) (sound : Sound template) :
    cutLiterals (fill strings template) =
      some ⟨template.map Piece.mark, (template.filterMap Piece.slot?).map (·.content strings)⟩ := by
  induction template with
  | nil => rw [fill, List.flatMap_nil, cutLiterals]; rfl
  | cons piece rest inductionHypothesis =>
    have inRest := inductionHypothesis sound.tail
    cases piece with
    | plain c =>
      have isPlain : c ≠ '\'' := by
        rintro rfl
        exact sound.unquoted List.mem_cons_self
      rw [show fill strings (.plain c :: rest) = c :: fill strings rest from rfl, cutLiterals,
        if_neg isPlain, inRest]
      rfl
    | literal slot =>
      -- what follows is no quote, so the scan ends at the quote that was written last
      have found := Quoted.scan_escape_append (slot.content strings).toList
        (head?_fill_ne_quote strings sound)
      rw [show fill strings (.literal slot :: rest) =
        '\'' :: (Quoted.escape '\'' (slot.content strings).toList ++ '\'' :: fill strings rest) by
          simp [fill, Piece.written], cutLiterals, if_pos rfl]
      split
      · next none => rw [found] at none; cases none
      · next content after some =>
        rw [found] at some
        obtain ⟨rfl, rfl⟩ := Prod.mk.inj (Option.some.inj some)
        rw [inRest, String.ofList_toList]
        rfl

/-- The first character of a filled template is plain unless it opens a literal. -/
theorem head?_fill_eq {template : Template} (strings : Strings) {c : Char} (notQuote : c ≠ '\'') :
    (fill strings template).head? = some c ↔ template.head? = some (.plain c) := by
  cases template with
  | nil => simp [fill]
  | cons piece rest =>
    cases piece with
    | plain d => simp [fill, Piece.written]
    | literal slot => simp [fill, Piece.written, notQuote.symm]

end Template

/-! ## Putting templates together -/

/-- A character that joins to anything: it is no quote, and where comments matter no part of what
opens one. -/
def Mild (strict : Prop) (c : Char) : Prop :=
  c ≠ '\'' ∧ (strict → c ≠ '-' ∧ c ≠ '/' ∧ c ≠ '*')

/-- A plain text that joins to anything on both sides. -/
structure Separator (strict : Prop) (text : List Char) : Prop where
  unquoted : '\'' ∉ text
  calm : strict → CommentFree (text.map some)
  head : ∃ c, text.head? = some c ∧ Mild strict c
  last : ∃ c, text.getLast? = some c ∧ Mild strict c

variable {strict : Prop}

/-- Behind a mild character no comment opens. -/
theorem Mild.not_opensComment_left {c : Char} (mild : Mild strict c) (isStrict : strict)
    (next : Option Char) : ¬OpensComment (some c) next := by
  obtain ⟨noDash, noSlash, -⟩ := mild.2 isStrict
  rintro (⟨isDash, -⟩ | ⟨isSlash, -⟩)
  · exact noDash (Option.some.inj isDash)
  · exact noSlash (Option.some.inj isSlash)

theorem Mild.not_opensComment_right {c : Char} (mild : Mild strict c) (isStrict : strict)
    (before : Option Char) : ¬OpensComment before (some c) := by
  obtain ⟨noDash, -, noStar⟩ := mild.2 isStrict
  rintro (⟨-, isDash⟩ | ⟨-, isStar⟩)
  · exact noDash (Option.some.inj isDash)
  · exact noStar (Option.some.inj isStar)

/-- A text of mild characters opens no comment, whatever its first character is. -/
theorem commentFree_cons_of_mild {first : Option Char} {text : List Char} (isStrict : strict)
    (mild : ∀ c ∈ text, Mild strict c) : CommentFree (first :: text.map some) := by
  induction text generalizing first with
  | nil => exact List.isChain_singleton _
  | cons c rest inductionHypothesis =>
    obtain ⟨ofFirst, ofRest⟩ := List.forall_mem_cons.mp mild
    exact List.isChain_cons_cons.mpr
      ⟨ofFirst.not_opensComment_right isStrict first, inductionHypothesis ofRest⟩

theorem commentFree_of_mild {text : List Char} (isStrict : strict)
    (mild : ∀ c ∈ text, Mild strict c) : CommentFree (text.map some) := by
  cases text with
  | nil => exact List.isChain_nil
  | cons c rest => exact commentFree_cons_of_mild isStrict (List.forall_mem_cons.mp mild).2

theorem Separator.of_mild {text : List Char} (nonempty : text ≠ [])
    (mild : ∀ c ∈ text, Mild strict c) : Separator strict text where
  unquoted := fun member => (mild _ member).1 rfl
  calm := fun isStrict => commentFree_of_mild isStrict mild
  head := ⟨_, List.head?_eq_some_head nonempty, mild _ (List.head_mem nonempty)⟩
  last := ⟨_, List.getLast?_eq_some_getLast nonempty, mild _ (List.getLast_mem nonempty)⟩

/-- Text that is plain. -/
def Template.ofPlain (text : List Char) : Template :=
  text.map .plain

/-- A template is sound, and where comments matter it opens none exactly under a condition. -/
structure Template.Good (strict : Prop) (template : Template) (free : Prop) : Prop where
  sound : template.Sound
  comments : strict → (CommentFree (template.map Piece.mark) ↔ free)

namespace Template

variable {first second : Template} {a b : Prop}

theorem good_ofPlain {text : List Char} (unquoted : '\'' ∉ text)
    (calm : strict → CommentFree (text.map some)) : Good strict (ofPlain text) True where
  sound := by
    refine ⟨by simpa [ofPlain] using unquoted, ?_⟩
    rw [ofPlain, List.isChain_map]
    exact (List.pairwise_of_forall fun c d touching => Option.some_ne_none _ touching.1).isChain
  comments := fun isStrict => by
    have marks : (ofPlain text).map Piece.mark = text.map some := by simp [ofPlain, Piece.mark]
    exact iff_true_intro (marks ▸ calm isStrict)

/-- Two templates one after the other, when neither two literals nor the parts of what opens a
comment come to touch. -/
theorem Good.append
    (ofFirst : Good strict first a)
    (ofSecond : Good strict second b)
    (apart : ∀ x ∈ first.getLast?, ∀ y ∈ second.head?, ¬(x.mark = none ∧ y.mark = none))
    (calm : strict → ∀ x ∈ first.getLast?, ∀ y ∈ second.head?, ¬OpensComment x.mark y.mark) :
    Good strict (first ++ second) (a ∧ b) where
  sound := by
    refine ⟨?_, List.isChain_append.mpr ⟨ofFirst.sound.apart, ofSecond.sound.apart, apart⟩⟩
    rw [List.mem_append, not_or]
    exact ⟨ofFirst.sound.unquoted, ofSecond.sound.unquoted⟩
  comments := fun isStrict => by
    have junction : ∀ x ∈ (first.map Piece.mark).getLast?, ∀ y ∈ (second.map Piece.mark).head?,
        ¬OpensComment x y := by
      intro x isLast y isHead
      rw [List.getLast?_map] at isLast
      rw [List.head?_map] at isHead
      obtain ⟨piece, last, rfl⟩ := Option.map_eq_some_iff.mp isLast
      obtain ⟨piece', head, rfl⟩ := Option.map_eq_some_iff.mp isHead
      exact calm isStrict piece last piece' head
    -- nothing opens at the junction, so what is left are the two conditions of the parts
    rw [List.map_append, CommentFree, List.isChain_append]
    exact (and_congr (ofFirst.comments isStrict)
      ((and_iff_left junction).trans (ofSecond.comments isStrict)))

/-- A template behind a minus sign in a bracket. -/
theorem Good.negated
    (good : Good strict first a) :
    Good strict (.plain '(' :: .plain '-' :: first) (a ∧ first.head? ≠ some (.plain '-')) where
  sound := by
    refine ⟨?_, List.isChain_cons_cons.mpr ⟨fun touching => Option.some_ne_none _ touching.1,
      List.isChain_cons.mpr ⟨fun _ _ touching => Option.some_ne_none _ touching.1,
        good.sound.apart⟩⟩⟩
    have unquoted := good.sound.unquoted
    simpa using unquoted
  comments := fun isStrict => by
    have calm : ¬OpensComment (some '(') (some '-') := by simp [OpensComment]
    have begins : (∀ y ∈ (first.map Piece.mark).head?, ¬OpensComment (some '-') y) ↔
        first.head? ≠ some (.plain '-') := by
      rw [List.head?_map]
      cases first.head? with
      | none => simp
      | some piece => cases piece <;> simp [OpensComment, Piece.mark]
    rw [List.map_cons, List.map_cons, CommentFree]
    refine List.isChain_cons_cons.trans ((and_iff_right calm).trans ?_)
    rw [List.isChain_cons, and_comm]
    exact and_congr (good.comments isStrict) begins

/-- Two templates with a separator between them. -/
theorem Good.separated {separator : List Char}
    (ofFirst : Good strict first a)
    (between : Separator strict separator)
    (ofSecond : Good strict second b) :
    Good strict (first ++ (ofPlain separator ++ second)) (a ∧ b) := by
  obtain ⟨c, isHead, mildHead⟩ := between.head
  obtain ⟨d, isLast, mildLast⟩ := between.last
  have ofBetween := good_ofPlain between.unquoted between.calm
  have lastPiece : (ofPlain separator).getLast? = some (.plain d) := by simp [ofPlain, isLast]
  have headPiece : (ofPlain separator ++ second).head? = some (.plain c) := by
    simp [ofPlain, List.head?_append, isHead]
  have behind : Good strict (ofPlain separator ++ second) (True ∧ b) := by
    refine ofBetween.append ofSecond ?_ ?_ <;> simp only [lastPiece, Option.mem_some_iff, forall_eq']
    · exact fun y _ touching => Option.some_ne_none _ touching.1
    · exact fun isStrict y _ => mildLast.not_opensComment_left isStrict y.mark
  rw [true_and] at behind
  refine ofFirst.append behind ?_ ?_ <;> simp only [headPiece, Option.mem_some_iff, forall_eq']
  · exact fun x _ touching => Option.some_ne_none _ touching.2
  · exact fun isStrict x _ => mildHead.not_opensComment_right isStrict x.mark

end Template

/-! ## Texts that are templates -/

/-- A text that depends on the contents of literals within these literals only. Where comments
matter it opens none exactly under a condition. -/
def Shaped (strict : Prop) (text : Strings → String) (free : Prop) : Prop :=
  ∃ template : Template, (∀ strings, (text strings).toList = template.fill strings) ∧
    template.Good strict free

namespace Shaped

variable {first second : Strings → String} {a b : Prop}

theorem congr (shaped : Shaped strict first a)
    (sameText : ∀ strings, second strings = first strings)
    (sameFree : b ↔ a) : Shaped strict second b := by
  obtain ⟨template, spells, good⟩ := shaped
  rw [propext sameFree]
  exact ⟨template, fun strings => (congrArg String.toList (sameText strings)).trans (spells strings),
    good⟩

theorem of_eq (shaped : Shaped strict first a)
    (sameText : ∀ strings, second strings = first strings) : Shaped strict second a :=
  shaped.congr sameText Iff.rfl

theorem fill_ofPlain (strings : Strings) (text : List Char) :
    (Template.ofPlain text).fill strings = text := by
  induction text with
  | nil => rfl
  | cons c rest inductionHypothesis =>
    exact congrArg (c :: ·) inductionHypothesis

theorem fill_append (strings : Strings) (first second : Template) :
    Template.fill strings (first ++ second) = first.fill strings ++ second.fill strings :=
  List.flatMap_append

/-- A text without literals. -/
theorem plain {text : String} (unquoted : '\'' ∉ text.toList)
    (calm : strict → CommentFree (text.toList.map some)) : Shaped strict (fun _ => text) True :=
  ⟨.ofPlain text.toList, fun strings => (fill_ofPlain strings _).symm,
    Template.good_ofPlain unquoted calm⟩

theorem of_mild {text : String} (mild : ∀ c ∈ text.toList, Mild strict c) :
    Shaped strict (fun _ => text) True :=
  plain (fun member => (mild _ member).1 rfl) fun isStrict => commentFree_of_mild isStrict mild

theorem empty : Shaped strict (fun _ => "") True :=
  of_mild (List.forall_mem_nil _)

/-- A literal. -/
theorem literal (slot : Slot) : Shaped strict (fun strings => quote (slot.content strings)) True := by
  refine ⟨[.literal slot], fun strings => ?_, ⟨by simp, List.isChain_singleton _⟩, fun _ => ?_⟩
  · simp [quote, Quoted.quoteWith, Template.fill, Piece.written]
  · exact iff_true_intro (List.isChain_singleton _)

/-- Two texts with a separator between them. -/
theorem separated {separator : String}
    (ofFirst : Shaped strict first a)
    (between : Separator strict separator.toList)
    (ofSecond : Shaped strict second b) :
    Shaped strict (fun strings => first strings ++ separator ++ second strings) (a ∧ b) := by
  obtain ⟨template, spells, good⟩ := ofFirst
  obtain ⟨template', spells', good'⟩ := ofSecond
  refine ⟨_, fun strings => ?_, good.separated between good'⟩
  rw [fill_append, fill_append, fill_ofPlain, ← spells, ← spells', String.toList_append,
    String.toList_append, List.append_assoc]

/-- A text behind a separator. -/
theorem behind {separator : String}
    (before : Separator strict separator.toList)
    (shaped : Shaped strict first a) :
    Shaped strict (fun strings => separator ++ first strings) a :=
  (empty.separated before shaped).congr (fun _ => by simp) (by simp)

/-- A text in front of a separator. -/
theorem before {separator : String}
    (shaped : Shaped strict first a)
    (after : Separator strict separator.toList) :
    Shaped strict (fun strings => first strings ++ separator) a :=
  (shaped.separated after empty).congr (fun _ => by simp) (by simp)

/-- A text behind a minus sign, which opens a comment with one of the text. -/
theorem negated {minus : Prop}
    (shaped : Shaped strict first a)
    (begins : strict → ∀ strings, (first strings).toList.head? = some '-' ↔ minus) :
    Shaped strict (fun strings => "(-" ++ first strings ++ ")") (a ∧ ¬minus) := by
  have closing : Separator strict ")".toList := .of_mild (by simp) (by simp [Mild])
  obtain ⟨template, spells, good⟩ := shaped.before closing
  refine ⟨_, fun strings => ?_, good.negated.sound, fun isStrict => ?_⟩
  · show ("(-" ++ first strings ++ ")").toList = '(' :: '-' :: template.fill strings
    rw [← spells, String.append_assoc, String.toList_append]
    rfl
  · refine (good.negated.comments isStrict).trans (and_congr_right fun _ => not_congr ?_)
    let strings : Strings := fun _ => ""
    rw [← begins isStrict strings, ← Template.head?_fill_eq strings (by decide), ← spells,
      String.toList_append, List.head?_append]
    cases (first strings).toList.head? <;> simp

/-- The same text with the contents taken from below an address. -/
theorem under (shaped : Shaped strict first a) (index : Nat) :
    Shaped strict (fun strings => first (strings.under index)) a := by
  obtain ⟨template, spells, good⟩ := shaped
  have marks : (template.under index).map Piece.mark = template.map Piece.mark := by
    rw [Template.under, List.map_map]
    exact List.map_congr_left fun piece _ => piece.mark_under index
  refine ⟨template.under index, fun strings => ?_, ⟨fun member => ?_, ?_⟩, fun isStrict => ?_⟩
  · rw [spells, Template.fill_under]
  · obtain ⟨piece, isPiece, same⟩ := List.mem_map.mp member
    cases piece with
    | plain c =>
      obtain rfl := Piece.plain.inj same
      exact good.sound.unquoted isPiece
    | literal slot => cases same
  · rw [Template.under, List.isChain_map]
    simpa only [Piece.mark_under] using good.sound.apart
  · rw [marks]
    exact good.comments isStrict

end Shaped

/-- Texts that are shaped, which all open no comment exactly under a condition. -/
inductive ShapedEach (strict : Prop) : (Strings → List String) → Prop → Prop
  | nil : ShapedEach strict (fun _ => []) True
  | cons {first : Strings → String} {others : Strings → List String} {a b : Prop}
      (ofFirst : Shaped strict first a)
      (ofOthers : ShapedEach strict others b) :
      ShapedEach strict (fun strings => first strings :: others strings) (a ∧ b)

namespace ShapedEach

variable {texts texts' : Strings → List String} {a b : Prop}

theorem congr (ofEach : ShapedEach strict texts a)
    (sameTexts : ∀ strings, texts' strings = texts strings)
    (sameFree : b ↔ a) : ShapedEach strict texts' b := by
  rw [funext sameTexts, propext sameFree]
  exact ofEach

theorem singleton {text : Strings → String} (shaped : Shaped strict text a) :
    ShapedEach strict (fun strings => [text strings]) a :=
  (ShapedEach.cons shaped .nil).congr (fun _ => rfl) (by simp)

theorem under (ofEach : ShapedEach strict texts a) (index : Nat) :
    ShapedEach strict (fun strings => texts (strings.under index)) a := by
  induction ofEach with
  | nil => exact .nil
  | cons first _ inductionHypothesis => exact .cons (first.under index) inductionHypothesis

theorem append (ofFirst : ShapedEach strict texts a) (ofSecond : ShapedEach strict texts' b) :
    ShapedEach strict (fun strings => texts strings ++ texts' strings) (a ∧ b) := by
  induction ofFirst with
  | nil => simpa using ofSecond
  | cons first _ inductionHypothesis =>
    simpa [and_assoc] using ShapedEach.cons first inductionHypothesis

/-- Texts joined by a separator. -/
theorem intercalate {separator : String} (ofEach : ShapedEach strict texts a)
    (between : Separator strict separator.toList) :
    Shaped strict (fun strings => separator.intercalate (texts strings)) a := by
  induction ofEach with
  | nil => simpa using Shaped.empty
  | cons first others inductionHypothesis =>
    cases others with
    | nil => simpa using first
    | cons second rest =>
      simp only [String.intercalate_cons_cons]
      exact first.separated between inductionHypothesis

end ShapedEach

end ObjectQuery.Text
