import ObjectQuery.Text.Blank

/-!
Contract: what trimming takes away, and what it leaves.

Owns:
- the laws of `trimStart` and `trimChars`, by which white space around a text does not count;
- graphic characters, which are no white space.

Does not own: the blanks between tokens.
-/

namespace ObjectQuery

namespace Text

variable {before text after : List Char}

/-! ### White space in front -/

theorem isBlank_head_trimStart (text : List Char) :
    ∀ c ∈ (trimStart text).head?, isBlank c = false := by
  induction text with
  | nil => simp [trimStart]
  | cons c text inductionHypothesis =>
    by_cases blank : isBlank c = true
    · simpa [trimStart, blank] using inductionHypothesis
    · simp [trimStart, blank]

theorem trimStart_eq_self (head : ∀ c ∈ text.head?, isBlank c = false) : trimStart text = text := by
  cases text with
  | nil => rfl
  | cons c text => simp [trimStart, head c rfl]

theorem trimStart_append_of_blanks (blanks : ∀ c ∈ before, isBlank c = true) :
    trimStart (before ++ text) = trimStart text :=
  List.dropWhile_append_of_pos blanks

/-! ### White space at both ends -/

/-- Trimming twice does no more than trimming once. -/
theorem trimChars_trimChars (text : List Char) : trimChars (trimChars text) = trimChars text := by
  have front : (trimChars text) <+: trimStart text := by
    rw [← List.reverse_suffix, trimChars, List.reverse_reverse]
    exact List.dropWhile_suffix isBlank
  have head : ∀ c ∈ (trimChars text).head?, isBlank c = false := by
    intro c first
    obtain ⟨behind, whole⟩ := front
    apply isBlank_head_trimStart text
    rw [← whole, List.head?_append, Option.mem_def.mp first]
    rfl
  have last : ∀ c ∈ (trimChars text).reverse.head?, isBlank c = false := by
    rw [trimChars, List.reverse_reverse]
    exact isBlank_head_trimStart _
  rw [trimChars.eq_1 (trimChars text), trimStart_eq_self head, trimStart_eq_self last,
    List.reverse_reverse]

/-- A text that neither begins nor ends with white space is what trimming leaves of it among white
space. -/
theorem trimChars_surrounded
    (nonempty : text ≠ [])
    (head : ∀ c ∈ text.head?, isBlank c = false)
    (last : ∀ c ∈ text.getLast?, isBlank c = false)
    (blanksBefore : ∀ c ∈ before, isBlank c = true)
    (blanksAfter : ∀ c ∈ after, isBlank c = true) :
    trimChars (before ++ text ++ after) = text := by
  have front : trimStart (before ++ text ++ after) = text ++ after := by
    rw [List.append_assoc, trimStart_append_of_blanks blanksBefore]
    apply trimStart_eq_self
    cases text with
    | nil => exact absurd rfl nonempty
    | cons c text => exact head
  have behind : trimStart (after.reverse ++ text.reverse) = text.reverse := by
    rw [trimStart_append_of_blanks (fun c member => blanksAfter c (List.mem_reverse.mp member))]
    apply trimStart_eq_self
    rw [List.head?_reverse]
    exact last
  rw [trimChars, front, List.reverse_append, behind, List.reverse_reverse]

end Text

/-! ### Graphic characters -/

/-- A printed ASCII character other than the space. -/
def isGraphic (c : Char) : Bool :=
  33 ≤ c.toNat && c.toNat ≤ 126

theorem isBlank_of_isGraphic {c : Char} (graphic : isGraphic c = true) :
    Text.isBlank c = false := by
  simp only [isGraphic, Bool.and_eq_true, decide_eq_true_eq] at graphic
  simp only [Text.isBlank, Bool.or_eq_false_iff, Bool.and_eq_false_iff, decide_eq_false_iff_not,
    beq_eq_false_iff_ne]
  omega

end ObjectQuery
