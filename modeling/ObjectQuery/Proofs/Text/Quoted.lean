import ObjectQuery.Text.Quoted

/-!
Contract: quoted text is read back, and its end is found in any context.

Owns:
- `unescape_escape`, by which doubling a delimiter loses nothing, and `escape_of_not_mem`, by which it
  does nothing where there is none;
- `scan_eq_some_iff`, by which a scan cuts a text exactly where a written quotation ends.

Does not own: string tokens.
-/

namespace ObjectQuery.Text.Quoted

variable {delimiter : Char} {content after : List Char}

theorem unescape_cons_of_ne
    {c : Char}
    (different : c ≠ delimiter)
    (rest : List Char) :
    unescape delimiter (c :: rest) = c :: unescape delimiter rest := by
  cases rest with
  | nil => rfl
  | cons d rest => simp [unescape, different]

theorem unescape_escape (delimiter : Char) (text : List Char) :
    unescape delimiter (escape delimiter text) = text := by
  induction text with
  | nil => rfl
  | cons c rest inductionHypothesis =>
    by_cases same : c = delimiter
    · simp [escape, unescape, same, inductionHypothesis]
    · rw [escape, if_neg same, unescape_cons_of_ne same, inductionHypothesis]

theorem escape_of_not_mem {text : List Char} (absent : delimiter ∉ text) :
    escape delimiter text = text := by
  induction text with
  | nil => rfl
  | cons c rest inductionHypothesis =>
    rw [escape, if_neg (List.ne_of_not_mem_cons absent).symm,
      inductionHypothesis (List.not_mem_of_not_mem_cons absent)]

/-- A written quotation is found whole when no delimiter follows it. -/
theorem scan_escape_append (content : List Char) (outside : after.head? ≠ some delimiter) :
    scan delimiter (escape delimiter content ++ delimiter :: after) = some (content, after) := by
  induction content with
  | nil =>
    cases after with
    | nil => simp [escape, scan]
    | cons d after =>
      have different : d ≠ delimiter := by simpa using outside
      simp [escape, scan, different]
  | cons c content inductionHypothesis =>
    by_cases same : c = delimiter
    · simp [escape, scan, same, inductionHypothesis]
    · -- The scan looks at the character behind `c` too, and there is one.
      obtain ⟨d, rest, split⟩ :
          ∃ d rest, escape delimiter content ++ delimiter :: after = d :: rest := by
        cases escape delimiter content with
        | nil => exact ⟨delimiter, after, rfl⟩
        | cons d rest => exact ⟨d, rest ++ delimiter :: after, rfl⟩
      rw [split] at inductionHypothesis
      rw [escape, if_neg same, List.cons_append, split]
      simp [scan, same, inductionHypothesis]

/-- A scan returns the content of a written quotation and what stands behind it. -/
theorem eq_escape_append_of_scan
    {text : List Char}
    (found : scan delimiter text = some (content, after)) :
    text = escape delimiter content ++ delimiter :: after ∧ after.head? ≠ some delimiter := by
  fun_induction scan delimiter text generalizing content with
  | case1 => simp at found
  | case2 =>
    obtain ⟨rfl, rfl⟩ : [] = content ∧ [] = after := by simpa using found
    simp [escape]
  | case3 => simp at found
  | case4 rest inductionHypothesis =>
    obtain ⟨⟨content', after'⟩, inner, equal⟩ := Option.map_eq_some_iff.mp found
    obtain ⟨rfl, rfl⟩ : delimiter :: content' = content ∧ after' = after := by simpa using equal
    obtain ⟨split, outside⟩ := inductionHypothesis inner
    exact ⟨by simp [escape, split], outside⟩
  | case5 d rest different =>
    obtain ⟨rfl, rfl⟩ : [] = content ∧ d :: rest = after := by simpa using found
    simp [escape, different]
  | case6 c d rest different inductionHypothesis =>
    obtain ⟨⟨content', after'⟩, inner, equal⟩ := Option.map_eq_some_iff.mp found
    obtain ⟨rfl, rfl⟩ : c :: content' = content ∧ after' = after := by simpa using equal
    obtain ⟨split, outside⟩ := inductionHypothesis inner
    exact ⟨by simp [escape, different, split], outside⟩

theorem scan_eq_some_iff {text : List Char} :
    scan delimiter text = some (content, after) ↔
      text = escape delimiter content ++ delimiter :: after ∧ after.head? ≠ some delimiter := by
  constructor
  · exact eq_escape_append_of_scan
  · rintro ⟨rfl, outside⟩
    exact scan_escape_append content outside

end ObjectQuery.Text.Quoted
