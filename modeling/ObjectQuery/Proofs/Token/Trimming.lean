import ObjectQuery.Proofs.Text.Trimming
import ObjectQuery.Proofs.Token.Scan

/-!
Contract: trimming a text that has tokens takes no token away.

A piece begins and ends with a graphic ASCII character, so what is trimmed are the blanks in front
of the first piece and behind the last one.

Owns: `Scans.trimChars`.
-/

namespace ObjectQuery

variable {c : Char} {kind : TokenKind} {text : List Char}

/-! ### Graphic characters -/

theorem isGraphic_of_isWordPart (part : isWordPart c = true) : isGraphic c = true := by
  rw [isWordPart, Bool.or_eq_true, beq_iff_eq] at part
  rcases part with letter | rfl
  · simp only [Char.isAlphanum, Char.isAlpha, Char.isUpper, Char.isLower, Char.isDigit,
      Bool.or_eq_true, Bool.and_eq_true, decide_eq_true_eq, ge_iff_le,
      UInt32.le_iff_toNat_le] at letter
    simp at letter
    simp only [isGraphic, Bool.and_eq_true, decide_eq_true_eq]
    grind
  · decide

theorem isGraphic_of_isNumberPart (part : isNumberPart c = true) : isGraphic c = true := by
  rw [isNumberPart, Bool.or_eq_true, beq_iff_eq] at part
  rcases part with isDigit | rfl
  · exact isGraphic_of_isWordPart (by simp [isWordPart, Char.isAlphanum, isDigit])
  · decide

theorem isGraphic_of_mem_symbols
    {symbol : TokenKind × List Char}
    (member : symbol ∈ symbols)
    {d : Char}
    (inside : d ∈ symbol.2) :
    isGraphic d = true := by
  have graphic : symbols.all (fun symbol => symbol.2.all isGraphic) = true := by decide
  exact List.all_eq_true.mp (List.all_eq_true.mp graphic symbol member) d inside

/-- A piece begins and ends with a graphic character. -/
theorem isGraphic_of_firstPiece
    {more : List Char}
    {rest : List Char}
    (solid : isTokenBlank c = false)
    (first : firstPiece c (more ++ rest) = (some kind, more.length)) :
    isGraphic c = true ∧ ∀ d ∈ more.getLast?, isGraphic d = true := by
  have spelled := spelled_of_firstPiece first
  rw [List.take_left] at spelled
  by_cases quote : c = '\''
  · subst quote
    obtain ⟨rfl, content, after, -, -, -⟩ := firstPiece_quote_eq_iff.mp first
    obtain ⟨content', equal⟩ : ∃ content', '\'' :: more =
        '\'' :: Text.Quoted.escape '\'' content' ++ ['\''] := spelled
    obtain rfl : more = Text.Quoted.escape '\'' content' ++ ['\''] := by simpa using equal
    exact ⟨by decide, by simp; decide⟩
  · unfold firstPiece at first
    simp only [solid, Bool.false_eq_true, if_false, if_neg quote] at first
    split at first
    · obtain ⟨equal, -⟩ := Prod.mk.inj first
      obtain rfl := Option.some.inj equal
      obtain ⟨c', parts, split, isDigit, inside⟩ : IsNumber (c :: more) := spelled
      obtain ⟨rfl, rfl⟩ := List.cons.inj split
      refine ⟨isGraphic_of_isNumberPart (by simp [isNumberPart, isDigit]), ?_⟩
      intro d last
      exact isGraphic_of_isNumberPart (inside d (List.mem_of_getLast? last))
    · split at first
      · obtain ⟨equal, -⟩ := Prod.mk.inj first
        obtain rfl := Option.some.inj equal
        obtain ⟨c', parts, split, start, inside⟩ : IsName (c :: more) := spelled
        obtain ⟨rfl, rfl⟩ := List.cons.inj split
        refine ⟨isGraphic_of_isWordPart ?_, ?_⟩
        · rw [isWordStart, Bool.or_eq_true] at start
          rcases start with letter | underscore
          · simp [isWordPart, Char.isAlphanum, letter]
          · simp [isWordPart, underscore]
        · intro d last
          exact isGraphic_of_isWordPart (inside d (List.mem_of_getLast? last))
      · split at first
        · rename_i kind' more' symbol
          obtain ⟨-, rfl⟩ := Prod.mk.inj first
          have member := (symbol_of_symbolAt? symbol).1
          rw [List.take_left] at member
          refine ⟨isGraphic_of_mem_symbols member (List.mem_cons_self ..), ?_⟩
          intro d last
          exact isGraphic_of_mem_symbols member
            (List.mem_cons_of_mem c (List.mem_of_getLast? last))
        · simp at first

namespace Token

variable {position : Nat} {tokens : List Token}

/-! ### Blanks in front -/

theorem Scans.of_blank_cons
    (isBlank : Text.isBlank c = true)
    (scans : Scans position (c :: text) tokens) :
    isTokenBlank c = true ∧ Scans (position + c.utf8Size) text tokens := by
  cases scans with
  | blank tokenBlank behind => exact ⟨tokenBlank, behind⟩
  | piece solid split first behind =>
    subst split
    have graphic := (isGraphic_of_firstPiece solid first).1
    rw [isBlank_of_isGraphic graphic] at isBlank
    simp at isBlank

theorem Scans.trimStart (scans : Scans position text tokens) :
    ∃ behind, Scans behind (Text.trimStart text) tokens := by
  induction text generalizing position with
  | nil => exact ⟨position, scans⟩
  | cons c text inductionHypothesis =>
    by_cases isBlank : Text.isBlank c = true
    · obtain ⟨behind, trimmed⟩ := inductionHypothesis (scans.of_blank_cons isBlank).2
      exact ⟨behind, by simpa [Text.trimStart, isBlank] using trimmed⟩
    · exact ⟨position, by simpa [Text.trimStart, isBlank] using scans⟩

/-! ### Blanks behind -/

theorem Scans.of_append_blank
    (isBlank : Text.isBlank c = true)
    (scans : Scans position (text ++ [c]) tokens) :
    isTokenBlank c = true ∧ Scans position text tokens := by
  generalize whole : text ++ [c] = all at scans
  induction scans generalizing text with
  | nil => simp at whole
  | @blank position d all tokens tokenBlank behind inductionHypothesis =>
    cases text with
    | nil =>
      obtain ⟨rfl, rfl⟩ : c = d ∧ [] = all := by simpa using whole
      cases behind
      exact ⟨tokenBlank, .nil⟩
    | cons e text =>
      obtain ⟨rfl, rfl⟩ : e = d ∧ text ++ [c] = all := by simpa using whole
      obtain ⟨last, front⟩ := inductionHypothesis rfl
      exact ⟨last, .blank tokenBlank front⟩
  | @piece position d kind all more rest tokens solid split first behind inductionHypothesis =>
    subst split
    obtain ⟨graphic, lastGraphic⟩ := isGraphic_of_firstPiece solid first
    -- The blank is not the piece's last character, so it stands in the rest.
    rcases List.eq_nil_or_concat rest with rfl | ⟨front, e, split⟩
    · exfalso
      have last : (d :: more).getLast? = some c := by
        rw [show d :: more = text ++ [c] by simpa using whole.symm]
        simp
      have lastIsGraphic : isGraphic c = true := by
        rw [List.getLast?_cons] at last
        cases final : more.getLast? with
        | none =>
          obtain rfl : d = c := by simpa [final] using last
          exact graphic
        | some e =>
          obtain rfl : e = c := by simpa [final] using last
          exact lastGraphic e final
      rw [isBlank_of_isGraphic lastIsGraphic] at isBlank
      simp at isBlank
    · rw [List.concat_eq_append] at split
      subst split
      obtain ⟨rfl, rfl⟩ : text = d :: (more ++ front) ∧ c = e := by
        have joined : text ++ [c] = (d :: (more ++ front)) ++ [e] := by simpa using whole
        exact List.append_inj' joined rfl |>.imp id (by simp)
      obtain ⟨last, scansFront⟩ := inductionHypothesis rfl
      have separated : Separated [c] := separated_cons (by simp [isSeparator, last])
      refine ⟨last, .piece solid rfl ?_ scansFront⟩
      rw [← List.append_assoc] at first
      exact (firstPiece_append_iff solid separated (by simp)).mp first

theorem Scans.trimEnd (scans : Scans position text tokens) :
    Scans position (Text.trimStart text.reverse).reverse tokens := by
  induction count : text.length generalizing text with
  | zero =>
    obtain rfl := List.length_eq_zero_iff.mp count
    exact scans
  | succ count inductionHypothesis =>
    rcases List.eq_nil_or_concat text with rfl | ⟨front, c, split⟩
    · simp at count
    · rw [List.concat_eq_append] at split
      subst split
      by_cases isBlank : Text.isBlank c = true
      · have shorter := inductionHypothesis (scans.of_append_blank isBlank).2 (by simpa using count)
        simpa [Text.trimStart, isBlank] using shorter
      · simpa [Text.trimStart, isBlank] using scans

/-- A trimmed text has the tokens of the whole one, further in front. -/
theorem Scans.trimChars (scans : Scans position text tokens) :
    ∃ behind, Scans behind (Text.trimChars text) tokens := by
  obtain ⟨behind, trimmed⟩ := scans.trimStart
  exact ⟨behind, trimmed.trimEnd⟩

end Token

end ObjectQuery
