import Mathlib.Data.List.Nodup
import ObjectQuery.Sql.Select
import ObjectQuery.Proofs.Text.Digits

/-!
Contract: the written names of tables.

A stem never ends in a digit, so a written name falls into its stem and its number in one way only.

Owns: that tables of different depth or number have different names, and that no name has a dot.
-/

namespace ObjectQuery.Sql.RowAlias

theorem toList_toString (n : Nat) : (toString n).toList = Nat.toDigits 10 n :=
  Nat.toList_repr

/-- A stem is a letter, or an `s` with the depth between it and a low line. -/
theorem stem_cases (depth : Nat) :
    letters[depth]? = some (stem depth) ∨
      letters[depth]? = none ∧
        (stem depth).toList = 's' :: (Nat.toDigits 10 depth ++ ['_']) := by
  cases letter : letters[depth]? with
  | some text => exact .inl (by simp [stem, letter])
  | none => exact .inr ⟨rfl, by simp [stem, letter]⟩

/-- Every letter is one character, which is neither a digit nor a dot. -/
theorem letter_shape {letter : String} (member : letter ∈ letters) :
    ∃ c, letter.toList = [c] ∧ c.isDigit = false ∧ c ≠ '.' := by
  simp only [letters, List.mem_cons, List.not_mem_nil, or_false] at member
  rcases member with rfl | rfl | rfl | rfl | rfl | rfl | rfl <;>
    exact ⟨_, rfl, by decide, by decide⟩

theorem stem_getLast (depth : Nat) :
    ∃ c, (stem depth).toList.getLast? = some c ∧ c.isDigit = false := by
  rcases stem_cases depth with found | ⟨-, spelled⟩
  · obtain ⟨c, single, noDigit, -⟩ := letter_shape (List.mem_of_getElem? found)
    exact ⟨c, by simp [single], noDigit⟩
  · exact ⟨'_', by rw [spelled, ← List.cons_append, List.getLast?_append]; rfl, by decide⟩

theorem stem_injective : Function.Injective stem := by
  intro depth depth' same
  rcases stem_cases depth with found | ⟨missing, spelled⟩ <;>
    rcases stem_cases depth' with found' | ⟨missing', spelled'⟩
  · have distinct : letters.Nodup := by decide
    obtain ⟨inside, -⟩ := List.getElem?_eq_some_iff.mp found
    exact (List.getElem?_inj inside distinct).mp (by rw [found, found', same])
  · obtain ⟨c, single, -, -⟩ := letter_shape (List.mem_of_getElem? found)
    rw [same, spelled'] at single
    simp at single
  · obtain ⟨c, single, -, -⟩ := letter_shape (List.mem_of_getElem? found')
    rw [← same, spelled] at single
    simp at single
  · have digits : Nat.toDigits 10 depth = Nat.toDigits 10 depth' := by
      rw [same, spelled'] at spelled
      simpa using spelled.symm
    rw [← Text.digitsValue_toDigits depth, digits, Text.digitsValue_toDigits]

/-- A row of digits behind a character that is no digit is cut off in one way only. -/
theorem append_digits_inj
    {front front' digits digits' : List Char}
    (last : ∃ c, front.getLast? = some c ∧ c.isDigit = false)
    (last' : ∃ c, front'.getLast? = some c ∧ c.isDigit = false)
    (allDigits : ∀ c ∈ digits, c.isDigit = true)
    (allDigits' : ∀ c ∈ digits', c.isDigit = true)
    (same : front ++ digits = front' ++ digits') :
    front = front' ∧ digits = digits' := by
  -- What one front has beyond the other would be digits at its end.
  have noExcess {shorter longer excess rest rest' : List Char}
      (ends : ∃ c, longer.getLast? = some c ∧ c.isDigit = false)
      (isLonger : longer = shorter ++ excess)
      (begins : rest = excess ++ rest')
      (areDigits : ∀ c ∈ rest, c.isDigit = true) : excess = [] := by
    obtain ⟨c, isLast, noDigit⟩ := ends
    by_contra nonempty
    rw [isLonger, List.getLast?_append_of_ne_nil _ nonempty] at isLast
    have member : c ∈ rest := begins ▸ List.mem_append_left _ (List.mem_of_getLast? isLast)
    simp [areDigits c member] at noDigit
  rcases List.append_eq_append_iff.mp same with ⟨excess, longer, begins⟩ | ⟨excess, longer, begins⟩
  · obtain rfl := noExcess last' longer begins allDigits
    exact ⟨by simpa using longer.symm, begins⟩
  · obtain rfl := noExcess last longer begins allDigits'
    exact ⟨by simpa using longer, begins.symm⟩

theorem toList_text (name : RowAlias) :
    name.text.toList = (stem name.depth).toList ++ Nat.toDigits 10 name.number := by
  rw [text, String.toList_append, toList_toString]

/-- Tables of different depth or number have different names. -/
theorem text_injective : Function.Injective text := by
  rintro ⟨depth, number⟩ ⟨depth', number'⟩ same
  have lists := congrArg String.toList same
  rw [toList_text, toList_text] at lists
  obtain ⟨stems, digits⟩ := append_digits_inj (stem_getLast depth) (stem_getLast depth')
    (fun c => Text.isDigit_of_mem_toDigits) (fun c => Text.isDigit_of_mem_toDigits) lists
  obtain rfl : depth = depth' := stem_injective (String.toList_injective stems)
  obtain rfl : number = number' := by
    rw [← Text.digitsValue_toDigits number, digits, Text.digitsValue_toDigits]
  rfl

theorem dot_not_mem_text (name : RowAlias) : '.' ∉ name.text.toList := by
  have noDot {n : Nat} : '.' ∉ Nat.toDigits 10 n := fun member =>
    absurd (Text.isDigit_of_mem_toDigits member) (by decide)
  rw [toList_text, List.mem_append, not_or]
  refine ⟨?_, noDot⟩
  rcases stem_cases name.depth with found | ⟨-, spelled⟩
  · obtain ⟨c, single, -, notDot⟩ := letter_shape (List.mem_of_getElem? found)
    simpa [single] using notDot.symm
  · simp [spelled, noDot]

/-- A name with a field behind a dot falls into the two in one way only, whatever the field. -/
theorem dotted_injective
    {name name' : RowAlias}
    {field field' : String}
    (same : name.text ++ "." ++ field = name'.text ++ "." ++ field') :
    name = name' ∧ field = field' := by
  have spelled (name : RowAlias) (field : String) :
      (name.text ++ "." ++ field).toList = name.text.toList ++ '.' :: field.toList := by
    simp only [String.toList_append, List.append_assoc]
    rfl
  have front (name : RowAlias) (field : String) :
      (name.text ++ "." ++ field).toList.takeWhile (· ≠ '.') = name.text.toList := by
    rw [spelled, List.takeWhile_append_of_pos]
    · simp
    · intro c member
      exact decide_eq_true fun isDot => dot_not_mem_text name (isDot ▸ member)
  obtain rfl : name = name' := by
    refine text_injective (String.toList_injective ?_)
    rw [← front name field, same, front]
  have lists := congrArg String.toList same
  rw [spelled, spelled, List.append_cancel_left_eq, List.cons.injEq] at lists
  exact ⟨rfl, String.toList_injective lists.2⟩

end ObjectQuery.Sql.RowAlias
