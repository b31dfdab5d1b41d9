import ObjectQuery.Proofs.Expr.Primaries
import ObjectQuery.Proofs.Expr.Rereading.Operators

/-!
Contract: literals, parameters, calls and paths are read back.

A call asks of its arguments that none of them is taken for a negation; of its own name nothing is
asked, since no form looks for a word in front of a primary. The others ask nothing.

Owns: every form without an operator and without a query inside.

Does not own: queries.
-/

namespace ObjectQuery

open Grammar Token

variable {source : List Char} {e : Expr}

/-! ### Literals and parameters -/

/-- A word of the language by itself. -/
theorem Expr.readsBack_of_word
    (word : String)
    (isName : IsName e.text.toList)
    (lower : e.text.toLower = word)
    (leaf : e.Everywhere Shelters)
    (isPrimary : ∀ token : Token, token.isWord word = true → IsPrimary source 2 [token] e) :
    e.ReadsBack source := by
  intro position placed
  have scans := Scans.wholeName isName position
  exact ⟨_, scans, ((isPrimary _ (word_isWord position lower)).mono (by simp)).isGroup leaf⟩

theorem Expr.readsBack_boolean (value : Bool) : (Expr.boolean value).ReadsBack source := by
  cases value with
  | true =>
    refine readsBack_of_word "true" ?_ ?_ (sheltered_of_leaf rfl rfl) fun token => isPrimary_true
    · decide
    · show "true".toLower = "true"
      exact Text.toLower_eq (by decide)
  | false =>
    refine readsBack_of_word "false" ?_ ?_ (sheltered_of_leaf rfl rfl) fun token => isPrimary_false
    · decide
    · show "false".toLower = "false"
      exact Text.toLower_eq (by decide)

theorem Expr.readsBack_null : (Expr.literal .null).ReadsBack source := by
  refine readsBack_of_word "null" ?_ ?_ (sheltered_of_leaf rfl rfl) fun token => isPrimary_null
  · decide
  · show "null".toLower = "null"
    exact Text.toLower_eq (by decide)

/-- A number by itself. -/
theorem Expr.readsBack_of_number
    {value : Value}
    (isNumber : IsNumber value.literalText.toList)
    (stands : numberValue? value.literalText = some value) :
    (Expr.literal value).ReadsBack source := by
  intro position placed
  have scans := Scans.wholeNumber isNumber position
  have isPrimary : IsPrimary source 1 [⟨.number, value.literalText, position⟩] (.literal value) :=
    isPrimary_number rfl stands
  exact ⟨_, scans, (isPrimary.mono (by simp)).isGroup (sheltered_of_leaf rfl rfl)⟩

theorem Expr.readsBack_quotation (text : String) :
    (Expr.literal (.string text)).ReadsBack source := by
  intro position placed
  have scans := Scans.wholeQuote text position
  have isPrimary : IsPrimary source 1 [⟨.string, Text.quote text, position⟩]
      (.literal (.string text)) := isPrimary_string rfl (stringValue?_quote text position)
  exact ⟨_, scans, (isPrimary.mono (by simp)).isGroup (sheltered_of_leaf rfl rfl)⟩

theorem Expr.readsBack_literal
    {value : Value}
    (readable : value.Readable) :
    (Expr.literal value).ReadsBack source := by
  cases value with
  | null => exact readsBack_null
  | integer n =>
    refine readsBack_of_number ?_ (numberValue?_integerText readable)
    rw [toList_literalText_integer readable.1]
    exact isNumber_of_digits (fun c member => Text.isDigit_of_mem_toDigits member)
      Nat.toDigits_ne_nil
  | decimal d =>
    have text : (Value.decimal d).literalText = d.text := rfl
    refine readsBack_of_number ?_ ?_
    · rw [text]
      exact isNumber_decimalText readable.1
    · rw [text]
      exact numberValue?_decimalText readable
  | string text => exact readsBack_quotation text
  | _ => exact absurd readable (by simp [Value.Readable])

theorem Expr.readsBack_parameter
    {index : Nat}
    {modifier : Option String}
    (small : index < 2 ^ 64)
    (isName : LabelReadable modifier) :
    (Expr.parameter index modifier).ReadsBack source := by
  intro position placed
  have isNumber := isNumber_toString index
  have stands := parameterIndex?_toString small
  cases modifier with
  | none =>
    have text : (Expr.parameter index none).text.toList =
        '\x7b' :: ((toString index).toList ++ ['\x7d']) := by
      show (parameterText index none).toList = _
      simp [parameterText]
    have scans : Scans position ('\x7b' :: ((toString index).toList ++ ['\x7d'])) _ :=
      .leftCurly (.number isNumber (by simp; decide) (.rightCurly .nil))
    rw [text]
    rw [String.ofList_toList] at scans
    refine ⟨_, scans, IsPrimary.isGroup ?_ (sheltered_of_leaf rfl rfl)⟩
    exact IsPrimary.mono (isPrimary_parameter rfl rfl stands rfl) (by simp)
  | some name =>
    have text : (Expr.parameter index (some name)).text.toList =
        '\x7b' :: ((toString index).toList ++ ':' :: (name.toList ++ ['\x7d'])) := by
      show (parameterText index (some name)).toList = _
      simp [parameterText]
    have scans : Scans position
        ('\x7b' :: ((toString index).toList ++ ':' :: (name.toList ++ ['\x7d']))) _ :=
      .leftCurly (.number isNumber (by simp; decide) (.colon
        (.name (isName name rfl) (by simp; decide) (.rightCurly .nil))))
    rw [text]
    rw [String.ofList_toList, String.ofList_toList] at scans
    refine ⟨_, scans, IsPrimary.isGroup ?_ (sheltered_of_leaf rfl rfl)⟩
    exact IsPrimary.mono (isPrimary_modifiedParameter rfl rfl stands rfl rfl rfl) (by simp)

/-! ### Raw text and calls -/

theorem Expr.readsBack_raw
    {raw : String}
    (readable : RawReadable raw.toList) :
    (Expr.raw raw).ReadsBack source := by
  intro position placed
  have lower : "RAWQUERY".toLower = "rawquery" := Text.toLower_eq (by decide)
  have isName : IsName "RAWQUERY".toList := by decide
  have text : (Expr.raw raw).text.toList = "RAWQUERY".toList ++ '(' :: (raw.toList ++ [')']) := by
    show ("RAWQUERY(" ++ raw ++ ")").toList = _
    simp
  rw [text] at placed ⊢
  let place := position + byteLength "RAWQUERY".toList
  let opening : Token := ⟨.leftParen, "(", place⟩
  let closing : Token := ⟨.rightParen, ")", place + 1 + byteLength raw.toList⟩
  have placedRaw : Placed source (opening.position + 1) raw.toList := placed.back.tail.front
  have ends : closing.position = opening.position + 1 + byteLength raw.toList := rfl
  obtain ⟨inner, scansInner, reads⟩ := rawText_of_readable readable placedRaw rfl ends
  have scansBehind := Scans.leftParen (scansInner.append (separated_cons (by decide))
    (.rightParen .nil))
  have scans := Scans.name isName (by simp; decide) scansBehind
  rw [String.ofList_toList] at scans
  refine ⟨_, scans, IsPrimary.isGroup ?_ (sheltered_of_leaf rfl rfl)⟩
  refine IsPrimary.mono (isPrimary_raw (word_isWord position lower) rfl reads) ?_
  simp only [List.length_cons]
  omega

theorem Expr.readsBack_call
    {function : String}
    {arguments : List Expr}
    (isFunction : IsFunction function)
    (backEach : ∀ argument ∈ arguments, argument.ReadsBack source) :
    (Expr.call function arguments).ReadsBack source := by
  intro position placed
  have text : (Expr.call function arguments).text.toList =
      function.toList ++ '(' :: ((Text.commaList (arguments.map Expr.text)).toList ++ [')']) := by
    show (function ++ "(" ++ Text.commaList (Expr.texts arguments) ++ ")").toList = _
    simp [Expr.texts_eq_map]
  rw [text] at placed ⊢
  obtain ⟨opening, others, scansList, opens, retakes⟩ := parenthesized_readsBack
    (fun argument member => (backEach argument member).disjunction) disjunction_matches
    (fun position => comma_follows position 0) (fun position => rightParen_follows position 0)
    (fun argument token opens => opens.noClosing) placed.back
  have scans := Scans.name isFunction.1 (by simp; decide) scansList
  rw [String.ofList_toList] at scans
  refine ⟨_, scans, IsGroup.mono (isGroup_call rfl isFunction.2 opens retakes) ?_⟩
  simp only [List.length_cons]
  omega

end ObjectQuery
