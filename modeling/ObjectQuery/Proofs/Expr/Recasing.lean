import ObjectQuery.Proofs.Expr.Casing

/-!
Contract: texts that differ in the letter case of their words are read alike.

Owns:
- `ReadAlike`, two readings of which both have a tree, the same up to the case of its names, or both
  an error of the same kind at the same place;
- `reading_recased`, for expressions, conditions and queries.

Does not own: what a form reads from tokens.
-/

namespace ObjectQuery

/-- Both readings have a tree, and these are the same in lower case, or both have an error, and these
are of one kind and point at one place. -/
inductive ReadAlike {α : Type} (lower : α → α) : Except Error α → Except Error α → Prop where
  | accepted {result result' : α}
      (trees : lower result = lower result') :
      ReadAlike lower (.ok result) (.ok result')
  | rejected {error error' : Error}
      (kinds : error.kind = error'.kind)
      (places : error.position? = error'.position?) :
      ReadAlike lower (.error error) (.error error')

theorem ReadAlike.refl_error
    {α : Type}
    (lower : α → α)
    (error : Error) :
    ReadAlike lower (.error error) (.error error) :=
  .rejected rfl rfl

namespace Grammar

variable {α : Type} {lower : α → α} {tokens tokens' : List Token} {text text' : String}

/-- The outcome of a reading of all tokens, in lower case. -/
def lowerWhole (lower : α → α) : Except Stop α → Except Stop α
  | .ok result => .ok (lower result)
  | .error stop => .error (lowerStop stop)

theorem whole_lowered
    {form form' : Nat → List Token → Except Stop (α × List Token)}
    (lowers : ∀ budget, Lowers lower (form budget) (form' budget))
    (tokens : List Token) :
    whole form' (tokens.map Token.lowered) = lowerWhole lower (whole form tokens) := by
  unfold whole
  rw [List.length_map, lowers]
  match form (budgetFor tokens.length) tokens with
  | .ok (result, []) => rfl
  | .ok (_, _ :: _) => rfl
  | .error stop => rfl

/-- Stops in front of the same tokens are errors of one kind at one place. -/
theorem readAlike_of_lowerWhole
    {first second : Except Stop α}
    (bytes : Nat)
    (same : lowerWhole lower first = lowerWhole lower second) :
    ReadAlike lower (first.mapError (Stop.toError bytes)) (second.mapError (Stop.toError bytes)) := by
  have kind_toError (stop : Stop) :
      (Stop.toError bytes stop).kind = (Stop.toError bytes (lowerStop stop)).kind := by
    match stop with
    | .unexpected _ [] | .unexpected _ (_ :: _) | .outOfBudget => rfl
  have place_toError (stop : Stop) :
      (Stop.toError bytes stop).position? = (Stop.toError bytes (lowerStop stop)).position? := by
    match stop with
    | .unexpected _ [] | .outOfBudget => rfl
    | .unexpected _ (token :: _) => exact congrArg some token.position_lowered.symm
  cases first with
  | ok result =>
    cases second with
    | ok result' => exact .accepted (Except.ok.inj same)
    | error stop' => cases same
  | error stop =>
    cases second with
    | ok result' => cases same
    | error stop' =>
      have stops : lowerStop stop = lowerStop stop' := Except.error.inj same
      apply ReadAlike.rejected
      · rw [kind_toError stop, stops, kind_toError stop']
      · rw [place_toError stop, stops, place_toError stop']

theorem utf8ByteSize_recased (recased : Recased text.toList text'.toList) :
    text.utf8ByteSize = text'.utf8ByteSize := by
  rw [← byteLength_toList, ← byteLength_toList, byteLength_of_toLower recased.map_toLower_eq]

/-- What scanning two texts gives: the same error, or the same tokens in lower case. -/
theorem scan_recased (recased : Recased text.toList text'.toList) :
    (∃ error, Token.scan text = .error error ∧ Token.scan text' = .error error) ∨
      ∃ tokens tokens', Token.scan text = .ok tokens ∧ Token.scan text' = .ok tokens' ∧
        tokens.map Token.lowered = tokens'.map Token.lowered :=
  Token.cases_of_loweredAll (Token.scanFrom_recased recased 0)

/-- A form that reads the same from tokens in lower case reads recased texts alike. -/
theorem parseText_recased
    {form : List Char → Nat → List Token → Except Stop (α × List Token)}
    (lowers : ∀ source budget,
      Lowers lower (form source budget) (form (source.map Char.toLower) budget))
    (recased : Recased text.toList text'.toList) :
    ReadAlike lower (parseText form text) (parseText form text') := by
  unfold parseText
  rcases scan_recased recased with ⟨error, scanned, scanned'⟩ |
    ⟨tokens, tokens', scanned, scanned', same⟩
  · rw [scanned, scanned']
    exact .refl_error lower error
  · rw [scanned, scanned', ok_bind, ok_bind, utf8ByteSize_recased recased]
    apply readAlike_of_lowerWhole
    rw [← whole_lowered (lowers text.toList), ← whole_lowered (lowers text'.toList), same,
      recased.map_toLower_eq]

theorem parseCondition_recased
    (recased : Recased text.toList text'.toList)
    (ofExpression : ReadAlike Expr.lowered (parseExpression text) (parseExpression text')) :
    ReadAlike Expr.lowered (parseCondition text) (parseCondition text') := by
  unfold parseCondition
  rcases scan_recased recased with ⟨error, scanned, scanned'⟩ |
    ⟨tokens, tokens', scanned, scanned', same⟩
  · rw [scanned, scanned']
    exact .refl_error _ error
  · have first : tokens.head?.map (·.position) = tokens'.head?.map (·.position) := by
      have heads := congrArg (fun tokens => tokens.head?.map (·.position)) same
      simpa [Function.comp_def] using heads
    rw [scanned, scanned', ok_bind, ok_bind, first, utf8ByteSize_recased recased]
    generalize parseExpression text = read at ofExpression ⊢
    generalize parseExpression text' = read' at ofExpression ⊢
    cases ofExpression with
    | rejected kinds places => exact .rejected kinds places
    | @accepted e e' trees =>
      have boolean : e'.isBoolean = e.isBoolean := by
        rw [← e'.isBoolean_lowered, ← trees, e.isBoolean_lowered]
      have hostTyped : e'.isHostTyped = e.isHostTyped := by
        rw [← e'.isHostTyped_lowered, ← trees, e.isHostTyped_lowered]
      rw [ok_bind, ok_bind, boolean, hostTyped]
      split
      · exact .accepted trees
      · exact .refl_error _ _

end Grammar

/-- The letter case of words does not matter: texts that differ in nothing else are read alike, as
expressions, as conditions and as queries. -/
theorem reading_recased
    {text text' : String}
    (recased : Recased text.toList text'.toList) :
    ReadAlike Expr.lowered (parseExpression text) (parseExpression text') ∧
      ReadAlike Expr.lowered (parseCondition text) (parseCondition text') ∧
      ReadAlike Query.lowered (parseQuery text) (parseQuery text') := by
  have expression : ReadAlike Expr.lowered (parseExpression text) (parseExpression text') :=
    Grammar.parseText_recased (fun _ => Grammar.disjunction_lowers) recased
  have query : ReadAlike Query.lowered (parseQuery text) (parseQuery text') :=
    Grammar.parseText_recased (fun _ => Grammar.select_lowers) recased
  exact ⟨expression, Grammar.parseCondition_recased recased expression, query⟩

/-- Names that spell words of the language, and all words in other cases. -/
theorem reading_recased_keywords :
    Recased "SELECT Order.COUNT As BY FROM Where WHERE Desc.In LIKE 'Ab%'".toList
        "select oRDER.Count aS by from where where dESC.iN like 'Ab%'".toList ∧
      (parseQuery "SELECT Order.COUNT As BY FROM Where WHERE Desc.In LIKE 'Ab%'").isOk = true ∧
      ReadAlike Expr.lowered
        (parseExpression "SELECT Order.COUNT As BY FROM Where WHERE Desc.In LIKE 'Ab%'")
        (parseExpression "select oRDER.Count aS by from where where dESC.iN like 'Ab%'") ∧
      ReadAlike Expr.lowered
        (parseCondition "SELECT Order.COUNT As BY FROM Where WHERE Desc.In LIKE 'Ab%'")
        (parseCondition "select oRDER.Count aS by from where where dESC.iN like 'Ab%'") ∧
      ReadAlike Query.lowered
        (parseQuery "SELECT Order.COUNT As BY FROM Where WHERE Desc.In LIKE 'Ab%'")
        (parseQuery "select oRDER.Count aS by from where where dESC.iN like 'Ab%'") := by
  have recased : Recased "SELECT Order.COUNT As BY FROM Where WHERE Desc.In LIKE 'Ab%'".toList
      "select oRDER.Count aS by from where where dESC.iN like 'Ab%'".toList := by
    decide +kernel
  exact ⟨recased, by cbv, reading_recased recased⟩

end ObjectQuery
