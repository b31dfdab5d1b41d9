import ObjectQuery.Proofs.Expr.Rereading.Names

/-!
Contract: the clauses of a query are read back.

Each clause begins with a word of its own, or is missing; what stands in front of it stops there.

Owns:
- `ReadsClause`, a clause that may be missing;
- the items of the select, from and order-by lists, and the lists.

Does not own: the trees inside the clauses, and whole queries.
-/

namespace ObjectQuery

open Grammar Token

variable {source : List Char} {α : Type} {words : List String}

/-- The token begins one of these clauses, or closes the query. -/
def ClosesWith (words : List String) (token : Token) : Prop :=
  token.kind = .rightParen ∨ ∃ word ∈ words, token.isWord word = true

/-- The words that begin a clause behind an expression. -/
def laterClauses : List String := ["group", "having", "order"]

namespace ClosesWith

variable {token : Token}

theorem follows
    (closes : ClosesWith words token)
    (later : ∀ word ∈ words, word ∈ laterClauses) :
    Token.Follows 1 token := by
  rcases closes with isParen | ⟨word, among, isWord⟩
  · exact Token.follows_of_kind (.inr isParen) 0
  · have unbound : wordBinding word < 1 ∧ word ≠ "where" := by
      have known := later word among
      revert known
      simp only [laterClauses, List.mem_cons, List.not_mem_nil, or_false]
      rintro (rfl | rfl | rfl) <;> decide
    exact Token.follows_of_isWord isWord unbound.1 unbound.2

theorem notComma (closes : ClosesWith words token) : token.kind ≠ .comma := by
  rcases closes with isParen | ⟨word, among, isWord⟩
  · simp [isParen]
  · simp [kind_of_isWord isWord]

theorem startsWithWord_eq_false
    {word : String}
    {rest : List Token}
    (closes : ∀ token ∈ rest.head?, ClosesWith words token)
    (notAmong : word ∉ words) :
    startsWithWord word rest = false := by
  cases rest with
  | nil => rfl
  | cons token rest =>
    rcases closes token rfl with isParen | ⟨other, among, isWord⟩
    · simp [startsWithWord, Token.isWord, isParen]
    · rw [startsWithWord, Token.isWord_eq isWord]
      exact beq_eq_false_iff_ne.mpr fun equal => notAmong (equal ▸ among)

/-- What closes the clauses behind a clause, and the word of that clause. -/
theorem append
    {word : String}
    {tokens rest : List Token}
    (begins : ∀ token ∈ tokens.head?, token.isWord word = true)
    (closes : ∀ token ∈ rest.head?, ClosesWith words token) :
    ∀ token ∈ (tokens ++ rest).head?, ClosesWith (word :: words) token := by
  cases tokens with
  | nil =>
    intro token head
    rcases closes token head with isParen | ⟨other, among, isWord⟩
    · exact .inl isParen
    · exact .inr ⟨other, List.mem_cons_of_mem word among, isWord⟩
  | cons first tokens =>
    intro token head
    obtain rfl : first = token := by simpa using head
    exact .inr ⟨word, List.mem_cons_self .., begins first rfl⟩

end ClosesWith

/-! ### Clauses -/

theorem ReadsBackAs.mono
    {form : Nat → List Token → Except Stop (α × List Token)}
    {extra higher : Nat}
    {opens follows closes : Token → Prop}
    {text : List Char}
    {value : α}
    {sheltered : Prop}
    (back : ReadsBackAs source form extra opens follows text value sheltered)
    (ordered : extra ≤ higher)
    (stops : ∀ token, closes token → follows token) :
    ReadsBackAs source form higher opens closes text value sheltered := by
  intro position placed
  obtain ⟨tokens, scans, isOpening, rereads⟩ := back position placed
  refine ⟨tokens, scans, isOpening, fun rest closing => ?_⟩
  exact (rereads rest fun token head => stops token (closing token head)).mono (by omega)

/-- A clause that may be missing: its text is empty, or begins with a blank and the word of the
clause. -/
def ReadsClause
    (source : List Char)
    (form : Nat → List Token → Except Stop (α × List Token))
    (word : String)
    (words : List String)
    (text : List Char)
    (value : α)
    (sheltered : Prop) : Prop :=
  Separated text ∧ ∀ position, Placed source position text →
    ∃ tokens, Scans position text tokens ∧ (∀ token ∈ tokens.head?, token.isWord word = true) ∧
      ∀ rest, (∀ token ∈ rest.head?, ClosesWith words token) →
        Rereads form (16 * tokens.length) tokens value sheltered rest

section Clauses

variable {content : Nat → List Token → Except Stop (α × List Token)} {word : String}
variable {opens : Token → Prop} {text : List Char} {sheltered : Prop}

theorem skipWord_of_closes
    {rest : List Token}
    (closes : ∀ token ∈ rest.head?, ClosesWith words token)
    (notAmong : word ∉ words) :
    skipWord word rest = (false, rest) :=
  skipWord_eq_false.mpr ⟨rfl, ClosesWith.startsWithWord_eq_false closes notAmong⟩

theorem readsClause_optional_none
    (notAmong : word ∉ words)
    (holds : sheltered) :
    ReadsClause source (fun budget => Grammar.optional word (content budget)) word words [] none
      sheltered := by
  refine ⟨separated_nil, fun position placed => ⟨[], .nil, by simp, fun rest closes => ?_⟩⟩
  refine .of_reads (.refl rest) holds fun budget => ?_
  simp [Grammar.optional, skipWord_of_closes closes notAmong]

theorem readsClause_optional_some
    {value : α}
    (isName : IsName word.toList)
    (lower : word.toLower = word)
    (back : ReadsBackAs source content 16 opens (ClosesWith words) text value sheltered) :
    ReadsClause source (fun budget => Grammar.optional word (content budget)) word words
      (' ' :: (word.toList ++ ' ' :: text)) (some value) sheltered := by
  refine ⟨separated_cons (by decide), fun position placed => ?_⟩
  obtain ⟨tokens, scans, -, rereads⟩ := back _ placed.tail.back.tail
  have whole := Scans.space (isName.spellsToken.scans (Scans.space scans))
  rw [String.ofList_toList] at whole
  have isWord := word_isWord (position + 1) lower
  refine ⟨_, whole, by simpa using isWord, fun rest closes => ?_⟩
  have skips : skipWord word (⟨.word, word, position + 1⟩ :: (tokens ++ rest)) =
      (true, tokens ++ rest) := skipWord_eq_true.mpr ⟨_, rfl, isWord⟩
  have ahead : Matched (⟨.word, word, position + 1⟩ :: (tokens ++ rest)) (tokens ++ rest) :=
    .skip_word rfl
  refine (Rereads.map some [_] (Option.some_injective α) (fun budget => ?_) ahead
    (rereads rest closes)).mono ?_
  · simp only [List.singleton_append, Grammar.optional, skips]
  · simp only [List.length_cons]
    omega

theorem readsClause_list_none
    {items : Nat → List Token → Except Stop (List α × List Token)}
    (notAmong : word ∉ words)
    (holds : sheltered) :
    ReadsClause source (fun budget => optionalList word (items budget)) word words [] []
      sheltered := by
  refine ⟨separated_nil, fun position placed => ⟨[], .nil, by simp, fun rest closes => ?_⟩⟩
  refine .of_reads (.refl rest) holds fun budget => ?_
  simp [optionalList, skipWord_of_closes closes notAmong]

theorem readsClause_list_some
    {items : Nat → List Token → Except Stop (List α × List Token)}
    {values : List α}
    (isName : IsName word.toList)
    (lower : word.toLower = word)
    (back : ReadsBackAs source items 16 opens (ClosesWith words) text values sheltered) :
    ReadsClause source (fun budget => optionalList word (items budget)) word words
      (' ' :: (word.toList ++ ' ' :: ("by".toList ++ ' ' :: text))) values sheltered := by
  have isBy : IsName "by".toList := by decide
  have lowerBy : "by".toLower = "by" := Text.toLower_eq (by decide)
  refine ⟨separated_cons (by decide), fun position placed => ?_⟩
  obtain ⟨tokens, scans, -, rereads⟩ := back _ placed.tail.back.tail.back.tail
  have whole := Scans.space (isName.spellsToken.scans (Scans.space
    (isBy.spellsToken.scans (Scans.space scans))))
  rw [String.ofList_toList, String.ofList_toList] at whole
  have isWord := word_isWord (position + 1) lower
  refine ⟨_, whole, by simpa using isWord, ?_⟩
  generalize position + 1 + byteLength word.toList + 1 = place
  intro rest closes
  have skips : skipWord word (⟨.word, word, position + 1⟩ :: ⟨.word, "by", place⟩ ::
      (tokens ++ rest)) = (true, ⟨.word, "by", place⟩ :: (tokens ++ rest)) :=
    skipWord_eq_true.mpr ⟨_, rfl, isWord⟩
  have readBy : expectWord "by" (⟨.word, "by", place⟩ :: (tokens ++ rest)) =
      .ok (⟨.word, "by", place⟩, tokens ++ rest) :=
    expectWord_eq_ok.mpr ⟨rfl, word_isWord place lowerBy⟩
  have ahead : Matched (⟨.word, word, position + 1⟩ :: ⟨.word, "by", place⟩ :: (tokens ++ rest))
      (tokens ++ rest) := (Matched.skip_word rfl).trans (.skip_word rfl)
  refine (Rereads.map id [_, _] Function.injective_id (fun budget => ?_) ahead
    (rereads rest closes)).mono ?_
  · simp only [List.cons_append, List.nil_append, optionalList, skips, readBy, ok_bind]
    exact (bind_pure _).symm
  · simp only [List.length_cons]
    omega

end Clauses

/-! ### Items of the lists -/

/-- A label behind its word. -/
theorem scans_label
    {name : String}
    (isName : IsName name.toList)
    (position : Nat) :
    Scans position (' ' :: ("as".toList ++ ' ' :: name.toList))
      [⟨.word, "as", position + 1⟩, ⟨.word, name, position + 1 + byteLength "as".toList + 1⟩] := by
  have isAs : IsName "as".toList := by decide
  have scansName := Scans.wholeName isName (position + 1 + byteLength "as".toList + 1)
  have scans := Scans.space (isAs.spellsToken.scans (Scans.space scansName))
  rwa [String.ofList_toList] at scans

theorem isWord_as (position : Nat) : Token.isWord "as" ⟨.word, "as", position⟩ = true := by
  have lower : "as".toLower = "as" := Text.toLower_eq (by decide)
  exact word_isWord position lower

/-- What may stand behind a select item. -/
def EndsItem (token : Token) : Prop :=
  token.kind = .comma ∨ token.isWord "from" = true

theorem EndsItem.follows {token : Token} (ends : EndsItem token) : Token.Follows 1 token := by
  rcases ends with isComma | isWord
  · exact Token.follows_of_kind (.inl isComma) 0
  · exact Token.follows_of_isWord isWord (by decide) (by decide)

theorem EndsItem.startsWithWord_as_eq_false
    {rest : List Token}
    (ends : ∀ token ∈ rest.head?, EndsItem token) :
    startsWithWord "as" rest = false := by
  cases rest with
  | nil => rfl
  | cons token rest =>
    rcases ends token rfl with isComma | isWord
    · simp [startsWithWord, Token.isWord, isComma]
    · simp [startsWithWord, Token.isWord_eq isWord]

theorem selectItem_succ (source : List Char) (budget : Nat) (tokens : List Token) :
    selectItem source (budget + 1) tokens = (do
      let (expression, rest) ← disjunction source budget tokens
      let (label, rest) ← Grammar.optional "as" identifier rest
      pure (⟨expression, label⟩, rest)) := by
  rw [selectItem]

theorem readsBackAs_selectItem
    {item : SelectItem}
    (back : item.expression.ReadsBack source)
    (isName : LabelReadable item.label) :
    ReadsBackAs source (selectItem source) 8 (Opens item.expression.opening?) EndsItem
      (labelled item.expression.text item.label).toList item item.expression.Sheltered := by
  intro position placed
  obtain ⟨expression, label⟩ := item
  have injective (e : Expr) (label : Option String) (e' : Expr) (label' : Option String)
      (same : SelectItem.mk e label = ⟨e', label'⟩) : e = e' := (SelectItem.mk.inj same).1
  cases label with
  | none =>
    obtain ⟨tokens, scans, isGroup⟩ := back position placed
    refine ⟨tokens, scans, isGroup.opens, fun rest ends => ?_⟩
    have skips : skipWord "as" rest = (false, rest) :=
      skipWord_eq_false.mpr ⟨rfl, EndsItem.startsWithWord_as_eq_false ends⟩
    have unlabelled : Grammar.optional "as" identifier rest = .ok (none, rest) := by
      simp only [Grammar.optional, skips]
    have rereads := Rereads.behind _ [] injective (fun _ => rfl) (selectItem_succ source) unlabelled
      (.refl rest)
      (isGroup.rereadsDisjunction fun token head => (ends token head).follows)
    rwa [List.append_nil] at rereads
  | some name =>
    have text : (labelled expression.text (some name)).toList =
        expression.text.toList ++ ' ' :: ("as".toList ++ ' ' :: name.toList) := by
      simp [labelled]
    rw [text] at placed ⊢
    obtain ⟨tokens, scans, isGroup⟩ := back position placed.front
    have whole := scans.append (separated_cons (by decide)) (scans_label (isName name rfl) _)
    obtain ⟨first, others, equal, opens⟩ := isGroup.opens
    refine ⟨_, whole, ⟨first, _, by rw [equal]; rfl, opens⟩, fun rest ends => ?_⟩
    generalize position + byteLength expression.text.toList + 1 = place
    have isAs := isWord_as place
    have follows : Token.Follows 1 ⟨.word, "as", place⟩ :=
      Token.follows_of_isWord isAs (by decide) (by decide)
    refine (Rereads.behind _ _ injective (fun _ => rfl) (selectItem_succ source) ?_ ?_
      (isGroup.rereadsDisjunction (Follows.head follows _))).mono ?_
    · simp [Grammar.optional, skipWord, isAs, identifier, expect]
    · exact (Matched.skip_word rfl).trans (.skip_word rfl)
    · rw [List.length_append]
      omega

theorem orderItem_succ (source : List Char) (budget : Nat) (tokens : List Token) :
    orderItem source (budget + 1) tokens = (do
      let (expression, rest) ← disjunction source budget tokens
      let (ascending, rest) ← Except.ok (direction rest)
      pure (⟨expression, ascending⟩, rest)) := by
  rw [orderItem]
  rfl

theorem readsBackAs_orderItem
    {item : OrderItem}
    (back : item.expression.ReadsBack source) :
    ReadsBackAs source (orderItem source) 8 (Opens item.expression.opening?)
      (fun token => token.kind = .comma ∨ token.kind = .rightParen)
      (if item.ascending then item.expression.text else item.expression.text ++ " desc").toList
      item item.expression.Sheltered := by
  intro position placed
  obtain ⟨expression, ascending⟩ := item
  have injective (e : Expr) (ascending : Bool) (e' : Expr) (ascending' : Bool)
      (same : OrderItem.mk e ascending = ⟨e', ascending'⟩) : e = e' := (OrderItem.mk.inj same).1
  cases ascending with
  | true =>
    obtain ⟨tokens, scans, isGroup⟩ := back position placed
    refine ⟨tokens, scans, isGroup.opens, fun rest ends => ?_⟩
    have skips (word : String) : skipWord word rest = (false, rest) := by
      refine skipWord_eq_false.mpr ⟨rfl, ?_⟩
      cases rest with
      | nil => rfl
      | cons token rest =>
        rcases ends token rfl with kind | kind <;> simp [startsWithWord, isWord, kind]
    have ascends : direction rest = (true, rest) := by
      simp only [direction, skips]
    have rereads := Rereads.behind (fun rest => .ok (direction rest)) [] injective (fun _ => rfl)
      (orderItem_succ source) (congrArg Except.ok ascends) (.refl rest)
      (isGroup.rereadsDisjunction fun token head => Token.follows_of_kind (ends token head) 0)
    rwa [List.append_nil] at rereads
  | false =>
    have lower : "desc".toLower = "desc" := Text.toLower_eq (by decide)
    have isName : IsName "desc".toList := by decide
    have text : (if false = true then expression.text else expression.text ++ " desc").toList =
        expression.text.toList ++ ' ' :: "desc".toList := by
      simp
    rw [text] at placed ⊢
    obtain ⟨tokens, scans, isGroup⟩ := back position placed.front
    have whole := scans.append (separated_cons (by decide)) (Scans.space (.wholeName isName _))
    obtain ⟨first, others, equal, opens⟩ := isGroup.opens
    refine ⟨_, whole, ⟨first, _, by rw [equal]; rfl, opens⟩, fun rest ends => ?_⟩
    generalize position + byteLength expression.text.toList + 1 = place
    have isDesc := word_isWord place lower
    have follows : Token.Follows 1 ⟨.word, "desc", place⟩ :=
      Token.follows_of_isWord isDesc (by decide) (by decide)
    have skips : skipWord "desc" (⟨.word, "desc", place⟩ :: rest) = (true, rest) :=
      skipWord_eq_true.mpr ⟨_, rfl, isDesc⟩
    refine (Rereads.behind (fun rest => .ok (direction rest)) _ injective (fun _ => rfl)
      (orderItem_succ source) ?_
      (.skip_word rfl) (isGroup.rereadsDisjunction (Follows.head follows _))).mono ?_
    · simp only [List.cons_append, List.nil_append, direction, skips]
    · rw [List.length_append]
      omega

/-- What may stand behind a class that has no label. -/
def EndsSource (token : Token) : Prop :=
  token.kind ≠ .word ∨ token.lower ∈ clauseWords ∧ token.lower ≠ "as"

theorem readsBackAs_fromItem
    {item : FromItem}
    (readable : item.Readable) :
    ReadsBackAs source (fun _ => fromItem) 0 (fun token => token.kind = .word) EndsSource
      item.text.toList item True := by
  have reads {tokens rest : List Token} (read : fromItem (tokens ++ rest) = .ok (item, rest)) :
      Rereads (fun _ => fromItem) (16 * tokens.length + 0) tokens item True rest := by
    have matching := fromItem_matches (tokens ++ rest)
    rw [read] at matching
    exact .of_reads matching trivial fun _ => read
  intro position placed
  obtain ⟨className, label⟩ := item
  obtain ⟨isName, isLabel⟩ := readable
  cases label with
  | none =>
    refine ⟨_, Scans.wholeName isName position, ⟨_, _, rfl, rfl⟩, fun rest ends => reads ?_⟩
    cases rest with
    | nil => rfl
    | cons token rest =>
      have notAs : token.isWord "as" = false := by
        rcases ends token rfl with noWord | ⟨-, notAs⟩
        · simp [Token.isWord, noWord]
        · simp [Token.isWord, notAs]
      have among : token.kind = .word → token.lower ∈ clauseWords := by
        intro isWord
        rcases ends token rfl with noWord | ⟨among, -⟩
        · exact absurd isWord noWord
        · exact among
      simpa [fromItem, identifier, expect, skipWord, notAs] using among
  | some name =>
    have text : (FromItem.text ⟨className, some name⟩).toList =
        className.toList ++ ' ' :: ("as".toList ++ ' ' :: name.toList) := by
      simp [FromItem.text, labelled]
    rw [text]
    have whole := (Scans.wholeName isName position).append (separated_cons (by decide))
      (scans_label (isLabel name rfl) _)
    refine ⟨_, whole, ⟨_, _, rfl, rfl⟩, fun rest ends => reads ?_⟩
    simp [fromItem, identifier, expect, skipWord, isWord_as]

/-! ### Lists and clauses of trees -/

theorem SelectItem.texts_eq_map (items : List SelectItem) :
    SelectItem.texts items =
      items.map fun item => labelled item.expression.text item.label := by
  induction items with
  | nil => rfl
  | cons item items inductionHypothesis =>
    obtain ⟨expression, label⟩ := item
    rw [SelectItem.texts, inductionHypothesis, List.map_cons]

theorem OrderItem.texts_eq_map (items : List OrderItem) :
    OrderItem.texts items = items.map fun item =>
      if item.ascending then item.expression.text else item.expression.text ++ " desc" := by
  induction items with
  | nil => rfl
  | cons item items inductionHypothesis =>
    obtain ⟨expression, ascending⟩ := item
    rw [OrderItem.texts, inductionHypothesis, List.map_cons]

section Lists

variable {selected : List SelectItem} {sources : List FromItem} {es : List Expr}
variable {ordered : List OrderItem}

theorem readsBackAs_selectList
    (nonempty : selected ≠ [])
    (back : ∀ item ∈ selected, item.expression.ReadsBack source ∧ LabelReadable item.label) :
    ReadsBackAs source (fun budget => commaSeparated (selectItem source budget) budget) 8
      (fun token => ∀ item ∈ selected.head?, Opens item.expression.opening? token)
      (fun token => token.isWord "from" = true)
      (Text.commaList (SelectItem.texts selected)).toList selected
      (∀ item ∈ selected, item.expression.Sheltered) := by
  rw [SelectItem.texts_eq_map]
  refine (readsBackAs_commaList nonempty
    (fun item member => readsBackAs_selectItem (back item member).1 (back item member).2)
    fun position => .inl rfl).mono (Nat.le_refl 8) ?_
  intro token isFrom
  exact ⟨.inr isFrom, by simp [kind_of_isWord isFrom]⟩

theorem readsBackAs_fromList
    (source : List Char)
    (nonempty : sources ≠ [])
    (readable : ∀ item ∈ sources, item.Readable) :
    ReadsBackAs source (fun budget => commaSeparated fromItem budget) 0
      (fun token => ∀ item ∈ sources.head?, token.kind = .word) (ClosesWith ("where" :: laterClauses))
      (Text.commaList (sources.map FromItem.text)).toList sources (∀ item ∈ sources, True) := by
  refine (readsBackAs_commaList nonempty
    (fun item member => readsBackAs_fromItem (readable item member))
    fun position => .inl (by simp)).mono (Nat.le_refl 0) ?_
  intro token closes
  refine ⟨?_, closes.notComma⟩
  rcases closes with isParen | ⟨word, among, isWord⟩
  · exact .inl (by simp [isParen])
  · have known : ∀ word ∈ "where" :: laterClauses, word ∈ clauseWords ∧ word ≠ "as" := by decide
    rw [EndsSource, lower_of_isWord isWord]
    exact .inr (known word among)

theorem readsBackAs_list
    (nonempty : es ≠ [])
    (back : ∀ e ∈ es, e.ReadsBack source)
    (later : ∀ word ∈ words, word ∈ laterClauses) :
    ReadsBackAs source (fun budget => commaSeparated (disjunction source budget) budget) 16
      (fun token => ∀ e ∈ es.head?, Opens e.opening? token) (ClosesWith words)
      (Text.commaList (Expr.texts es)).toList es (∀ e ∈ es, e.Sheltered) := by
  rw [Expr.texts_eq_map]
  refine (readsBackAs_commaList nonempty (fun e member => (back e member).disjunction)
    fun position => comma_follows position 0).mono (by decide) ?_
  intro token closes
  exact ⟨closes.follows later, closes.notComma⟩

theorem readsBackAs_orderList
    (nonempty : ordered ≠ [])
    (back : ∀ item ∈ ordered, item.expression.ReadsBack source) :
    ReadsBackAs source (fun budget => commaSeparated (orderItem source budget) budget) 16
      (fun token => ∀ item ∈ ordered.head?, Opens item.expression.opening? token) (ClosesWith [])
      (Text.commaList (OrderItem.texts ordered)).toList ordered
      (∀ item ∈ ordered, item.expression.Sheltered) := by
  rw [OrderItem.texts_eq_map]
  refine (readsBackAs_commaList nonempty (fun item member => readsBackAs_orderItem (back item member))
    fun position => .inl rfl).mono (by decide) ?_
  intro token closes
  refine ⟨?_, closes.notComma⟩
  rcases closes with isParen | ⟨word, among, -⟩
  · exact .inr isParen
  · simp at among

end Lists

/-- A clause with one expression. -/
theorem readsClause_expression
    {word clause : String}
    {e : Option Expr}
    (isName : IsName word.toList)
    (lower : word.toLower = word)
    (spaced : clause.toList = ' ' :: (word.toList ++ [' ']))
    (back : ∀ x ∈ e, x.ReadsBack source)
    (later : ∀ other ∈ words, other ∈ laterClauses)
    (notAmong : word ∉ words) :
    ReadsClause source (fun budget => Grammar.optional word (disjunction source budget)) word words
      (Expr.clauseText clause e).toList e (∀ x ∈ e, x.Sheltered) := by
  cases e with
  | none => exact readsClause_optional_none notAmong nofun
  | some e =>
    have text : (Expr.clauseText clause (some e)).toList =
        ' ' :: (word.toList ++ ' ' :: e.text.toList) := by
      simp [Expr.clauseText, spaced]
    have only : (∀ x ∈ some e, x.Sheltered) ↔ e.Sheltered := by simp
    rw [text, only]
    exact readsClause_optional_some isName lower ((back e rfl).disjunction.mono (by decide)
      fun token closes => closes.follows later)

/-- A clause with a list. -/
theorem readsClause_list
    {items : Nat → List Token → Except Stop (List α × List Token)}
    {opens : Token → Prop}
    {word clause text : String}
    {values : List α}
    {sheltered : α → Prop}
    (isName : IsName word.toList)
    (lower : word.toLower = word)
    (spaced : clause.toList = ' ' :: (word.toList ++ ' ' :: ("by".toList ++ [' '])))
    (back : values ≠ [] → ReadsBackAs source items 16 opens (ClosesWith words) text.toList values
      (∀ value ∈ values, sheltered value))
    (notAmong : word ∉ words) :
    ReadsClause source (fun budget => optionalList word (items budget)) word words
      (if values.isEmpty then "" else clause ++ text).toList values
      (∀ value ∈ values, sheltered value) := by
  cases values with
  | nil => exact readsClause_list_none notAmong (List.forall_mem_nil _)
  | cons value values =>
    have split : (if (value :: values).isEmpty then "" else clause ++ text).toList =
        ' ' :: (word.toList ++ ' ' :: ("by".toList ++ ' ' :: text.toList)) := by
      simp [spaced]
    rw [split]
    exact readsClause_list_some isName lower (back (by simp))

end ObjectQuery
