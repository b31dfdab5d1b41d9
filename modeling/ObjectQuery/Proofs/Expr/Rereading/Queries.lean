import ObjectQuery.Proofs.Expr.Rereading.Clauses

/-!
Contract: queries are read back clause by clause.

The first select item is looked at twice: where the query is not distinct it must not open with that
word.

Owns: `Query.ReadsBack`, and the queries that stand in an expression.

Does not own: the clauses.
-/

namespace ObjectQuery

open Grammar Token

variable {source : List Char}

/-- Wherever the text of the query is placed, up to a closing parenthesis, the query is read back
from it just when it is sheltered. -/
def Query.ReadsBack (source : List Char) (query : Query) : Prop :=
  ReadsBackAs source (Grammar.select source) 0 (fun token => token.isWord "select" = true)
    (ClosesWith []) query.text.toList query query.Sheltered

/-- The word in front of a select list that is distinct. -/
theorem scans_distinct
    (distinct : Bool)
    {position : Nat}
    {text : List Char}
    {tokens : List Token}
    (scans : Scans (position + byteLength (if distinct then "distinct " else "").toList) text
      tokens) :
    ∃ front, Scans position ((if distinct then "distinct " else "").toList ++ text)
        (front ++ tokens) ∧
      (∀ rest, Matched (front ++ rest) rest) ∧
      ∀ rest inner, skipWord "distinct" (front ++ rest) = (distinct, inner) ↔
        inner = rest ∧ (distinct = false → startsWithWord "distinct" rest = false) := by
  cases distinct with
  | false =>
    refine ⟨[], scans, .refl, fun rest inner => ?_⟩
    simp [skipWord_eq_false]
  | true =>
    have lower : "distinct".toLower = "distinct" := Text.toLower_eq (by decide)
    have isName : IsName "distinct".toList := by decide
    refine ⟨[_], isName.spellsToken.scans (Scans.space scans), fun rest => .skip_word rfl, ?_⟩
    intro rest inner
    rw [List.singleton_append, skipWord_eq_true]
    constructor
    · rintro ⟨token, equal, -⟩
      exact ⟨(List.cons.inj equal).2.symm, nofun⟩
    · rintro ⟨rfl, -⟩
      exact ⟨_, rfl, word_isWord position lower⟩

/-! ### A query from its clauses -/

section Select

variable {selectToken fromToken : Token} {query : Query}
variable {tokens selectedTokens sourceTokens whereTokens groupTokens havingTokens orderTokens
  rest : List Token}

/-- The steps of a query, each from the tokens that the one in front of it has left. -/
theorem select_eq_ok_iff
    {budget : Nat}
    (selects : selectToken.isWord "select" = true) :
    Grammar.select source (budget + 1) (selectToken :: tokens) = .ok (query, rest) ↔
      ∃ inner fromToken behindItems behindSources behindWhere behindGroup behindHaving,
        skipWord "distinct" tokens = (query.distinct, inner) ∧
        commaSeparated (selectItem source budget) budget inner =
          .ok (query.select, fromToken :: behindItems) ∧
        fromToken.isWord "from" = true ∧
        commaSeparated fromItem budget behindItems = .ok (query.sources, behindSources) ∧
        Grammar.optional "where" (disjunction source budget) behindSources =
          .ok (query.condition, behindWhere) ∧
        optionalList "group" (commaSeparated (disjunction source budget) budget) behindWhere =
          .ok (query.groupBy, behindGroup) ∧
        Grammar.optional "having" (disjunction source budget) behindGroup =
          .ok (query.having, behindHaving) ∧
        optionalList "order" (commaSeparated (orderItem source budget) budget) behindHaving =
          .ok (query.orderBy, rest) := by
  have readSelect : expectWord "select" (selectToken :: tokens) = .ok (selectToken, tokens) :=
    expectWord_eq_ok.mpr ⟨rfl, selects⟩
  rw [Grammar.select, readSelect, ok_bind]
  dsimp only
  constructor
  · cases skips : skipWord "distinct" tokens with
    | mk distinct inner =>
      dsimp only
      intro read
      obtain ⟨⟨items, behindSelected⟩, readItems, read⟩ := bind_eq_ok.mp read
      obtain ⟨⟨fromToken, behindItems⟩, readFrom, read⟩ := bind_eq_ok.mp read
      obtain ⟨⟨sources, behindSources⟩, readSources, read⟩ := bind_eq_ok.mp read
      obtain ⟨⟨condition, behindWhere⟩, readWhere, read⟩ := bind_eq_ok.mp read
      obtain ⟨⟨groupBy, behindGroup⟩, readGroup, read⟩ := bind_eq_ok.mp read
      obtain ⟨⟨having, behindHaving⟩, readHaving, read⟩ := bind_eq_ok.mp read
      obtain ⟨⟨orderBy, behindOrder⟩, readOrder, equal⟩ := bind_eq_ok.mp read
      obtain ⟨rfl, rfl⟩ := Prod.mk.inj (Except.ok.inj equal)
      obtain ⟨rfl, isFrom⟩ := expectWord_eq_ok.mp readFrom
      exact ⟨inner, fromToken, behindItems, behindSources, behindWhere, behindGroup, behindHaving,
        rfl, readItems, isFrom, readSources, readWhere, readGroup, readHaving, readOrder⟩
  · rintro ⟨inner, fromToken, behindItems, behindSources, behindWhere, behindGroup, behindHaving,
      skips, readItems, isFrom, readSources, readWhere, readGroup, readHaving, readOrder⟩
    have readFrom : expectWord "from" (fromToken :: behindItems) = .ok (fromToken, behindItems) :=
      expectWord_eq_ok.mpr ⟨rfl, isFrom⟩
    simp only [skips, readItems, readFrom, readSources, readWhere, readGroup, readHaving, readOrder,
      ok_bind, pure_eq_ok]
    cases query
    rfl

/-- A query from the tokens of its clauses. -/
theorem rereads_select
    {front : List Token}
    (cost : Nat)
    (selects : selectToken.isWord "select" = true)
    (isFrom : fromToken.isWord "from" = true)
    (frontMatched : ∀ rest, Matched (front ++ rest) rest)
    (skips : ∀ rest inner, skipWord "distinct" (front ++ rest) = (query.distinct, inner) ↔
      inner = rest ∧ (query.distinct = false → startsWithWord "distinct" rest = false))
    (first : ∀ rest, startsWithWord "distinct" (selectedTokens ++ rest) = false ↔
      ∀ item ∈ query.select.head?, item.expression.opening? ≠ some "distinct")
    (ofSelect : Rereads (fun budget => commaSeparated (selectItem source budget) budget) cost
      selectedTokens query.select (∀ item ∈ query.select, item.expression.Sheltered)
      (fromToken :: (sourceTokens ++ (whereTokens ++ (groupTokens ++ (havingTokens ++
        (orderTokens ++ rest)))))))
    (ofSources : Rereads (fun budget => commaSeparated fromItem budget) cost sourceTokens
      query.sources (∀ item ∈ query.sources, True)
      (whereTokens ++ (groupTokens ++ (havingTokens ++ (orderTokens ++ rest)))))
    (ofWhere : Rereads (fun budget => Grammar.optional "where" (disjunction source budget)) cost
      whereTokens query.condition (∀ e ∈ query.condition, e.Sheltered)
      (groupTokens ++ (havingTokens ++ (orderTokens ++ rest))))
    (ofGroup : Rereads
      (fun budget => optionalList "group" (commaSeparated (disjunction source budget) budget)) cost
      groupTokens query.groupBy (∀ e ∈ query.groupBy, e.Sheltered)
      (havingTokens ++ (orderTokens ++ rest)))
    (ofHaving : Rereads (fun budget => Grammar.optional "having" (disjunction source budget)) cost
      havingTokens query.having (∀ e ∈ query.having, e.Sheltered) (orderTokens ++ rest))
    (ofOrder : Rereads (fun budget => optionalList "order" (commaSeparated (orderItem source budget)
      budget)) cost orderTokens query.orderBy (∀ item ∈ query.orderBy, item.expression.Sheltered)
      rest) :
    Rereads (Grammar.select source) (cost + 1)
      (selectToken :: (front ++ (selectedTokens ++ fromToken :: (sourceTokens ++ (whereTokens ++
        (groupTokens ++ (havingTokens ++ orderTokens))))))) query query.Sheltered rest := by
  have arranged : selectToken :: (front ++ (selectedTokens ++ fromToken :: (sourceTokens ++
      (whereTokens ++ (groupTokens ++ (havingTokens ++ orderTokens)))))) ++ rest =
      selectToken :: (front ++ (selectedTokens ++ fromToken :: (sourceTokens ++ (whereTokens ++
        (groupTokens ++ (havingTokens ++ (orderTokens ++ rest))))))) := by simp
  refine ⟨?_, ?_, ?_⟩
  · have onwards := ((ofWhere.matched.trans ofGroup.matched).trans ofHaving.matched).trans
      ofOrder.matched
    have behindFrom := (Matched.skip_word (kind_of_isWord isFrom)).trans
      (ofSources.matched.trans onwards)
    rw [arranged]
    exact ((Matched.skip_word (kind_of_isWord selects)).trans (frontMatched _)).trans
      (ofSelect.matched.trans behindFrom)
  · intro sheltered budget enough
    obtain ⟨notDistinct, holdsSelect, holdsWhere, holdsGroup, holdsHaving, holdsOrder⟩ :=
      Query.sheltered_iff.mp sheltered
    obtain ⟨budget, rfl⟩ := Nat.exists_eq_add_of_le' (Nat.le_trans (Nat.le_add_left 1 cost) enough)
    have affordable : cost ≤ budget := by omega
    rw [arranged]
    exact (select_eq_ok_iff selects).mpr ⟨_, fromToken, _, _, _, _, _,
      (skips _ _).mpr ⟨rfl, fun isFalse => (first _).mpr (notDistinct isFalse)⟩,
      ofSelect.reads holdsSelect budget affordable, isFrom,
      ofSources.reads (fun _ _ => trivial) budget affordable,
      ofWhere.reads holdsWhere budget affordable, ofGroup.reads holdsGroup budget affordable,
      ofHaving.reads holdsHaving budget affordable, ofOrder.reads holdsOrder budget affordable⟩
  · intro budget remaining read
    rw [arranged] at read
    cases budget with
    | zero => cases read
    | succ budget =>
      obtain ⟨inner, fromToken', behindItems, behindSources, behindWhere, behindGroup, behindHaving,
        skipped, readItems, -, readSources, readWhere, readGroup, readHaving, readOrder⟩ :=
          (select_eq_ok_iff selects).mp read
      obtain ⟨rfl, notDistinct⟩ := (skips _ _).mp skipped
      obtain ⟨behindFrom, holdsSelect⟩ := ofSelect.only budget _ readItems
      obtain ⟨rfl, rfl⟩ := List.cons.inj behindFrom
      obtain ⟨rfl, -⟩ := ofSources.only budget _ readSources
      obtain ⟨rfl, holdsWhere⟩ := ofWhere.only budget _ readWhere
      obtain ⟨rfl, holdsGroup⟩ := ofGroup.only budget _ readGroup
      obtain ⟨rfl, holdsHaving⟩ := ofHaving.only budget _ readHaving
      obtain ⟨rfl, holdsOrder⟩ := ofOrder.only budget _ readOrder
      exact ⟨rfl, Query.sheltered_iff.mpr ⟨fun isFalse => (first _).mp (notDistinct isFalse),
        holdsSelect, holdsWhere, holdsGroup, holdsHaving, holdsOrder⟩⟩

end Select

theorem separated_append
    {front behind : List Char}
    (separatedFront : Separated front)
    (separatedBehind : Separated behind) :
    Separated (front ++ behind) := by
  cases front with
  | nil => exact separatedBehind
  | cons c front => exact separatedFront

/-! ### The clauses of a query -/

section Clauses

variable (condition : Option Expr) (groupBy : List Expr) (orderBy : List OrderItem)

theorem readsClause_where (back : ∀ e ∈ condition, e.ReadsBack source) :
    ReadsClause source (fun budget => Grammar.optional "where" (disjunction source budget)) "where"
      laterClauses (Expr.clauseText " where " condition).toList condition
      (∀ e ∈ condition, e.Sheltered) :=
  readsClause_expression (by decide) (Text.toLower_eq (by decide)) rfl back (by decide) (by decide)

theorem readsClause_group (back : ∀ e ∈ groupBy, e.ReadsBack source) :
    ReadsClause source
      (fun budget => optionalList "group" (commaSeparated (disjunction source budget) budget))
      "group" ["having", "order"]
      (if groupBy.isEmpty then "" else " group by " ++ Text.commaList (Expr.texts groupBy)).toList
      groupBy (∀ e ∈ groupBy, e.Sheltered) :=
  readsClause_list (by decide) (Text.toLower_eq (by decide)) rfl
    (fun nonempty => readsBackAs_list nonempty back (by decide)) (by decide)

theorem readsClause_having (back : ∀ e ∈ condition, e.ReadsBack source) :
    ReadsClause source (fun budget => Grammar.optional "having" (disjunction source budget))
      "having" ["order"] (Expr.clauseText " having " condition).toList condition
      (∀ e ∈ condition, e.Sheltered) :=
  readsClause_expression (by decide) (Text.toLower_eq (by decide)) rfl back (by decide) (by decide)

theorem readsClause_order (back : ∀ item ∈ orderBy, item.expression.ReadsBack source) :
    ReadsClause source
      (fun budget => optionalList "order" (commaSeparated (orderItem source budget) budget))
      "order" []
      (if orderBy.isEmpty then ""
        else " order by " ++ Text.commaList (OrderItem.texts orderBy)).toList
      orderBy (∀ item ∈ orderBy, item.expression.Sheltered) :=
  readsClause_list (by decide) (Text.toLower_eq (by decide)) rfl
    (fun nonempty => readsBackAs_orderList nonempty back) (by decide)

end Clauses

/-- The text of a query, clause behind clause. -/
theorem Query.toList_text (query : Query) :
    query.text.toList =
      "select".toList ++ ' ' :: ((if query.distinct then "distinct " else "").toList ++
        ((Text.commaList (SelectItem.texts query.select)).toList ++ ' ' :: ("from".toList ++ ' ' ::
          ((Text.commaList (query.sources.map FromItem.text)).toList ++
            ((Expr.clauseText " where " query.condition).toList ++
              ((if query.groupBy.isEmpty then ""
                  else " group by " ++ Text.commaList (Expr.texts query.groupBy)).toList ++
                ((Expr.clauseText " having " query.having).toList ++
                  (if query.orderBy.isEmpty then ""
                    else " order by " ++
                      Text.commaList (OrderItem.texts query.orderBy)).toList))))))) := by
  obtain ⟨distinct, select, sources, condition, groupBy, having, orderBy⟩ := query
  show ("select " ++ (if distinct then "distinct " else "")
    ++ Text.commaList (SelectItem.texts select) ++ " from "
    ++ Text.commaList (sources.map FromItem.text) ++ Expr.clauseText " where " condition
    ++ (if groupBy.isEmpty then "" else " group by " ++ Text.commaList (Expr.texts groupBy))
    ++ Expr.clauseText " having " having
    ++ (if orderBy.isEmpty then "" else " order by " ++
      Text.commaList (OrderItem.texts orderBy))).toList = _
  simp

/-- The tokens of a select list begin with the word of a distinct query just when its first item
does. -/
theorem startsWithWord_distinct_iff
    {items : List SelectItem}
    {token : Token}
    {others : List Token}
    (nonempty : items ≠ [])
    (opens : ∀ item ∈ items.head?, Opens item.expression.opening? token) :
    startsWithWord "distinct" (token :: others) = false ↔
      ∀ item ∈ items.head?, item.expression.opening? ≠ some "distinct" := by
  obtain ⟨item, items, rfl⟩ := List.exists_cons_of_ne_nil nonempty
  simpa [startsWithWord] using ((opens item rfl).apart_iff (by decide)).symm

/-- A query that can be read selects something from somewhere. -/
theorem Query.Readable.select_from
    {query : Query}
    (readable : query.Readable) :
    (query.select ≠ [] ∧ SelectItem.ReadableEach query.select) ∧
      query.sources ≠ [] ∧ ∀ item ∈ query.sources, item.Readable := by
  cases query
  exact ⟨readable.1, readable.2.1⟩

theorem Query.readsBack_of_clauses
    {query : Query}
    (readable : query.Readable)
    (back : ∀ part ∈ query.clauses, part.ReadsBack source) :
    query.ReadsBack source := by
  obtain ⟨⟨selectNonempty, readableSelect⟩, sourcesNonempty, readableSources⟩ :=
    readable.select_from
  have backSelect (item : SelectItem) (member : item ∈ query.select) :
      item.expression.ReadsBack source ∧ LabelReadable item.label :=
    ⟨back _ (by simp [Query.clauses, List.mem_map_of_mem member]),
      (SelectItem.readableEach_iff.mp readableSelect item member).2⟩
  have rereadsSelected := readsBackAs_selectList selectNonempty backSelect
  have rereadsSources := readsBackAs_fromList source sourcesNonempty readableSources
  obtain ⟨separatedWhere, rereadsWhere⟩ := readsClause_where query.condition
    fun e member => back e (by simp [Query.clauses, Option.mem_def.mp member])
  obtain ⟨separatedGroup, rereadsGroup⟩ := readsClause_group query.groupBy
    fun e member => back e (by simp [Query.clauses, member])
  obtain ⟨separatedHaving, rereadsHaving⟩ := readsClause_having query.having
    fun e member => back e (by simp [Query.clauses, Option.mem_def.mp member])
  obtain ⟨separatedOrder, rereadsOrder⟩ := readsClause_order query.orderBy
    fun item member => back _ (by simp [Query.clauses, List.mem_map_of_mem member])
  intro position placed
  rw [query.toList_text] at placed ⊢
  -- Each part of the text at its place, and its tokens there.
  have placedSelected := placed.back.tail.back
  have placedSources := placedSelected.back.tail.back.tail
  have placedWhere := placedSources.back
  have placedGroup := placedWhere.back
  have placedHaving := placedGroup.back
  obtain ⟨selectedTokens, scansSelected, ⟨first, others, rfl, opens⟩, ofSelected⟩ :=
    rereadsSelected _ placedSelected.front
  obtain ⟨sourceTokens, scansSources, -, ofSources⟩ := rereadsSources _ placedSources.front
  obtain ⟨whereTokens, scansWhere, beginsWhere, ofWhere⟩ := rereadsWhere _ placedWhere.front
  obtain ⟨groupTokens, scansGroup, beginsGroup, ofGroup⟩ := rereadsGroup _ placedGroup.front
  obtain ⟨havingTokens, scansHaving, beginsHaving, ofHaving⟩ := rereadsHaving _ placedHaving.front
  obtain ⟨orderTokens, scansOrder, beginsOrder, ofOrder⟩ := rereadsOrder _ placedHaving.back
  -- From the last clause to the first: each stands apart from what is in front of it.
  have separatedLater := separated_append separatedHaving separatedOrder
  have separatedGroupOn := separated_append separatedGroup separatedLater
  have scansLater := scansHaving.append separatedOrder scansOrder
  have scansGroupOn := scansGroup.append separatedLater scansLater
  have scansWhereOn := scansWhere.append separatedGroupOn scansGroupOn
  have scansSourcesOn := scansSources.append (separated_append separatedWhere separatedGroupOn)
    scansWhereOn
  have isFrom : IsName "from".toList := by decide
  have scansFromOn := Scans.space (isFrom.spellsToken.scans (Scans.space scansSourcesOn))
  have scansSelectedOn := scansSelected.append (separated_cons (by decide)) scansFromOn
  obtain ⟨front, scansDistinct, frontMatched, skips⟩ :=
    scans_distinct query.distinct scansSelectedOn
  have isSelect : IsName "select".toList := by decide
  have scans := isSelect.spellsToken.scans (Scans.space scansDistinct)
  rw [String.ofList_toList, String.ofList_toList] at scans
  have lower : "select".toLower = "select" := Text.toLower_eq (by decide)
  have selects := word_isWord position lower
  refine ⟨_, scans, ⟨_, _, rfl, selects⟩, fun rest closes => ?_⟩
  have closesOrder := ClosesWith.append beginsOrder closes
  have closesHaving := ClosesWith.append beginsHaving closesOrder
  have closesGroup := ClosesWith.append beginsGroup closesHaving
  have closesWhere := ClosesWith.append beginsWhere closesGroup
  have isFromWord (place : Nat) : Token.isWord "from" ⟨.word, "from", place⟩ = true :=
    word_isWord place (Text.toLower_eq (by decide))
  refine (rereads_select (16 * (front.length + (first :: others).length + sourceTokens.length +
      whereTokens.length + groupTokens.length + havingTokens.length + orderTokens.length) + 16)
    selects (isFromWord _) frontMatched skips
    (fun _ => startsWithWord_distinct_iff selectNonempty opens)
    ((ofSelected _ (by simpa using isFromWord _)).mono (by omega))
    ((ofSources _ closesWhere).mono (by omega)) ((ofWhere _ closesGroup).mono (by omega))
    ((ofGroup _ closesHaving).mono (by omega)) ((ofHaving _ closesOrder).mono (by omega))
    ((ofOrder rest closes).mono (by omega))).mono ?_
  simp only [List.length_cons, List.length_append]
  omega

/-! ### Queries in expressions -/

section Nested

variable {query : Query}

/-- A query between its parentheses. -/
theorem Query.ReadsBack.parenthesized
    {position : Nat}
    (back : query.ReadsBack source)
    (placed : Placed source position ('(' :: (query.text.toList ++ [')']))) :
    ∃ opening selectToken others closing,
      Scans position ('(' :: (query.text.toList ++ [')']))
        (opening :: (selectToken :: others ++ [closing])) ∧
      opening.kind = .leftParen ∧ closing.kind = .rightParen ∧
      selectToken.isWord "select" = true ∧
      ∀ rest, Rereads (Grammar.select source) (16 * (others.length + 1)) (selectToken :: others)
        query query.Sheltered (closing :: rest) := by
  obtain ⟨tokens, scans, ⟨selectToken, others, rfl, selects⟩, rereads⟩ := back _ placed.tail.front
  have whole := Scans.leftParen (scans.append (separated_cons (by decide)) (.rightParen .nil))
  refine ⟨_, selectToken, others, _, whole, rfl, rfl, selects, ?_⟩
  intro rest
  exact (rereads _ (by simp [ClosesWith])).mono (by simp)

theorem Expr.readsBack_query (back : query.ReadsBack source) :
    (Expr.query query).ReadsBack source := by
  intro position placed
  have text : (Expr.query query).text.toList = '(' :: (query.text.toList ++ [')']) := by
    show ("(" ++ query.text ++ ")").toList = _
    simp
  rw [text] at placed ⊢
  obtain ⟨opening, selectToken, others, closing, scans, opens, closes, selects, rereads⟩ :=
    back.parenthesized placed
  refine ⟨_, scans, (isGroup_query opens closes selects rereads).mono ?_⟩
  simp only [List.length_cons, List.length_append, List.length_nil]
  omega

theorem Expr.readsBack_nonempty (back : query.ReadsBack source) :
    (Expr.nonempty query).ReadsBack source := by
  intro position placed
  have lower : "exists".toLower = "exists" := Text.toLower_eq (by decide)
  have isName : IsName "exists".toList := by decide
  have text : (Expr.nonempty query).text.toList =
      "exists".toList ++ '(' :: (query.text.toList ++ [')']) := by
    show ("exists(" ++ query.text ++ ")").toList = _
    simp
  rw [text] at placed ⊢
  obtain ⟨opening, selectToken, others, closing, scans, opens, closes, selects, rereads⟩ :=
    back.parenthesized placed.back
  have whole := Scans.name isName (by simp; decide) scans
  rw [String.ofList_toList] at whole
  have isWord := word_isWord position lower
  refine ⟨_, whole, (isGroup_nonempty isWord opens closes selects rereads).mono ?_⟩
  simp only [List.length_cons, List.length_append, List.length_nil]
  omega

end Nested

end ObjectQuery
