import ObjectQuery.Proofs.Expr.Rereading.Names

/-!
Contract: paths, collection tests and marks are read back.

All of them are a row of names with dots between, and then at most one more part.

Owns: the texts of rows of names, and the forms that end them.

Does not own: literals, calls and queries.
-/

namespace ObjectQuery

open Grammar Token

variable {source tail : List Char} {e : Expr} {first name : String} {names owner others : List String}

/-! ### Rows of names as text -/

/-- Each name behind a dot. -/
def memberText (names : List String) : List Char :=
  names.flatMap fun name => '.' :: name.toList

theorem toList_dotted (first : String) (others : List String) :
    (dotted (first :: others)).toList = first.toList ++ memberText others := by
  induction others generalizing first with
  | nil =>
    rw [dotted, String.intercalate_singleton]
    simp [memberText]
  | cons second others inductionHypothesis =>
    have split : dotted (first :: second :: others) = first ++ "." ++ dotted (second :: others) :=
      String.intercalate_cons_cons
    rw [split, String.toList_append, inductionHypothesis second]
    simp [memberText]

theorem toList_dottedOwner (first : String) (others : List String) :
    (dottedOwner (first :: others)).toList = first.toList ++ (memberText others ++ ['.']) := by
  induction others generalizing first with
  | nil => simp [dottedOwner, memberText]
  | cons second others inductionHypothesis =>
    have split : dottedOwner (first :: second :: others) =
        first ++ "." ++ dottedOwner (second :: others) := String.join_cons
    rw [split, String.toList_append, inductionHypothesis second]
    simp [memberText]

theorem toList_dottedOwner_append (split : first :: others = owner ++ [name]) :
    (dottedOwner owner ++ name).toList = first.toList ++ memberText others := by
  cases owner with
  | nil =>
    obtain ⟨rfl, rfl⟩ := List.cons.inj split
    simp [dottedOwner, memberText]
  | cons head owner =>
    obtain ⟨rfl, rfl⟩ := List.cons.inj split
    rw [String.toList_append, toList_dottedOwner]
    simp [memberText]

/-! ### Names behind dots -/

theorem pathGoesOn_append
    {tokens rest : List Token}
    (dots : ∀ token ∈ tokens.head?, token.kind = .dot)
    (goesOn : PathGoesOn rest) :
    PathGoesOn (tokens ++ rest) := by
  cases tokens with
  | nil => exact goesOn
  | cons token tokens =>
    intro other head
    obtain rfl : token = other := by simpa using head
    exact .inl (dots token rfl)

theorem memberText_boundary
    (names : List String)
    (boundary : ∀ c ∈ tail.head?, isWordPart c = false) :
    ∀ c ∈ (memberText names ++ tail).head?, isWordPart c = false := by
  cases names with
  | nil => exact boundary
  | cons name names =>
    intro c head
    obtain rfl : '.' = c := by simpa [memberText] using head
    decide

/-- The names are tokens that take a path on to the last one of them. -/
theorem memberText_readsBack
    (source : List Char)
    {tailTokens : List Token}
    {position : Nat}
    (members : ∀ name ∈ names, IsMember name)
    (boundary : ∀ c ∈ tail.head?, isWordPart c = false)
    (scansTail : Scans (position + byteLength (memberText names)) tail tailTokens) :
    ∃ tokens, Scans position (memberText names ++ tail) (tokens ++ tailTokens) ∧
      tokens.length = 2 * names.length ∧ (∀ token ∈ tokens.head?, token.kind = .dot) ∧
      (∀ rest, Matched (tokens ++ rest) rest) ∧
      ∀ {front owner name last rest}, front ++ name :: names = owner ++ [last] → PathGoesOn rest →
        ∀ budget, pathTail source (budget + names.length) front name (tokens ++ rest) =
          pathTail source budget owner last rest := by
  induction names generalizing position with
  | nil =>
    refine ⟨[], scansTail, rfl, by simp, .refl, ?_⟩
    intro front owner name last rest split goesOn budget
    obtain ⟨rfl, rfl⟩ := List.append_singleton_inj.mp split
    rfl
  | cons member names inductionHypothesis =>
    have isMember := members member (List.mem_cons_self ..)
    have text : memberText (member :: names) = '.' :: (member.toList ++ memberText names) := by
      simp [memberText]
    rw [text] at scansTail ⊢
    have moved : position + byteLength ('.' :: (member.toList ++ memberText names)) =
        position + 1 + byteLength member.toList + byteLength (memberText names) := by
      have one : '.'.utf8Size = 1 := by decide
      simp only [byteLength_cons, byteLength_append, one]
      omega
    rw [moved] at scansTail
    obtain ⟨tokens, scans, length, dots, matched, follow⟩ := inductionHypothesis
      (fun name among => members name (List.mem_cons_of_mem member among)) scansTail
    have whole := Scans.dot (Scans.name isMember.1 (memberText_boundary names boundary) scans)
    rw [String.ofList_toList] at whole
    refine ⟨⟨.dot, ".", position⟩ :: ⟨.word, member, position + 1⟩ :: tokens, ?_, ?_, ?_, ?_, ?_⟩
    · simpa using whole
    · simp only [List.length_cons, length]
      omega
    · simp
    · intro rest
      exact ((Matched.skip (by simp) (by simp)).trans (.skip_word rfl)).trans (matched rest)
    · intro front owner name last rest split goesOn budget
      have split' : (front ++ [name]) ++ member :: names = owner ++ [last] := by
        rw [← split, List.append_assoc, List.singleton_append]
      have step : pathTail source (budget + names.length + 1) front name
          (⟨.dot, ".", position⟩ :: ⟨.word, member, position + 1⟩ :: (tokens ++ rest)) =
            pathTail source (budget + names.length) (front ++ [name]) member (tokens ++ rest) :=
        pathTail_member rfl rfl isMember.2 (pathGoesOn_append dots goesOn)
      rw [List.length_cons, ← Nat.add_assoc, List.cons_append, List.cons_append, step]
      exact follow split' goesOn budget

/-- A row of names and what ends it. -/
theorem Expr.readsBack_of_chain
    (tail : List Char)
    (chain : IsChain (first :: others))
    (opens : e.opening? = some first.toLower)
    (split : first :: others = owner ++ [name])
    (text : e.text.toList = first.toList ++ (memberText others ++ tail))
    (boundary : ∀ c ∈ tail.head?, isWordPart c = false)
    (backTail : ∀ position, Placed source position tail →
      ∃ tokens, Scans position tail tokens ∧ (∀ token ∈ tokens.head?, token.kind = .dot) ∧
        ∀ rest, (∀ token ∈ rest.head?, token.Follows 6) →
          Retakes (fun budget => pathTail source budget owner name) (16 * tokens.length + 1) tokens e
            (e.Everywhere Shelters) rest) :
    e.ReadsBack source := by
  intro position placed
  obtain ⟨isName, notKeyword, members⟩ := chain
  rw [text] at placed ⊢
  obtain ⟨tailTokens, scansTail, dotsTail, retakes⟩ := backTail _ placed.back.back
  obtain ⟨tokens, scans, length, dots, matched, follow⟩ :=
    memberText_readsBack source members boundary scansTail
  have whole := Scans.name isName (memberText_boundary others boundary) scans
  rw [String.ofList_toList] at whole
  have goesOnTail (rest : List Token) (follows : ∀ token ∈ rest.head?, token.Follows 6) :
      PathGoesOn (tailTokens ++ rest) :=
    pathGoesOn_append dotsTail fun token head => .inr (follows token head)
  have retakesPath (rest : List Token) (follows : ∀ token ∈ rest.head?, token.Follows 6) :
      Retakes (fun budget => pathTail source budget [] first)
        (16 * tailTokens.length + 1 + others.length) (tokens ++ tailTokens) e
        (e.Everywhere Shelters) rest := by
    have step (budget : Nat) :
        pathTail source (budget + others.length) [] first (tokens ++ tailTokens ++ rest) =
          pathTail source budget owner name (tailTokens ++ rest) := by
      rw [List.append_assoc]
      exact follow (show [] ++ first :: others = owner ++ [name] from split) (goesOnTail rest follows)
        budget
    refine ⟨?_, ?_, ?_⟩
    · rw [List.append_assoc]
      exact (matched _).trans (retakes rest follows).matched
    · intro sheltered budget enough
      obtain ⟨budget, rfl⟩ := Nat.exists_eq_add_of_le'
        (Nat.le_trans (Nat.le_add_left others.length _) enough)
      have read := (retakes rest follows).reads sheltered budget (by omega)
      exact (step budget).trans read
    · refine .of_more others.length (fun budget => pathTail_extends budget [] first _) ?_
      intro budget
      rw [step]
      exact (retakes rest follows).takes budget
  refine ⟨_, whole, IsGroup.mono (isGroup_path rfl opens notKeyword ?_ retakesPath) ?_⟩
  · intro rest follows
    rw [List.append_assoc]
    exact pathGoesOn_append dots (goesOnTail rest follows)
  · simp only [List.length_cons, List.length_append, length]
    omega

/-! ### What ends a row -/

/-- What ends a row of names and has no parts. -/
theorem retakes_pathTail
    {tokens rest : List Token}
    {cost : Nat}
    (leaf : e.Everywhere Expr.Shelters)
    (reads : Reads (fun budget => pathTail source budget owner name) cost tokens e rest) :
    Retakes (fun budget => pathTail source budget owner name) cost tokens e
      (e.Everywhere Expr.Shelters) rest :=
  .of_reads (fun budget => pathTail_matches budget owner name)
    (fun budget => pathTail_extends budget owner name _) leaf reads

theorem Expr.readsBack_path
    {path : Path}
    (chain : IsChain path.segments) :
    (Expr.path path).ReadsBack source := by
  obtain ⟨first, others, split⟩ := List.exists_cons_of_ne_nil
    (show path.segments ≠ [] by simp [Path.segments])
  rw [split] at chain
  refine readsBack_of_chain [] chain (by simp [opening?, split]) split.symm ?_ (by simp) ?_
  · have text : (Expr.path path).text = dotted path.segments := rfl
    rw [text, split, toList_dotted, List.append_nil]
  · intro position placed
    refine ⟨[], .nil, by simp, fun rest follows => retakes_pathTail (sheltered_of_leaf rfl rfl) ?_⟩
    intro budget enough
    obtain ⟨budget, rfl⟩ := Nat.exists_eq_add_of_le' enough
    exact pathTail_path follows

theorem Expr.readsBack_count
    {collection : String}
    (chain : IsChain (owner ++ [collection])) :
    (Expr.count owner collection).ReadsBack source := by
  have lower : "Count".toLower = "count" := Text.toLower_eq (by decide)
  have isName : IsName "Count".toList := by decide
  obtain ⟨first, others, split⟩ := List.exists_cons_of_ne_nil
    (show owner ++ [collection] ≠ [] by simp)
  rw [split] at chain
  refine readsBack_of_chain ('.' :: "Count".toList) chain (by simp [opening?, split]) split.symm
    ?_ (by simp; decide) ?_
  · have text := toList_dottedOwner_append split.symm
    show (dottedOwner owner ++ collection ++ ".Count").toList = _
    rw [String.toList_append, text, List.append_assoc]
    rfl
  · intro position placed
    have scans : Scans position ('.' :: "Count".toList)
        [⟨.dot, ".", position⟩, ⟨.word, "Count", position + 1⟩] := .dot (.wholeName isName _)
    refine ⟨_, scans, by simp, fun rest follows => retakes_pathTail (sheltered_of_leaf rfl rfl) ?_⟩
    intro budget enough
    obtain ⟨budget, rfl⟩ := Nat.exists_eq_add_of_le' (Nat.le_trans (Nat.le_add_left 1 _) enough)
    exact pathTail_count rfl (word_isWord _ lower) follows

theorem Expr.readsBack_contains
    {collection : String}
    {element : Expr}
    (chain : IsChain (owner ++ [collection]))
    (back : element.ReadsBack source) :
    (Expr.contains owner collection element).ReadsBack source := by
  have lower : "Contains".toLower = "contains" := Text.toLower_eq (by decide)
  have isName : IsName "Contains".toList := by decide
  obtain ⟨first, others, split⟩ := List.exists_cons_of_ne_nil
    (show owner ++ [collection] ≠ [] by simp)
  rw [split] at chain
  refine readsBack_of_chain
    ('.' :: ("Contains".toList ++ '(' :: (element.text.toList ++ [')']))) chain
    (by simp [opening?, split]) split.symm ?_ (by simp; decide) ?_
  · have text := toList_dottedOwner_append split.symm
    show (dottedOwner owner ++ collection ++ ".Contains(" ++ element.text ++ ")").toList = _
    rw [String.toList_append, String.toList_append, String.toList_append, text]
    simp
  · intro position placed
    obtain ⟨tokens, scans, isGroup⟩ := back _ placed.tail.back.tail.front
    have scansBehind := Scans.leftParen (scans.append (separated_cons (by decide))
      (.rightParen .nil))
    have whole := Scans.dot (Scans.name isName (by simp; decide) scansBehind)
    rw [String.ofList_toList] at whole
    refine ⟨_, whole, by simp, fun rest follows => ?_⟩
    refine Retakes.mono (pathTail_contains rfl (word_isWord _ lower) rfl rfl isGroup) ?_
    simp only [List.length_cons, List.length_append, List.length_nil]
    omega

/-- The mark that ends a row of names, as a symbol or a word. -/
theorem Expr.readsBack_mark
    {mark : List Char}
    {markToken : Nat → Token}
    (chain : IsChain owner)
    (leaf : e.Everywhere Shelters)
    (opens : e.opening? = owner.head?.map String.toLower)
    (text : e.text.toList = (dottedOwner owner).toList ++ mark)
    (scans : ∀ position, Scans position mark [markToken position])
    (reads : ∀ position front name, owner = front ++ [name] →
      ∀ rest, (∀ token ∈ rest.head?, token.Follows 6) → ∀ dot : Token, dot.kind = .dot →
        ∀ budget, pathTail source (budget + 1) front name (dot :: markToken position :: rest) =
          .ok (e, rest)) :
    e.ReadsBack source := by
  cases owner with
  | nil => exact absurd chain (by simp [IsChain])
  | cons first others =>
    obtain ⟨front, name, split⟩ : ∃ front name, first :: others = front ++ [name] :=
      ⟨_, _, (List.dropLast_concat_getLast (List.cons_ne_nil first others)).symm⟩
    refine readsBack_of_chain ('.' :: mark) chain opens split ?_
      (by simp; decide) ?_
    · rw [text, toList_dottedOwner]
      simp
    · intro position placed
      refine ⟨_, Scans.dot (scans _), by simp, fun rest follows => retakes_pathTail leaf ?_⟩
      intro budget enough
      obtain ⟨budget, rfl⟩ := Nat.exists_eq_add_of_le' (Nat.le_trans (Nat.le_add_left 1 _) enough)
      exact reads _ front name split rest follows _ rfl budget

theorem Expr.readsBack_asterisk
    (chain : owner = [] ∨ IsChain owner) :
    (Expr.asterisk owner).ReadsBack source := by
  have scans (position : Nat) : Scans position ['*'] [⟨.star, "*", position⟩] := .star .nil
  rcases chain with rfl | chain
  · intro position placed
    refine ⟨_, scans position, IsPrimary.isGroup ?_ (sheltered_of_leaf rfl rfl)⟩
    exact IsPrimary.mono (isPrimary_star rfl) (by simp)
  · refine readsBack_mark chain (sheltered_of_leaf rfl rfl) rfl String.toList_append scans ?_
    rintro position front name rfl rest - dot isDot budget
    exact pathTail_asterisk isDot rfl

theorem Expr.readsBack_classTag
    (chain : owner = [] ∨ IsChain owner) :
    (Expr.classTag owner).ReadsBack source := by
  have lower : "SoodaClass".toLower = "soodaclass" := Text.toLower_eq (by decide)
  have isName : IsName "SoodaClass".toList := by decide
  rcases chain with rfl | chain
  · exact readsBack_of_word "soodaclass" isName lower (sheltered_of_leaf rfl rfl)
      fun token => isPrimary_classTag
  · have scans (position : Nat) :
        Scans position "SoodaClass".toList [⟨.word, "SoodaClass", position⟩] :=
      .wholeName isName position
    refine readsBack_mark chain (sheltered_of_leaf rfl rfl) rfl String.toList_append scans ?_
    rintro position front name rfl rest follows dot isDot budget
    exact pathTail_classTag isDot (word_isWord position lower) follows

end ObjectQuery
