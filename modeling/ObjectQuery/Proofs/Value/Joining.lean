import ObjectQuery.Value.Truth

/-!
Contract: outcomes that are joined two at a time.

A join that `dominant` decides ranks the outcomes: the dominant truth counts most, then a failure,
then the unknown, then the opposite truth. The join is the side of higher rank, the left one of
equal ranks. That makes it associative, so that the join of many outcomes is the first one of the
highest rank however they are nested, and an order tells only which of several failures it is.

Owns:
- `Truth.rank`, and the join as the side of higher rank;
- `Truth.joinAll`, the join of several outcomes;
- `Truth.Verdict`, what the join of several conditions is as a value.

Does not own: the conditions whose outcomes are joined.
-/

namespace ObjectQuery.Truth

variable {dominant : Bool}

/-! ## Ranks -/

/-- How much an outcome counts in a join that `dominant` decides. -/
def rank (dominant : Bool) : Except Error Truth → Nat
  | .ok (some b) => if b = dominant then 3 else 0
  | .error _ => 2
  | .ok none => 1

section

variable (dominant : Bool) (outcome : Except Error Truth)

theorem rank_eq_three_iff : rank dominant outcome = 3 ↔ outcome = .ok (some dominant) := by
  rcases outcome with error | _ | b
  · simp [rank]
  · simp [rank]
  · cases b <;> cases dominant <;> simp [rank]

theorem rank_eq_two_iff : rank dominant outcome = 2 ↔ ∃ error, outcome = .error error := by
  rcases outcome with error | _ | b
  · simp [rank]
  · simp [rank]
  · cases b <;> cases dominant <;> simp [rank]

theorem rank_eq_one_iff : rank dominant outcome = 1 ↔ outcome = .ok none := by
  rcases outcome with error | _ | b
  · simp [rank]
  · simp [rank]
  · cases b <;> cases dominant <;> simp [rank]

theorem rank_eq_zero_iff : rank dominant outcome = 0 ↔ outcome = .ok (some !dominant) := by
  rcases outcome with error | _ | b
  · simp [rank]
  · simp [rank]
  · cases b <;> cases dominant <;> simp [rank]

theorem rank_le_three : rank dominant outcome ≤ 3 := by
  rcases outcome with error | _ | b
  · exact Nat.le_succ 2
  · exact Nat.le_add_left 1 2
  · cases b <;> cases dominant <;> decide

end

/-- Outcomes of one rank differ only as failures. -/
theorem eq_or_errors_of_rank_eq {outcome outcome' : Except Error Truth}
    (sameRank : rank dominant outcome = rank dominant outcome') :
    outcome = outcome' ∨
      (∃ error, outcome = .error error) ∧ ∃ error, outcome' = .error error := by
  have bounded := rank_le_three dominant outcome
  obtain zero | one | two | three : rank dominant outcome = 0 ∨ rank dominant outcome = 1 ∨
      rank dominant outcome = 2 ∨ rank dominant outcome = 3 := by omega
  · left
    rw [(rank_eq_zero_iff ..).mp zero, (rank_eq_zero_iff ..).mp (sameRank.symm.trans zero)]
  · left
    rw [(rank_eq_one_iff ..).mp one, (rank_eq_one_iff ..).mp (sameRank.symm.trans one)]
  · exact .inr ⟨(rank_eq_two_iff ..).mp two, (rank_eq_two_iff ..).mp (sameRank.symm.trans two)⟩
  · left
    rw [(rank_eq_three_iff ..).mp three, (rank_eq_three_iff ..).mp (sameRank.symm.trans three)]

/-! ## Two outcomes -/

/-- A join is the side of higher rank, the left one of equal ranks. -/
theorem join_eq_ite (left right : Except Error Truth) :
    join dominant left right =
      if rank dominant right ≤ rank dominant left then left else right := by
  cases dominant <;> rcases left with error | _ | _ | _ <;> rcases right with error' | _ | _ | _ <;>
    rfl

theorem join_dominant_left (dominant : Bool) (right : Except Error Truth) :
    join dominant (.ok (some dominant)) right = .ok (some dominant) := by
  simp [join, decides]

theorem join_dominant_right (dominant : Bool) (left : Except Error Truth) :
    join dominant left (.ok (some dominant)) = .ok (some dominant) := by
  simp [join, decides]

theorem join_neutral_left (dominant : Bool) (right : Except Error Truth) :
    join dominant (.ok (some !dominant)) right = right := by
  rcases right with error | _ | other
  · cases dominant <;> rfl
  · cases dominant <;> rfl
  · cases dominant <;> cases other <;> rfl

theorem join_neutral_right (dominant : Bool) (left : Except Error Truth) :
    join dominant left (.ok (some !dominant)) = left := by
  rcases left with error | _ | other
  · cases dominant <;> rfl
  · cases dominant <;> rfl
  · cases dominant <;> cases other <;> rfl

theorem join_assoc (dominant : Bool) (first second third : Except Error Truth) :
    join dominant (join dominant first second) third =
      join dominant first (join dominant second third) := by
  -- Both sides are the first of the three outcomes that has the highest rank.
  simp only [join_eq_ite]
  grind

/-- The opposite of a join is the join of the opposites that the opposite truth decides. -/
theorem join_map_not (dominant : Bool) (left right : Except Error Truth) :
    join (!dominant) (left.map not) (right.map not) = (join dominant left right).map not := by
  cases dominant <;> rcases left with error | _ | _ | _ <;> rcases right with error' | _ | _ | _ <;>
    rfl

/-! ## Many outcomes -/

/-- The join of several outcomes; without any it is the opposite truth. -/
def joinAll (dominant : Bool) (outcomes : List (Except Error Truth)) : Except Error Truth :=
  outcomes.foldr (join dominant) (.ok (some !dominant))

variable {outcomes : List (Except Error Truth)}

theorem joinAll_cons (outcome : Except Error Truth) :
    joinAll dominant (outcome :: outcomes) = join dominant outcome (joinAll dominant outcomes) :=
  rfl

theorem joinAll_append (before after : List (Except Error Truth)) :
    joinAll dominant (before ++ after) =
      join dominant (joinAll dominant before) (joinAll dominant after) := by
  induction before with
  | nil => exact (join_neutral_left dominant _).symm
  | cons outcome rest inductionHypothesis =>
    rw [List.cons_append, joinAll_cons, inductionHypothesis, joinAll_cons, join_assoc]

/-- Outcomes that are joined one after the other to what has been found are joined on their own. -/
theorem foldl_join (found : Except Error Truth) :
    outcomes.foldl (join dominant) found = join dominant found (joinAll dominant outcomes) := by
  induction outcomes generalizing found with
  | nil => exact (join_neutral_right dominant found).symm
  | cons outcome rest inductionHypothesis =>
    rw [List.foldl_cons, inductionHypothesis, join_assoc, joinAll_cons]

theorem joinAll_map_not :
    joinAll (!dominant) (outcomes.map (·.map not)) = (joinAll dominant outcomes).map not := by
  induction outcomes with
  | nil => rfl
  | cons outcome rest inductionHypothesis =>
    rw [List.map_cons, joinAll_cons, joinAll_cons, inductionHypothesis, join_map_not]

/-! ## The first outcome of the highest rank -/

theorem rank_join (left right : Except Error Truth) :
    rank dominant (join dominant left right) = max (rank dominant left) (rank dominant right) := by
  rw [join_eq_ite]
  split <;> omega

/-- The join has a rank below a bound when all outcomes have. -/
theorem rank_joinAll_lt_iff {bound : Nat} (positive : 0 < bound) :
    rank dominant (joinAll dominant outcomes) < bound ↔
      ∀ outcome ∈ outcomes, rank dominant outcome < bound := by
  induction outcomes with
  | nil =>
    have lowest : rank dominant (joinAll dominant []) = 0 := (rank_eq_zero_iff ..).mpr rfl
    simpa [lowest] using positive
  | cons first rest inductionHypothesis =>
    rw [joinAll_cons, rank_join, Nat.max_lt, inductionHypothesis, List.forall_mem_cons]

/-- The order of the outcomes, and how often each of them occurs, do not matter for the rank. -/
theorem rank_joinAll_congr {outcomes' : List (Except Error Truth)}
    (sameMembers : ∀ outcome, outcome ∈ outcomes ↔ outcome ∈ outcomes') :
    rank dominant (joinAll dominant outcomes) = rank dominant (joinAll dominant outcomes') := by
  have below (bound : Nat) (positive : 0 < bound) :
      rank dominant (joinAll dominant outcomes) < bound ↔
        rank dominant (joinAll dominant outcomes') < bound := by
    simp only [rank_joinAll_lt_iff positive, sameMembers]
  have above := below (rank dominant (joinAll dominant outcomes') + 1) (Nat.zero_lt_succ _)
  have above' := below (rank dominant (joinAll dominant outcomes) + 1) (Nat.zero_lt_succ _)
  omega

/-- A join that fails does so as the first outcome that fails. -/
theorem find?_of_joinAll_eq_error {error : Error}
    (failed : joinAll dominant outcomes = .error error) :
    outcomes.find? (!·.isOk) = some (.error error) := by
  induction outcomes with
  | nil => cases failed
  | cons first rest inductionHypothesis =>
    rw [joinAll_cons, join_eq_ite] at failed
    split at failed
    · rw [failed]
      rfl
    · next lower =>
      cases first with
      | error _ =>
        rw [failed] at lower
        exact absurd (Nat.le_refl 2) lower
      | ok _ => exact inductionHypothesis failed

/-! ## What is among the outcomes -/

variable (dominant outcomes)

theorem rank_joinAll_lt_three_iff :
    rank dominant (joinAll dominant outcomes) < 3 ↔ .ok (some dominant) ∉ outcomes := by
  have below (outcome : Except Error Truth) :
      rank dominant outcome < 3 ↔ outcome ≠ .ok (some dominant) := by
    rw [ne_eq, ← rank_eq_three_iff, Nat.lt_iff_le_and_ne, and_iff_right (rank_le_three ..)]
  simp only [rank_joinAll_lt_iff (Nat.zero_lt_succ 2), below]
  exact List.forall_mem_ne'

theorem rank_joinAll_lt_two_iff :
    rank dominant (joinAll dominant outcomes) < 2 ↔
      .ok (some dominant) ∉ outcomes ∧ ∀ error, .error error ∉ outcomes := by
  have below (outcome : Except Error Truth) : rank dominant outcome < 2 ↔
      rank dominant outcome < 3 ∧ ∀ error, outcome ≠ .error error := by
    rw [← not_exists, ← rank_eq_two_iff dominant]
    omega
  simp only [rank_joinAll_lt_iff (Nat.zero_lt_succ 1), below, forall_and]
  rw [← rank_joinAll_lt_iff (Nat.zero_lt_succ 2), rank_joinAll_lt_three_iff]
  grind

theorem rank_joinAll_lt_one_iff :
    rank dominant (joinAll dominant outcomes) < 1 ↔
      .ok (some dominant) ∉ outcomes ∧ (∀ error, .error error ∉ outcomes) ∧
        .ok none ∉ outcomes := by
  have below (outcome : Except Error Truth) : rank dominant outcome < 1 ↔
      rank dominant outcome < 2 ∧ outcome ≠ .ok none := by
    rw [ne_eq, ← rank_eq_one_iff dominant]
    omega
  simp only [rank_joinAll_lt_iff Nat.zero_lt_one, below, forall_and]
  rw [← rank_joinAll_lt_iff (Nat.zero_lt_succ 1), rank_joinAll_lt_two_iff]
  grind

/-! ## Values -/

variable {dominant outcomes}

/-- A truth that is written as a value and read again is the same. -/
theorem map_toValue_bind_ofValue (outcome : Except Error Truth) :
    (outcome.map toValue >>= ofValue) = outcome := by
  rcases outcome with error | _ | b <;> rfl

theorem map_toValue_inj (outcome outcome' : Except Error Truth) :
    outcome.map toValue = outcome'.map toValue ↔ outcome = outcome' := by
  constructor
  · intro same
    rw [← map_toValue_bind_ofValue outcome, same, map_toValue_bind_ofValue]
  · exact congrArg _

theorem map_toValue_eq_ok_iff {outcome : Except Error Truth} {truth : Truth} :
    outcome.map toValue = .ok truth.toValue ↔ outcome = .ok truth :=
  map_toValue_inj outcome (.ok truth)

theorem map_toValue_eq_error_iff {outcome : Except Error Truth} {error : Error} :
    outcome.map toValue = .error error ↔ outcome = .error error :=
  map_toValue_inj outcome (.error error)

/-- The order of the outcomes, and how often each of them occurs, tell only which failure it is. -/
theorem map_joinAll_eq_or_errors (dominant : Bool) {outcomes' : List (Except Error Truth)}
    (sameMembers : ∀ outcome, outcome ∈ outcomes ↔ outcome ∈ outcomes') :
    (joinAll dominant outcomes).map toValue = (joinAll dominant outcomes').map toValue ∨
      (∃ error, (joinAll dominant outcomes).map toValue = .error error) ∧
        ∃ error, (joinAll dominant outcomes').map toValue = .error error := by
  simp only [map_toValue_inj, map_toValue_eq_error_iff]
  exact eq_or_errors_of_rank_eq (rank_joinAll_congr sameMembers)

/-- What a join that `dominant` decides makes of the conditions that it joins. -/
structure Verdict (dominant : Bool) (conditions : List (Except Error Truth))
    (result : Except Error Value) : Prop where
  /-- It is the dominant truth if one of them is. -/
  decided : result = .ok (.boolean dominant) ↔ .ok (some dominant) ∈ conditions
  /-- Otherwise it fails if one of them fails. -/
  failed : (∃ error, result = .error error) ↔
    .ok (some dominant) ∉ conditions ∧ ∃ error, .error error ∈ conditions
  /-- The failure is the leftmost one. -/
  leftmost : ∀ error, result = .error error →
    conditions.find? (!·.isOk) = some (.error error)
  /-- Otherwise it is unknown if one of them is. -/
  unknown : result = .ok .null ↔
    .ok (some dominant) ∉ conditions ∧ (∀ error, .error error ∉ conditions) ∧
      .ok none ∈ conditions
  /-- Otherwise it is the opposite truth. -/
  remaining : result = .ok (.boolean !dominant) ↔
    .ok (some dominant) ∉ conditions ∧ (∀ error, .error error ∉ conditions) ∧
      .ok none ∉ conditions

theorem verdict_joinAll :
    Verdict dominant outcomes ((joinAll dominant outcomes).map toValue) where
  decided := by
    have undecided := rank_joinAll_lt_three_iff dominant outcomes
    have highest := rank_le_three dominant (joinAll dominant outcomes)
    rw [show Value.boolean dominant = toValue (some dominant) from rfl, map_toValue_eq_ok_iff,
      ← rank_eq_three_iff]
    grind
  failed := by
    have undecided := rank_joinAll_lt_three_iff dominant outcomes
    have unfailing := rank_joinAll_lt_two_iff dominant outcomes
    simp only [map_toValue_eq_error_iff]
    rw [← rank_eq_two_iff dominant]
    grind
  leftmost := by
    intro error failed
    exact find?_of_joinAll_eq_error (map_toValue_eq_error_iff.mp failed)
  unknown := by
    have unfailing := rank_joinAll_lt_two_iff dominant outcomes
    have known := rank_joinAll_lt_one_iff dominant outcomes
    rw [show Value.null = toValue none from rfl, map_toValue_eq_ok_iff,
      ← rank_eq_one_iff dominant]
    grind
  remaining := by
    rw [show Value.boolean (!dominant) = toValue (some !dominant) from rfl, map_toValue_eq_ok_iff,
      ← rank_eq_zero_iff, ← rank_joinAll_lt_one_iff, Nat.lt_one_iff]

end ObjectQuery.Truth
