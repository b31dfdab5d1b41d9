import Mathlib.Data.List.Basic
import Mathlib.Tactic.IntervalCases
import ObjectQuery.Expr

/-!
Contract: what a chain of operands stands for, by the precedence of the operators between them.

The tree of a chain is found from the top: at the last of its loosest operators the chain is split
in two. Comparisons are the only operators that are not repeated: between two of them there has to
be an `and` or an `or`.

Owns:
- `Operator` and its level;
- `Precedence.tree`, by splitting at the last `or`, or else at the last `and`, and so on;
- `Precedence.Apart`, by which comparisons are apart, and the first one that is not.

Does not own: tokens and texts.
-/

namespace ObjectQuery

/-- An operator between two operands. -/
inductive Operator where
  | or
  | and
  | relational (op : RelationalOp)
  | arithmetic (op : ArithmeticOp)
deriving DecidableEq, Repr

namespace Operator

/-- The operator as it is written. -/
def symbol : Operator → String
  | .or => "or"
  | .and => "and"
  | .relational op => op.symbol
  | .arithmetic op => op.symbol

/-- The operator with its operands. -/
def join : Operator → Expr → Expr → Expr
  | .or => .or
  | .and => .and
  | .relational op => .relational op
  | .arithmetic op => .binary op

/-- From the loosest operators to the tightest: `or`, `and`, comparisons, sums, products. -/
def level : Operator → Nat
  | .or => 1
  | .and => 2
  | .relational _ => 3
  | .arithmetic .add | .arithmetic .subtract => 4
  | .arithmetic _ => 5

theorem one_le_level (op : Operator) : 1 ≤ op.level := by
  rcases op with _ | _ | _ | op
  · decide
  · decide
  · show 1 ≤ 3
    decide
  · cases op <;> decide

theorem level_le_five (op : Operator) : op.level ≤ 5 := by
  rcases op with _ | _ | _ | op
  · decide
  · decide
  · show 3 ≤ 5
    decide
  · cases op <;> decide

end Operator

/-- The operators of a chain behind its first operand, each with the operand behind it. -/
abbrev Links := List (Operator × Expr)

namespace Precedence

variable {links before after : Links} {link : Operator × Expr} {first : Expr} {level : Nat}

/-! ### Splitting a chain -/

/-- The last link of a level, with the links in front of it and behind it. -/
def lastAt (level : Nat) : Links → Option (Links × (Operator × Expr) × Links)
  | [] => none
  | link :: rest =>
    match lastAt level rest with
    | some (before, last, after) => some (link :: before, last, after)
    | none => if link.1.level = level then some ([], link, rest) else none

theorem lastAt_eq_none_iff : lastAt level links = none ↔ ∀ link ∈ links, link.1.level ≠ level := by
  induction links with
  | nil => simp [lastAt]
  | cons link rest inductionHypothesis =>
    rw [List.forall_mem_cons, ← inductionHypothesis, lastAt]
    cases lastAt level rest with
    | some _ => simp
    | none => by_cases here : link.1.level = level <;> simp [here]

theorem lastAt_append
    (here : link.1.level = level)
    (notBehind : ∀ other ∈ after, other.1.level ≠ level) :
    lastAt level (before ++ link :: after) = some (before, link, after) := by
  induction before with
  | nil => rw [List.nil_append, lastAt, lastAt_eq_none_iff.mpr notBehind, if_pos here]
  | cons _ before inductionHypothesis => rw [List.cons_append, lastAt, inductionHypothesis]

theorem of_lastAt_eq_some (split : lastAt level links = some (before, link, after)) :
    links = before ++ link :: after ∧ link.1.level = level ∧
      ∀ other ∈ after, other.1.level ≠ level := by
  induction links generalizing before with
  | nil => cases split
  | cons head rest inductionHypothesis =>
    rw [lastAt] at split
    cases behind : lastAt level rest with
    | some parts =>
      obtain ⟨front, last, back⟩ := parts
      rw [behind] at split
      obtain ⟨rfl, rfl, rfl⟩ : head :: front = before ∧ last = link ∧ back = after := by
        simpa using split
      obtain ⟨equal, isLast⟩ := inductionHypothesis behind
      exact ⟨congrArg (head :: ·) equal, isLast⟩
    | none =>
      simp only [behind] at split
      by_cases here : head.1.level = level
      · rw [if_pos here] at split
        obtain ⟨rfl, rfl, rfl⟩ : [] = before ∧ head = link ∧ rest = after := by simpa using split
        exact ⟨rfl, here, lastAt_eq_none_iff.mp behind⟩
      · rw [if_neg here] at split
        cases split

/-- The last `or`, or else the last `and`, or else the last comparison, or else the last `+` or `-`,
or else the last `*`, `/` or `%`. -/
def split? (links : Links) : Option (Links × (Operator × Expr) × Links) :=
  [1, 2, 3, 4, 5].findSome? (lastAt · links)

/-- The tree of a chain: its first operand alone, or the operator at which the chain is split, with
the trees of the two parts. -/
def tree (first : Expr) (links : Links) : Expr :=
  match found : split? links with
  | none => first
  | some (before, (op, operand), after) =>
    have shorter : before.length < links.length ∧ after.length < links.length := by
      obtain ⟨level, -, isLast⟩ := List.exists_of_findSome?_eq_some found
      rw [(of_lastAt_eq_some isLast).1, List.length_append, List.length_cons]
      omega
    op.join (tree first before) (tree operand after)
termination_by links.length
decreasing_by
  · exact shorter.1
  · exact shorter.2

theorem tree_nil (first : Expr) : tree first [] = first := by
  rw [tree]
  rfl

/-- A chain of a level is one of the tighter levels, or is split at its last operator of the
level. -/
theorem tighter_or_split (tight : ∀ link ∈ links, level ≤ link.1.level) :
    (∀ link ∈ links, level < link.1.level) ∨
      ∃ before link after,
        links = before ++ link :: after ∧ link.1.level = level ∧
          (∀ other ∈ before, level ≤ other.1.level) ∧ ∀ other ∈ after, level < other.1.level := by
  cases found : lastAt level links with
  | none =>
    left
    intro link member
    exact Nat.lt_of_le_of_ne (tight link member) (lastAt_eq_none_iff.mp found link member).symm
  | some parts =>
    obtain ⟨before, link, after⟩ := parts
    obtain ⟨rfl, here, notBehind⟩ := of_lastAt_eq_some found
    obtain ⟨loosest, tightBehind⟩ := List.forall_mem_append.mp tight
    right
    refine ⟨before, link, after, rfl, here, loosest, fun other member => ?_⟩
    apply Nat.lt_of_le_of_ne
    · exact tightBehind other (List.mem_cons_of_mem link member)
    · exact (notBehind other member).symm

/-- A chain is split at an operator that is loosest in it, the last one of its level. -/
theorem tree_append
    (here : link.1.level = level)
    (loosest : ∀ other ∈ before, level ≤ other.1.level)
    (last : ∀ other ∈ after, level < other.1.level) :
    tree first (before ++ link :: after) =
      link.1.join (tree first before) (tree link.2 after) := by
  subst here
  have isLast : lastAt link.1.level (before ++ link :: after) = some (before, link, after) :=
    lastAt_append rfl fun other member => Nat.ne_of_gt (last other member)
  have looser {level : Nat} (below : level < link.1.level) :
      lastAt level (before ++ link :: after) = none := by
    rw [lastAt_eq_none_iff, List.forall_mem_append, List.forall_mem_cons]
    refine ⟨fun other member => ?_, Nat.ne_of_gt below, fun other member => ?_⟩
    · exact Nat.ne_of_gt (Nat.lt_of_lt_of_le below (loosest other member))
    · exact Nat.ne_of_gt (Nat.lt_trans below (last other member))
  have found : split? (before ++ link :: after) = some (before, link, after) := by
    have positive := link.1.one_le_level
    have small := link.1.level_le_five
    unfold split?
    generalize link.1.level = level at isLast looser positive small
    interval_cases level <;> simp [isLast, looser]
  rw [tree]
  split
  · next missing => rw [missing] at found; cases found
  · next found' =>
    rw [found] at found'
    cases found'
    rfl

/-! ### Comparisons apart -/

/-- In front of each comparison of the chain there is an `and` or an `or`. -/
def Shielded (links : Links) : Prop :=
  ∀ between link after, links = between ++ link :: after → link.1.level = 3 →
    ∃ junction ∈ between, junction.1.level < 3

/-- Between any two comparisons of the chain there is an `and` or an `or`. -/
def Apart (links : Links) : Prop :=
  ∀ before link after, links = before ++ link :: after → link.1.level = 3 → Shielded after

/-- A comparison of the chain has no `and` and no `or` behind it. -/
def Pending (links : Links) : Prop :=
  ∃ before link between, links = before ++ link :: between ∧ link.1.level = 3 ∧
    ∀ other ∈ between, 3 ≤ other.1.level

theorem shielded_nil : Shielded [] := by
  intro between link after equal
  simp at equal

theorem shielded_cons :
    Shielded (link :: links) ↔ link.1.level < 3 ∨ link.1.level ≠ 3 ∧ Shielded links := by
  constructor
  · intro shielded
    by_cases isJunction : link.1.level < 3
    · exact .inl isJunction
    · refine .inr ⟨fun isComparison => ?_, fun between other after equal isComparison => ?_⟩
      · obtain ⟨_, member, -⟩ := shielded [] link links rfl isComparison
        cases member
      · obtain ⟨junction, member, loose⟩ :=
          shielded (link :: between) other after (congrArg (link :: ·) equal) isComparison
        rcases List.mem_cons.mp member with rfl | isBetween
        · exact absurd loose isJunction
        · exact ⟨junction, isBetween, loose⟩
  · intro shielded between other after equal isComparison
    cases between with
    | nil =>
      obtain ⟨rfl, -⟩ := List.cons.inj equal
      omega
    | cons head between =>
      obtain ⟨rfl, behind⟩ := List.cons.inj equal
      rcases shielded with isJunction | ⟨-, shielded⟩
      · exact ⟨link, List.mem_cons_self, isJunction⟩
      · obtain ⟨junction, isBetween, loose⟩ := shielded between other after behind isComparison
        exact ⟨junction, List.mem_cons_of_mem _ isBetween, loose⟩

theorem apart_nil : Apart [] := by
  intro before link after equal
  simp at equal

theorem apart_cons :
    Apart (link :: links) ↔ (link.1.level = 3 → Shielded links) ∧ Apart links := by
  constructor
  · intro apart
    refine ⟨apart [] link links rfl, fun before other after equal => ?_⟩
    exact apart (link :: before) other after (congrArg (link :: ·) equal)
  · intro ⟨shielded, apart⟩ before other after equal isComparison
    cases before with
    | nil =>
      obtain ⟨rfl, rfl⟩ := List.cons.inj equal
      exact shielded isComparison
    | cons head before => exact apart before other after (List.cons.inj equal).2 isComparison

instance decidableShielded : (links : Links) → Decidable (Shielded links)
  | [] => .isTrue shielded_nil
  | _ :: links =>
    have := decidableShielded links
    decidable_of_iff _ shielded_cons.symm

instance decidableApart : (links : Links) → Decidable (Apart links)
  | [] => .isTrue apart_nil
  | _ :: links =>
    have := decidableApart links
    decidable_of_iff _ apart_cons.symm

theorem Apart.left {second : Links} (apart : Apart (before ++ second)) : Apart before := by
  intro front link after equal isComparison between other back equal'
  apply apart front link (after ++ second) (by simp [equal]) isComparison between other
    (back ++ second)
  simp [equal']

theorem Apart.behind (apart : Apart (before ++ link :: after)) : Apart after := by
  intro front other back equal
  apply apart (before ++ link :: front) other back
  simp [equal]

/-- Without an `and` and an `or`, all is tighter around a comparison. -/
theorem Apart.tight
    (apart : Apart (before ++ link :: after))
    (isComparison : link.1.level = 3)
    (noJunction : ∀ other ∈ before ++ link :: after, 3 ≤ other.1.level) :
    (∀ other ∈ before, 4 ≤ other.1.level) ∧ ∀ other ∈ after, 4 ≤ other.1.level := by
  constructor
  · intro other member
    apply Nat.lt_of_le_of_ne (noJunction other (List.mem_append_left _ member))
    intro isComparisonToo
    obtain ⟨front, between, rfl⟩ := List.append_of_mem member
    obtain ⟨junction, isBetween, loose⟩ := apart front other (between ++ link :: after) (by simp)
      isComparisonToo.symm between link after rfl isComparison
    exact absurd loose (Nat.not_lt_of_le (noJunction junction (by simp [isBetween])))
  · intro other member
    apply Nat.lt_of_le_of_ne (noJunction other (by simp [member]))
    intro isComparisonToo
    obtain ⟨between, back, equal⟩ := List.append_of_mem member
    obtain ⟨junction, isBetween, loose⟩ :=
      apart before link after rfl isComparison between other back equal isComparisonToo.symm
    exact absurd loose (Nat.not_lt_of_le (noJunction junction (by simp [equal, isBetween])))

/-- Behind another operator that is loosest in the chain, the same comparison is pending. -/
theorem Pending.of_append
    (pending : Pending (before ++ link :: after))
    (here : link.1.level = level)
    (loosest : ∀ other ∈ before, level ≤ other.1.level)
    (noComparison : level ≠ 3) :
    Pending after := by
  subst here
  obtain ⟨front, comparison, between, equal, isComparison, noJunction⟩ := pending
  rcases List.append_eq_append_iff.mp equal with ⟨middle, rfl, split⟩ | ⟨middle, rfl, split⟩
  · cases middle with
    | nil =>
      obtain ⟨rfl, rfl⟩ := List.cons.inj split
      exact absurd isComparison noComparison
    | cons head middle =>
      obtain ⟨rfl, rfl⟩ := List.cons.inj split
      exact ⟨middle, comparison, between, rfl, isComparison, noJunction⟩
  · cases middle with
    | nil =>
      obtain ⟨rfl, rfl⟩ := List.cons.inj split
      exact absurd isComparison noComparison
    | cons head middle =>
      obtain ⟨rfl, rfl⟩ := List.cons.inj split
      have notLooser := noJunction link (by simp)
      have notTighter := loosest comparison (by simp)
      omega

/-- The first link that is not apart is a comparison behind a pending one. -/
theorem pending_of_not_apart (apart : Apart links) (crowded : ¬Apart (links ++ [link])) :
    link.1.level = 3 ∧ Pending links := by
  unfold Apart Shielded at crowded
  push Not at crowded
  obtain ⟨before, comparison, rest, equal, isComparison, between, other, after, rfl, isOther,
    noJunction⟩ := crowded
  rcases List.eq_nil_or_concat after with rfl | ⟨front, last, rfl⟩
  · have parts : links = before ++ comparison :: between ∧ link = other := by
      have arranged : links ++ [link] = (before ++ comparison :: between) ++ [other] := by
        rw [equal]
        simp
      simpa using List.append_inj' arranged rfl
    obtain ⟨rfl, rfl⟩ := parts
    exact ⟨isOther, before, comparison, between, rfl, isComparison, noJunction⟩
  · have parts : links = before ++ comparison :: (between ++ other :: front) ∧ link = last := by
      have arranged : links ++ [link] =
          (before ++ comparison :: (between ++ other :: front)) ++ [last] := by
        rw [equal]
        simp
      simpa using List.append_inj' arranged rfl
    obtain ⟨junction, isBetween, loose⟩ :=
      apart before comparison _ parts.1 isComparison between other front rfl isOther
    exact absurd (noJunction junction isBetween) (Nat.not_le_of_lt loose)

end Precedence

end ObjectQuery
