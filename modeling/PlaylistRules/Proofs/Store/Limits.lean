import PlaylistRules.Proofs.Query.Compiled
import PlaylistRules.Store.Limits

/-!
# Predicates within the limits

The conditions of a predicate are checked one after the other, and the check passes exactly when the
whole predicate is within the limits of height and placeholders: no part of a joined expression is
higher than the whole. A predicate with one more condition in each group is at least as high. Each
condition of a compiled predicate takes its patterns from its own values.

## Main results

* `Store.checkLimits_eq_ok_iff` : the predicates that pass the check.
* `Store.isWithinLimits_single` : a single condition is within the limits.
* `Store.joinedHeight_le_append`, `Store.joinedHeight_mono` : the heights of joined expressions.
* `Store.nestedHeight_le_append` : one more condition in each group.
* `Store.predicatePatterns_bindings` : the patterns of a compiled predicate.
-/

namespace PlaylistRules.Store

open Query (Condition Predicate groupArity)

/-! ### Checks -/

section Checks

variable {joined : Option Nat} {height left : Nat} {heights : List Nat} {result : Nat × Option Nat}
  {group : List Condition} {groups : List (List Condition)}

/-- Expressions that are joined one after the other, after those that stand before them. -/
def joinAll (joined : Option Nat) (heights : List Nat) : Option Nat :=
  heights.foldl (fun joined height => some (joinHeight joined height)) joined

theorem joinAll_some (height : Nat) (heights : List Nat) : joinAll (some height) heights =
    some (heights.foldl (fun joined height => max joined height + 1) height) := by
  induction heights generalizing height with
  | nil => rfl
  | cons other heights ih => exact ih (max height other + 1)

theorem joinAll_none (heights : List Nat) :
    (joinAll none heights).getD 0 = joinedHeight heights := by
  cases heights with
  | nil => rfl
  | cons height heights => exact congrArg (Option.getD · 0) (joinAll_some height heights)

/-- What is joined is no higher than the whole. -/
theorem le_joinAll (height : Nat) (heights : List Nat) :
    height ≤ (joinAll (some height) heights).getD 0 := by
  induction heights generalizing height with
  | nil => exact Nat.le_refl _
  | cons other heights ih =>
    exact Nat.le_trans (Nat.le_succ_of_le (Nat.le_max_left _ _)) (ih (max height other + 1))

theorem le_joinHeight (joined : Option Nat) (height : Nat) : height ≤ joinHeight joined height := by
  cases joined with
  | none => exact Nat.le_refl _
  | some joined => exact Nat.le_succ_of_le (Nat.le_max_right _ _)

theorem checkHeight_eq_ok_iff {whole : Nat} : checkHeight joined height = .ok whole ↔
    joinHeight joined height ≤ heightLimit ∧ whole = joinHeight joined height := by
  rw [checkHeight]
  split
  · next hlt => exact ⟨nofun, fun h => absurd h.1 (Nat.not_le.mpr hlt)⟩
  · next hge => exact ⟨fun h => ⟨Nat.not_lt.mp hge, (Except.ok.inj h).symm⟩, fun h => h.2 ▸ rfl⟩

/-- Conditions pass when they have few placeholders and are not too high when they are joined. -/
theorem checkConditions_eq_ok_iff (hjoined : joined.getD 0 ≤ heightLimit) :
    checkConditions left joined group = .ok result ↔
      groupArity group ≤ left ∧
        (joinAll joined (group.map conditionHeight)).getD 0 ≤ heightLimit ∧
        result = (left - groupArity group, joinAll joined (group.map conditionHeight)) := by
  induction group generalizing left joined with
  | nil => exact ⟨fun h => ⟨Nat.zero_le _, hjoined, (Except.ok.inj h).symm⟩, fun h => h.2.2 ▸ rfl⟩
  | cons condition conditions ih =>
    have harity : groupArity (condition :: conditions) =
        condition.arity + groupArity conditions := rfl
    have hheight : joinAll joined ((condition :: conditions).map conditionHeight) =
        joinAll (some (joinHeight joined (conditionHeight condition)))
          (conditions.map conditionHeight) := rfl
    have hpart := le_joinAll (joinHeight joined (conditionHeight condition))
      (conditions.map conditionHeight)
    rw [checkConditions, harity, hheight, ← Nat.sub_sub]
    by_cases hleft : left < condition.arity
    · rw [if_pos hleft]
      exact ⟨nofun, fun h => absurd h.1 (by omega)⟩
    · rw [if_neg hleft]
      simp only [Outcome.bind_eq_ok_iff, checkHeight_eq_ok_iff]
      constructor
      · rintro ⟨_, ⟨hle, rfl⟩, hothers⟩
        obtain ⟨hfew, hlow, hresult⟩ := (@ih (some _) _ hle).mp hothers
        exact ⟨by omega, hlow, hresult⟩
      · rintro ⟨hfew, hlow, hresult⟩
        have hle := Nat.le_trans hpart hlow
        exact ⟨_, ⟨hle, rfl⟩, (@ih (some _) _ hle).mpr ⟨by omega, hlow, hresult⟩⟩

/-- The conditions of a group have none that stand before them. -/
theorem checkConditions_none_eq_ok_iff : checkConditions left none group = .ok result ↔
    groupArity group ≤ left ∧ joinedHeight (group.map conditionHeight) ≤ heightLimit ∧
      result = (left - groupArity group, joinAll none (group.map conditionHeight)) := by
  rw [← joinAll_none]
  exact checkConditions_eq_ok_iff (Nat.zero_le _)

/-- Groups pass when they have few placeholders and are not too high when they are joined. -/
theorem checkGroups_eq_ok_iff (hjoined : joined.getD 0 ≤ heightLimit) :
    checkGroups left joined groups = .ok () ↔
      (Predicate.anyOf groups).arity ≤ left ∧
        (joinAll joined (groups.map fun group => joinedHeight (group.map conditionHeight))).getD 0 ≤
          heightLimit := by
  induction groups generalizing left joined with
  | nil => exact ⟨fun _ => ⟨Nat.zero_le _, hjoined⟩, fun _ => rfl⟩
  | cons group groups ih =>
    have harity : (Predicate.anyOf (group :: groups)).arity =
        groupArity group + (Predicate.anyOf groups).arity := rfl
    have hheight : joinAll joined
        ((group :: groups).map fun group => joinedHeight (group.map conditionHeight)) =
        joinAll (some (joinHeight joined (joinedHeight (group.map conditionHeight))))
          (groups.map fun group => joinedHeight (group.map conditionHeight)) := rfl
    have hpart := le_joinAll (joinHeight joined (joinedHeight (group.map conditionHeight)))
      (groups.map fun group => joinedHeight (group.map conditionHeight))
    have hgroup := le_joinHeight joined (joinedHeight (group.map conditionHeight))
    rw [checkGroups, harity, hheight]
    simp only [Outcome.bind_eq_ok_iff, checkConditions_none_eq_ok_iff, checkHeight_eq_ok_iff]
    constructor
    · rintro ⟨_, ⟨hfew, -, rfl⟩, _, ⟨hle, rfl⟩, hothers⟩
      rw [joinAll_none] at hle hothers
      obtain ⟨hfew', hlow⟩ := (@ih (some _) _ hle).mp hothers
      exact ⟨by omega, hlow⟩
    · rintro ⟨hfew, hlow⟩
      have hle := Nat.le_trans hpart hlow
      refine ⟨_, ⟨by omega, Nat.le_trans hgroup hle, rfl⟩, _, ⟨?_, rfl⟩, ?_⟩
      · rwa [joinAll_none]
      · rw [joinAll_none]
        exact (@ih (some _) _ hle).mpr ⟨by omega, hlow⟩

/-- **The check passes exactly within the limits** of height and placeholders. -/
theorem checkLimits_eq_ok_iff {predicate : Predicate} : checkLimits predicate = .ok () ↔
    predicate.arity ≤ variableLimit ∧ predicateHeight predicate ≤ heightLimit := by
  cases predicate with
  | never => exact ⟨fun _ => ⟨by decide, by decide⟩, fun _ => rfl⟩
  | anyOf groups =>
    rw [checkLimits, checkGroups_eq_ok_iff (Nat.zero_le _), joinAll_none, predicateHeight]

end Checks

/-- **A single condition is within the limits**, unless it takes a long pattern. -/
theorem isWithinLimits_single {condition : Condition} {bindings : List Scalar}
    (h : HasShortPatterns (.anyOf [[condition]]) bindings) :
    IsWithinLimits (.anyOf [[condition]]) bindings := by
  have hheight : nestedHeight (.anyOf [[condition]]) ≤ heightLimit := by
    cases condition with
    | own test =>
      show (if test.comparison = .notLike then 3 else 2) ≤ heightLimit
      split <;> decide
    | related =>
      show 9 ≤ heightLimit
      decide
  have harity : condition.test.comparison.arity ≤ 2 := by
    cases condition.test.comparison <;> decide
  exact ⟨hheight, Nat.le_trans harity (by decide), h⟩

/-! ### One more condition -/

private theorem foldl_height_mono {heights heights' : List Nat}
    (h : List.Forall₂ (· ≤ ·) heights heights') {first first' : Nat} (hfirst : first ≤ first') :
    heights.foldl (fun joined height => max joined height + 1) first ≤
      heights'.foldl (fun joined height => max joined height + 1) first' := by
  induction h generalizing first first' with
  | nil => exact hfirst
  | cons hheight _ ih =>
    refine ih (Nat.succ_le_succ (Nat.max_le.mpr ⟨?_, ?_⟩))
    · exact Nat.le_trans hfirst (Nat.le_max_left _ _)
    · exact Nat.le_trans hheight (Nat.le_max_right _ _)

/-- Joined expressions are at least as high when each of them is. -/
theorem joinedHeight_mono {heights heights' : List Nat}
    (h : List.Forall₂ (· ≤ ·) heights heights') : joinedHeight heights ≤ joinedHeight heights' := by
  cases h with
  | nil => exact Nat.le_refl _
  | cons hfirst hothers => exact foldl_height_mono hothers hfirst

/-- Joined expressions are at least as high with one more of them. -/
theorem joinedHeight_le_append (heights : List Nat) (height : Nat) :
    joinedHeight heights ≤ joinedHeight (heights ++ [height]) := by
  cases heights with
  | nil => exact Nat.zero_le _
  | cons first others =>
    rw [List.cons_append, joinedHeight, joinedHeight, List.foldl_append]
    exact Nat.le_succ_of_le (Nat.le_max_left _ _)

/-- **A predicate is at least as high with one more condition in each group.** -/
theorem nestedHeight_le_append (groups : List (List Condition)) (condition : Condition) :
    nestedHeight (.anyOf groups) ≤
      nestedHeight (.anyOf (groups.map fun group => group ++ [condition])) := by
  have hgroup : ∀ group : List Condition, joinedHeight (group.map conditionHeight) ≤
      joinedHeight ((group ++ [condition]).map conditionHeight) := fun group => by
    rw [List.map_append]
    exact joinedHeight_le_append _ _
  have hheight : predicateHeight (.anyOf groups) ≤
      predicateHeight (.anyOf (groups.map fun group => group ++ [condition])) := by
    refine joinedHeight_mono ?_
    rw [List.map_map, List.forall₂_map_left_iff, List.forall₂_map_right_iff, List.forall₂_same]
    exact fun group _ => hgroup group
  have hrelated : groups.any (List.any · isRelated) →
      (groups.map fun group => group ++ [condition]).any (List.any · isRelated) := by
    simp only [List.any_map, List.any_eq_true, Function.comp_apply, List.mem_append]
    exact fun ⟨group, hgroup, c, hc, h⟩ => ⟨group, hgroup, c, .inl hc, h⟩
  refine Nat.add_le_add hheight ?_
  split
  · next h => exact Nat.le_of_eq (if_pos (hrelated h)).symm
  · exact Nat.zero_le _

/-! ### Compiled predicates -/

section Compiled

variable {conditions : List (Condition × List Scalar)}
  {compiled : List (List (Condition × List Scalar))} {c : Condition × List Scalar}

/-- The patterns that a condition takes from its own values. -/
def ownPatterns (c : Condition × List Scalar) : List Scalar :=
  if takesPattern c.1.test.comparison then c.2 else []

/-- Each condition takes its patterns from its own values. -/
theorem patterns_flatMap (hlength : ∀ c ∈ conditions, c.2.length = c.1.arity) :
    patterns (conditions.map Prod.fst) (conditions.flatMap Prod.snd) =
      conditions.flatMap ownPatterns := by
  induction conditions with
  | nil => rfl
  | cons c conditions ih =>
    rw [List.forall_mem_cons] at hlength
    rw [List.map_cons, List.flatMap_cons, List.flatMap_cons, patterns, ← hlength.1, List.take_left,
      List.drop_left, ih hlength.2, ownPatterns]

/-- **The patterns of a compiled predicate** are those of its conditions. -/
theorem predicatePatterns_bindings
    (hlength : ∀ conditions ∈ compiled, ∀ c ∈ conditions, c.2.length = c.1.arity) :
    predicatePatterns (RuleTree.predicate compiled) (RuleTree.bindings compiled) =
      compiled.flatten.flatMap ownPatterns := by
  have hflatten : ∀ c ∈ compiled.flatten, c.2.length = c.1.arity := fun c hc => by
    obtain ⟨conditions, hconditions, hmem⟩ := List.mem_flatten.mp hc
    exact hlength conditions hconditions c hmem
  unfold RuleTree.predicate
  split
  · next hempty => rw [List.isEmpty_iff.mp hempty]; rfl
  · rw [predicatePatterns, RuleTree.bindings, ← List.map_flatten, ← patterns_flatMap hflatten,
      List.flatten_eq_flatMap, List.flatMap_assoc]
    rfl

end Compiled

end PlaylistRules.Store
