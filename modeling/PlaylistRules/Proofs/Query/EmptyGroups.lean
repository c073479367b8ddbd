import Mathlib.Order.Monotone.Basic
import PlaylistRules.Proofs.Query.Reloading

/-!
# Groups without rules

Groups without rules may be put in at any places of a stored tree. The tree that is taken then has
the same groups in the same order, only with other indices, and so has the tree that is scoped to a
user, since the scope rule goes to the groups that are left. The query stays the same text with the
same bound values, and an error stays the same but for the index of the group where it is located.

## Main definitions

* `GroupRecord.Insertion` : groups without rules, put in at any places.
* `GroupRecord.Insertion.index` : the index of a group after that.
* `Rule.Error.moved`, `RuleTree.moved` : errors and trees whose groups have other indices.
* `Query.Predicate.branches` : the groups of conditions that a predicate offers.

## Main results

* `RuleTree.ofRecord_insertion` : the tree that is taken.
* `RuleTree.compile_moved` : the query of a tree whose groups have other indices.
* `Query.ofRecord_insertion` : the outcome for a stored tree.
* `Query.map_length_branches` : the branches of a predicate are the groups that have rules.
* `Query.empty_groups_only_move` : what this means for a stored tree.
-/

namespace PlaylistRules

open Catalog (Schema)
open Query (Condition Predicate)
open TreeRecord (located scanGroup)

/-! ### Insertions -/

namespace GroupRecord

/-- Groups without rules, put in at any places among the groups of a stored tree. -/
inductive Insertion : List GroupRecord → List GroupRecord → Type
  | done : Insertion [] []
  | keep (group : GroupRecord) {groups groups' : List GroupRecord} :
    Insertion groups groups' → Insertion (group :: groups) (group :: groups')
  | insert {groups groups' : List GroupRecord} :
    Insertion groups groups' → Insertion groups (⟨[]⟩ :: groups')

namespace Insertion

variable {groups groups' : List GroupRecord}

/-- The index of a group after the insertion. -/
def index {groups groups' : List GroupRecord} : Insertion groups groups' → Nat → Nat
  | done, place => place
  | keep _ _, 0 => 0
  | keep _ rest, place + 1 => rest.index place + 1
  | insert rest, place => rest.index place + 1

/-- The same group is found at its new index. -/
theorem getElem?_index (insertion : Insertion groups groups') (place : Nat) :
    groups'[insertion.index place]? = groups[place]? := by
  induction insertion generalizing place with
  | done => rfl
  | keep group rest ih =>
    cases place with
    | zero => rfl
    | succ place => exact ih place
  | insert rest ih => exact ih place

/-- The groups stay in their order. -/
theorem strictMono_index (insertion : Insertion groups groups') : StrictMono insertion.index := by
  refine strictMono_nat_of_lt_succ fun place => ?_
  induction insertion generalizing place with
  | done => exact Nat.lt_succ_self place
  | keep group rest ih =>
    cases place with
    | zero => exact Nat.succ_pos _
    | succ place => exact Nat.succ_lt_succ (ih place)
  | insert rest ih => exact Nat.succ_lt_succ (ih place)

/-- Groups without rules can all be put into the tree without groups. -/
theorem nonempty_of_forall_nil (h : ∀ group ∈ groups, group.rules = []) :
    Nonempty (Insertion [] groups) := by
  induction groups with
  | nil => exact ⟨done⟩
  | cons group groups ih =>
    rw [List.forall_mem_cons] at h
    obtain ⟨rules⟩ := group
    obtain rfl : rules = [] := h.1
    exact (ih h.2).map insert

end Insertion

end GroupRecord

/-! ### Other indices -/

variable {shift : Nat → Nat}

/-- The location in the group of another index. -/
def Rule.Location.moved (shift : Nat → Nat) (location : Rule.Location) : Rule.Location :=
  ⟨shift location.group, location.rule⟩

/-- The error for the same reason, located in the group of another index. -/
def Rule.Error.moved (shift : Nat → Nat) (error : Rule.Error) : Rule.Error :=
  ⟨error.reason, error.location.map (·.moved shift)⟩

/-- The group with another index. -/
def RuleGroup.moved (shift : Nat → Nat) (group : RuleGroup) : RuleGroup :=
  { group with sourceIndex := group.sourceIndex.map shift }

/-- The tree whose groups have other indices. -/
def RuleTree.moved (shift : Nat → Nat) (tree : RuleTree) : RuleTree where
  groups := tree.groups.map (·.moved shift)
  groups_nonempty group h := by
    obtain ⟨source, hsource, rfl⟩ := List.mem_map.mp h
    exact tree.groups_nonempty source hsource

namespace TreeRecord

variable {α : Type}

/-- A step whose error has no location yet, located in the group of another index. -/
theorem located_moved {step : Except Rule.Error α}
    (h : ∀ error, step = .error error → error.location = none) (group rule : Nat) :
    located (shift group) rule step = (located group rule step).mapError (·.moved shift) := by
  cases step with
  | ok => rfl
  | error error =>
    have hlocate : error.locate (shift group) rule = (error.locate group rule).moved shift := by
      rw [Rule.Error.locate, Rule.Error.locate, h error rfl]
      rfl
    exact congrArg Except.error hlocate

/-- Steps on the items of a group, located in the group of another index. -/
theorem each_located_moved {ι : Type} {step : ι → Except Rule.Error α}
    (h : ∀ item error, step item = .error error → error.location = none) (group : Nat)
    (items : List ι) :
    Outcome.each (fun rule item => located (shift group) rule (step item)) 0 items =
      (Outcome.each (fun rule item => located group rule (step item)) 0 items).mapError
        (·.moved shift) :=
  Outcome.each_eq_mapError (fun rule item _ => located_moved (h item) group rule) 0

end TreeRecord

/-! ### Trees that are taken -/

/-- A group is taken with another index, and its error is located there. -/
theorem RuleGroup.ofRecord_moved (place : Nat) (record : GroupRecord) :
    RuleGroup.ofRecord (shift place) record =
      ((RuleGroup.ofRecord place record).map (·.moved shift)).mapError (·.moved shift) := by
  have hstep : ∀ record error, Rule.ofRecord record = .error error → error.location = none := by
    intro record error h
    obtain ⟨_, rfl, -⟩ := Rule.ofRecord_eq_error_iff.mp h
    rfl
  rw [ofRecord_eq_map, ofRecord_eq_map, scanGroup, TreeRecord.each_located_moved hstep, scanGroup]
  cases Outcome.each (fun rule item => located place rule (Rule.ofRecord item)) 0 record.rules <;>
    rfl

namespace RuleTree

theorem groups_moved (tree : RuleTree) : (tree.moved shift).groups =
    tree.groups.map (·.moved shift) :=
  rfl

theorem groups_ofGroups (groups : List RuleGroup) :
    (ofGroups groups).groups = groups.filter fun group => !group.isEmpty :=
  rfl

/-- A group with another index in front of a tree whose groups have other indices. -/
theorem ofGroups_cons_moved {groups groups' : List RuleGroup} (group : RuleGroup)
    (h : ofGroups groups' = (ofGroups groups).moved shift) :
    ofGroups (group.moved shift :: groups') = (ofGroups (group :: groups)).moved shift := by
  have hempty : (group.moved shift).isEmpty = group.isEmpty := rfl
  have hothers := congrArg RuleTree.groups h
  rw [groups_moved, groups_ofGroups, groups_ofGroups] at hothers
  refine eq_of_groups_eq ?_
  rw [groups_moved, groups_ofGroups, groups_ofGroups, List.filter_cons, List.filter_cons, hempty,
    hothers]
  split <;> rfl

/-- **Groups without rules are left out of the tree that is taken.** The others are taken with their
new indices, and so is an error located. -/
theorem ofRecord_insertion {groups groups' : List GroupRecord}
    (insertion : GroupRecord.Insertion groups groups') :
    ofRecord ⟨groups'⟩ =
      ((ofRecord ⟨groups⟩).map (·.moved insertion.index)).mapError (·.moved insertion.index) := by
  -- The groups are numbered from any indices on, which the insertion moves to one another.
  suffices heach : ∀ (shift : Nat → Nat) (start start' : Nat),
      (∀ place, shift (start + place) = start' + insertion.index place) →
      (Outcome.each RuleGroup.ofRecord start' groups').map ofGroups =
        (((Outcome.each RuleGroup.ofRecord start groups).map ofGroups).map
          (·.moved shift)).mapError (·.moved shift) by
    have hmap : ∀ groups, ofRecord ⟨groups⟩ =
        (Outcome.each RuleGroup.ofRecord 0 groups).map ofGroups := fun _ => by
      rw [ofRecord, groupsOfRecords_eq_each]
      rfl
    rw [hmap, hmap]
    exact heach insertion.index 0 0 fun place => by rw [Nat.zero_add, Nat.zero_add]
  induction insertion with
  | done => exact fun _ _ _ _ => rfl
  | @keep group groups groups' rest ih =>
    intro shift start start' hshift
    have hfirst : start' = shift start := (hshift 0).symm
    have hothers := ih shift (start + 1) (start' + 1) fun place => by
      rw [Nat.add_right_comm, Nat.add_assoc, hshift (place + 1), GroupRecord.Insertion.index]
      omega
    rw [Outcome.each, Outcome.each, hfirst, RuleGroup.ofRecord_moved, ← hfirst]
    cases RuleGroup.ofRecord start group with
    | error => rfl
    | ok first =>
      generalize Outcome.each RuleGroup.ofRecord (start + 1) groups = taken at hothers ⊢
      generalize Outcome.each RuleGroup.ofRecord (start' + 1) groups' = taken' at hothers ⊢
      cases taken with
      | error =>
        cases taken' with
        | error => exact hothers
        | ok => cases hothers
      | ok others =>
        cases taken' with
        | error => cases hothers
        | ok others' =>
          exact congrArg Except.ok (ofGroups_cons_moved first (Except.ok.inj hothers))
  | @insert groups groups' rest ih =>
    intro shift start start' hshift
    have hothers := ih shift start (start' + 1) fun place => by
      rw [hshift place, GroupRecord.Insertion.index]
      omega
    rw [← hothers]
    have hempty : RuleGroup.ofRecord start' ⟨[]⟩ = .ok ⟨[], some start'⟩ := rfl
    rw [Outcome.each, hempty]
    cases Outcome.each RuleGroup.ofRecord (start' + 1) groups' <;> rfl

/-- Scoping to a user does not look at the indices of groups. -/
theorem forUser_moved (tree : RuleTree) (user : Option Int64) :
    (tree.moved shift).forUser user = (tree.forUser user).moved shift := by
  cases user with
  | none => rfl
  | some user =>
    refine eq_of_groups_eq ?_
    show ((tree.moved shift).scopedTo user).groups = ((tree.scopedTo user).moved shift).groups
    rw [groups_moved, groups_scopedTo, groups_scopedTo, groups_moved, List.map_map, List.map_map]
    rfl

/-! ### Queries -/

variable {schema : Schema} {base : String} {now : Calendar.Instant} {user : Option Int64}

/-- **A tree whose groups have other indices is compiled to the same query**, or an error is located
in the group of another index. -/
theorem compile_moved {tree : RuleTree} (h : ∀ group ∈ tree.groups, group.sourceIndex.isSome) :
    (tree.moved shift).compile schema base now =
      (tree.compile schema base now).mapError (·.moved shift) := by
  unfold RuleTree.compile Schema.requireEntity
  cases hbase : schema.entity? base with
  | none => rfl
  | some entity =>
    have hstep : ∀ (rule : Rule) error,
        rule.compile schema base now = .error error → error.location = none := by
      intro rule error herror
      obtain ⟨_, rfl, -⟩ := (Rule.compile_eq_error_iff hbase).mp herror
      rfl
    have hgroups : compileGroups schema base now 0 (tree.moved shift).groups =
        (compileGroups schema base now 0 tree.groups).mapError (·.moved shift) := by
      rw [compileGroups_eq_each, compileGroups_eq_each, groups_moved, Outcome.each_map]
      refine Outcome.each_eq_mapError (fun place group hgroup => ?_) 0
      obtain ⟨source, hsource⟩ := Option.isSome_iff_exists.mp (h group hgroup)
      rw [RuleGroup.compile_eq_each, RuleGroup.compile_eq_each, RuleGroup.moved, hsource]
      exact TreeRecord.each_located_moved hstep source group.rules
    dsimp only
    rw [Schema.name_of_entity? hbase, hgroups]
    cases compileGroups schema base now 0 tree.groups <;> rfl

/-- The groups of a tree that was taken, scoped to a user or not, have indices. -/
theorem isSome_sourceIndex {record : TreeRecord} {tree : RuleTree}
    (h : ofRecord record = .ok tree) :
    ∀ group ∈ (tree.forUser user).groups, group.sourceIndex.isSome := by
  have hown : ∀ group ∈ tree.groups, group.sourceIndex.isSome := fun group hgroup => by
    obtain ⟨_, _, -, hindex, -⟩ := exists_record_of_mem h hgroup
    rw [hindex, Option.isSome_some]
  cases user with
  | none => exact hown
  | some user =>
    show ∀ group ∈ (tree.scopedTo user).groups, group.sourceIndex.isSome
    rw [groups_scopedTo]
    exact List.forall_mem_map.mpr hown

end RuleTree

namespace Query

variable {schema : Schema} {base : String} {now : Calendar.Instant} {user : Option Int64}
  {groups groups' : List GroupRecord} {query : Query}

/-- **Groups without rules change nothing but the indices of groups in locations.** -/
theorem ofRecord_insertion (insertion : GroupRecord.Insertion groups groups') :
    ofRecord schema base now user ⟨groups'⟩ =
      (ofRecord schema base now user ⟨groups⟩).mapError (·.moved insertion.index) := by
  rw [ofRecord, ofRecord, RuleTree.ofRecord_insertion insertion]
  cases htree : RuleTree.ofRecord ⟨groups⟩ with
  | error => rfl
  | ok tree =>
    show ((tree.moved insertion.index).forUser user).compile schema base now = _
    rw [RuleTree.forUser_moved, RuleTree.compile_moved (RuleTree.isSome_sourceIndex htree)]
    rfl

/-- A tree without rules gives the query that selects no row. -/
theorem ofRecord_eq_never (hbase : (schema.entity? base).isSome)
    (h : ∀ group ∈ groups, group.rules = []) :
    ofRecord schema base now user ⟨groups⟩ = .ok (.never base) := by
  obtain ⟨insertion⟩ := GroupRecord.Insertion.nonempty_of_forall_nil h
  have hnone : ofRecord schema base now user ⟨[]⟩ = .ok (.never base) := by
    have hempty : ∀ tree : RuleTree, tree.groups = [] →
        tree.compile schema base now = .ok (.never base) := fun tree htree =>
      RuleTree.compile_eq_ok_iff.mpr ⟨hbase, [], by rw [htree]; exact .nil, rfl⟩
    cases user <;> exact hempty _ rfl
  rw [ofRecord_insertion insertion, hnone]
  rfl

/-! ### Branches -/

/-- The groups of conditions that a predicate offers. -/
def Predicate.branches : Predicate → List (List Condition)
  | never => []
  | anyOf groups => groups

theorem branches_predicate (compiled : List (List (Condition × List Scalar))) :
    (RuleTree.predicate compiled).branches = compiled.map fun conditions =>
      conditions.map Prod.fst := by
  unfold RuleTree.predicate
  split
  · next hempty =>
    rw [List.isEmpty_iff.mp hempty]
    rfl
  · rfl

/-- **The branches of a predicate are the groups that have rules**, each with all its rules and with
one more when the tree is scoped to a user. -/
theorem map_length_branches (h : ofRecord schema base now user ⟨groups⟩ = .ok query) :
    ∃ predicate, Predicate.read? query.predicate = some predicate ∧
      predicate.branches.map List.length =
        ((groups.map fun group => group.rules.length).filter (0 < ·)).map
          (· + user.toList.length) := by
  obtain ⟨tree, htree, h⟩ := Outcome.bind_eq_ok_iff.mp h
  obtain ⟨-, compiled, hcompiled, rfl⟩ := RuleTree.compile_eq_ok_iff.mp h
  refine ⟨_, Predicate.read?_text (RuleTree.isProper_predicate hcompiled), ?_⟩
  have hconditions : compiled.map List.length =
      (tree.forUser user).groups.map fun group => group.rules.length :=
    (Related.map_eq hcompiled fun _ _ hrules => hrules.length_eq).symm
  have hscoped : ((tree.forUser user).groups.map fun group => group.rules.length) =
      (tree.groups.map fun group => group.rules.length).map (· + user.toList.length) := by
    cases user with
    | none => exact (List.map_id' _).symm
    | some user =>
      rw [List.map_map]
      exact RuleTree.map_length_scopedTo
  rw [branches_predicate, List.map_map, ← RuleTree.map_length_of_ofRecord htree, ← hscoped,
    ← hconditions]
  exact List.map_congr_left fun _ _ => List.length_map ..

/-- **Groups without rules only move the others.** When groups without rules are put in at any
places of a stored tree, the other groups are found at their new indices, in the same order. For any
schema, base entity and instant, with a user or without, both trees give the same query, or both
fail for the same reason, where a location moves to the new index of its group. A tree with no other
groups gives the query that selects no row, if the base entity exists; its predicate is that zero is
one. In every query the branches are the groups that have rules, each with all its rules, and with
the scope rule if there is a user. -/
theorem empty_groups_only_move (insertion : GroupRecord.Insertion groups groups') (schema : Schema)
    (base : String) (now : Calendar.Instant) (user : Option Int64) :
    StrictMono insertion.index ∧
    (∀ place, groups'[insertion.index place]? = groups[place]?) ∧
    (∀ query, ofRecord schema base now user ⟨groups⟩ = .ok query ↔
      ofRecord schema base now user ⟨groups'⟩ = .ok query) ∧
    (∀ reason location, ofRecord schema base now user ⟨groups⟩ = .error ⟨reason, location⟩ →
      ofRecord schema base now user ⟨groups'⟩ =
        .error ⟨reason, location.map fun l => ⟨insertion.index l.group, l.rule⟩⟩) ∧
    ((schema.entity? base).isSome → (∀ group ∈ groups', group.rules = []) →
      ofRecord schema base now user ⟨groups'⟩ = .ok (.never base)) ∧
    never base = ⟨base, "0 = 1", []⟩ ∧
    ∀ query, ofRecord schema base now user ⟨groups'⟩ = .ok query →
      ∃ predicate, Predicate.read? query.predicate = some predicate ∧
        predicate.branches.map List.length =
          ((groups'.map fun group => group.rules.length).filter (0 < ·)).map
            (· + user.toList.length) := by
  have hmoved : ofRecord schema base now user ⟨groups'⟩ =
      (ofRecord schema base now user ⟨groups⟩).mapError (·.moved insertion.index) :=
    ofRecord_insertion insertion
  refine ⟨insertion.strictMono_index, insertion.getElem?_index, fun query => ?_,
    fun reason location h => ?_, ofRecord_eq_never, rfl, fun query => map_length_branches⟩
  · rw [hmoved]
    cases ofRecord schema base now user ⟨groups⟩ with
    | error => exact iff_of_false nofun nofun
    | ok => exact Iff.rfl
  · rw [hmoved, h]
    rfl

/-- A group with one rule on a column. -/
def groupOn (column : String) : GroupRecord :=
  ⟨[.ofValues column "is" [.string "Foo"]]⟩

/-- A rule on a column that does not exist moves with its group, a rule on a title is the only
branch of its tree, and two groups without rules select no row. -/
theorem empty_groups_only_move_unknown_column :
    ofRecord Catalog.library "songs" july (some 3) ⟨[groupOn "title", groupOn "rating"]⟩ =
        .error ⟨.unresolved (.unknownColumn "songs" "rating"), some ⟨1, 0⟩⟩ ∧
      ofRecord Catalog.library "songs" july (some 3)
          ⟨[⟨[]⟩, groupOn "title", ⟨[]⟩, ⟨[]⟩, groupOn "rating"]⟩ =
        .error ⟨.unresolved (.unknownColumn "songs" "rating"), some ⟨4, 0⟩⟩ ∧
      (∃ query predicate,
        ofRecord Catalog.library "songs" july (some 3) ⟨[⟨[]⟩, groupOn "title", ⟨[]⟩]⟩ =
            .ok query ∧
          Predicate.read? query.predicate = some predicate ∧
            predicate.branches.map List.length = [2]) ∧
      ofRecord Catalog.library "songs" july (some 3) ⟨[⟨[]⟩, ⟨[]⟩]⟩ = .ok (.never "songs") := by
  have herror : ofRecord Catalog.library "songs" july (some 3)
      ⟨[groupOn "title", groupOn "rating"]⟩ =
        .error ⟨.unresolved (.unknownColumn "songs" "rating"), some ⟨1, 0⟩⟩ := rfl
  obtain ⟨query, hquery⟩ : ∃ query,
      ofRecord Catalog.library "songs" july (some 3) ⟨[groupOn "title"]⟩ = .ok query := ⟨_, rfl⟩
  obtain ⟨-, -, -, hfails, -⟩ := empty_groups_only_move
    (.insert (.keep (groupOn "title") (.insert (.insert (.keep (groupOn "rating") .done)))))
    Catalog.library "songs" july (some 3)
  obtain ⟨-, -, hok, -, -, -, hbranches⟩ := empty_groups_only_move
    (.insert (.keep (groupOn "title") (.insert .done))) Catalog.library "songs" july (some 3)
  obtain ⟨predicate, hread, hlengths⟩ := hbranches query ((hok query).mp hquery)
  obtain ⟨-, -, -, -, hnever, -⟩ := empty_groups_only_move
    (.insert (.insert .done)) Catalog.library "songs" july (some 3)
  exact ⟨herror, hfails _ _ herror, ⟨query, predicate, (hok query).mp hquery, hread, hlengths⟩,
    hnever rfl (by simp)⟩

end Query

end PlaylistRules
