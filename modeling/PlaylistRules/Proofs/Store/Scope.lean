import PlaylistRules.Proofs.Store.Library

/-!
# Scoped trees

A tree on songs that is scoped to a user selects those of its songs with which the user has an
interaction. The scope rule stands in every group and has a subquery of its own, so that it does
not matter through which group a song is selected, or what the other rules say about interactions.

## Main definitions

* `Store.Row.HasInteraction` : the songs with which a user has an interaction.

## Main results

* `RuleTree.holdsOn_scopedTo_iff` : the scope rule can be taken out of the groups.
* `RuleTree.compiled_scopedTo` : a scoped tree is compiled with one more condition in each group.
* `RuleTree.execute_scopedTo` : scoping narrows the result to the songs of a user.
-/

namespace PlaylistRules

open Catalog (Schema Entity library songs interactions)
open Query (Condition Predicate)
open Store

/-- A user has an interaction with the song of a row: some interaction has the identity of the song
and the user. -/
def Store.Row.HasInteraction (database : Database) (user : Int64) (row : Row) : Prop :=
  ∃ other ∈ database.rows interactions.name, row.Joins songs "id" other interactions "song_id" ∧
    other.Satisfies interactions "user_id" .equal [.int user]

instance (database : Database) (user : Int64) (row : Row) :
    Decidable (row.HasInteraction database user) :=
  inferInstanceAs (Decidable (∃ other ∈ database.rows interactions.name, _))

variable {database : Database} {now : Calendar.Instant} {row : Row} {user : Int64}

/-! ### The scope rule -/

namespace Rule

/-- The relation of songs to what users have done with them. -/
def interactionsOf : Catalog.Relation :=
  .hasMany interactions.name songs.name "id" interactions.name "song_id"

/-- The condition of the scope rule on songs. -/
def scopeCondition : Condition :=
  (Catalog.Field.related interactionsOf "user_id").condition songs.name .equal

theorem resolve_scopeField :
    library.resolve songs.name scopeField = .ok (.related interactionsOf "user_id") := by
  decide +kernel

theorem coerce_scope :
    (scope user).operator.coerce now (scope user).values = .ok [.int user] :=
  rfl

theorem compile_scope :
    (scope user).compile library songs.name now = .ok (scopeCondition, [.int user]) :=
  compile_eq_ok_iff.mpr ⟨_, resolve_scopeField, coerce_scope, rfl⟩

/-- The scope rule is true of the songs with which the user has an interaction. -/
theorem holdsOn_scope_iff :
    (scope user).HoldsOn library database songs now row ↔ row.HasInteraction database user := by
  have hsongs : songs ∈ library.entities := by decide
  have hentity : library.entity? interactions.name = some interactions := rfl
  rw [holdsOn_iff hsongs resolve_scopeField coerce_scope,
    Catalog.Field.holdsOn_related_iff hentity]
  rfl

end Rule

/-! ### Scoped trees -/

namespace RuleTree

/-- **The scope rule can be taken out of the groups.** A scoped tree is true of a row when the tree
and the scope rule are. -/
theorem holdsOn_scopedTo_iff {schema : Schema} {entity : Entity} {tree : RuleTree} :
    (tree.scopedTo user).HoldsOn schema database entity now row ↔
      tree.HoldsOn schema database entity now row ∧
        (Rule.scope user).HoldsOn schema database entity now row := by
  simp only [HoldsOn, groups_scopedTo, List.mem_map, exists_exists_and_eq_and,
    RuleGroup.withRule, List.forall_mem_append, List.forall_mem_singleton, ← and_assoc,
    exists_and_right]

variable {tree : RuleTree} {compiled : List (List (Condition × List Scalar))}

/-- A scoped tree is compiled with the condition of the scope rule at the end of each group. -/
theorem compiled_scopedTo (user : Int64)
    (h : Compiled library songs.name now tree.groups compiled) :
    Compiled library songs.name now (tree.scopedTo user).groups
      (compiled.map fun conditions => conditions ++ [(Rule.scopeCondition, [.int user])]) := by
  rw [groups_scopedTo, Compiled, List.forall₂_map_left_iff, List.forall₂_map_right_iff]
  refine List.Forall₂.imp (fun group conditions hgroup => ?_) h
  exact List.rel_append hgroup (.cons Rule.compile_scope .nil)

/-- A predicate is within the bound when it is with one more condition in each group. -/
theorem isShallow_of_append {c : Condition × List Scalar}
    (h : IsShallow (predicate (compiled.map fun conditions => conditions ++ [c]))) :
    IsShallow (predicate compiled) := by
  cases compiled with
  | nil => exact h
  | cons conditions others =>
    have hmap : predicate ((conditions :: others).map fun conditions => conditions ++ [c]) =
        .anyOf (((conditions :: others).map (·.map Prod.fst)).map fun group => group ++ [c.1]) := by
      simp [predicate, Function.comp_def]
    rw [hmap] at h
    exact Nat.le_trans (nestedHeight_le_append _ _) h

theorem length_bindings_le_append (compiled : List (List (Condition × List Scalar)))
    (c : Condition × List Scalar) : (bindings compiled).length ≤
      (bindings (compiled.map fun conditions => conditions ++ [c])).length := by
  induction compiled with
  | nil => exact Nat.le_refl _
  | cons conditions compiled ih =>
    simp only [bindings, List.map_cons, List.flatMap_cons, List.flatMap_append,
      List.length_append] at ih ⊢
    omega

/-- A predicate is within the limits when it is with one more condition in each group: it has no
more placeholders and takes no other patterns. -/
theorem isWithinLimits_of_append {c : Condition × List Scalar}
    (hlength : ∀ conditions ∈ compiled, ∀ c ∈ conditions, c.2.length = c.1.arity)
    (hc : c.2.length = c.1.arity)
    (h : IsWithinLimits (predicate (compiled.map fun conditions => conditions ++ [c]))
      (bindings (compiled.map fun conditions => conditions ++ [c]))) :
    IsWithinLimits (predicate compiled) (bindings compiled) := by
  have hlength' : ∀ conditions ∈ compiled.map fun conditions => conditions ++ [c],
      ∀ c ∈ conditions, c.2.length = c.1.arity := by
    simp only [List.forall_mem_map, List.forall_mem_append, List.forall_mem_singleton]
    exact fun conditions hconditions => ⟨hlength conditions hconditions, hc⟩
  refine ⟨isShallow_of_append h.isShallow, ?_, fun pattern hpattern => ?_⟩
  · rw [arity_predicate hlength]
    exact Nat.le_trans (length_bindings_le_append compiled c)
      (arity_predicate hlength' ▸ h.arity_le)
  · rw [predicatePatterns_bindings hlength] at hpattern
    obtain ⟨own, hown, hmem⟩ := List.mem_flatMap.mp hpattern
    obtain ⟨conditions, hconditions, hmem'⟩ := List.mem_flatten.mp hown
    refine h.hasShortPatterns pattern ?_
    rw [predicatePatterns_bindings hlength']
    exact List.mem_flatMap.mpr ⟨own, List.mem_flatten.mpr
      ⟨_, List.mem_map_of_mem hconditions, List.mem_append_left _ hmem'⟩, hmem⟩

/-- **Scoping narrows the result to the songs of a user, and does nothing else.** The scope rule is
added at the end of each group. A tree on songs that is compiled is also compiled when it is scoped,
and on every database of the library the rows of the scoped query, if it is within the limits of
statements and patterns, are those rows of the query with which the user has an interaction. A tree
without groups asks in both cases that zero is one, which no row satisfies. -/
theorem execute_scopedTo (hdatabase : database.IsOf library) {query : Query}
    (hcompile : tree.compile library songs.name now = .ok query) (user : Int64) :
    (tree.scopedTo user).groups.map RuleGroup.sourceIndex =
        tree.groups.map RuleGroup.sourceIndex ∧
      (tree.scopedTo user).groups.map RuleGroup.rules =
        tree.groups.map (fun group => group.rules ++ [.has "interactions.user_id" (.int user)]) ∧
      ∃ query', (tree.scopedTo user).compile library songs.name now = .ok query' ∧
        (tree.groups = [] →
          query = ⟨songs.name, "0 = 1", []⟩ ∧ query' = ⟨songs.name, "0 = 1", []⟩) ∧
        (query'.IsWithinLimits → ∃ result result', execute database query = .ok result ∧
          execute database query' = .ok result' ∧ result'.columns = result.columns ∧
          let rows := (database.rows songs.name).filter fun row =>
            tree.HoldsOn library database songs now row
          result.rows.Perm (rows.map fun row => row.values.map Value.toScalar) ∧
          result'.rows.Perm ((rows.filter fun row => row.HasInteraction database user).map
            fun row => row.values.map Value.toScalar)) := by
  have hsongs : songs ∈ library.entities := by decide
  obtain ⟨hbase, compiled, hcompiled, rfl⟩ := compile_eq_ok_iff.mp hcompile
  have hscoped := compiled_scopedTo user hcompiled
  have hcompile' := compile_eq_ok_iff.mpr ⟨hbase, _, hscoped, rfl⟩
  refine ⟨?_, ?_, _, hcompile', fun hgroups => ?_, fun hlimits' => ?_⟩
  · rw [groups_scopedTo, List.map_map]
    rfl
  · rw [groups_scopedTo, List.map_map]
    rfl
  · rw [hgroups, Compiled, List.forall₂_nil_left_iff] at hcompiled
    rw [hcompiled]
    exact ⟨rfl, rfl⟩
  · have hlimits : (Query.ofPredicate songs.name (predicate compiled)
        (bindings compiled)).IsWithinLimits := by
      rw [Query.isWithinLimits_ofPredicate_iff (isProper_predicate hcompiled)]
      rw [Query.isWithinLimits_ofPredicate_iff (isProper_predicate hscoped)] at hlimits'
      exact isWithinLimits_of_append
        (fun _ hconditions _ hc => length_of_mem_compiled hcompiled hconditions hc) rfl hlimits'
    obtain ⟨result, hexecute, hcolumns, hrows⟩ := execute_compile Catalog.validate_library
      Catalog.hasSeparateNames_library hdatabase hsongs Catalog.target_ne_source_library hcompile
      hlimits
    obtain ⟨result', hexecute', hcolumns', hrows'⟩ := execute_compile Catalog.validate_library
      Catalog.hasSeparateNames_library hdatabase hsongs Catalog.target_ne_source_library hcompile'
      hlimits'
    refine ⟨result, result', hexecute, hexecute', hcolumns'.trans hcolumns.symm, hrows, ?_⟩
    rw [List.filter_filter]
    simpa only [holdsOn_scopedTo_iff, Rule.holdsOn_scope_iff, Bool.decide_and, Bool.and_comm]
      using hrows'

/-- Of two songs, the one that the user has played. -/
theorem execute_scopedTo_played_song :
    let database := (((Database.ofSchema library).insert "songs"
        [.text "s1", .int 1, .int 1, .text "Foo", .int 180, .null, .null, .null, .text "a", .int 0,
          .null, .null, .null, .text "2018-07-15", .text "2018-07-15"]).insert "songs"
        [.text "s2", .int 1, .int 1, .text "Fox", .int 240, .null, .null, .null, .text "b", .int 0,
          .null, .null, .null, .text "2018-07-15", .text "2018-07-15"]).insert "interactions"
        [.int 1, .int 7, .text "s1", .int 0, .int 3, .null, .text "2018-07-15", .text "2018-07-15"]
    let tree : RuleTree := ofGroups [.ofRules [⟨"title", .beginsWith, [.text "Fo"], rfl⟩]]
    let now : Calendar.Instant := .midnight ⟨2018, 7, 15, by decide, by decide, by decide⟩
    ∃ query query' result result', tree.compile library "songs" now = .ok query ∧
      (tree.scopedTo 7).compile library "songs" now = .ok query' ∧
      execute database query = .ok result ∧ execute database query' = .ok result' ∧
      (result.rows.map List.head?).Perm [some (.text "s1"), some (.text "s2")] ∧
      (result'.rows.map List.head?).Perm [some (.text "s1")] := by
  intro database tree now
  have hsongs : songs ∈ library.entities := by decide
  have hinteractions : interactions ∈ library.entities := by decide
  have hdatabase : database.IsOf library :=
    (((Database.isOf_ofSchema _).insert Catalog.hasSeparateNames_library hsongs rfl).insert
      Catalog.hasSeparateNames_library hsongs rfl).insert Catalog.hasSeparateNames_library
        hinteractions rfl
  have hcompiled : Compiled library songs.name now tree.groups
      [[(.own ⟨"title", .like⟩, [.text "Fo%"])]] := .cons (.cons rfl .nil) .nil
  have hcompile : tree.compile library songs.name now = .ok _ :=
    compile_eq_ok_iff.mpr ⟨rfl, _, hcompiled, rfl⟩
  obtain ⟨-, -, query', hcompile', -, hexecute⟩ := execute_scopedTo hdatabase hcompile 7
  have hlimits : query'.IsWithinLimits := by
    have hscoped := compiled_scopedTo 7 hcompiled
    obtain rfl := Except.ok.inj
      (hcompile'.symm.trans (compile_eq_ok_iff.mpr ⟨rfl, _, hscoped, rfl⟩))
    exact (Query.isWithinLimits_ofPredicate_iff (isProper_predicate hscoped)).mpr (by decide)
  obtain ⟨result, result', hresult, hresult', -, hrows, hrows'⟩ := hexecute hlimits
  refine ⟨_, query', result, result', hcompile, hcompile', hresult, hresult', ?_, ?_⟩
  · refine (hrows.map List.head?).trans (List.Perm.of_eq ?_)
    decide +kernel
  · refine (hrows'.map List.head?).trans (List.Perm.of_eq ?_)
    decide +kernel

end RuleTree

end PlaylistRules
