import Mathlib.Data.List.Induction
import PlaylistRules.Proofs.Json.Agreement
import PlaylistRules.Proofs.Json.Canonical

/-!
# Members by their keys

The members of an object are put in the order of their keys, and of members with one key the last
one counts. What other members say, one for one, is found under the same keys.

## Main definitions

* `Json.valuesOf` : the values under a key.

## Main results

* `Json.lookup_ofMembers` : the last member of a key counts.
* `Json.valuesOf_eq_toList` : keys that are not repeated.
* `Json.lookup_ofMembers_of_mem`, `Json.map_fst_ofMembers_perm` : members without repeated keys.
* `Json.forall₂_valuesOf` : the values under a key and what other members say.
-/

namespace PlaylistRules.Json

/-- The values that members have under a key, in the order of the members. -/
def valuesOf (key : String) (members : List (String × Json)) : List Json :=
  members.filterMap fun member => if member.1 = key then some member.2 else none

variable {key : String} {members : List (String × Json)}

theorem valuesOf_cons (first : String × Json) :
    valuesOf key (first :: members) =
      (if first.1 = key then some first.2 else none).toList ++ valuesOf key members := by
  rw [valuesOf, List.filterMap_cons]
  by_cases h : first.1 = key
  · rw [if_pos h]
    rfl
  · rw [if_neg h]
    rfl

theorem lookup_cons_eq_if (first : String × Json) :
    (first :: members).lookup key =
      if key = first.1 then some first.2 else members.lookup key := by
  rw [List.lookup_cons]
  by_cases h : key = first.1
  · rw [if_pos h, beq_iff_eq.mpr h]
  · rw [if_neg h, beq_false_of_ne h]

theorem lookup_insertMember (key' : String) (value : Json) :
    (insertMember key' value members).lookup key =
      if key = key' then some value else members.lookup key := by
  induction members with
  | nil => exact lookup_cons_eq_if (key', value)
  | cons first members ih =>
    rw [insertMember]
    split
    · exact lookup_cons_eq_if (key', value)
    split
    · next hfirst =>
      rw [lookup_cons_eq_if, lookup_cons_eq_if, hfirst]
      split <;> rfl
    · next hfirst =>
      rw [lookup_cons_eq_if, lookup_cons_eq_if, ih]
      by_cases h : key = first.1
      · rw [if_pos h, if_pos h, if_neg (h ▸ Ne.symm hfirst)]
      · rw [if_neg h, if_neg h]

/-- **The last member of a key counts.** -/
theorem lookup_ofMembers : (ofMembers members).lookup key = (valuesOf key members).getLast? := by
  induction members using List.reverseRecOn with
  | nil => rfl
  | append_singleton members last ih =>
    have hlast : ofMembers (members ++ [last]) = insertMember last.1 last.2 (ofMembers members) :=
      List.foldl_append
    rw [hlast, lookup_insertMember, ih, valuesOf, valuesOf, List.filterMap_append]
    by_cases h : key = last.1
    · simp [h]
    · simp [h, Ne.symm h]

theorem valuesOf_eq_nil (h : key ∉ members.map Prod.fst) : valuesOf key members = [] :=
  List.filterMap_eq_nil_iff.mpr fun member hmember =>
    if_neg fun hkey => h (List.mem_map.mpr ⟨member, hmember, hkey⟩)

theorem mem_valuesOf {member : String × Json} (h : member ∈ members) :
    member.2 ∈ valuesOf member.1 members :=
  List.mem_filterMap.mpr ⟨member, h, if_pos rfl⟩

/-- A key that is not repeated has one value at most. -/
theorem valuesOf_eq_toList (h : (members.map Prod.fst).Nodup) :
    valuesOf key members = ((ofMembers members).lookup key).toList := by
  suffices hone : ∃ o : Option Json, valuesOf key members = o.toList by
    obtain ⟨o, ho⟩ := hone
    rw [lookup_ofMembers, ho]
    cases o <;> rfl
  induction members with
  | nil => exact ⟨none, rfl⟩
  | cons first members ih =>
    rw [List.map_cons, List.nodup_cons] at h
    by_cases hkey : first.1 = key
    · have hothers : valuesOf key members = [] := valuesOf_eq_nil (hkey ▸ h.1)
      refine ⟨some first.2, ?_⟩
      rw [valuesOf_cons, if_pos hkey, hothers]
      rfl
    · obtain ⟨o, ho⟩ := ih h.2
      refine ⟨o, ?_⟩
      rw [valuesOf_cons, if_neg hkey, ho]
      rfl

/-- **Members without repeated keys keep their values** when they are put in order. -/
theorem lookup_ofMembers_of_mem (h : (members.map Prod.fst).Nodup) {member : String × Json}
    (hmember : member ∈ members) : (ofMembers members).lookup member.1 = some member.2 := by
  have hvalue := mem_valuesOf hmember
  rwa [valuesOf_eq_toList h, Option.mem_toList] at hvalue

/-- They keep their keys as well. -/
theorem map_fst_ofMembers_perm (h : (members.map Prod.fst).Nodup) :
    ((ofMembers members).map Prod.fst).Perm (members.map Prod.fst) := by
  obtain ⟨hkeys, hmem⟩ := keysIncrease_ofMembers members
  have hnodup : ((ofMembers members).map Prod.fst).Nodup := hkeys.imp String.ne_of_lt
  refine (List.perm_ext_iff_of_nodup hnodup h).mpr fun key => ?_
  constructor
  · intro hkey
    obtain ⟨member, hmember, rfl⟩ := List.mem_map.mp hkey
    exact List.mem_map_of_mem (hmem member hmember)
  · intro hkey
    obtain ⟨member, hmember, rfl⟩ := List.mem_map.mp hkey
    obtain ⟨before, after, heq, -⟩ :=
      List.lookup_eq_some_iff.mp (lookup_ofMembers_of_mem h hmember)
    simp [heq]

/-! ### Values under a key -/

section ValuesOf

variable {μ γ : Type} {related : String → Json → μ → Prop} {members : List (String × Json)}
  {members' : List (String × μ)} {key : String} {of? : μ → Option γ}

/-- The values under a key are related to what the members say that have the key. -/
theorem forall₂_valuesOf {R : Json → γ → Prop}
    (hrelated : List.Forall₂ (SameKey related) members members')
    (hof : ∀ k json m, related k json m →
      Option.Rel R (if k = key then some json else none) (of? m)) :
    List.Forall₂ R (valuesOf key members) ((members'.map Prod.snd).filterMap of?) := by
  rw [List.filterMap_map]
  refine List.rel_filterMap ?_ hrelated
  rintro m m' ⟨-, hvalue⟩
  exact hof m.1 m.2 m'.2 hvalue

/-- The values under a key are made of what the members say that have the key. -/
theorem valuesOf_eq_map {f : γ → Json}
    (hrelated : List.Forall₂ (SameKey related) members members')
    (hof : ∀ k json m, related k json m →
      (if k = key then some json else none) = (of? m).map f) :
    valuesOf key members = ((members'.map Prod.snd).filterMap of?).map f := by
  have hrel : List.Forall₂ (fun json c => json = f c) (valuesOf key members)
      ((members'.map Prod.snd).filterMap of?) := by
    refine forall₂_valuesOf hrelated fun k json m hm => ?_
    rw [hof k json m hm]
    cases of? m with
    | none => exact .none
    | some c => exact .some rfl
  rwa [← List.forall₂_map_right_iff, List.forall₂_eq_eq_eq] at hrel

end ValuesOf

end PlaylistRules.Json
