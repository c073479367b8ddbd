import PlaylistRules.Proofs.Json.Grammar

/-!
# Values as they are kept

The values that a text can spell are canonical, and they nest no deeper than the text may. Members
that are in the order of their keys stay as they are when they are put in order.

## Main definitions

* `Json.NestsWithin` : values whose arrays and objects nest to a depth.
* `Json.IsFloatFree` : values without binary numbers.

## Main results

* `Json.ofMembers_eq_self` : members that are in order already.
* `Json.SpellsValue.isCanonical_and_nestsWithin` : values that are spelled.
-/

namespace PlaylistRules.Json

variable {α κ : Type}

/-! ### Canonical members -/

theorem allCanonical_iff {items : List Json} :
    AllCanonical items ↔ ∀ item ∈ items, item.IsCanonical := by
  induction items with
  | nil => simp only [AllCanonical, List.not_mem_nil, false_imp_iff, implies_true]
  | cons item items ih => rw [AllCanonical, List.forall_mem_cons, ih]

theorem membersCanonical_iff {members : List (String × Json)} :
    MembersCanonical members ↔ ∀ member ∈ members, member.2.IsCanonical := by
  induction members with
  | nil => simp only [MembersCanonical, List.not_mem_nil, false_imp_iff, implies_true]
  | cons member members ih => rw [MembersCanonical, List.forall_mem_cons, ih]

/-- Members in the order of their keys, each key once. -/
def KeysIncrease (members : List (String × Json)) : Prop :=
  (members.map Prod.fst).Pairwise (· < ·)

theorem mem_insertMember {key : String} {value : Json} {members : List (String × Json)}
    {member : String × Json} (h : member ∈ insertMember key value members) :
    member = (key, value) ∨ member ∈ members := by
  induction members with
  | nil => exact .inl (List.mem_singleton.mp h)
  | cons first members ih =>
    rw [insertMember] at h
    split at h
    · exact List.mem_cons.mp h
    · split at h
      · exact (List.mem_cons.mp h).imp_right (List.mem_cons_of_mem _)
      · rcases List.mem_cons.mp h with rfl | h
        · exact .inr List.mem_cons_self
        · exact (ih h).imp_right (List.mem_cons_of_mem _)

/-- The keys stay in increasing order. -/
theorem KeysIncrease.insertMember {members : List (String × Json)} (h : KeysIncrease members)
    (key : String) (value : Json) : KeysIncrease (insertMember key value members) := by
  induction members with
  | nil => exact List.pairwise_singleton _ _
  | cons first members ih =>
    rw [KeysIncrease, List.map_cons, List.pairwise_cons] at h
    rw [Json.insertMember]
    split
    · next hlt =>
      refine List.pairwise_cons.mpr ⟨fun other hother => ?_, List.pairwise_cons.mpr h⟩
      rcases List.mem_cons.mp hother with rfl | hother
      · exact hlt
      · exact String.lt_trans hlt (h.1 other hother)
    · next hge =>
      split
      · next heq => exact List.pairwise_cons.mpr ⟨heq ▸ h.1, h.2⟩
      · next hne =>
        have hlt : first.1 < key := Std.lt_of_le_of_ne (String.not_lt.mp hge) (Ne.symm hne)
        refine List.pairwise_cons.mpr ⟨fun other hother => ?_, ih h.2⟩
        obtain ⟨member, hmember, rfl⟩ := List.mem_map.mp hother
        rcases mem_insertMember hmember with rfl | hmember
        · exact hlt
        · exact h.1 _ (List.mem_map_of_mem hmember)

/-- A member with a key after all others is added at the end. -/
theorem insertMember_eq_append {key : String} {value : Json} {members : List (String × Json)}
    (h : ∀ member ∈ members, member.1 < key) :
    insertMember key value members = members ++ [(key, value)] := by
  induction members with
  | nil => rfl
  | cons first members ih =>
    rw [List.forall_mem_cons] at h
    rw [insertMember, if_neg (String.lt_asymm h.1), if_neg (String.ne_of_lt h.1).symm, ih h.2,
      List.cons_append]

private theorem foldl_insertMember {members sorted : List (String × Json)}
    (h : KeysIncrease (sorted ++ members)) :
    members.foldl (fun sorted member => insertMember member.1 member.2 sorted) sorted =
      sorted ++ members := by
  induction members generalizing sorted with
  | nil => rw [List.foldl_nil, List.append_nil]
  | cons member members ih =>
    have hlast : ∀ other ∈ sorted, other.1 < member.1 := fun other hother => by
      rw [KeysIncrease, List.map_append, List.pairwise_append] at h
      exact h.2.2 _ (List.mem_map_of_mem hother) _ List.mem_cons_self
    rw [List.foldl_cons, insertMember_eq_append hlast, ih (by rwa [List.append_assoc]),
      List.append_assoc]
    rfl

/-- **Members that are in order already stay as they are.** -/
theorem ofMembers_eq_self {members : List (String × Json)} (h : KeysIncrease members) :
    ofMembers members = members :=
  foldl_insertMember h

/-- Members are put in order, and none is added. -/
theorem keysIncrease_ofMembers (members : List (String × Json)) :
    KeysIncrease (ofMembers members) ∧ ∀ member ∈ ofMembers members, member ∈ members := by
  suffices h : ∀ sorted : List (String × Json), KeysIncrease sorted →
      KeysIncrease (members.foldl (fun sorted member => insertMember member.1 member.2 sorted)
        sorted) ∧
      ∀ member ∈ members.foldl (fun sorted member => insertMember member.1 member.2 sorted) sorted,
        member ∈ sorted ∨ member ∈ members by
    refine (h [] .nil).imp_right fun hmem member hmember => ?_
    exact (hmem member hmember).resolve_left List.not_mem_nil
  induction members with
  | nil => exact fun sorted h => ⟨h, fun member hmember => .inl hmember⟩
  | cons first members ih =>
    intro sorted h
    obtain ⟨hkeys, hmem⟩ := ih _ (h.insertMember first.1 first.2)
    refine ⟨hkeys, fun member hmember => ?_⟩
    rcases hmem member hmember with hmember | hmember
    · rcases mem_insertMember hmember with rfl | hmember
      · exact .inr List.mem_cons_self
      · exact .inl hmember
    · exact .inr (List.mem_cons_of_mem _ hmember)

/-! ### Depth and numbers -/

/-- The arrays and objects of a value nest to a depth at most. -/
def NestsWithin : Nat → Json → Prop
  | 0, array _ | 0, object _ => False
  | depth + 1, array items => ∀ item ∈ items, NestsWithin depth item
  | depth + 1, object members => ∀ member ∈ members, NestsWithin depth member.2
  | _, _ => True

mutual

/-- No number inside the value is a binary number. -/
def IsFloatFree : Json → Prop
  | number (.float _ _) => False
  | array items => AllFloatFree items
  | object members => MembersFloatFree members
  | _ => True

/-- No value of a list has a binary number inside. -/
def AllFloatFree : List Json → Prop
  | [] => True
  | item :: items => IsFloatFree item ∧ AllFloatFree items

/-- No value of the members has a binary number inside. -/
def MembersFloatFree : List (String × Json) → Prop
  | [] => True
  | (_, value) :: members => IsFloatFree value ∧ MembersFloatFree members

end

theorem allFloatFree_iff {items : List Json} :
    AllFloatFree items ↔ ∀ item ∈ items, item.IsFloatFree := by
  induction items with
  | nil => simp only [AllFloatFree, List.not_mem_nil, false_imp_iff, implies_true]
  | cons item items ih => rw [AllFloatFree, List.forall_mem_cons, ih]

theorem membersFloatFree_iff {members : List (String × Json)} :
    MembersFloatFree members ↔ ∀ member ∈ members, member.2.IsFloatFree := by
  induction members with
  | nil => simp only [MembersFloatFree, List.not_mem_nil, false_imp_iff, implies_true]
  | cons member members ih => rw [MembersFloatFree, List.forall_mem_cons, ih]

/-! ### Values that are spelled -/

theorem SpellsItems.exists_of_mem {closing : Char} {item : Spelling α} {text : List Char}
    {as : List α} (h : SpellsItems closing item text as) {a : α} (ha : a ∈ as) :
    ∃ body, item body a := by
  induction h with
  | last hfirst =>
    obtain ⟨_, body, -, hbody, -⟩ := hfirst
    exact ⟨body, List.mem_singleton.mp ha ▸ hbody⟩
  | cons hfirst _ _ ih =>
    rcases List.mem_cons.mp ha with rfl | ha
    · obtain ⟨_, body, -, hbody, -⟩ := hfirst
      exact ⟨body, hbody⟩
    · exact ih ha

/-- Every item is spelled somewhere. -/
theorem SpellsRest.exists_of_mem {closing : Char} {item : Spelling α} {text : List Char}
    {as : List α} (h : SpellsRest closing item text as) {a : α} (ha : a ∈ as) :
    ∃ body, item body a := by
  cases h with
  | empty => exact absurd ha List.not_mem_nil
  | items h => exact h.exists_of_mem ha

/-- The value of every member is spelled somewhere, as its key decides. -/
theorem SpellsRest.exists_value_of_mem {closing : Char} {key : Spelling κ}
    {value : κ → Spelling α} {text : List Char} {members : List (κ × α)}
    (h : SpellsRest closing (SpellsMember key value) text members) {member : κ × α}
    (hmember : member ∈ members) : ∃ body, value member.1 body member.2 := by
  obtain ⟨_, _, _, -, ⟨_, _, -, ⟨_, body, -, hbody, -⟩, -⟩, -⟩ := h.exists_of_mem hmember
  exact ⟨body, hbody⟩

/-- **A value that is spelled is canonical**, and it nests no deeper than it may. -/
theorem SpellsValue.isCanonical_and_nestsWithin {depth : Nat} {text : List Char} {value : Json}
    (h : SpellsValue depth text value) : value.IsCanonical ∧ value.NestsWithin depth := by
  induction depth generalizing text value with
  | zero =>
    cases h with
    | null | true | false => exact ⟨trivial, trivial⟩
    | string h | number h =>
      obtain ⟨_, -, rfl⟩ := h
      exact ⟨trivial, trivial⟩
    | array h | object h => exact h.elim
  | succ depth ih =>
    cases h with
    | null | true | false => exact ⟨trivial, trivial⟩
    | string h | number h =>
      obtain ⟨_, -, rfl⟩ := h
      exact ⟨trivial, trivial⟩
    | array h =>
      obtain ⟨items, hitems, rfl⟩ := h
      have hitem : ∀ item ∈ items, item.IsCanonical ∧ item.NestsWithin depth :=
        fun item hitem => ih (hitems.exists_of_mem hitem).choose_spec
      exact ⟨allCanonical_iff.mpr fun item h => (hitem item h).1, fun item h => (hitem item h).2⟩
    | object h =>
      obtain ⟨members, hmembers, rfl⟩ := h
      obtain ⟨hkeys, hmem⟩ := keysIncrease_ofMembers members
      have hmember : ∀ member ∈ ofMembers members,
          member.2.IsCanonical ∧ member.2.NestsWithin depth := fun member hmember =>
        ih (hmembers.exists_value_of_mem (hmem member hmember)).choose_spec
      exact ⟨⟨hkeys, membersCanonical_iff.mpr fun member h => (hmember member h).1⟩,
        fun member h => (hmember member h).2⟩

end PlaylistRules.Json
