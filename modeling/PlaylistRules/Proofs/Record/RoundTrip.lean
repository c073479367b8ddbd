import PlaylistRules.Proofs.Json.Printing
import PlaylistRules.Proofs.Record.Reading

/-!
# Storing and reading rule records

The stored text of a tree is read back to the same tree, if no value in it has a binary number
inside or nests deeper than a stored value may. Every value that was read once is canonical and does
not nest deeper.

## Main definitions

* `TreeRecord.AllValues` : a property of the values of all rules.
* `Record.IsStorable` : values that are read back.

## Main results

* `Record.spellsTree_write` : the stored text of a tree spells the tree of the groups that its
  groups spell.
* `Record.SpellsTree.allValues` : the values of a tree that is spelled.
* `TreeRecord.parse_text` : trees are read back.
-/

namespace PlaylistRules

/-- The values of all rules have a property. -/
def TreeRecord.AllValues (property : Json → Prop) (tree : TreeRecord) : Prop :=
  ∀ group ∈ tree.groups, ∀ rule ∈ group.rules, property rule.value

namespace Record

open Json

variable {text : List Char}

/-! ### Stored texts -/

/-- A value that is read back from its stored text. -/
structure IsStorable (value : Json) : Prop where
  canonical : value.IsCanonical
  floatFree : value.IsFloatFree
  nestsWithin : value.NestsWithin valueDepth

/-- What is written for a rule spells it with the value that is spelled in its place. -/
theorem spellsRule_write {rule rule' : RuleRecord} (hmodel : rule'.model = rule.model)
    (hoperator : rule'.operator = rule.operator)
    (hvalue : SpellsValue valueDepth rule.value.write rule'.value) :
    SpellsRule rule.write rule' := by
  obtain ⟨hmodelKey, hoperatorKey, hvalueKey⟩ := spellsRuleMember_known
  have hmodel : SpellsMember SpellsString SpellsRuleMember
      (writeMember "model" (writeString rule.model)) ("model", .model rule'.model) := by
    refine spellsMember_writeMember ?_
    rw [hmodelKey, hmodel]
    exact ⟨rule.model, spellsString_writeString rule.model, rfl⟩
  have hoperator : SpellsMember SpellsString SpellsRuleMember
      (writeMember "operator" (writeString rule.operator))
      ("operator", .operator rule'.operator) := by
    refine spellsMember_writeMember ?_
    rw [hoperatorKey, hoperator]
    exact ⟨rule.operator, spellsString_writeString rule.operator, rfl⟩
  have hvalue : SpellsMember SpellsString SpellsRuleMember
      (writeMember "value" rule.value.write) ("value", .value rule'.value) := by
    refine spellsMember_writeMember ?_
    rw [hvalueKey]
    exact ⟨rule'.value, hvalue, rfl⟩
  have hrule : SpellsRule _ rule' := .object
    (.items (.cons_tight hmodel (.cons_tight hoperator (.last_tight hvalue))))
    ⟨rfl, rfl, .inl rfl⟩
  simp only [writeMember, List.append_assoc, List.cons_append] at hrule
  simp only [RuleRecord.write, List.append_assoc, List.cons_append]
  exact hrule

/-- What is written for a list of records spells a list, each record as what a function makes of
it. -/
theorem spellsList_write {α β : Type} {item : Spelling β} {write : α → List Char} {f : α → β}
    {as : List α} (h : ∀ a ∈ as, item (write a) (f a)) :
    SpellsList item ('[' :: (joinCommas (as.map write) ++ [']'])) (as.map f) :=
  ⟨_, spellsRest_joinCommas_map ']' h, rfl⟩

/-- What is written for a group spells the group of the rules that are spelled in it. -/
theorem spellsGroup_write {α : Type} {rules : List α} {r s : α → RuleRecord}
    (h : ∀ rule ∈ rules, SpellsRule (r rule).write (s rule)) :
    SpellsGroup (GroupRecord.write ⟨rules.map r⟩) ⟨rules.map s⟩ := by
  have hkey : SpellsGroupMember "rules" = Mapped some (SpellsList SpellsRule) := if_pos rfl
  have hrules : SpellsMember SpellsString SpellsGroupMember
      (writeMember "rules"
        ('[' :: (joinCommas (rules.map (RuleRecord.write ∘ r)) ++ [']'])))
      ("rules", some (rules.map s)) := by
    refine spellsMember_writeMember ?_
    rw [hkey]
    exact ⟨rules.map s, spellsList_write h, rfl⟩
  have hgroup : SpellsGroup _ ⟨rules.map s⟩ := .object (.items (.last_tight hrules)) (.inl rfl)
  simp only [writeMember, List.append_assoc, List.cons_append] at hgroup
  simp only [GroupRecord.write, List.map_map, List.append_assoc, List.cons_append]
  exact hgroup

/-- **What is written for a tree spells the tree** of the groups that are spelled in it. -/
theorem spellsTree_write {α : Type} {groups : List α} {g t : α → GroupRecord}
    (h : ∀ group ∈ groups, SpellsGroup (g group).write (t group)) :
    SpellsTree (TreeRecord.write ⟨groups.map g⟩) ⟨groups.map t⟩ := by
  refine ⟨_, [], spaced_of ?_, isBlank_nil, (List.append_nil _).symm⟩
  rw [TreeRecord.write, List.map_map]
  exact spellsList_write h

/-- A tree whose values can be stored is spelled by what is written for it. -/
theorem spellsTree_write_self {tree : TreeRecord} (h : tree.AllValues IsStorable) :
    SpellsTree tree.write tree := by
  have hgroups : ∀ group ∈ tree.groups, SpellsGroup group.write group := by
    intro group hgroup
    have hrules := spellsGroup_write (r := id) (s := id) fun rule hrule =>
      have hvalue := h group hgroup rule hrule
      spellsRule_write rfl rfl
        (spellsValue_write hvalue.canonical hvalue.floatFree hvalue.nestsWithin)
    rwa [List.map_id] at hrules
  have htree := spellsTree_write (g := id) (t := id) hgroups
  rwa [List.map_id] at htree

/-! ### Values that were read -/

/-- The value that a member of a rule gives is spelled there. -/
theorem SpellsRuleMember.value {key : String} {member : RuleMember} {value : Json}
    (h : SpellsRuleMember key text member) (hvalue : member.value? = some value) :
    SpellsValue valueDepth text value := by
  unfold SpellsRuleMember at h
  split at h
  · obtain ⟨_, -, rfl⟩ := h
    cases hvalue
  split at h
  · obtain ⟨_, -, rfl⟩ := h
    cases hvalue
  split at h
  · obtain ⟨_, hspells, rfl⟩ := h
    exact Option.some.inj hvalue ▸ hspells
  · obtain ⟨_, -, rfl⟩ := h
    cases hvalue

/-- The value of a rule that is spelled is spelled itself, or the rule has none. -/
theorem SpellsRule.value {rule : RuleRecord} (h : SpellsRule text rule) :
    rule.value = .null ∨ ∃ body, SpellsValue valueDepth body rule.value := by
  cases h with
  | @object _ members _ hmembers hrule =>
    obtain hvalue | ⟨-, hnull⟩ := hrule.value
    · have hgiven : rule.value ∈ (members.map Prod.snd).filterMap RuleMember.value? := by
        rw [hvalue]
        exact List.mem_singleton_self _
      obtain ⟨_, hmember, hkind⟩ := List.mem_filterMap.mp hgiven
      obtain ⟨entry, hentry, rfl⟩ := List.mem_map.mp hmember
      obtain ⟨body, hbody⟩ := hmembers.exists_value_of_mem hentry
      exact .inr ⟨body, hbody.value hkind⟩
    · exact .inl hnull
  | items h =>
    cases h with
    | pair => exact .inl rfl
    | triple _ _ _ _ hvalue =>
      obtain ⟨_, body, -, hbody, -⟩ := hvalue
      exact .inr ⟨body, hbody⟩

/-- The rules of a group that is spelled are spelled themselves. -/
theorem SpellsGroup.rules {group : GroupRecord} (h : SpellsGroup text group) {rule : RuleRecord}
    (hrule : rule ∈ group.rules) : ∃ body, SpellsRule body rule := by
  cases h with
  | @object _ members rules hmembers hrules =>
    obtain hvalue | ⟨-, rfl⟩ := hrules
    · have hgiven : rules ∈ members.filterMap Prod.snd := by
        rw [hvalue]
        exact List.mem_singleton_self _
      obtain ⟨member, hmember, hkind⟩ := List.mem_filterMap.mp hgiven
      obtain ⟨body, hbody⟩ := hmembers.exists_value_of_mem hmember
      unfold SpellsGroupMember at hbody
      split at hbody
      · obtain ⟨_, ⟨_, hlist, -⟩, hsome⟩ := hbody
        obtain rfl := Option.some.inj (hsome.trans hkind)
        exact hlist.exists_of_mem hrule
      · obtain ⟨_, -, hnone⟩ := hbody
        cases hnone.trans hkind
    · exact absurd hrule List.not_mem_nil
  | empty => exact absurd hrule List.not_mem_nil
  | single hrules =>
    obtain ⟨_, _, -, ⟨_, hlist, -⟩, -⟩ := hrules
    exact hlist.exists_of_mem hrule

/-- **The values of a tree that is spelled are canonical**, and they nest no deeper than a stored
value may. -/
theorem SpellsTree.allValues {tree : TreeRecord} (h : SpellsTree text tree) :
    tree.AllValues fun value => value.IsCanonical ∧ value.NestsWithin valueDepth := by
  intro group hgroup rule hrule
  obtain ⟨_, _, ⟨_, _, -, ⟨_, hgroups, -⟩, -⟩, -, -⟩ := h
  obtain ⟨_, hgroup⟩ := hgroups.exists_of_mem hgroup
  obtain ⟨_, hrule⟩ := hgroup.rules hrule
  obtain hnull | ⟨_, hvalue⟩ := hrule.value
  · rw [hnull]
    exact ⟨trivial, trivial⟩
  · exact hvalue.isCanonical_and_nestsWithin

/-! ### Reading back -/

/-- A tree is spelled when its groups are, with nothing but blanks after them. -/
theorem exists_mapped_iff_spellsTree {tree : TreeRecord} :
    (∃ body after, Mapped TreeRecord.mk (Spaced (SpellsList SpellsGroup)) body tree ∧
      IsBlank after ∧ text = body ++ after) ↔ SpellsTree text tree := by
  constructor
  · rintro ⟨body, after, ⟨groups, hgroups, rfl⟩, hafter, htext⟩
    exact ⟨body, after, hgroups, hafter, htext⟩
  · rintro ⟨body, after, hgroups, hafter, htext⟩
    exact ⟨body, after, ⟨tree.groups, hgroups, rfl⟩, hafter, htext⟩

end Record

open Json Record

/-- **A tree that is stored is read back**, if its values are canonical, have no binary number
inside and nest to one hundred and twenty-three levels at most. A tree without binary numbers that
was read from any text can be stored and is read back. -/
theorem TreeRecord.parse_text :
    (∀ tree : TreeRecord, tree.AllValues (fun value =>
        value.IsCanonical ∧ value.IsFloatFree ∧ value.NestsWithin 123) →
      TreeRecord.parse tree.text = .ok tree) ∧
    ∀ (source : String) (tree : TreeRecord), TreeRecord.parse source = .ok tree →
      tree.AllValues Json.IsFloatFree → TreeRecord.parse tree.text = .ok tree := by
  have hstored : ∀ tree : TreeRecord, tree.AllValues IsStorable →
      TreeRecord.parse tree.text = .ok tree := fun tree h => by
    rw [TreeRecord.parse, readText_eq_ok_iff reads_readTree, exists_mapped_iff_spellsTree,
      TreeRecord.text, String.toList_ofList]
    exact spellsTree_write_self h
  refine ⟨fun tree h => hstored tree fun group hgroup rule hrule => ?_,
    fun source tree hparse hfree => hstored tree fun group hgroup rule hrule => ?_⟩
  · obtain ⟨hcanonical, hfree, hnests⟩ := h group hgroup rule hrule
    exact ⟨hcanonical, hfree, hnests⟩
  · rw [TreeRecord.parse, readText_eq_ok_iff reads_readTree, exists_mapped_iff_spellsTree] at hparse
    obtain ⟨hcanonical, hnests⟩ := hparse.allValues group hgroup rule hrule
    exact ⟨hcanonical, hfree group hgroup rule hrule, hnests⟩

/-- A quotation mark and a new line in an operator, and a value with an object and an integer. -/
theorem TreeRecord.parse_text_mixed_value :
    let value : Json := .array
      [.object [("", .null), ("a", .bool true)], Json.ofUInt64 18446744073709551615, .string "ü"]
    let tree : TreeRecord := ⟨[⟨[]⟩, ⟨[⟨"title", "\"is\n", value⟩]⟩]⟩
    TreeRecord.parse tree.text = .ok tree := by
  intro value tree
  have hvalue : value.IsCanonical ∧ value.IsFloatFree ∧ value.NestsWithin 123 := by
    refine ⟨⟨⟨by decide, trivial, trivial, trivial⟩, trivial, trivial, trivial⟩,
      ⟨⟨trivial, trivial, trivial⟩, trivial, trivial, trivial⟩, ?_⟩
    simp [value, Json.NestsWithin, Json.ofUInt64]
  refine parse_text.1 tree fun group hgroup rule hrule => ?_
  obtain rfl | hgroup := List.mem_cons.mp hgroup
  · exact absurd hrule List.not_mem_nil
  · obtain rfl := List.mem_singleton.mp hgroup
    obtain rfl := List.mem_singleton.mp hrule
    exact hvalue

end PlaylistRules
