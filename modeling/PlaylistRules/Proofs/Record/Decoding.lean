import PlaylistRules.Proofs.Json.Members
import PlaylistRules.Proofs.Json.Printing
import PlaylistRules.Proofs.Record.Reading
import PlaylistRules.Proofs.Record.Values

/-!
# Reading the records of JSON values

A stored tree is read from its text in one pass, without the JSON value of the text. It is
nevertheless the tree that the JSON value stands for. A text where no object repeats a key is read
whenever its JSON value stands for a tree, and every canonical value has such a text.

## Main definitions

* `Json.SpelledOnce` : a text of a value where no object repeats a key.

## Main results

* `Record.agree_rule`, `Record.agree_group` : what is read is the record of the JSON value.
* `Record.spellsRule_of_ofJson?`, `Record.spellsGroup_of_ofJson?` : texts without repeated keys.
* `TreeRecord.ofJson?_of_parse`, `TreeRecord.parse_of_ofJson?` : whole texts.
-/

namespace PlaylistRules

namespace Record

open Json

variable {text : List Char} {json : Json} {rule : RuleRecord} {group : GroupRecord} {depth : Nat}

/-! ### Members of a rule -/

/-- What a member says about a rule, by its key and its JSON value. -/
def RuleMember.ofJson? (key : String) (json : Json) : Option RuleMember :=
  if key = "model" then json.string?.map .model
  else if key = "operator" then json.string?.map .operator
  else if key = "value" then some (.value json)
  else some .other

private theorem spellsKind_string_iff {array object : Spelling Json} {value : String}
    (harray : ∀ inner, ¬array inner (.string value))
    (hobject : ∀ inner, ¬object inner (.string value)) :
    SpellsKind null (bool true) (bool false) (Mapped string SpellsString)
      (Mapped number SpellsNumber) array object text (.string value) ↔ SpellsString text value := by
  refine ⟨fun h => ?_, fun h => .string ⟨value, h, rfl⟩⟩
  cases h with
  | string h =>
    obtain ⟨_, hstring, hvalue⟩ := h
    exact Json.string.inj hvalue ▸ hstring
  | number h =>
    obtain ⟨_, -, hvalue⟩ := h
    cases hvalue
  | array h => exact absurd h (harray _)
  | object h => exact absurd h (hobject _)

/-- A string is spelled to any depth. -/
theorem spellsValue_string_iff {value : String} :
    SpellsValue depth text (.string value) ↔ SpellsString text value := by
  cases depth with
  | zero => exact spellsKind_string_iff (fun _ => id) fun _ => id
  | succ depth =>
    exact spellsKind_string_iff (fun _ ⟨_, _, hvalue⟩ => nomatch hvalue)
      fun _ ⟨_, _, hvalue⟩ => nomatch hvalue

/-- A member has a known key and says what its JSON value is, or it has another key and says
nothing. -/
theorem RuleMember.cases_of_ofJson? {key : String} {member : RuleMember}
    (h : ofJson? key json = some member) :
    (key = "model" ∧ ∃ value, json = .string value ∧ member = .model value) ∨
      (key = "operator" ∧ ∃ value, json = .string value ∧ member = .operator value) ∨
      (key = "value" ∧ member = .value json) ∨
      (key ≠ "model" ∧ key ≠ "operator" ∧ key ≠ "value" ∧ member = .other) := by
  unfold ofJson? at h
  split at h
  · next hkey =>
    obtain ⟨value, hvalue, rfl⟩ := Option.map_eq_some_iff.mp h
    exact .inl ⟨hkey, value, string?_eq_some_iff.mp hvalue, rfl⟩
  next hmodel =>
  split at h
  · next hkey =>
    obtain ⟨value, hvalue, rfl⟩ := Option.map_eq_some_iff.mp h
    exact .inr (.inl ⟨hkey, value, string?_eq_some_iff.mp hvalue, rfl⟩)
  next hoperator =>
  split at h
  · next hkey => exact .inr (.inr (.inl ⟨hkey, (Option.some.inj h).symm⟩))
  · next hvalue => exact .inr (.inr (.inr ⟨hmodel, hoperator, hvalue, (Option.some.inj h).symm⟩))

/-- A member says something when its value is a text wherever one is needed. -/
theorem RuleMember.exists_ofJson? {key : String}
    (hmodel : key = "model" → ∃ value, json = .string value)
    (hoperator : key = "operator" → ∃ value, json = .string value) :
    ∃ member, ofJson? key json = some member := by
  unfold ofJson?
  split
  · next hkey =>
    obtain ⟨value, rfl⟩ := hmodel hkey
    exact ⟨.model value, rfl⟩
  split
  · next hkey =>
    obtain ⟨value, rfl⟩ := hoperator hkey
    exact ⟨.operator value, rfl⟩
  split
  · exact ⟨.value json, rfl⟩
  · exact ⟨.other, rfl⟩

/-- A member of a rule is spelled when its JSON value is. -/
theorem spellsRuleMember_of_ofJson? {key : String} {member : RuleMember}
    (h : SpellsValue valueDepth text json) (hmember : RuleMember.ofJson? key json = some member) :
    SpellsRuleMember key text member := by
  obtain ⟨hmodelKey, hoperatorKey, hvalueKey⟩ := spellsRuleMember_known
  rcases RuleMember.cases_of_ofJson? hmember with ⟨rfl, value, rfl, rfl⟩ |
    ⟨rfl, value, rfl, rfl⟩ | ⟨rfl, rfl⟩ | ⟨hmodel, hoperator, hvalue, rfl⟩
  · rw [hmodelKey]
    exact ⟨value, spellsValue_string_iff.mp h, rfl⟩
  · rw [hoperatorKey]
    exact ⟨value, spellsValue_string_iff.mp h, rfl⟩
  · rw [hvalueKey]
    exact ⟨json, h, rfl⟩
  · rw [SpellsRuleMember, if_neg hmodel, if_neg hoperator, if_neg hvalue]
    exact ⟨(), ⟨valueDepth, h.skips⟩, rfl⟩

theorem starts_mapped {α β : Type} {spelling : Spelling α} {f : α → β} (h : Starts spelling) :
    Starts (Mapped f spelling) := by
  rintro text _ ⟨a, ha, -⟩
  exact h text a ha

theorem starts_skipsValue : Starts SkipsValue := by
  rintro text _ ⟨depth, h⟩
  exact starts_skipsNested depth text () h

theorem starts_spellsRuleMember (key : String) : Starts (SpellsRuleMember key) := by
  unfold SpellsRuleMember
  split
  · exact starts_mapped starts_spellsString
  split
  · exact starts_mapped starts_spellsString
  split
  · exact starts_mapped (starts_spellsValue valueDepth)
  · exact starts_mapped starts_skipsValue

/-- What a member says about a rule is what its JSON value says. -/
theorem agree_ruleMember (key : String) :
    Agree (fun json member => RuleMember.ofJson? key json = some member) (SpellsValue valueDepth)
      (SpellsRuleMember key) := by
  have hstring : ∀ {text value}, SpellsString text value →
      SpellsValue valueDepth text (.string value) := spellsValue_string_iff.mpr
  have hvalue := agree_spellsValue valueDepth
  unfold RuleMember.ofJson? SpellsRuleMember
  split
  · refine hvalue.change_right ?_
    rintro text _ ⟨value, hspells, rfl⟩
    exact ⟨.string value, hstring hspells, fun json hjson => hjson ▸ rfl⟩
  split
  · refine hvalue.change_right ?_
    rintro text _ ⟨value, hspells, rfl⟩
    exact ⟨.string value, hstring hspells, fun json hjson => hjson ▸ rfl⟩
  split
  · refine hvalue.change_right ?_
    rintro text _ ⟨value, hspells, rfl⟩
    exact ⟨value, hspells, fun json hjson => hjson ▸ rfl⟩
  · refine (agree_skipsValue valueDepth).change_right ?_
    rintro text _ ⟨value, hspells, rfl⟩
    exact ⟨value, hspells, fun json _ => rfl⟩

/-! ### The members of a rule together -/

section Rules

variable {members : List (String × Json)} {members' : List (String × RuleMember)}

/-- A member says something of the kind of its key, and of no other kind. -/
theorem RuleMember.kinds_of_ofJson? {key : String} {member : RuleMember}
    (h : ofJson? key json = some member) :
    (if key = "model" then some json else none) = member.model?.map Json.string ∧
      (if key = "operator" then some json else none) = member.operator?.map Json.string ∧
        (if key = "value" then some json else none) = member.value? := by
  rcases cases_of_ofJson? h with ⟨rfl, value, rfl, rfl⟩ | ⟨rfl, value, rfl, rfl⟩ | ⟨rfl, rfl⟩ |
    ⟨hmodel, hoperator, hvalue, rfl⟩
  · exact ⟨rfl, rfl, rfl⟩
  · exact ⟨rfl, rfl, rfl⟩
  · exact ⟨rfl, rfl, rfl⟩
  · exact ⟨if_neg hmodel, if_neg hoperator, if_neg hvalue⟩

/-- The members of a JSON object make a rule when the values under the known keys do. -/
theorem isRule_iff_valuesOf
    (h : List.Forall₂ (SameKey fun key json member => RuleMember.ofJson? key json = some member)
      members members') :
    IsRule (members'.map Prod.snd) rule ↔
      valuesOf "model" members = [.string rule.model] ∧
        valuesOf "operator" members = [.string rule.operator] ∧
          IsOnlyOr .null (valuesOf "value" members) rule.value := by
  have hmodel : valuesOf "model" members =
      ((members'.map Prod.snd).filterMap RuleMember.model?).map Json.string :=
    valuesOf_eq_map h fun _ _ _ hm => (RuleMember.kinds_of_ofJson? hm).1
  have hoperator : valuesOf "operator" members =
      ((members'.map Prod.snd).filterMap RuleMember.operator?).map Json.string :=
    valuesOf_eq_map h fun _ _ _ hm => (RuleMember.kinds_of_ofJson? hm).2.1
  have hvalue : valuesOf "value" members =
      ((members'.map Prod.snd).filterMap RuleMember.value?).map id :=
    valuesOf_eq_map h fun _ _ _ hm => by
      rw [Option.map_id, id]
      exact (RuleMember.kinds_of_ofJson? hm).2.2
  have hstring : ∀ {texts : List String} {value : String},
      texts.map Json.string = [.string value] ↔ texts = [value] := fun {texts value} => by
    have hinj : Function.Injective Json.string := fun _ _ => Json.string.inj
    exact (List.map_injective_iff.mpr hinj).eq_iff' rfl
  rw [hmodel, hoperator, hvalue, List.map_id, hstring, hstring]
  exact ⟨fun h => ⟨h.model, h.operator, h.value⟩, fun h => ⟨h.1, h.2.1, h.2.2⟩⟩

/-- What members say makes a rule only if the JSON object stands for the rule. -/
theorem ofJson?_of_isRule
    (h : List.Forall₂ (SameKey fun key json member => RuleMember.ofJson? key json = some member)
      members members') (hrule : IsRule (members'.map Prod.snd) rule) :
    RuleRecord.ofJson? (.object (ofMembers members)) = some rule := by
  obtain ⟨hmodel, hoperator, hvalue⟩ := (isRule_iff_valuesOf h).mp hrule
  obtain ⟨value, hvalue, hdefault⟩ := isOnlyOr_iff.mp hvalue
  have hlast : value.toList.getLast? = value := by cases value <;> rfl
  refine RuleRecord.ofJson?_object_iff.mpr ?_
  rw [lookup_ofMembers, lookup_ofMembers, lookup_ofMembers, hmodel, hoperator, hvalue, hlast]
  exact ⟨rfl, rfl, hdefault⟩

/-- Members of a JSON object that repeats no key make the rule that it stands for. -/
theorem exists_isRule_of_ofJson? (hkeys : (members.map Prod.fst).Nodup)
    (hrule : RuleRecord.ofJson? (.object (ofMembers members)) = some rule) :
    ∃ members', List.Forall₂
        (SameKey fun key json member => RuleMember.ofJson? key json = some member)
        members members' ∧ IsRule (members'.map Prod.snd) rule := by
  obtain ⟨hmodel, hoperator, hvalue⟩ := RuleRecord.ofJson?_object_iff.mp hrule
  have hmodel' : valuesOf "model" members = [.string rule.model] := by
    rw [valuesOf_eq_toList hkeys, hmodel]
    rfl
  have hoperator' : valuesOf "operator" members = [.string rule.operator] := by
    rw [valuesOf_eq_toList hkeys, hoperator]
    rfl
  have heach : ∀ member ∈ members, ∃ member',
      SameKey (fun key json member => RuleMember.ofJson? key json = some member)
        member member' := by
    rintro ⟨key, json⟩ hmember
    have hgiven : json ∈ valuesOf key members := mem_valuesOf hmember
    obtain ⟨said, hsaid⟩ : ∃ said, RuleMember.ofJson? key json = some said := by
      refine RuleMember.exists_ofJson? (fun hkey => ?_) fun hkey => ?_
      · rw [hkey, hmodel'] at hgiven
        exact ⟨rule.model, List.mem_singleton.mp hgiven⟩
      · rw [hkey, hoperator'] at hgiven
        exact ⟨rule.operator, List.mem_singleton.mp hgiven⟩
    exact ⟨(key, said), rfl, hsaid⟩
  obtain ⟨members', hrelated⟩ := Related.exists_forall₂ heach
  refine ⟨members', hrelated, (isRule_iff_valuesOf hrelated).mpr ⟨hmodel', hoperator', ?_⟩⟩
  exact isOnlyOr_iff.mpr ⟨_, valuesOf_eq_toList hkeys, hvalue⟩

end Rules

/-! ### Rules -/

/-- A rule in an array is an array of values that stands for it. -/
theorem spellsRuleItems_iff :
    SpellsRuleItems text rule ↔ ∃ items, SpellsItems ']' (SpellsValue valueDepth) text items ∧
      RuleRecord.ofJson? (.array items) = some rule := by
  have hspaced : ∀ {text value}, Spaced SpellsString text value ↔
      Spaced (SpellsValue valueDepth) text (.string value) := fun {text value} => by
    simp only [Spaced, spellsValue_string_iff]
  constructor
  · intro h
    cases h with
    | @pair _ _ _ _ model operator hmodel hafter hoperator hafter' =>
      refine ⟨[.string model, .string operator], ?_, rfl⟩
      simpa only [List.append_assoc, List.cons_append] using
        SpellsItems.cons (hspaced.mp hmodel) hafter (.last (hspaced.mp hoperator) hafter')
    | @triple _ _ _ _ _ _ model operator value hmodel hafter hoperator hafter' hvalue hafter'' =>
      refine ⟨[.string model, .string operator, value], ?_, rfl⟩
      simpa only [List.append_assoc, List.cons_append] using
        SpellsItems.cons (hspaced.mp hmodel) hafter
          (.cons (hspaced.mp hoperator) hafter' (.last hvalue hafter''))
  · rintro ⟨items, hitems, hrule⟩
    obtain ⟨model, operator, value⟩ := rule
    obtain ⟨rfl, rfl⟩ | rfl := RuleRecord.ofJson?_array_iff.mp hrule
    · cases hitems with
      | cons hmodel hafter hothers =>
        cases hothers with
        | last hoperator hafter' =>
          simpa only [List.append_assoc, List.cons_append] using SpellsRuleItems.pair
            (hspaced.mpr hmodel) hafter (hspaced.mpr hoperator) hafter'
        | cons _ _ hnone => cases hnone
    · cases hitems with
      | cons hmodel hafter hothers =>
        cases hothers with
        | cons hoperator hafter' hothers =>
          cases hothers with
          | last hvalue hafter'' =>
            simpa only [List.append_assoc, List.cons_append] using SpellsRuleItems.triple
              (hspaced.mpr hmodel) hafter (hspaced.mpr hoperator) hafter' hvalue hafter''
          | cons _ _ hnone => cases hnone

/-- **A rule that is read is the rule of the JSON value.** -/
theorem agree_rule :
    Agree (fun json rule => RuleRecord.ofJson? json = some rule) (SpellsValue (valueDepth + 1))
      SpellsRule := by
  intro text text' rest rest' json rule hleft hright hrest hrest' heq
  obtain ⟨c, cs, rfl, -⟩ := starts_spellsValue _ _ _ hleft
  cases hright with
  | @object _ members' _ hmembers' hrule =>
    obtain ⟨rfl, htail⟩ := List.cons.inj heq
    obtain ⟨members, hmembers, rfl⟩ := hleft.inner.2 rfl
    obtain ⟨hrelated, hend⟩ := Agree.object agree_ruleMember (fun _ => starts_spellsValue _)
      starts_spellsRuleMember hmembers hmembers' hrest hrest' htail
    exact ⟨ofJson?_of_isRule hrelated hrule, hend⟩
  | items hitems =>
    obtain ⟨rfl, htail⟩ := List.cons.inj heq
    obtain ⟨items, hitems', rfl⟩ := hleft.inner.1 rfl
    obtain ⟨_, hitems, hrule⟩ := spellsRuleItems_iff.mp hitems
    have hread := reads_readArray (reads_readValue valueDepth) (starts_spellsValue valueDepth)
    obtain ⟨rfl, hend⟩ := hread.agree hitems' (.items hitems) hrest hrest' htail
    exact ⟨hrule, hend⟩

/-- **A text without repeated keys spells the rule of its JSON value.** -/
theorem spellsRule_of_ofJson? (h : SpellsOnce (valueDepth + 1) text json)
    (hrule : RuleRecord.ofJson? json = some rule) : SpellsRule text rule := by
  cases json with
  | object sorted =>
    obtain ⟨rest, members, hmembers, hkeys, rfl, rfl⟩ := h.members
    obtain ⟨members', hrelated, hrule⟩ := exists_isRule_of_ofJson? hkeys hrule
    refine .object (hmembers.changeValues hrelated fun _ _ _ _ hsaid hvalue => ?_) hrule
    exact spellsRuleMember_of_ofJson? hvalue.spellsValue hsaid
  | array items =>
    obtain ⟨rest, hitems, rfl⟩ := h.items
    refine .items (spellsRuleItems_iff.mpr ⟨items, ?_, hrule⟩)
    cases hitems with
    | empty => cases hrule
    | items hitems => exact hitems.imp fun _ _ _ => SpellsOnce.spellsValue
  | null | bool | number | string => cases hrule

/-! ### Lists -/

section Lists

variable {α : Type} {item : Spelling α} {of? : Json → Option α} {as : List α}

/-- A list of records that is read is the list of the JSON value. -/
theorem agree_list (h : Agree (fun json a => of? json = some a) (SpellsValue depth) item)
    (hstarts : Starts item) :
    Agree (fun json as => json.listOf? of? = some as) (SpellsValue (depth + 1))
      (SpellsList item) := by
  rintro text _ rest rest' json as hleft ⟨inner, hinner, rfl⟩ hrest hrest' heq
  obtain ⟨c, cs, rfl, -⟩ := starts_spellsValue _ _ _ hleft
  obtain ⟨rfl, htail⟩ := List.cons.inj heq
  obtain ⟨items, hitems, rfl⟩ := hleft.inner.1 rfl
  obtain ⟨hrelated, hend⟩ := h.array (starts_spellsValue depth) hstarts hitems hinner hrest hrest'
    htail
  exact ⟨listOf?_eq_some_iff.mpr ⟨items, rfl, hrelated⟩, hend⟩

/-- A text without repeated keys spells the list of its JSON value. -/
theorem spellsList_of_listOf? (h : SpellsOnce (depth + 1) text json)
    (hlist : json.listOf? of? = some as)
    (hitem : ∀ {text json a}, SpellsOnce depth text json → of? json = some a → item text a) :
    SpellsList item text as := by
  obtain ⟨items, rfl, hrelated⟩ := listOf?_eq_some_iff.mp hlist
  obtain ⟨rest, hitems, rfl⟩ := h.items
  exact ⟨rest, hitems.change hrelated fun _ _ _ hof hspells => hitem hspells hof, rfl⟩

end Lists

/-! ### Groups -/

/-- What a member says about a group, by its key and its JSON value. -/
def groupMember? (key : String) (json : Json) : Option (Option (List RuleRecord)) :=
  if key = "rules" then (json.listOf? RuleRecord.ofJson?).map some else some none

theorem starts_spellsGroupMember (key : String) : Starts (SpellsGroupMember key) := by
  unfold SpellsGroupMember
  split
  · exact starts_mapped starts_spellsList
  · exact starts_mapped starts_skipsValue

/-- What a member says about a group is what its JSON value says. -/
theorem agree_groupMember (key : String) :
    Agree (fun json member => groupMember? key json = some member) (SpellsValue (valueDepth + 2))
      (SpellsGroupMember key) := by
  unfold groupMember? SpellsGroupMember
  split
  · refine (agree_list agree_rule starts_spellsRule).change_right ?_
    rintro text _ ⟨rules, hrules, rfl⟩
    exact ⟨rules, hrules, fun json hjson => Option.map_eq_some_iff.mpr ⟨rules, hjson, rfl⟩⟩
  · refine (agree_skipsValue _).change_right ?_
    rintro text _ ⟨value, hvalue, rfl⟩
    exact ⟨value, hvalue, fun json _ => rfl⟩

/-- A member of a group is spelled when its JSON value is, without repeated keys. -/
theorem spellsGroupMember_of_ofJson? {key : String} {member : Option (List RuleRecord)}
    (h : SpellsOnce (valueDepth + 2) text json) (hmember : groupMember? key json = some member) :
    SpellsGroupMember key text member := by
  unfold groupMember? at hmember
  unfold SpellsGroupMember
  split at hmember
  · next hkey =>
    obtain ⟨rules, hrules, rfl⟩ := Option.map_eq_some_iff.mp hmember
    rw [if_pos hkey]
    exact ⟨rules, spellsList_of_listOf? h hrules spellsRule_of_ofJson?, rfl⟩
  · next hkey =>
    rw [if_neg hkey]
    exact ⟨(), ⟨_, h.spellsValue.skips⟩, Option.some.inj hmember⟩

section Groups

variable {members : List (String × Json)} {members' : List (String × Option (List RuleRecord))}

/-- The values under the key of the rules are the lists of rules that the members give. -/
theorem forall₂_rules
    (h : List.Forall₂ (SameKey fun key json member => groupMember? key json = some member)
      members members') :
    List.Forall₂ (fun json rules => json.listOf? RuleRecord.ofJson? = some rules)
      (valuesOf "rules" members) (members'.filterMap Prod.snd) := by
  have hmember : ∀ key json member, groupMember? key json = some member →
      Option.Rel (fun json rules => json.listOf? RuleRecord.ofJson? = some rules)
        (if key = "rules" then some json else none) (id member) := by
    intro key json member hmember
    unfold groupMember? at hmember
    split at hmember
    · next hkey =>
      obtain ⟨rules, hrules, rfl⟩ := Option.map_eq_some_iff.mp hmember
      rw [if_pos hkey]
      exact .some hrules
    · next hkey =>
      obtain rfl := Option.some.inj hmember
      rw [if_neg hkey]
      exact .none
  have hrules := forall₂_valuesOf h hmember
  rwa [List.filterMap_map] at hrules

/-- What members say makes a group only if the JSON object stands for the group. -/
theorem ofJson?_of_isOnlyOr
    (h : List.Forall₂ (SameKey fun key json member => groupMember? key json = some member)
      members members') (hrules : IsOnlyOr [] (members'.filterMap Prod.snd) group.rules) :
    GroupRecord.ofJson? (.object (ofMembers members)) = some group := by
  refine GroupRecord.ofRules?_eq_some_iff.mpr ⟨_, ?_, hrules⟩
  have hrelated := forall₂_rules h
  obtain ⟨o, ho, -⟩ := isOnlyOr_iff.mp hrules
  -- There is one list of rules at most, so the last one is all that there is.
  suffices htoList : ((ofMembers members).lookup "rules").toList = valuesOf "rules" members from
    htoList ▸ hrelated
  rw [lookup_ofMembers]
  rw [ho] at hrelated
  cases o with
  | none => rw [List.forall₂_nil_right_iff.mp hrelated]; rfl
  | some rules =>
    obtain ⟨_, _, -, hnil, hvalues⟩ := List.forall₂_cons_right_iff.mp hrelated
    rw [hvalues, List.forall₂_nil_right_iff.mp hnil]
    rfl

/-- Members of a JSON object that repeats no key make the group that it stands for. -/
theorem exists_isOnlyOr_of_ofJson? (hkeys : (members.map Prod.fst).Nodup)
    (hgroup : GroupRecord.ofJson? (.object (ofMembers members)) = some group) :
    ∃ members', List.Forall₂
        (SameKey fun key json member => groupMember? key json = some member) members members' ∧
      IsOnlyOr [] (members'.filterMap Prod.snd) group.rules := by
  obtain ⟨lists, hlists, hrules⟩ := GroupRecord.ofRules?_eq_some_iff.mp hgroup
  rw [← valuesOf_eq_toList hkeys] at hlists
  have heach : ∀ member ∈ members, ∃ member',
      SameKey (fun key json member => groupMember? key json = some member) member member' := by
    rintro ⟨key, json⟩ hmember
    have hgiven : json ∈ valuesOf key members := mem_valuesOf hmember
    by_cases hkey : key = "rules"
    · obtain ⟨rules, -, hjson⟩ := Related.exists_of_mem_left hlists (hkey ▸ hgiven)
      have hsome : (json.listOf? RuleRecord.ofJson?).map some = some (some rules) := by
        rw [hjson]
        rfl
      exact ⟨(key, some rules), rfl, (if_pos hkey).trans hsome⟩
    · exact ⟨(key, none), rfl, if_neg hkey⟩
  obtain ⟨members', hrelated⟩ := Related.exists_forall₂ heach
  have hunique : Relator.RightUnique fun (json : Json) rules =>
      json.listOf? RuleRecord.ofJson? = some rules := fun _ _ _ hleft hright =>
    Option.some.inj (hleft.symm.trans hright)
  obtain rfl := hunique.forall₂ hlists (forall₂_rules hrelated)
  exact ⟨members', hrelated, hrules⟩

end Groups

/-- A group in an array is an array of its rules, if it has any. -/
theorem spellsGroup_array_iff {inner : List Char} :
    SpellsGroup ('[' :: inner) group ↔ ∃ lists,
      SpellsRest ']' (SpellsList SpellsRule) inner lists ∧ IsOnlyOr [] lists group.rules := by
  obtain ⟨rules⟩ := group
  constructor
  · intro h
    cases h with
    | empty hafter => exact ⟨[], .empty hafter, .inr ⟨rfl, rfl⟩⟩
    | single hrules hafter =>
      refine ⟨[rules], .items ?_, .inl rfl⟩
      simpa only [List.append_assoc] using SpellsItems.last hrules hafter
  · rintro ⟨lists, hlists, rfl | ⟨rfl, rfl⟩⟩
    · cases hlists with
      | items hitems =>
        cases hitems with
        | last hrules hafter =>
          simpa only [List.append_assoc] using SpellsGroup.single hrules hafter
        | cons _ _ hnone => cases hnone
    · cases hlists with
      | empty hafter => exact .empty hafter
      | items hitems => cases hitems

/-- **A group that is read is the group of the JSON value.** -/
theorem agree_group :
    Agree (fun json group => GroupRecord.ofJson? json = some group) (SpellsValue (valueDepth + 3))
      SpellsGroup := by
  intro text text' rest rest' json group hleft hright hrest hrest' heq
  obtain ⟨c, cs, rfl, -⟩ := starts_spellsValue _ _ _ hleft
  have harray : ∀ {inner}, text' = '[' :: inner →
      GroupRecord.ofJson? json = some group ∧ rest = rest' := by
    rintro inner rfl
    obtain ⟨lists, hlists, hrules⟩ := spellsGroup_array_iff.mp hright
    obtain ⟨rfl, htail⟩ := List.cons.inj heq
    obtain ⟨items, hitems, rfl⟩ := hleft.inner.1 rfl
    obtain ⟨hrelated, hend⟩ := (agree_list agree_rule starts_spellsRule).array
      (starts_spellsValue _) starts_spellsList hitems hlists hrest hrest' htail
    exact ⟨GroupRecord.ofRules?_eq_some_iff.mpr ⟨lists, hrelated, hrules⟩, hend⟩
  cases hright with
  | object hmembers' hrules =>
    obtain ⟨rfl, htail⟩ := List.cons.inj heq
    obtain ⟨members, hmembers, rfl⟩ := hleft.inner.2 rfl
    obtain ⟨hrelated, hend⟩ := Agree.object agree_groupMember (fun _ => starts_spellsValue _)
      starts_spellsGroupMember hmembers hmembers' hrest hrest' htail
    exact ⟨ofJson?_of_isOnlyOr hrelated hrules, hend⟩
  | empty | single => exact harray rfl

/-- **A text without repeated keys spells the group of its JSON value.** -/
theorem spellsGroup_of_ofJson? (h : SpellsOnce (valueDepth + 3) text json)
    (hgroup : GroupRecord.ofJson? json = some group) : SpellsGroup text group := by
  cases json with
  | object sorted =>
    obtain ⟨rest, members, hmembers, hkeys, rfl, rfl⟩ := h.members
    obtain ⟨members', hrelated, hrules⟩ := exists_isOnlyOr_of_ofJson? hkeys hgroup
    refine .object (hmembers.changeValues hrelated fun _ _ _ _ hsaid hvalue => ?_) hrules
    exact spellsGroupMember_of_ofJson? hvalue hsaid
  | array items =>
    obtain ⟨rest, hitems, rfl⟩ := h.items
    obtain ⟨lists, hlists, hrules⟩ := GroupRecord.ofRules?_eq_some_iff.mp hgroup
    refine spellsGroup_array_iff.mpr ⟨lists, hitems.change hlists ?_, hrules⟩
    exact fun _ _ _ hrules hspells => spellsList_of_listOf? hspells hrules spellsRule_of_ofJson?
  | null | bool | number | string => cases hgroup

end Record

/-! ### Trees -/

open Json Record

/-- A text of a value, with nothing but blanks around it, where no object repeats a key. -/
def Json.SpelledOnce (text : String) (json : Json) : Prop :=
  ∃ body after, Spaced (SpellsOnce depthLimit) body json ∧ IsBlank after ∧
    text.toList = body ++ after

variable {text : String} {json : Json} {tree : TreeRecord}

theorem Json.SpelledOnce.parse (h : SpelledOnce text json) : Json.parse text = .ok json := by
  obtain ⟨_, after, ⟨blanks, body, hblanks, hbody, rfl⟩, hafter, htext⟩ := h
  exact (readText_eq_ok_iff (reads_readValue depthLimit)).mpr
    ⟨_, after, ⟨blanks, body, hblanks, hbody.spellsValue, rfl⟩, hafter, htext⟩

/-- The compact text of a value repeats no key. -/
theorem Json.spelledOnce_compact (hcanonical : json.IsCanonical) (hfree : json.IsFloatFree)
    (hnests : json.NestsWithin depthLimit) : SpelledOnce json.compact json :=
  ⟨json.write, [], spaced_of (spellsOnce_write hcanonical hfree hnests), isBlank_nil, by
    rw [compact, String.toList_ofList, List.append_nil]⟩

/-- **A tree that is read is the tree of the JSON value** of the text. -/
theorem TreeRecord.ofJson?_of_parse (hjson : Json.parse text = .ok json)
    (htree : TreeRecord.parse text = .ok tree) : TreeRecord.ofJson? json = some tree := by
  obtain ⟨body, after, hbody, hafter, htext⟩ :=
    (readText_eq_ok_iff (reads_readValue depthLimit)).mp hjson
  obtain ⟨body', after', ⟨groups, hbody', rfl⟩, hafter', htext'⟩ :=
    (readText_eq_ok_iff reads_readTree).mp htree
  have hagree := (agree_list agree_group starts_spellsGroup).spaced (starts_spellsValue depthLimit)
    starts_spellsList
  exact ofJson?_eq_some_iff.mpr (hagree hbody hbody' hafter.endsNumeral hafter'.endsNumeral
    (htext.symm.trans htext')).1

/-- **A text without repeated keys is read** to the tree that its JSON value stands for. -/
theorem TreeRecord.parse_of_ofJson? (h : SpelledOnce text json)
    (htree : TreeRecord.ofJson? json = some tree) : TreeRecord.parse text = .ok tree := by
  obtain ⟨_, after, ⟨blanks, body, hblanks, hbody, rfl⟩, hafter, htext⟩ := h
  have hgroups : SpellsList SpellsGroup body tree.groups :=
    spellsList_of_listOf? hbody (ofJson?_eq_some_iff.mp htree) spellsGroup_of_ofJson?
  exact (readText_eq_ok_iff reads_readTree).mpr ⟨_, after,
    ⟨tree.groups, ⟨blanks, body, hblanks, hgroups, rfl⟩, rfl⟩, hafter, htext⟩

end PlaylistRules
