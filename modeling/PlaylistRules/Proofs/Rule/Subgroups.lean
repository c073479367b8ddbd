import PlaylistRules.Proofs.Record.Decoding
import PlaylistRules.Rule.Tree

/-!
# Groups inside rules

A rule has no rules of its own. Where an entry of a group has them, they are members like any other
unknown ones: the entry is refused when its model or its operator is missing, and otherwise it is
read as if it had none.

## Main definitions

* `Json.HasEntry`, `Json.HasSubgroup` : the entries of the groups of a document, and those that have
  rules of their own.
* `Json.withoutSubgroups` : a document without the rules inside its entries.

## Main results

* `Json.hasEntry_withoutSubgroups_iff` : the entries of a document without them.
* `TreeRecord.ofJson?_withoutSubgroups` : the tree of a document does not depend on them.
* `RuleTree.parse_skips_subgroups` : what a text with them is read to.
-/

namespace PlaylistRules

/-! ### Documents without subgroups -/

namespace Json

/-- The items of an array are changed. -/
def mapItems (f : Json → Json) : Json → Json
  | array items => array (items.map f)
  | value => value

/-- The member of an object with a key is changed. -/
def mapMember (key : String) (f : Json → Json) : Json → Json
  | object members =>
    object (members.map fun member => (member.1, if member.1 = key then f member.2 else member.2))
  | value => value

/-- The member of an object with a key is left out. -/
def dropMember (key : String) : Json → Json
  | object members => object (members.filter fun member => member.1 ≠ key)
  | value => value

/-- An entry of a group of a document: an item of the rules of an object. -/
def HasEntry (document entry : Json) : Prop :=
  ∃ groups members entries, document = array groups ∧ object members ∈ groups ∧
    members.lookup "rules" = some (array entries) ∧ entry ∈ entries

/-- An entry has rules of its own. -/
def HasSubgroup (entry : Json) : Prop :=
  ∃ members nested, entry = object members ∧ members.lookup "rules" = some (array nested)

/-- A document without the rules inside the entries of its groups. -/
def withoutSubgroups : Json → Json :=
  mapItems (mapMember "rules" (mapItems (dropMember "rules")))

variable {key key' : String} {members : List (String × Json)}

theorem lookup_mapMember (f : Json → Json) :
    (members.map fun member =>
        (member.1, if member.1 = key then f member.2 else member.2)).lookup key' =
      (members.lookup key').map fun value => if key' = key then f value else value := by
  induction members with
  | nil => rfl
  | cons first members ih =>
    rw [List.map_cons, lookup_cons_eq_if, lookup_cons_eq_if, ih]
    by_cases h : key' = first.1
    · rw [if_pos h, if_pos h, h]
      rfl
    · rw [if_neg h, if_neg h]

theorem lookup_dropMember (hkey : key' ≠ key) :
    (members.filter fun member => member.1 ≠ key).lookup key' = members.lookup key' := by
  induction members with
  | nil => rfl
  | cons first members ih =>
    rw [lookup_cons_eq_if, List.filter_cons]
    split
    · rw [lookup_cons_eq_if, ih]
    · next hfirst =>
      have hsame : first.1 = key := by simpa using hfirst
      rw [ih, if_neg fun h => hkey (h.trans hsame)]

theorem lookup_dropMember_self :
    (members.filter fun member => member.1 ≠ key).lookup key = none := by
  rw [List.lookup_eq_none_iff]
  intro member hmember
  have hne : member.1 ≠ key := by simpa using (List.mem_filter.mp hmember).2
  exact bne_iff_ne.mpr hne.symm

theorem mapItems_eq_array_iff {f : Json → Json} {value : Json} {items : List Json} :
    mapItems f value = array items ↔ ∃ items', value = array items' ∧ items'.map f = items := by
  cases value with
  | array items' => simp [mapItems]
  | null | bool | number | string | object => simp [mapItems]

theorem mapMember_eq_object_iff {f : Json → Json} {value : Json} :
    mapMember key f value = object members ↔ ∃ members', value = object members' ∧
      (members'.map fun member => (member.1, if member.1 = key then f member.2 else member.2)) =
        members := by
  cases value with
  | object members' => simp [mapMember]
  | null | bool | number | string | array => simp [mapMember]

/-- The entries of a document without subgroups are the entries of the document, each without rules
of its own. -/
theorem hasEntry_withoutSubgroups_iff {document entry : Json} :
    document.withoutSubgroups.HasEntry entry ↔
      ∃ entry', document.HasEntry entry' ∧ dropMember "rules" entry' = entry := by
  constructor
  · rintro ⟨groups, members, entries, hdocument, hgroup, hentries, hentry⟩
    obtain ⟨groups', rfl, rfl⟩ := mapItems_eq_array_iff.mp hdocument
    obtain ⟨group', hgroup', hmembers⟩ := List.mem_map.mp hgroup
    obtain ⟨members', rfl, rfl⟩ := mapMember_eq_object_iff.mp hmembers
    rw [lookup_mapMember] at hentries
    obtain ⟨rules, hrules, hmapped⟩ := Option.map_eq_some_iff.mp hentries
    obtain ⟨entries', rfl, rfl⟩ := mapItems_eq_array_iff.mp hmapped
    obtain ⟨entry', hentry', rfl⟩ := List.mem_map.mp hentry
    exact ⟨entry', ⟨groups', members', entries', rfl, hgroup', hrules, hentry'⟩, rfl⟩
  · rintro ⟨entry', ⟨groups', members', entries', rfl, hgroup', hrules, hentry'⟩, rfl⟩
    refine ⟨_, _, entries'.map (dropMember "rules"), rfl, List.mem_map_of_mem hgroup', ?_,
      List.mem_map_of_mem hentry'⟩
    rw [lookup_mapMember, hrules]
    rfl

/-- No entry has rules of its own in a document without them. -/
theorem HasEntry.not_hasSubgroup {document entry : Json}
    (h : document.withoutSubgroups.HasEntry entry) : ¬entry.HasSubgroup := by
  rintro ⟨members, nested, rfl, hnested⟩
  obtain ⟨entry', -, hentry'⟩ := hasEntry_withoutSubgroups_iff.mp h
  cases entry' with
  | object members' =>
    obtain rfl := Json.object.inj hentry'
    rw [lookup_dropMember_self] at hnested
    cases hnested
  | null | bool | number | string | array => cases hentry'

end Json

/-! ### The records of documents without subgroups -/

open Json

theorem RuleRecord.ofJson?_dropMember (json : Json) :
    RuleRecord.ofJson? (json.dropMember "rules") = RuleRecord.ofJson? json := by
  cases json with
  | object members =>
    have hmodel : "model" ≠ "rules" := by decide
    have hoperator : "operator" ≠ "rules" := by decide
    have hvalue : "value" ≠ "rules" := by decide
    rw [dropMember, ofJson?, ofJson?, lookup_dropMember hmodel, lookup_dropMember hoperator,
      lookup_dropMember hvalue]
  | null | bool | number | string | array => rfl

theorem Json.listOf?_mapItems {α : Type} {f : Json → Json} {item : Json → Option α}
    (h : ∀ json, item (f json) = item json) (json : Json) :
    (json.mapItems f).listOf? item = json.listOf? item := by
  cases json with
  | array items =>
    rw [mapItems, listOf?, listOf?, List.mapM_map]
    exact congrArg (items.mapM ·) (funext h)
  | null | bool | number | string | object => rfl

/-- **The tree of a document does not depend on its subgroups.** -/
theorem TreeRecord.ofJson?_withoutSubgroups (document : Json) :
    TreeRecord.ofJson? document.withoutSubgroups = TreeRecord.ofJson? document := by
  have hgroup : ∀ json : Json, GroupRecord.ofJson?
      (json.mapMember "rules" (mapItems (dropMember "rules"))) = GroupRecord.ofJson? json := by
    intro json
    cases json with
    | object members =>
      rw [mapMember, GroupRecord.ofJson?, GroupRecord.ofJson?, lookup_mapMember]
      cases members.lookup "rules" with
      | none => rfl
      | some rules =>
        show GroupRecord.ofRules? [mapItems (dropMember "rules") rules] =
          GroupRecord.ofRules? [rules]
        rw [GroupRecord.ofRules?, GroupRecord.ofRules?,
          listOf?_mapItems RuleRecord.ofJson?_dropMember]
    | null | bool | number | string | array => rfl
  rw [ofJson?, ofJson?, withoutSubgroups, listOf?_mapItems hgroup]

/-- The entries of a document that stands for a tree stand for rules. -/
theorem TreeRecord.exists_rule_of_hasEntry {document entry : Json} {tree : TreeRecord}
    (htree : ofJson? document = some tree) (hentry : document.HasEntry entry) :
    ∃ rule, RuleRecord.ofJson? entry = some rule := by
  obtain ⟨groups, members, entries, rfl, hgroup, hentries, hentry⟩ := hentry
  obtain ⟨_, hitems, hgroups⟩ := listOf?_eq_some_iff.mp (ofJson?_eq_some_iff.mp htree)
  obtain rfl := Json.array.inj hitems
  obtain ⟨group, -, hgroup⟩ := Related.exists_of_mem_left hgroups hgroup
  obtain ⟨lists, hlists, -⟩ := GroupRecord.ofRules?_eq_some_iff.mp hgroup
  rw [hentries] at hlists
  obtain ⟨rules, -, hrules⟩ := Related.exists_of_mem_left hlists (List.mem_singleton_self _)
  obtain ⟨_, hitems, hrules⟩ := listOf?_eq_some_iff.mp hrules
  obtain rfl := Json.array.inj hitems
  obtain ⟨rule, -, hrule⟩ := Related.exists_of_mem_left hrules hentry
  exact ⟨rule, hrule⟩

namespace RuleTree

/-- **Rules inside an entry are skipped.** An entry without a text as its model or as its operator
makes a text malformed. Any other rules inside entries change nothing: a text is malformed, or it is
read to the tree of the document without them; and it is read so whenever that document stands for a
tree and no object of the text repeats a key. The document without them has the entries of the
document, each without rules of its own. -/
theorem parse_skips_subgroups {text : String} {document : Json}
    (h : Json.parse text = .ok document) :
    (∀ members, document.HasEntry (.object members) →
      ((∀ model, members.lookup "model" ≠ some (.string model)) ∨
        ∀ operator, members.lookup "operator" ≠ some (.string operator)) →
      ∃ fault, parse text = .error (.of (.malformed fault))) ∧
    ((∃ fault, parse text = .error (.of (.malformed fault))) ∨
      ∃ record, TreeRecord.ofJson? document.withoutSubgroups = some record ∧
        parse text = ofRecord record) ∧
    (SpelledOnce text document → ∀ record,
      TreeRecord.ofJson? document.withoutSubgroups = some record →
        parse text = ofRecord record) ∧
    ∀ entry, document.withoutSubgroups.HasEntry entry → ¬entry.HasSubgroup ∧
      ∃ entry', document.HasEntry entry' ∧ entry'.dropMember "rules" = entry := by
  refine ⟨fun members hentry hmissing => ?_, ?_, fun honce record hrecord => ?_,
    fun entry hentry => ⟨hentry.not_hasSubgroup, hasEntry_withoutSubgroups_iff.mp hentry⟩⟩
  · cases hparse : TreeRecord.parse text with
    | error fault => exact ⟨fault, parse_eq_malformed hparse⟩
    | ok record =>
      obtain ⟨rule, hrule⟩ := TreeRecord.exists_rule_of_hasEntry
        (TreeRecord.ofJson?_of_parse h hparse) hentry
      obtain ⟨hmodel, hoperator, -⟩ := RuleRecord.ofJson?_object_iff.mp hrule
      exact hmissing.elim (absurd hmodel <| · _) (absurd hoperator <| · _)
  · cases hparse : TreeRecord.parse text with
    | error fault => exact .inl ⟨fault, parse_eq_malformed hparse⟩
    | ok record =>
      refine .inr ⟨record, ?_, parse_eq_ofRecord hparse⟩
      rw [TreeRecord.ofJson?_withoutSubgroups, TreeRecord.ofJson?_of_parse h hparse]
  · rw [TreeRecord.ofJson?_withoutSubgroups] at hrecord
    exact parse_eq_ofRecord (TreeRecord.parse_of_ofJson? honce hrecord)

end RuleTree

/-- A rule about a year. -/
def Json.nestedRule : Json :=
  .object [("model", .string "year"), ("operator", .string "is"), ("value", .array [.ofInt64 2000])]

/-- An entry about a title with a rule inside it. -/
def Json.nestedEntry : Json :=
  .object [("model", .string "title"), ("operator", .string "is"), ("rules", .array [nestedRule]),
    ("value", .array [.string "Foo"])]

/-- A document of one group, with one entry that has rules of its own. -/
def Json.nestedDocument : Json :=
  .array [.object [("rules", .array [nestedEntry])]]

theorem Json.spelledOnce_nestedDocument : SpelledOnce nestedDocument.compact nestedDocument := by
  have hrule : nestedRule.IsCanonical :=
    ⟨by decide, trivial, trivial, ⟨trivial, trivial⟩, trivial⟩
  have hentry : nestedEntry.IsCanonical :=
    ⟨by decide, trivial, trivial, ⟨hrule, trivial⟩, ⟨trivial, trivial⟩, trivial⟩
  have hdocument : nestedDocument.IsCanonical :=
    ⟨⟨by decide, ⟨hentry, trivial⟩, trivial⟩, trivial⟩
  refine spelledOnce_compact hdocument ?_ ?_
  · simp [nestedDocument, nestedEntry, nestedRule, ofInt64, IsFloatFree, AllFloatFree,
      MembersFloatFree]
  · simp [nestedDocument, nestedEntry, nestedRule, ofInt64, NestsWithin, depthLimit]

theorem Json.hasEntry_nestedDocument :
    nestedDocument.HasEntry nestedEntry ∧ nestedEntry.HasSubgroup :=
  ⟨⟨_, _, _, rfl, List.mem_singleton_self _, rfl, List.mem_singleton_self _⟩, _, _, rfl, rfl⟩

namespace RuleTree

/-- An entry with a text as its model and its operator is read without the rules inside it. -/
theorem parse_skips_subgroups_nested :
    Json.parse nestedDocument.compact = .ok nestedDocument ∧
      nestedDocument.HasEntry nestedEntry ∧ nestedEntry.HasSubgroup ∧
      parse nestedDocument.compact =
        ofRecord ⟨[⟨[⟨"title", "is", .array [.string "Foo"]⟩]⟩]⟩ :=
  have honce := spelledOnce_nestedDocument
  ⟨honce.parse, hasEntry_nestedDocument.1, hasEntry_nestedDocument.2,
    (parse_skips_subgroups honce.parse).2.2.1 honce _ rfl⟩

/-- **Rules inside an entry do not make a text malformed.** The tree has only the rule of the
entry. -/
theorem parse_nested_accepted :
    Json.parse nestedDocument.compact = .ok nestedDocument ∧
      nestedDocument.HasEntry nestedEntry ∧ nestedEntry.HasSubgroup ∧
      ∃ tree, parse nestedDocument.compact = .ok tree ∧
        tree.groups = [⟨[.has "title" (.text "Foo")], some 0⟩] := by
  have hrecord : TreeRecord.parse nestedDocument.compact =
      .ok ⟨[⟨[⟨"title", "is", .array [.string "Foo"]⟩]⟩]⟩ :=
    TreeRecord.parse_of_ofJson? spelledOnce_nestedDocument rfl
  refine ⟨spelledOnce_nestedDocument.parse, hasEntry_nestedDocument.1,
    hasEntry_nestedDocument.2, ?_⟩
  rw [parse_eq_ofRecord hrecord]
  exact ⟨_, rfl, rfl⟩

end RuleTree

end PlaylistRules
