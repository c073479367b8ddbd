import PlaylistRules.Proofs.Json.Printing

/-!
# Values on indented lines

The indented form of a value spells the value, as its compact form does: the line breaks and the
blanks before each item stand where blanks are allowed. A value that is canonical and has no binary
number inside is therefore read back from its indented text.

## Main definitions

* `Json.onLines` : texts on lines of their own, up to a closing mark.
* `Json.IsPlain` : canonical values without binary numbers that nest to a depth.

## Main results

* `Json.spellsRest_onLines` : items on lines of their own.
* `Json.isLayout_writeIndented` : the indented form is a layout.
* `Json.IsPlain.parse_indented` : values are read back.
-/

namespace PlaylistRules.Json

variable {α : Type} {level : Nat}

/-! ### Lines -/

theorem isBlank_newLine (level : Nat) : IsBlank (newLine level) := by
  intro c hc
  obtain rfl | hc := List.mem_cons.mp hc
  · rfl
  · rw [List.eq_of_mem_replicate hc]
    rfl

theorem spaced_newLine (level : Nat) {item : Spelling α} {text : List Char} {a : α}
    (h : item text a) : Spaced item (newLine level ++ text) a :=
  ⟨newLine level, text, isBlank_newLine level, h, rfl⟩

/-- The remaining texts on lines of their own, each after a comma, and a closing mark on a line of
the outer level. -/
def onMoreLines (level : Nat) (closing : Char) : List (List Char) → List Char
  | [] => newLine level ++ [closing]
  | text :: texts => ',' :: (newLine (level + 1) ++ text ++ onMoreLines level closing texts)

/-- Texts on lines of their own and a closing mark. Without texts, the mark stays on its line. -/
def onLines (level : Nat) (closing : Char) : List (List Char) → List Char
  | [] => [closing]
  | text :: texts => newLine (level + 1) ++ text ++ onMoreLines level closing texts

/-- **Items on lines of their own** spell a list. -/
theorem spellsRest_onLines (level : Nat) (closing : Char) {item : Spelling α}
    {write : α → List Char} {as : List α} (h : ∀ a ∈ as, item (write a) a) :
    SpellsRest closing item (onLines level closing (as.map write)) as := by
  have hitems : ∀ (a : α) (as : List α), (∀ b ∈ a :: as, item (write b) b) →
      SpellsItems closing item (onLines level closing ((a :: as).map write)) (a :: as) := by
    intro a as h
    rw [List.forall_mem_cons] at h
    induction as generalizing a with
    | nil =>
      have hlast : SpellsItems closing item
          (newLine (level + 1) ++ write a ++ newLine level ++ [closing]) [a] :=
        .last (spaced_newLine (level + 1) h.1) (isBlank_newLine level)
      rwa [List.append_assoc] at hlast
    | cons b as ih =>
      have hcons := SpellsItems.cons (spaced_newLine (level + 1) h.1) isBlank_nil
        (ih b (List.forall_mem_cons.mp h.2))
      rwa [List.append_nil] at hcons
  cases as with
  | nil => exact .empty isBlank_nil
  | cons a as => exact .items (hitems a as h)

/-! ### Values -/

theorem writeIndented_array (level : Nat) (items : List Json) :
    (array items).writeIndented level =
      '[' :: onLines level ']' (items.map (writeIndented (level + 1))) := by
  have hmore : ∀ items : List Json, writeIndentedItems level items =
      onMoreLines level ']' (items.map (writeIndented (level + 1))) := by
    intro items
    induction items with
    | nil => rfl
    | cons item items ih => rw [writeIndentedItems, ih, List.map_cons, onMoreLines]
  cases items with
  | nil => rfl
  | cons item items => rw [writeIndented, hmore, List.map_cons, onLines]

/-- A member on its line, with a blank after the colon. -/
def indentedMember (level : Nat) (member : String × Json) : List Char :=
  writeString member.1 ++ ':' :: ' ' :: member.2.writeIndented level

theorem writeIndented_object (level : Nat) (members : List (String × Json)) :
    (object members).writeIndented level =
      '\x7b' :: onLines level '\x7d' (members.map (indentedMember (level + 1))) := by
  have hmore : ∀ members : List (String × Json), writeIndentedMembers level members =
      onMoreLines level '\x7d' (members.map (indentedMember (level + 1))) := by
    intro members
    induction members with
    | nil => rfl
    | cons member members ih =>
      rw [writeIndentedMembers, ih, List.map_cons, onMoreLines, indentedMember]
      simp only [List.append_assoc, List.cons_append]
  cases members with
  | nil => rfl
  | cons member members =>
    rw [writeIndented, hmore, List.map_cons, onLines, indentedMember]
    simp only [List.append_assoc, List.cons_append]

theorem spellsMember_indentedMember {value : Spelling Json} {member : String × Json}
    (h : value (member.2.writeIndented level) member.2) :
    SpellsMember SpellsString (fun _ => value) (indentedMember level member) member := by
  have hblank : IsBlank [' '] := fun c hc => List.mem_singleton.mp hc ▸ rfl
  exact ⟨_, _, spellsString_writeString member.1,
    ⟨[], _, isBlank_nil, ⟨[' '], _, hblank, h, rfl⟩, rfl⟩, rfl⟩

/-- **The indented form is a layout.** -/
theorem isLayout_writeIndented : IsLayout writeIndented where
  null _ := rfl
  bool _ value := by cases value <;> rfl
  number _ _ := rfl
  string _ _ := rfl
  array _ _ _ h := ⟨_, writeIndented_array _ _, spellsRest_onLines _ ']' h⟩
  object _ _ _ h := ⟨_, writeIndented_object _ _, spellsRest_onLines _ '\x7d' fun member hmember =>
    spellsMember_indentedMember (h member hmember)⟩

/-! ### Values that are read back -/

/-- A value that is canonical, has no binary number inside, and nests to a depth at most. -/
structure IsPlain (depth : Nat) (value : Json) : Prop where
  isCanonical : value.IsCanonical
  isFloatFree : value.IsFloatFree
  nestsWithin : value.NestsWithin depth

namespace IsPlain

variable {depth : Nat}

theorem array {items : List Json} (h : ∀ item ∈ items, item.IsPlain depth) :
    (Json.array items).IsPlain (depth + 1) where
  isCanonical := allCanonical_iff.mpr fun item hitem => (h item hitem).isCanonical
  isFloatFree := allFloatFree_iff.mpr fun item hitem => (h item hitem).isFloatFree
  nestsWithin item hitem := (h item hitem).nestsWithin

/-- An object of members in any order. -/
theorem object {members : List (String × Json)} (h : ∀ member ∈ members, member.2.IsPlain depth) :
    (Json.object (ofMembers members)).IsPlain (depth + 1) := by
  obtain ⟨hkeys, hmem⟩ := keysIncrease_ofMembers members
  exact
    { isCanonical := ⟨hkeys, membersCanonical_iff.mpr fun member hmember =>
        (h member (hmem member hmember)).isCanonical⟩
      isFloatFree := membersFloatFree_iff.mpr fun member hmember =>
        (h member (hmem member hmember)).isFloatFree
      nestsWithin := fun member hmember => (h member (hmem member hmember)).nestsWithin }

/-- **A value is read back from its indented text** if it nests no deeper than a text may. -/
theorem parse_indented {value : Json} (h : value.IsPlain depthLimit) :
    parse value.indented = .ok value := by
  have hspells : SpellsValue depthLimit (value.writeIndented 0) value :=
    (isLayout_writeIndented.spellsOnce 0 h.isCanonical h.isFloatFree h.nestsWithin).spellsValue
  refine (readText_eq_ok_iff (reads_readValue depthLimit)).mpr
    ⟨_, [], spaced_of hspells, isBlank_nil, ?_⟩
  rw [indented, String.toList_ofList, List.append_nil]

end IsPlain

end PlaylistRules.Json
