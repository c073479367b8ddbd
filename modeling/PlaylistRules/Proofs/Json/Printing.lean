import PlaylistRules.Proofs.Json.Canonical
import PlaylistRules.Proofs.Json.Values
import PlaylistRules.Record.Printer

/-!
# Values as they are written

What is written for a value spells the value, unless it has a binary number inside: every character
of a string, every integer within sixty-four bits, and arrays and objects of any size, to the depth
to which the value nests.

## Main definitions

* `Json.IsLayout` : a way to write values level by level.

## Main results

* `Json.spellsString_writeString` : strings.
* `Json.spellsNumber_write` : integers.
* `Json.spellsRest_joinCommas` : items up to a closing mark.
* `Json.IsLayout.spellsOnce` : values in any layout.
* `Json.spellsValue_write` : values in the compact form.
-/

namespace PlaylistRules.Json

variable {α β κ : Type}

/-! ### Strings -/

/-- The four digits of a control character have its number as their value. -/
private theorem hexQuad?_hexDigit : ∀ n < 32,
    hexQuad? '0' '0' (hexDigit (n / 16)) (hexDigit (n % 16)) = some n ∧
      isLeadSurrogate n = false ∧ isTrailSurrogate n = false := by
  decide

theorem spellsChar_writeChar (c : Char) : SpellsChar (writeChar c) c := by
  unfold writeChar
  -- The characters that are escaped with a letter.
  iterate 7
    split
    · next h =>
      subst h
      exact .letter rfl
  split
  · next h =>
    obtain ⟨hquad, hlead, htrail⟩ := hexQuad?_hexDigit c.toNat h
    have hspells := SpellsChar.unit hquad hlead htrail
    rwa [Char.ofNat_toNat] at hspells
  · next hquote hbackslash _ _ _ _ _ hcontrol =>
    exact .plain hquote hbackslash (Nat.le_of_not_lt hcontrol)

/-- **What is written for a string spells it.** -/
theorem spellsString_writeString (string : String) :
    SpellsString (writeString string) string := by
  have heach : ∀ cs : List Char, SpellsEach SpellsChar (cs.flatMap writeChar) cs := by
    intro cs
    induction cs with
    | nil => exact .nil
    | cons c cs ih => exact .cons (spellsChar_writeChar c) ih
  exact ⟨string.toList.flatMap writeChar, heach _, rfl⟩

/-! ### Integers -/

open PlaylistRules.Number (digits digitsFrom digitValue signed)

theorem isDigits_digits (n : Nat) : IsDigits (digits n) :=
  ⟨Nat.toDigits_ne_nil, fun _ => Nat.isDigit_of_mem_toDigits (by decide) (by decide)⟩

theorem digitsFrom_digits (n : Nat) : digitsFrom 0 (digits n) = n := by
  have hfold := Nat.ofDigitChars_ten_toDigits (n := n)
  rwa [Nat.ofDigitChars_eq_foldl] at hfold

/-- The digits of a natural number do not start with zero, unless it is zero. -/
theorem eq_of_head?_digits {n : Nat} (h : (digits n).head? = some '0') : digits n = ['0'] := by
  induction n using Nat.strongRecOn with
  | ind n ih =>
    rw [digits, Nat.toDigits_eq_if (by decide)] at h ⊢
    split at h
    · next hlt =>
      rw [if_pos hlt]
      exact congrArg (· :: []) (Option.some.inj h)
    · next hge =>
      -- Of a number with two digits or more, the digits without the last one would be zero.
      have hne : digits (n / 10) ≠ [] := Nat.toDigits_ne_nil
      obtain ⟨d, ds, hdigits⟩ := List.exists_cons_of_ne_nil hne
      have hhead : (digits (n / 10)).head? = some '0' := by
        rw [← digits, hdigits] at h
        rw [hdigits]
        exact h
      have hzero := congrArg (digitsFrom 0) (ih (n / 10) (by omega) hhead)
      rw [digitsFrom_digits] at hzero
      have hvalue : digitsFrom 0 ['0'] = 0 := rfl
      omega

theorem le_digitsFrom (start : Nat) (cs : List Char) : start ≤ digitsFrom start cs := by
  induction cs generalizing start with
  | nil => exact Nat.le_refl _
  | cons c cs ih => exact Nat.le_trans (by omega) (ih (10 * start + digitValue c))

/-- All digits are taken when the number fits sixty-four bits. -/
theorem absorb_eq {start : Nat} {cs : List Char} (h : digitsFrom start cs < UInt64.size) :
    Numeral.absorb start cs = (digitsFrom start cs, []) := by
  induction cs generalizing start with
  | nil => rfl
  | cons c cs ih =>
    have hnext : 10 * start + digitValue c < UInt64.size :=
      Nat.lt_of_le_of_lt (le_digitsFrom _ cs) h
    rw [Numeral.absorb, if_pos hnext, ih h]
    rfl

/-- **What is written for an integer spells it.** -/
theorem spellsNumber_write {value : Int} {lower : -0x8000000000000000 ≤ value}
    {upper : value < 0x10000000000000000} :
    SpellsNumber (signed value) (.integer value lower upper) := by
  have habsorb : Numeral.absorb 0 (digits value.natAbs) = (value.natAbs, []) := by
    have hlt : digitsFrom 0 (digits value.natAbs) < UInt64.size := by
      rw [digitsFrom_digits]
      have hsize : UInt64.size = 0x10000000000000000 := rfl
      omega
    rw [absorb_eq hlt, digitsFrom_digits]
  refine ⟨⟨decide (value < 0), digits value.natAbs, [], none⟩, ?_, ?_⟩
  · refine ⟨[], [], isDigits_digits _, eq_of_head?_digits, .none, .none, ?_⟩
    simp only [signed, decide_eq_true_eq, List.append_nil]
    split <;> rfl
  · have hinteger : Numeral.integer? ⟨decide (value < 0), digits value.natAbs, [], none⟩ =
        some (.integer value lower upper) := by
      simp only [Numeral.integer?, habsorb, and_self, if_true, decide_eq_true_eq]
      split
      · next hneg =>
        rw [dif_pos (by omega), Option.some.injEq, Number.integer.injEq]
        omega
      · next hpos =>
        rw [dif_pos (by omega), Option.some.injEq, Number.integer.injEq]
        omega
    rw [Numeral.value?, hinteger]

/-! ### Items and members -/

theorem spaced_of {item : Spelling α} {text : List Char} {a : α} (h : item text a) :
    Spaced item text a :=
  ⟨[], text, isBlank_nil, h, rfl⟩

/-- The last item of a list, right before the closing mark. -/
theorem SpellsItems.last_tight {closing : Char} {item : Spelling α} {text : List Char} {a : α}
    (h : item text a) : SpellsItems closing item (text ++ [closing]) [a] := by
  have hlast : SpellsItems closing item (text ++ [] ++ [closing]) [a] :=
    .last (spaced_of h) isBlank_nil
  rwa [List.append_nil] at hlast

/-- An item of a list, right before the comma. -/
theorem SpellsItems.cons_tight {closing : Char} {item : Spelling α} {text texts : List Char}
    {a : α} {as : List α} (h : item text a) (hothers : SpellsItems closing item texts as) :
    SpellsItems closing item (text ++ ',' :: texts) (a :: as) := by
  have hcons := SpellsItems.cons (spaced_of h) isBlank_nil hothers
  rwa [List.append_nil] at hcons

private theorem spellsItems_joinCommas (closing : Char) {item : Spelling β} {write : α → List Char}
    {f : α → β} {a : α} {as : List α} (h : ∀ b ∈ a :: as, item (write b) (f b)) :
    SpellsItems closing item (joinCommas ((a :: as).map write) ++ [closing]) ((a :: as).map f) := by
  rw [List.forall_mem_cons] at h
  induction as generalizing a with
  | nil => exact .last_tight h.1
  | cons b as ih =>
    have hcons := SpellsItems.cons_tight h.1 (ih (List.forall_mem_cons.mp h.2))
    simp only [List.map_cons, joinCommas, List.append_assoc, List.cons_append] at hcons ⊢
    exact hcons

/-- **Items with commas between them** and a closing mark after them spell a list, each the value
that a function makes of it. -/
theorem spellsRest_joinCommas_map (closing : Char) {item : Spelling β} {write : α → List Char}
    {f : α → β} {as : List α} (h : ∀ a ∈ as, item (write a) (f a)) :
    SpellsRest closing item (joinCommas (as.map write) ++ [closing]) (as.map f) := by
  cases as with
  | nil => exact .empty isBlank_nil
  | cons a as => exact .items (spellsItems_joinCommas closing h)

theorem spellsRest_joinCommas (closing : Char) {item : Spelling α} {write : α → List Char}
    {as : List α} (h : ∀ a ∈ as, item (write a) a) :
    SpellsRest closing item (joinCommas (as.map write) ++ [closing]) as := by
  have hitems := spellsRest_joinCommas_map closing (f := id) h
  rwa [List.map_id] at hitems

/-- A member as it is written, with the value after the colon. -/
def writeMember (key : String) (text : List Char) : List Char :=
  writeString key ++ ':' :: text

theorem spellsMember_writeMember {value : String → Spelling α} {key : String} {a : α}
    {text : List Char} (h : value key text a) :
    SpellsMember SpellsString value (writeMember key text) (key, a) :=
  ⟨_, _, spellsString_writeString _, ⟨[], text, isBlank_nil, spaced_of h, rfl⟩, rfl⟩

/-! ### Values -/

theorem write_array (items : List Json) :
    (array items).write = '[' :: (joinCommas (items.map write) ++ [']']) := by
  have hitems : ∀ (item : Json) (items : List Json), item.write ++ writeItems items =
      joinCommas ((item :: items).map write) ++ [']'] := by
    intro item items
    induction items generalizing item with
    | nil => rfl
    | cons other items ih =>
      rw [writeItems, ih other]
      simp only [List.map_cons, joinCommas, List.append_assoc, List.cons_append]
  cases items with
  | nil => rfl
  | cons item items => rw [write, hitems]

theorem write_object (members : List (String × Json)) :
    (object members).write = '\x7b' ::
      (joinCommas (members.map fun member => writeMember member.1 member.2.write) ++
        ['\x7d']) := by
  have hmembers : ∀ (member : String × Json) (members : List (String × Json)),
      writeMember member.1 member.2.write ++ writeMembers members =
        joinCommas ((member :: members).map fun member =>
          writeMember member.1 member.2.write) ++ ['\x7d'] := by
    intro member members
    induction members generalizing member with
    | nil => rfl
    | cons other members ih =>
      have hother := ih other
      simp only [writeMember, List.append_assoc, List.cons_append] at hother
      rw [writeMembers, hother]
      simp only [List.map_cons, joinCommas, List.append_assoc, List.cons_append, writeMember]
  cases members with
  | nil => rfl
  | cons member members =>
    rw [← hmembers member members, write]
    simp only [writeMember, List.append_assoc, List.cons_append]

/-! ### Layouts -/

/-- A way to write values level by level. Words, numbers and strings are written as in the compact
form. Arrays and objects are spelled after their opening bracket when the values inside are spelled,
each as it is written on the next level. -/
structure IsLayout (layout : Nat → Json → List Char) : Prop where
  null (level : Nat) : layout level null = write null
  bool (level : Nat) (value : Bool) : layout level (bool value) = write (bool value)
  number (level : Nat) (value : Number) : layout level (number value) = write (number value)
  string (level : Nat) (value : String) : layout level (string value) = write (string value)
  array (level : Nat) {items : List Json} {item : Spelling Json}
    (h : ∀ a ∈ items, item (layout (level + 1) a) a) :
    ∃ inner, layout level (array items) = '[' :: inner ∧ SpellsRest ']' item inner items
  object (level : Nat) {members : List (String × Json)} {value : Spelling Json}
    (h : ∀ member ∈ members, value (layout (level + 1) member.2) member.2) :
    ∃ inner, layout level (object members) = '\x7b' :: inner ∧
      SpellsRest '\x7d' (SpellsMember SpellsString fun _ => value) inner members

namespace IsLayout

variable {layout : Nat → Json → List Char} {level : Nat} {value : Json}

/-- What a layout writes for a value spells it by its kind, if what it writes for arrays and objects
does. -/
private theorem spellsKind (h : IsLayout layout) {inArray inObject : Spelling Json}
    (hfree : value.IsFloatFree)
    (harray : ∀ items, value = .array items →
      ∃ inner, layout level value = '[' :: inner ∧ inArray inner value)
    (hobject : ∀ members, value = .object members →
      ∃ inner, layout level value = '\x7b' :: inner ∧ inObject inner value) :
    SpellsKind .null (.bool true) (.bool false) (Mapped .string SpellsString)
      (Mapped .number SpellsNumber) inArray inObject (layout level value) value := by
  cases value with
  | null => exact h.null level ▸ .null
  | bool value =>
    rw [h.bool]
    cases value with
    | true => exact .true
    | false => exact .false
  | number value =>
    rw [h.number]
    cases value with
    | integer => exact .number ⟨_, spellsNumber_write, rfl⟩
    | float => exact hfree.elim
  | string value =>
    rw [h.string]
    exact .string ⟨value, spellsString_writeString value, rfl⟩
  | array items =>
    obtain ⟨inner, htext, hinner⟩ := harray items rfl
    exact htext ▸ .array hinner
  | object members =>
    obtain ⟨inner, htext, hinner⟩ := hobject members rfl
    exact htext ▸ .object hinner

/-- **What a layout writes for a value spells it** without repeated keys, if the value is canonical
and has no binary number inside, to the depth to which it nests. -/
theorem spellsOnce (h : IsLayout layout) (level : Nat) {depth : Nat}
    (hcanonical : value.IsCanonical) (hfree : value.IsFloatFree)
    (hnests : value.NestsWithin depth) :
    SpellsOnce depth (layout level value) value := by
  induction depth generalizing level value with
  | zero =>
    refine h.spellsKind hfree ?_ ?_
    · rintro items rfl
      exact hnests.elim
    · rintro members rfl
      exact hnests.elim
  | succ depth ih =>
    refine h.spellsKind hfree ?_ ?_
    · rintro items rfl
      obtain ⟨inner, htext, hinner⟩ := h.array level fun item hitem =>
        ih (level + 1) (allCanonical_iff.mp hcanonical item hitem)
          (allFloatFree_iff.mp hfree item hitem) (hnests item hitem)
      exact ⟨inner, htext, items, hinner, rfl⟩
    · rintro members rfl
      obtain ⟨inner, htext, hinner⟩ := h.object level fun member hmember =>
        ih (level + 1) (membersCanonical_iff.mp hcanonical.2 member hmember)
          (membersFloatFree_iff.mp hfree member hmember) (hnests member hmember)
      exact ⟨inner, htext, members, hinner, hcanonical.1.imp String.ne_of_lt,
        congrArg Json.object (ofMembers_eq_self hcanonical.1)⟩

end IsLayout

/-- The compact form is a layout that does not look at levels. -/
theorem isLayout_write : IsLayout fun _ => write where
  null _ := rfl
  bool _ _ := rfl
  number _ _ := rfl
  string _ _ := rfl
  array _ _ _ h := ⟨_, write_array _, spellsRest_joinCommas ']' h⟩
  object _ _ _ h := ⟨_, write_object _, spellsRest_joinCommas '\x7d' fun member hmember =>
    spellsMember_writeMember (h member hmember)⟩

/-- What is written for a value spells it without repeated keys, if the value is canonical and has
no binary number inside, to the depth to which it nests. -/
theorem spellsOnce_write {depth : Nat} {value : Json} (hcanonical : value.IsCanonical)
    (hfree : value.IsFloatFree) (hnests : value.NestsWithin depth) :
    SpellsOnce depth value.write value :=
  isLayout_write.spellsOnce 0 hcanonical hfree hnests

/-- **What is written for a value spells it**, if the value is canonical and has no binary number
inside, to the depth to which it nests. -/
theorem spellsValue_write {depth : Nat} {value : Json} (hcanonical : value.IsCanonical)
    (hfree : value.IsFloatFree) (hnests : value.NestsWithin depth) :
    SpellsValue depth value.write value :=
  (spellsOnce_write hcanonical hfree hnests).spellsValue

end PlaylistRules.Json
