import PlaylistRules.Proofs.Json.Values

/-!
# Spellings of one text

Two spellings agree on a relation when a text that starts with both is divided in the same way and
the two values are related. Agreement of the parts is carried over to arrays and objects, where a
first spelling may give every value and a second one may skip some of them.

## Main definitions

* `Json.Agree` : two spellings agree on a relation of their values.

## Main results

* `Json.Agree.array`, `Json.Agree.object` : arrays and objects after their opening bracket.
* `Json.agree_spellsValue`, `Json.agree_skipsValue` : a value and itself, given or skipped.
-/

namespace PlaylistRules.Json

variable {α β γ κ : Type} {text after after' blanks blanks' : List Char} {c c' : Char}

/-- Two spellings agree on a relation: where a text starts with both, their values are related and
the same text follows. -/
def Agree (related : α → β → Prop) (spelling : Spelling α) (spelling' : Spelling β) : Prop :=
  ∀ ⦃text text' rest rest' a b⦄, spelling text a → spelling' text' b → EndsNumeral rest →
    EndsNumeral rest' → text ++ rest = text' ++ rest' → related a b ∧ rest = rest'

namespace Agree

variable {related : α → β → Prop} {spelling : Spelling α} {spelling' : Spelling β}

/-- The values of the first spelling are changed. -/
theorem change_left {spelling'' : Spelling γ} {related' : γ → β → Prop}
    (h : Agree related spelling spelling')
    (hchange : ∀ text d, spelling'' text d →
      ∃ a, spelling text a ∧ ∀ b, related a b → related' d b) :
    Agree related' spelling'' spelling' := by
  intro text text' rest rest' d b hleft hright hrest hrest' heq
  obtain ⟨a, ha, hrelated⟩ := hchange text d hleft
  exact (h ha hright hrest hrest' heq).imp_left (hrelated b)

/-- The values of the second spelling are changed. -/
theorem change_right {spelling'' : Spelling γ} {related' : α → γ → Prop}
    (h : Agree related spelling spelling')
    (hchange : ∀ text d, spelling'' text d →
      ∃ b, spelling' text b ∧ ∀ a, related a b → related' a d) :
    Agree related' spelling spelling'' := by
  intro text text' rest rest' a d hleft hright hrest hrest' heq
  obtain ⟨b, hb, hrelated⟩ := hchange text' d hright
  exact (h hleft hb hrest hrest' heq).imp_left (hrelated a)

end Agree

/-- What is read agrees with itself: a reader takes one value from a text. -/
theorem Reads.agree {reader : Reader α} {spelling : Spelling α} (h : Reads reader spelling) :
    Agree Eq spelling spelling := by
  intro text text' rest rest' a b hleft hright hrest hrest' heq
  have hread := h.complete hleft hrest
  rw [heq, h.complete hright hrest'] at hread
  obtain ⟨rfl, rfl⟩ := Prod.mk.inj (Except.ok.inj hread)
  exact ⟨rfl, rfl⟩

/-! ### Blanks and marks -/

/-- Blanks before a character that is not blank end where that character stands. -/
theorem eq_of_blanks_append (hblanks : IsBlank blanks) (hblanks' : IsBlank blanks')
    (hc : isSpace c = false) (hc' : isSpace c' = false)
    (h : blanks ++ c :: after = blanks' ++ c' :: after') : c = c' ∧ after = after' := by
  have hskip := congrArg skipSpace h
  rw [skipSpace_append hblanks hc, skipSpace_append hblanks' hc'] at hskip
  exact List.cons.inj hskip

/-- A mark after the items of an array or of the members of an object. -/
def IsClosing (c : Char) : Prop :=
  c = ']' ∨ c = '\x7d'

theorem IsClosing.ne (h : IsClosing c) :
    isSpace c = false ∧ c ≠ ',' ∧ c.isDigit = false ∧ c ≠ '.' ∧ c ≠ 'e' ∧ c ≠ 'E' := by
  rcases h with rfl | rfl <;> decide

section Items

variable {related : α → β → Prop} {item : Spelling α} {item' : Spelling β} {closing : Char}

/-- Blanks before values change nothing. -/
theorem Agree.spaced (h : Agree related item item') (hstarts : Starts item)
    (hstarts' : Starts item') : Agree related (Spaced item) (Spaced item') := by
  rintro _ _ rest rest' a b ⟨blanks, body, hblanks, hbody, rfl⟩
    ⟨blanks', body', hblanks', hbody', rfl⟩ hrest hrest' heq
  refine h hbody hbody' hrest hrest' ?_
  obtain ⟨c, cs, rfl, hc, -⟩ := hstarts body a hbody
  obtain ⟨c', cs', rfl, hc', -⟩ := hstarts' body' b hbody'
  simp only [List.append_assoc, List.cons_append] at heq ⊢
  obtain ⟨rfl, htail⟩ := eq_of_blanks_append hblanks hblanks' hc hc' heq
  rw [htail]

/-- Values that agree with blanks before them agree without. -/
theorem Agree.of_spaced (h : Agree related (Spaced item) (Spaced item')) :
    Agree related item item' := fun _ _ _ _ _ _ hleft hright =>
  h ⟨[], _, isBlank_nil, hleft, rfl⟩ ⟨[], _, isBlank_nil, hright, rfl⟩

/-- Items agree one by one. -/
theorem Agree.items (h : Agree related (Spaced item) (Spaced item'))
    (hclosing : IsClosing closing) :
    Agree (List.Forall₂ related) (SpellsItems closing item) (SpellsItems closing item') := by
  intro text text' rest rest' as bs hleft hright hrest hrest' heq
  obtain ⟨hspace, hcomma, hnumeral⟩ := hclosing.ne
  induction hleft generalizing text' bs with
  | last hfirst hblanks =>
    cases hright with
    | last hfirst' hblanks' =>
      simp only [List.append_assoc, List.cons_append, List.nil_append] at heq
      obtain ⟨hab, htail⟩ := h hfirst hfirst' (hblanks.endsNumeral_cons hnumeral)
        (hblanks'.endsNumeral_cons hnumeral) heq
      exact ⟨.cons hab .nil, (eq_of_blanks_append hblanks hblanks' hspace hspace htail).2⟩
    | cons hfirst' hblanks' =>
      simp only [List.append_assoc, List.cons_append, List.nil_append] at heq
      obtain ⟨-, htail⟩ := h hfirst hfirst' (hblanks.endsNumeral_cons hnumeral)
        (hblanks'.endsNumeral_cons (by decide)) heq
      exact absurd (eq_of_blanks_append hblanks hblanks' hspace (by decide) htail).1 hcomma
  | cons hfirst hblanks _ ih =>
    cases hright with
    | last hfirst' hblanks' =>
      simp only [List.append_assoc, List.cons_append, List.nil_append] at heq
      obtain ⟨-, htail⟩ := h hfirst hfirst' (hblanks.endsNumeral_cons (by decide))
        (hblanks'.endsNumeral_cons hnumeral) heq
      exact absurd (eq_of_blanks_append hblanks hblanks' (by decide) hspace htail).1.symm hcomma
    | cons hfirst' hblanks' hothers' =>
      simp only [List.append_assoc, List.cons_append] at heq
      obtain ⟨hab, htail⟩ := h hfirst hfirst' (hblanks.endsNumeral_cons (by decide))
        (hblanks'.endsNumeral_cons (by decide)) heq
      have hothers := (eq_of_blanks_append hblanks hblanks' (by decide) (by decide) htail).2
      exact (ih hothers' hothers).imp_left (.cons hab)

/-- Items do not start like no items. -/
private theorem SpellsItems.append_ne {as : List α} (h : SpellsItems closing item text as)
    (hstarts : Starts item) (hblanks : IsBlank blanks) (hclosing : IsClosing closing) :
    text ++ after ≠ blanks ++ [closing] ++ after' := by
  obtain ⟨blanks', c, cs, hblanks', rfl, -, hc, hbracket, hbrace⟩ := h.exists_start hstarts
  intro heq
  simp only [List.append_assoc, List.cons_append, List.nil_append] at heq
  obtain ⟨rfl, -⟩ := eq_of_blanks_append hblanks' hblanks hc hclosing.ne.1 heq
  exact hclosing.elim hbracket hbrace

/-- **Any number of items agree one by one.** -/
theorem Agree.rest (h : Agree related (Spaced item) (Spaced item')) (hstarts : Starts item)
    (hstarts' : Starts item') (hclosing : IsClosing closing) :
    Agree (List.Forall₂ related) (SpellsRest closing item) (SpellsRest closing item') := by
  intro text text' rest rest' as bs hleft hright hrest hrest' heq
  cases hleft with
  | empty hblanks =>
    cases hright with
    | empty hblanks' =>
      simp only [List.append_assoc, List.cons_append, List.nil_append] at heq
      exact ⟨.nil, (eq_of_blanks_append hblanks hblanks' hclosing.ne.1 hclosing.ne.1 heq).2⟩
    | items hitems' => exact absurd heq.symm (hitems'.append_ne hstarts' hblanks hclosing)
  | items hitems =>
    cases hright with
    | empty hblanks' => exact absurd heq (hitems.append_ne hstarts hblanks' hclosing)
    | items hitems' => exact h.items hclosing hitems hitems' hrest hrest' heq

end Items

/-! ### Members -/

/-- Values agree after their colons. -/
theorem Agree.afterColon {related : α → β → Prop} {value : Spelling α} {value' : Spelling β}
    (h : Agree related (Spaced value) (Spaced value')) :
    Agree related (AfterColon value) (AfterColon value') := by
  rintro _ _ rest rest' a b ⟨blanks, body, hblanks, hbody, rfl⟩
    ⟨blanks', body', hblanks', hbody', rfl⟩ hrest hrest' heq
  simp only [List.append_assoc, List.cons_append] at heq
  exact h hbody hbody' hrest hrest'
    (eq_of_blanks_append hblanks hblanks' (by decide) (by decide) heq).2

/-- Two members have one key, and their values are related as the key decides. -/
def SameKey (related : κ → α → β → Prop) (member : κ × α) (member' : κ × β) : Prop :=
  member.1 = member'.1 ∧ related member.1 member.2 member'.2

/-- **Members agree when their values do**, by the key. -/
theorem Agree.member {related : String → α → β → Prop} {value : String → Spelling α}
    {value' : String → Spelling β}
    (h : ∀ key, Agree (related key) (Spaced (value key)) (Spaced (value' key))) :
    Agree (SameKey related) (SpellsMember SpellsString value)
      (SpellsMember SpellsString value') := by
  rintro _ _ rest rest' ⟨key, a⟩ ⟨key', b⟩ ⟨name, after, hname, hafter, rfl⟩
    ⟨name', after', hname', hafter', rfl⟩ hrest hrest' heq
  rw [List.append_assoc, List.append_assoc] at heq
  obtain ⟨rfl, htail⟩ :=
    reads_readString.agree hname hname' hafter.endsNumeral hafter'.endsNumeral heq
  exact ((h key).afterColon hafter hafter' hrest hrest' htail).imp_left (⟨rfl, ·⟩)

/-- **Arrays agree item by item.** -/
theorem Agree.array {related : α → β → Prop} {item : Spelling α} {item' : Spelling β}
    (h : Agree related item item') (hstarts : Starts item) (hstarts' : Starts item') :
    Agree (List.Forall₂ related) (SpellsRest ']' item) (SpellsRest ']' item') :=
  (h.spaced hstarts hstarts').rest hstarts hstarts' (.inl rfl)

/-- **Objects agree member by member.** -/
theorem Agree.object {related : String → α → β → Prop} {value : String → Spelling α}
    {value' : String → Spelling β} (h : ∀ key, Agree (related key) (value key) (value' key))
    (hstarts : ∀ key, Starts (value key)) (hstarts' : ∀ key, Starts (value' key)) :
    Agree (List.Forall₂ (SameKey related)) (SpellsRest '\x7d' (SpellsMember SpellsString value))
      (SpellsRest '\x7d' (SpellsMember SpellsString value')) := by
  have hmember := Agree.member fun key => (h key).spaced (hstarts key) (hstarts' key)
  have hleft : Starts (SpellsMember SpellsString value) := starts_spellsMember starts_spellsString
  have hright : Starts (SpellsMember SpellsString value') := starts_spellsMember starts_spellsString
  exact (hmember.spaced hleft hright).rest hleft hright (.inr rfl)

/-! ### Other values for the same texts -/

section Changed

variable {related : α → β → Prop} {item : Spelling α} {item' : Spelling β} {closing : Char}
  {as : List α} {bs : List β}

private theorem SpellsItems.change (h : SpellsItems closing item text as)
    (hrelated : List.Forall₂ related as bs)
    (hitem : ∀ body a b, related a b → item body a → item' body b) :
    SpellsItems closing item' text bs := by
  have hspaced : ∀ {text a b}, related a b → Spaced item text a → Spaced item' text b := by
    rintro _ a b hab ⟨blanks, body, hblanks, hbody, rfl⟩
    exact ⟨blanks, body, hblanks, hitem body a b hab hbody, rfl⟩
  induction h generalizing bs with
  | last hfirst hblanks =>
    obtain ⟨b, _, hab, hnil, rfl⟩ := List.forall₂_cons_left_iff.mp hrelated
    obtain rfl := List.forall₂_nil_left_iff.mp hnil
    exact .last (hspaced hab hfirst) hblanks
  | cons hfirst hblanks _ ih =>
    obtain ⟨b, bs, hab, hothers, rfl⟩ := List.forall₂_cons_left_iff.mp hrelated
    exact .cons (hspaced hab hfirst) hblanks (ih hothers)

/-- Items spell other values when each of them does. -/
theorem SpellsRest.change (h : SpellsRest closing item text as)
    (hrelated : List.Forall₂ related as bs)
    (hitem : ∀ body a b, related a b → item body a → item' body b) :
    SpellsRest closing item' text bs := by
  cases h with
  | empty hblanks =>
    obtain rfl := List.forall₂_nil_left_iff.mp hrelated
    exact .empty hblanks
  | items h => exact .items (h.change hrelated hitem)

/-- A member spells another one when its key and its value do. -/
theorem SpellsMember.change {κ' : Type} {key : Spelling κ} {key' : Spelling κ'}
    {value : κ → Spelling α} {value' : κ' → Spelling β} {m : κ × α} {m' : κ' × β}
    (h : SpellsMember key value text m) (hkey : ∀ name, key name m.1 → key' name m'.1)
    (hvalue : ∀ body, value m.1 body m.2 → value' m'.1 body m'.2) :
    SpellsMember key' value' text m' := by
  obtain ⟨name, _, hname, ⟨blanks, _, hblanks, hafter, rfl⟩, rfl⟩ := h
  obtain ⟨blanks', body, hblanks', hbody, rfl⟩ := hafter
  exact ⟨name, _, hkey name hname,
    ⟨blanks, _, hblanks, ⟨blanks', body, hblanks', hvalue body hbody, rfl⟩, rfl⟩, rfl⟩

/-- The members of an object spell other ones with the same keys when their values do. -/
theorem SpellsRest.changeValues {key : Spelling κ} {value : κ → Spelling α}
    {value' : κ → Spelling β} {related : κ → α → β → Prop} {members : List (κ × α)}
    {members' : List (κ × β)}
    (h : SpellsRest closing (SpellsMember key value) text members)
    (hrelated : List.Forall₂ (SameKey related) members members')
    (hvalue : ∀ k body a b, related k a b → value k body a → value' k body b) :
    SpellsRest closing (SpellsMember key value') text members' := by
  refine h.change hrelated ?_
  rintro body ⟨k, a⟩ ⟨k', b⟩ ⟨rfl, hab⟩ hmember
  exact hmember.change (fun _ hname => hname) fun body ha => hvalue k body a b hab ha

end Changed

/-! ### Values that are skipped -/

/-- A string can be skipped. -/
theorem SpellsString.skips {value : String} (h : SpellsString text value) :
    SkipsString text () := by
  obtain ⟨body, hbody, rfl⟩ := h
  suffices hunits : ∃ units, SpellsEach SkipsChar body units from
    hunits.imp fun units hunits => ⟨body, hunits, rfl⟩
  generalize value.toList = chars at hbody
  induction hbody with
  | nil => exact ⟨[], .nil⟩
  | cons hchar _ ih =>
    obtain ⟨units, hunits⟩ := ih
    cases hchar with
    | plain hquote hbackslash hcontrol =>
      exact ⟨_, .cons (.plain hquote hbackslash hcontrol) hunits⟩
    | letter hletter => exact ⟨_, .cons (.letter hletter) hunits⟩
    | unit hquad => exact ⟨_, .cons (.unit hquad) hunits⟩
    -- Both surrogates of a pair are skipped on their own.
    | pair hlead _ htrail =>
      have hpair := SpellsEach.cons (SkipsChar.unit hlead) (.cons (.unit htrail) hunits)
      exact ⟨_, hpair⟩

private theorem skipsKind_of_spellsKind {json : Json} {array object : Spelling Json}
    {array' object' : Spelling Unit}
    (h : SpellsKind null (bool true) (bool false) (Mapped string SpellsString)
      (Mapped number SpellsNumber) array object text json)
    (harray : ∀ inner a, array inner a → array' inner ())
    (hobject : ∀ inner a, object inner a → object' inner ()) :
    SpellsKind () () () SkipsString SkipsNumber array' object' text () := by
  cases h with
  | null => exact .null
  | true => exact .true
  | false => exact .false
  | string h =>
    obtain ⟨_, hstring, -⟩ := h
    exact .string hstring.skips
  | number h =>
    obtain ⟨_, ⟨numeral, hnumeral, -⟩, -⟩ := h
    exact .number ⟨numeral, hnumeral⟩
  | array h => exact .array (harray _ _ h)
  | object h => exact .object (hobject _ _ h)

private theorem forall₂_true {as : List α} {f : α → β} :
    List.Forall₂ (fun _ _ => True) as (as.map f) :=
  List.forall₂_map_right_iff.mpr (List.forall₂_same.mpr fun _ _ => trivial)

/-- Every value can be skipped. -/
theorem SpellsValue.skips {depth : Nat} {json : Json} (h : SpellsValue depth text json) :
    SkipsNested depth text () := by
  induction depth generalizing text json with
  | zero => exact skipsKind_of_spellsKind h (fun _ _ => False.elim) fun _ _ => False.elim
  | succ depth ih =>
    refine skipsKind_of_spellsKind h ?_ ?_
    · rintro inner _ ⟨items, hitems, -⟩
      exact ⟨items.map fun _ => (), hitems.change forall₂_true fun _ _ _ _ => ih, rfl⟩
    · rintro inner _ ⟨members, hmembers, -⟩
      exact ⟨members.map fun _ => ((), ()), hmembers.change forall₂_true fun _ _ _ _ hmember =>
        hmember.change (fun _ => SpellsString.skips) fun _ => ih, rfl⟩

/-- A value that is given agrees with itself. -/
theorem agree_spellsValue (depth : Nat) : Agree Eq (SpellsValue depth) (SpellsValue depth) :=
  (reads_readValue depth).agree.of_spaced

/-- **A value that is given agrees with one that is skipped.** -/
theorem agree_skipsValue (depth : Nat) :
    Agree (fun _ _ => True) (SpellsValue depth) SkipsValue :=
  reads_skipValue.agree.of_spaced.change_left fun _ _ hvalue =>
    ⟨(), ⟨depth, hvalue.skips⟩, fun _ _ => trivial⟩

/-! ### Arrays and objects by their brackets -/

/-- The opening bracket of a value tells its kind. -/
theorem SpellsKind.inner {null true false a : α} {string number array object : Spelling α}
    (hquote : ∀ text a, string text a → ∃ cs, text = '"' :: cs)
    (hsign : ∀ text a, number text a → ∃ c cs, text = c :: cs ∧ IsNumeralStart c)
    (h : SpellsKind null true false string number array object (c :: text) a) :
    (c = '[' → array text a) ∧ (c = '\x7b' → object text a) := by
  generalize htext : c :: text = full at h
  cases h with
  | null | true | false =>
    obtain ⟨rfl, -⟩ := List.cons.inj htext
    exact ⟨fun h => absurd h (by decide), fun h => absurd h (by decide)⟩
  | string h =>
    obtain ⟨cs, rfl⟩ := hquote _ _ h
    obtain ⟨rfl, -⟩ := List.cons.inj htext
    exact ⟨fun h => absurd h (by decide), fun h => absurd h (by decide)⟩
  | number h =>
    obtain ⟨d, cs, rfl, hd⟩ := hsign _ _ h
    obtain ⟨rfl, -⟩ := List.cons.inj htext
    obtain ⟨-, -, -, -, -, hbracket, -, hbrace, -⟩ := hd.ne
    exact ⟨fun h => absurd h hbracket, fun h => absurd h hbrace⟩
  | array h =>
    obtain ⟨rfl, rfl⟩ := List.cons.inj htext
    exact ⟨fun _ => h, fun h => absurd h (by decide)⟩
  | object h =>
    obtain ⟨rfl, rfl⟩ := List.cons.inj htext
    exact ⟨fun h => absurd h (by decide), fun _ => h⟩

/-- The opening bracket of a value tells whether the value is an array or an object. -/
theorem SpellsValue.inner {depth : Nat} {json : Json}
    (h : SpellsValue (depth + 1) (c :: text) json) :
    (c = '[' → ∃ items, SpellsRest ']' (SpellsValue depth) text items ∧ array items = json) ∧
      (c = '\x7b' → ∃ members,
        SpellsRest '\x7d' (SpellsMember SpellsString fun _ => SpellsValue depth) text members ∧
          object (ofMembers members) = json) :=
  SpellsKind.inner starts_string starts_number h

/-- An array without repeated keys inside. -/
theorem SpellsOnce.items {depth : Nat} {items : List Json}
    (h : SpellsOnce (depth + 1) text (array items)) :
    ∃ rest, SpellsRest ']' (SpellsOnce depth) rest items ∧ text = '[' :: rest := by
  cases h with
  | string h | number h =>
    obtain ⟨_, -, hvalue⟩ := h
    cases hvalue
  | array h =>
    obtain ⟨_, hitems, hvalue⟩ := h
    obtain rfl := Json.array.inj hvalue
    exact ⟨_, hitems, rfl⟩
  | object h =>
    obtain ⟨_, -, -, hvalue⟩ := h
    cases hvalue

/-- An object without repeated keys. -/
theorem SpellsOnce.members {depth : Nat} {sorted : List (String × Json)}
    (h : SpellsOnce (depth + 1) text (object sorted)) :
    ∃ rest members,
      SpellsRest '\x7d' (SpellsMember SpellsString fun _ => SpellsOnce depth) rest members ∧
        (members.map Prod.fst).Nodup ∧ sorted = ofMembers members ∧ text = '\x7b' :: rest := by
  cases h with
  | string h | number h | array h =>
    obtain ⟨_, -, hvalue⟩ := h
    cases hvalue
  | object h =>
    obtain ⟨members, hmembers, hkeys, hvalue⟩ := h
    exact ⟨_, members, hmembers, hkeys, (Json.object.inj hvalue).symm, rfl⟩

end PlaylistRules.Json
