import PlaylistRules.Proofs.Json.Reading

/-!
# Reading values

Values are read up to a depth exactly when they are spelled with at most that depth. A value that is
skipped may have any depth, since its length bounds it.

## Main definitions

* `Json.readKind` : a value by the readers of its kinds.

## Main results

* `Json.reads_readKind` : a value is read when the values of each kind are.
* `Json.reads_readValue` : values that are decoded.
* `Json.reads_skipValue` : values that only have to be grammatical.
* `Json.SpellsOnce.spellsValue` : values where no object repeats a key.
-/

namespace PlaylistRules.Json

variable {α : Type} {cs rest text : List Char} {c : Char}

/-! ### Numbers -/

theorem reads_readNumber : Reads readNumber SpellsNumber where
  sound {cs rest value} h := by
    unfold readNumber at h
    dsimp only at h
    split at h
    · next numeral rest' hread =>
      obtain ⟨text, hspells, rfl⟩ := Numeral.read?_sound hread
      split at h
      · next hvalue =>
        cases h
        exact ⟨text, ⟨numeral, hspells, hvalue⟩, rfl⟩
      · cases h
    · cases h
  complete {text rest value} h hrest := by
    obtain ⟨numeral, hspells, hvalue⟩ := h
    unfold readNumber
    dsimp only
    rw [Numeral.read?_complete hspells hrest]
    dsimp only
    rw [hvalue]

theorem reads_skipNumber : Reads skipNumber SkipsNumber where
  sound {cs rest value} h := by
    unfold skipNumber at h
    dsimp only at h
    split at h
    · next numeral rest' hread =>
      obtain ⟨text, hspells, rfl⟩ := Numeral.read?_sound hread
      cases h
      exact ⟨text, ⟨numeral, hspells⟩, rfl⟩
    · cases h
  complete {text rest value} h hrest := by
    obtain ⟨numeral, hspells⟩ := h
    unfold skipNumber
    dsimp only
    rw [Numeral.read?_complete hspells hrest]

/-- A numeral does not start like a value of another kind. -/
theorem IsNumeralStart.ne (h : IsNumeralStart c) :
    isSpace c = false ∧ c ≠ 'n' ∧ c ≠ 't' ∧ c ≠ 'f' ∧ c ≠ '"' ∧ c ≠ '[' ∧ c ≠ ']' ∧
      c ≠ '\x7b' ∧ c ≠ '\x7d' := by
  rcases h with rfl | h
  · decide
  · have hne : ∀ d : Char, d.isDigit = false → c ≠ d := by
      rintro d hd rfl
      exact Bool.false_ne_true (hd.symm.trans h)
    refine ⟨?_, hne _ rfl, hne _ rfl, hne _ rfl, hne _ rfl, hne _ rfl, hne _ rfl, hne _ rfl,
      hne _ rfl⟩
    simp only [isSpace, beq_false_of_ne (hne ' ' rfl), beq_false_of_ne (hne '\n' rfl),
      beq_false_of_ne (hne '\t' rfl), beq_false_of_ne (hne '\r' rfl), Bool.or_self]

/-! ### Kinds of values -/

/-- A value by the readers of its kinds. Arrays and objects are read after their opening bracket. -/
def readKind (null true false : α) (string number array object : Reader α) : Reader α := fun cs =>
  match skipSpace cs with
  | 'n' :: 'u' :: 'l' :: 'l' :: rest => .ok (null, rest)
  | 't' :: 'r' :: 'u' :: 'e' :: rest => .ok (true, rest)
  | 'f' :: 'a' :: 'l' :: 's' :: 'e' :: rest => .ok (false, rest)
  | '"' :: rest => string ('"' :: rest)
  | '[' :: rest => array rest
  | '\x7b' :: rest => object rest
  | cs => number cs

section Kinds

variable {null true false : α} {string number array object : Spelling α}
  (hquote : ∀ text a, string text a → ∃ cs, text = '"' :: cs)
  (hsign : ∀ text a, number text a → ∃ c cs, text = c :: cs ∧ IsNumeralStart c)

include hquote hsign

theorem starts_spellsKind : Starts (SpellsKind null true false string number array object) := by
  intro text a h
  cases h with
  | null | true | false | array | object => exact ⟨_, _, rfl, by decide⟩
  | string h =>
    obtain ⟨cs, rfl⟩ := hquote _ _ h
    exact ⟨'"', cs, rfl, by decide⟩
  | number h =>
    obtain ⟨c, cs, rfl, hc⟩ := hsign _ _ h
    obtain ⟨hspace, -, -, -, -, -, hclose, -, hclose'⟩ := hc.ne
    exact ⟨c, cs, rfl, hspace, hclose, hclose'⟩

/-- **A value is read when the values of each kind are.** The first character decides the kind. -/
theorem reads_readKind {readString readNumber readItems readMembers : Reader α}
    (hstring : Reads readString string) (hnumber : Reads readNumber number)
    (harray : Reads readItems array) (hobject : Reads readMembers object) :
    Reads (readKind null true false readString readNumber readItems readMembers)
      (Spaced (SpellsKind null true false string number array object)) := by
  refine reads_spaced_of (starts_spellsKind hquote hsign) ?_ ?_
  · intro cs rest a hread
    unfold readKind at hread
    split at hread
    · next hskip => cases hread; exact ⟨_, .null, hskip⟩
    · next hskip => cases hread; exact ⟨_, .true, hskip⟩
    · next hskip => cases hread; exact ⟨_, .false, hskip⟩
    · next hskip =>
      obtain ⟨text, htext, hcs⟩ := hstring.sound hread
      exact ⟨text, .string htext, hskip.trans hcs⟩
    · next hskip =>
      obtain ⟨text, htext, rfl⟩ := harray.sound hread
      exact ⟨_, .array htext, hskip⟩
    · next hskip =>
      obtain ⟨text, htext, rfl⟩ := hobject.sound hread
      exact ⟨_, .object htext, hskip⟩
    · obtain ⟨text, htext, hcs⟩ := hnumber.sound hread
      exact ⟨text, .number htext, hcs⟩
  · intro cs body rest a hbody hskip hrest
    rw [readKind, hskip]
    cases hbody with
    | null | true | false => rfl
    | string h =>
      have hread := hstring.complete h hrest
      obtain ⟨cs, rfl⟩ := hquote _ _ h
      exact hread
    | array h => exact harray.complete h hrest
    | object h => exact hobject.complete h hrest
    | number h =>
      have hread := hnumber.complete h hrest
      obtain ⟨c, cs, rfl, hc⟩ := hsign _ _ h
      obtain ⟨-, hn, ht, hf, hquote, hopen, -, hopen', -⟩ := hc.ne
      split
      · next heq => exact absurd (List.cons.inj heq).1 hn
      · next heq => exact absurd (List.cons.inj heq).1 ht
      · next heq => exact absurd (List.cons.inj heq).1 hf
      · next heq => exact absurd (List.cons.inj heq).1 hquote
      · next heq => exact absurd (List.cons.inj heq).1 hopen
      · next heq => exact absurd (List.cons.inj heq).1 hopen'
      · exact hread

end Kinds

theorem exists_cons_of_spellsString {value : String} (h : SpellsString text value) :
    ∃ cs, text = '"' :: cs := by
  obtain ⟨body, -, rfl⟩ := h
  exact ⟨_, rfl⟩

theorem exists_cons_of_skipsString (h : SkipsString text ()) : ∃ cs, text = '"' :: cs := by
  obtain ⟨units, body, -, rfl⟩ := h
  exact ⟨_, rfl⟩

/-! ### Decoded values -/

/-- A member in front of the members read before. -/
def pushMember (members : List (String × Json)) (member : String × Json) :
    Option (List (String × Json)) :=
  some (member :: members)

theorem foldlM_pushMember (members start : List (String × Json)) :
    members.foldlM pushMember start = some (members.reverse ++ start) := by
  induction members generalizing start with
  | nil => rfl
  | cons m members ih =>
    rw [List.foldlM_cons, List.reverse_cons, List.append_assoc]
    exact ih (m :: start)

/-- A member after its key, in front of the members read before. -/
def readMember (value : Reader Json) (members : List (String × Json)) (key : String) :
    Reader (List (String × Json)) := fun cs => do
  let (value, cs) ← value (← readColon cs)
  .ok ((key, value) :: members, cs)

/-- An object after its opening brace, by a reader of the values of its members. -/
def readValues (value : Reader Json) : Reader Json := fun cs => do
  let (members, rest) ← readObject readString (readMember value) [] cs
  .ok (object (ofMembers members.reverse), rest)

theorem reads_readValues {reader : Reader Json} {value : Spelling Json}
    (h : Reads reader (Spaced value)) :
    Reads (readValues reader) (Mapped (fun members => object (ofMembers members))
      (SpellsRest '\x7d' (SpellsMember SpellsString fun _ => value))) := by
  have hentry : ∀ state, Reads (readEntry readString (readMember reader) state) fun text next =>
      ∃ m, SpellsMember SpellsString (fun _ => value) text m ∧ pushMember state m = some next := by
    intro state
    refine reads_readEntry pushMember reads_readString fun key => ?_
    refine (reads_afterColon_map h fun value => (key, value) :: state).congr fun text state' => ?_
    simp only [Mapped, pushMember, Option.some.injEq]
  have hobject := reads_readObject hentry (starts_spellsMember starts_spellsString) []
  refine (hobject.map fun members => object (ofMembers members.reverse)).congr fun text json => ?_
  simp only [Mapped, foldlM_pushMember, List.append_nil, Option.some.injEq]
  constructor
  · rintro ⟨_, ⟨members, hmembers, rfl⟩, rfl⟩
    exact ⟨members, hmembers, by rw [List.reverse_reverse]⟩
  · rintro ⟨members, hmembers, rfl⟩
    exact ⟨members.reverse, ⟨members, hmembers, rfl⟩, by rw [List.reverse_reverse]⟩

theorem readValue_zero : readValue 0 = readKind null (bool true) (bool false)
    (fun cs => do let (text, rest) ← readString cs; .ok (string text, rest))
    (fun cs => do let (value, rest) ← readNumber cs; .ok (number value, rest))
    (fun _ => .error .malformed) (fun _ => .error .malformed) := by
  funext cs
  unfold readValue readKind
  rfl

theorem readValue_succ (depth : Nat) : readValue (depth + 1) = readKind null (bool true)
    (bool false)
    (fun cs => do let (text, rest) ← readString cs; .ok (string text, rest))
    (fun cs => do let (value, rest) ← readNumber cs; .ok (number value, rest))
    (fun cs => do let (items, rest) ← readArray (readValue depth) cs; .ok (array items, rest))
    (readValues (readValue depth)) := by
  funext cs
  unfold readValue readKind
  rfl

theorem starts_string : ∀ text value, Mapped string SpellsString text value →
    ∃ cs, text = '"' :: cs := by
  rintro text _ ⟨value, h, -⟩
  exact exists_cons_of_spellsString h

theorem starts_number : ∀ text value, Mapped number SpellsNumber text value →
    ∃ c cs, text = c :: cs ∧ IsNumeralStart c := by
  rintro text _ ⟨value, ⟨numeral, h, -⟩, -⟩
  exact Numeral.exists_cons_of_spellsNumeral h

theorem starts_spellsValue (depth : Nat) : Starts (SpellsValue depth) := by
  cases depth with
  | zero => exact starts_spellsKind starts_string starts_number
  | succ depth => exact starts_spellsKind starts_string starts_number

/-- **A value is read to a depth exactly when it is spelled with at most that depth.** -/
theorem reads_readValue (depth : Nat) : Reads (readValue depth) (Spaced (SpellsValue depth)) := by
  induction depth with
  | zero =>
    rw [readValue_zero]
    exact reads_readKind starts_string starts_number (reads_readString.map string)
      (reads_readNumber.map number) (reads_error _) (reads_error _)
  | succ depth ih =>
    rw [readValue_succ]
    exact reads_readKind starts_string starts_number (reads_readString.map string)
      (reads_readNumber.map number) ((reads_readArray ih (starts_spellsValue depth)).map array)
      (reads_readValues ih)

/-! ### Skipped values -/

/-- A member after its key, of which nothing is kept. -/
def skipMember (value : Reader Unit) (_ _ : Unit) : Reader Unit := fun cs => do
  value (← readColon cs)

theorem reads_skipMembers {reader : Reader Unit} {value : Spelling Unit}
    (h : Reads reader (Spaced value)) :
    Reads (readObject skipString (skipMember reader) ()) (Mapped (fun _ => ())
      (SpellsRest '\x7d' (SpellsMember SkipsString fun _ => value))) := by
  have hentry : ∀ state, Reads (readEntry skipString (skipMember reader) state) fun text state' =>
      ∃ m, SpellsMember SkipsString (fun _ => value) text m ∧ some () = some state' := by
    intro state
    refine reads_readEntry (fun _ _ => some ()) reads_skipString fun _ => ?_
    refine (reads_afterColon h).congr fun text state' => ?_
    exact ⟨fun h => ⟨state', h, rfl⟩, fun ⟨_, h, _⟩ => h⟩
  have hfold : ∀ members : List (Unit × Unit),
      members.foldlM (fun _ _ => some ()) () = some () := fun members => by
    induction members with
    | nil => rfl
    | cons _ members ih => exact ih
  have hobject := reads_readObject hentry (starts_spellsMember starts_skipsString) ()
  refine hobject.congr fun text _ => ?_
  simp only [Mapped, hfold]

theorem skipNested_zero : skipNested 0 = readKind () () () skipString skipNumber
    (fun _ => .error .malformed) (fun _ => .error .malformed) := by
  funext cs
  unfold skipNested readKind
  rfl

theorem skipNested_succ (depth : Nat) : skipNested (depth + 1) =
    readKind () () () skipString skipNumber
      (fun cs => do let (_, rest) ← readArray (skipNested depth) cs; .ok ((), rest))
      (readObject skipString (skipMember (skipNested depth)) ()) := by
  funext cs
  unfold skipNested readKind
  rfl

private theorem starts_skipsString_quote : ∀ text value, SkipsString text value →
    ∃ cs, text = '"' :: cs := fun _ _ => exists_cons_of_skipsString

private theorem starts_skipsNumber : ∀ text value, SkipsNumber text value →
    ∃ c cs, text = c :: cs ∧ IsNumeralStart c := fun _ _ ⟨_, h⟩ =>
  Numeral.exists_cons_of_spellsNumeral h

theorem starts_skipsNested (depth : Nat) : Starts (SkipsNested depth) := by
  cases depth with
  | zero => exact starts_spellsKind starts_skipsString_quote starts_skipsNumber
  | succ depth => exact starts_spellsKind starts_skipsString_quote starts_skipsNumber

/-- A value is skipped to a depth exactly when it is spelled with at most that depth. -/
theorem reads_skipNested (depth : Nat) : Reads (skipNested depth) (Spaced (SkipsNested depth)) := by
  induction depth with
  | zero =>
    rw [skipNested_zero]
    exact reads_readKind starts_skipsString_quote starts_skipsNumber reads_skipString
      reads_skipNumber (reads_error _) (reads_error _)
  | succ depth ih =>
    rw [skipNested_succ]
    exact reads_readKind starts_skipsString_quote starts_skipsNumber reads_skipString
      reads_skipNumber ((reads_readArray ih (starts_skipsNested depth)).map fun _ => ())
      (reads_skipMembers ih)

/-! ### Depth -/

theorem SpellsKind.imp {null true false a : α}
    {string number array object array' object' : Spelling α}
    (h : SpellsKind null true false string number array object text a)
    (harray : ∀ inner a, text = '[' :: inner → array inner a → array' inner a)
    (hobject : ∀ inner a, text = '\x7b' :: inner → object inner a → object' inner a) :
    SpellsKind null true false string number array' object' text a := by
  cases h with
  | null => exact .null
  | true => exact .true
  | false => exact .false
  | string h => exact .string h
  | number h => exact .number h
  | array h => exact .array (harray _ _ rfl h)
  | object h => exact .object (hobject _ _ rfl h)

/-- A value that is skipped to a depth is skipped to every larger one. -/
theorem SkipsNested.mono {depth depth' : Nat} (hle : depth ≤ depth')
    (h : SkipsNested depth text ()) : SkipsNested depth' text () := by
  induction depth generalizing depth' text with
  | zero =>
    cases depth' with
    | zero => exact h
    | succ depth' => exact h.imp (fun _ _ _ => False.elim) fun _ _ _ => False.elim
  | succ depth ih =>
    obtain ⟨depth', rfl⟩ := Nat.exists_eq_succ_of_ne_zero (Nat.ne_zero_of_lt hle)
    have ih' : ∀ text value, SkipsNested depth text value → SkipsNested depth' text value :=
      fun _ _ h => ih (Nat.succ_le_succ_iff.mp hle) h
    refine h.imp (fun inner _ _ => ?_) fun inner _ _ => ?_
    · rintro ⟨items, hitems, rfl⟩
      exact ⟨items, hitems.imp fun text a _ => ih' text a, rfl⟩
    · rintro ⟨members, hmembers, rfl⟩
      exact ⟨members, hmembers.imp fun text m _ => SpellsMember.imp fun text a _ => ih' text a, rfl⟩

/-- The length of a text bounds the depth to which its value nests. -/
theorem SkipsNested.length {depth : Nat} (h : SkipsNested depth text ()) :
    SkipsNested text.length text () := by
  induction depth generalizing text with
  | zero => exact h.mono (Nat.zero_le _)
  | succ depth ih =>
    have ih' : ∀ (length : Nat) text value, text.length ≤ length → SkipsNested depth text value →
        SkipsNested length text value := fun _ _ _ hle h => (ih h).mono hle
    obtain ⟨c, cs, htext, -⟩ := starts_skipsNested (depth + 1) text () h
    rw [htext] at h ⊢
    refine h.imp (fun inner _ hinner => ?_) fun inner _ hinner => ?_
    all_goals obtain rfl := (List.cons.inj hinner).2
    · rintro ⟨items, hitems, rfl⟩
      exact ⟨items, hitems.imp (ih' cs.length), rfl⟩
    · rintro ⟨members, hmembers, rfl⟩
      refine ⟨members, hmembers.imp fun text m hle => SpellsMember.imp fun text a hle' => ?_, rfl⟩
      exact ih' cs.length text a (Nat.le_trans hle' hle)

/-- **A value that only has to be grammatical is skipped at any depth.** -/
theorem reads_skipValue : Reads skipValue (Spaced SkipsValue) where
  sound {cs rest value} hread := by
    obtain ⟨text, ⟨blanks, body, hblanks, hbody, rfl⟩, hcs⟩ := (reads_skipNested _).sound hread
    exact ⟨_, ⟨blanks, body, hblanks, ⟨_, hbody⟩, rfl⟩, hcs⟩
  complete {text rest value} hspells hrest := by
    obtain ⟨blanks, body, hblanks, ⟨depth, hbody⟩, rfl⟩ := hspells
    have hle : body.length ≤ (blanks ++ body ++ rest).length := by
      simp only [List.length_append]
      omega
    exact (reads_skipNested _).complete ⟨blanks, body, hblanks, hbody.length.mono hle, rfl⟩ hrest

/-! ### Values without repeated keys -/

/-- A value where no object repeats a key is a value. -/
theorem SpellsOnce.spellsValue {depth : Nat} {json : Json} (h : SpellsOnce depth text json) :
    SpellsValue depth text json := by
  induction depth generalizing text json with
  | zero => exact h
  | succ depth ih =>
    refine h.imp (fun inner _ _ => ?_) fun inner _ _ => ?_
    · rintro ⟨items, hitems, rfl⟩
      exact ⟨items, hitems.imp fun _ _ _ => ih, rfl⟩
    · rintro ⟨members, hmembers, -, rfl⟩
      exact ⟨members, hmembers.imp fun _ _ _ => SpellsMember.imp fun _ _ _ => ih, rfl⟩

/-! ### Whole texts -/

/-- A whole text is read when it spells a value with nothing but blanks after it. -/
theorem readText_eq_ok_iff {reader : Reader α} {spelling : Spelling α} (h : Reads reader spelling)
    {text : String} {a : α} :
    readText reader text = .ok a ↔
      ∃ body after, spelling body a ∧ IsBlank after ∧ text.toList = body ++ after := by
  unfold readText
  rw [Outcome.bind_eq_ok_iff]
  constructor
  · rintro ⟨⟨a, rest⟩, hread, hresult⟩
    obtain ⟨body, hbody, htext⟩ := h.sound hread
    dsimp only at hresult
    split at hresult
    · next hskip =>
      cases hresult
      exact ⟨body, rest, hbody, skipSpace_eq_nil_iff.mp hskip, htext⟩
    · cases hresult
  · rintro ⟨body, after, hbody, hafter, htext⟩
    refine ⟨(a, after), htext ▸ h.complete hbody hafter.endsNumeral, ?_⟩
    dsimp only
    rw [skipSpace_eq_nil_iff.mpr hafter]

end PlaylistRules.Json
