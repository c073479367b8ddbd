import PlaylistRules.Proofs.Json.Grammar

/-!
# Reading strings

The characters of a string are read exactly when the text starts with their spellings and a closing
quotation mark. A string that is skipped is taken to the same mark, but any four hexadecimal digits
will do in an escape.

## Main results

* `Json.readBody?_sound`, `Json.readBody?_complete` : the characters that are read.
* `Json.skipBody?_sound`, `Json.skipBody?_complete` : the characters that are skipped.
-/

namespace PlaylistRules.Json

variable {cs rest text : List Char} {c : Char}

theorem prepend_eq_some_iff {result : Option (List Char × List Char)} {body : List Char} :
    prepend c result = some (body, rest) ↔
      ∃ body', result = some (body', rest) ∧ body = c :: body' := by
  rw [prepend, Option.map_eq_some_iff]
  constructor
  · rintro ⟨⟨body', rest'⟩, hresult, h⟩
    cases h
    exact ⟨body', hresult, rfl⟩
  · rintro ⟨body', hresult, rfl⟩
    exact ⟨_, hresult, rfl⟩

/-! ### Strings that are read -/

/-- One character is read from its spelling. -/
theorem readBody?_append (h : SpellsChar text c) (hcs : cs ≠ []) :
    readBody? (text ++ cs) = prepend c (readBody? cs) := by
  cases h with
  | plain hquote hbackslash hcontrol =>
    obtain ⟨d, cs, rfl⟩ := List.exists_cons_of_ne_nil hcs
    rw [List.singleton_append]
    conv => lhs; unfold readBody?
    rw [if_neg hquote, if_neg hbackslash, if_neg (Nat.not_lt.mpr hcontrol)]
  | @letter d c hescape =>
    have hu : d ≠ 'u' := by
      rintro rfl
      exact absurd hescape (Option.some_ne_none c).symm
    rw [List.cons_append, List.singleton_append]
    conv => lhs; unfold readBody?
    rw [if_neg (by decide), if_pos rfl, if_neg hu, hescape]
  | unit hquad hlead htrail =>
    simp only [List.cons_append, List.nil_append]
    conv => lhs; unfold readBody?
    rw [if_neg (by decide), if_pos rfl, if_pos rfl]
    simp only [hquad, hlead, htrail, Bool.false_eq_true, if_false]
  | pair hquad hlead hquad' htrail =>
    simp only [List.cons_append, List.nil_append]
    conv => lhs; unfold readBody?
    rw [if_neg (by decide), if_pos rfl, if_pos rfl]
    simp only [hquad, hlead, hquad', htrail, and_self, if_true]

theorem readBody?_complete {body : List Char} (h : SpellsEach SpellsChar text body) :
    readBody? (text ++ '"' :: rest) = some (body, rest) := by
  induction h with
  | nil =>
    rw [List.nil_append]
    unfold readBody?
    cases rest with
    | nil => rfl
    | cons c rest => rfl
  | cons hchar _ ih =>
    rw [List.append_assoc, readBody?_append hchar (by simp), ih]
    rfl

theorem readBody?_sound {body : List Char} (h : readBody? cs = some (body, rest)) :
    ∃ text, SpellsEach SpellsChar text body ∧ cs = text ++ '"' :: rest := by
  have hcons : ∀ {text cs : List Char} {c : Char} {body : List Char}, SpellsChar text c →
      (∃ text, SpellsEach SpellsChar text body ∧ cs = text ++ '"' :: rest) →
        ∃ text', SpellsEach SpellsChar text' (c :: body) ∧ text ++ cs = text' ++ '"' :: rest := by
    rintro text _ c body hchar ⟨texts, hbody, rfl⟩
    exact ⟨text ++ texts, .cons hchar hbody, by rw [List.append_assoc]⟩
  fun_induction readBody? cs generalizing body
  case case2 | case4 => cases h; exact ⟨[], .nil, rfl⟩
  case case7 hquad hlead _ _ _ _ _ _ _ hmark _ hquad' htrail _ ih =>
    obtain ⟨rfl, rfl⟩ := hmark
    obtain ⟨body, hbody, rfl⟩ := prepend_eq_some_iff.mp h
    exact hcons (.pair hquad hlead hquad' htrail) (ih hbody)
  case case12 hquad hlead htrail _ ih =>
    obtain ⟨body, hbody, rfl⟩ := prepend_eq_some_iff.mp h
    rw [Bool.not_eq_true] at hlead htrail
    exact hcons (.unit hquad hlead htrail) (ih hbody)
  case case15 hescape _ ih =>
    obtain ⟨body, hbody, rfl⟩ := prepend_eq_some_iff.mp h
    exact hcons (.letter hescape) (ih hbody)
  case case17 hquote hbackslash hcontrol ih =>
    obtain ⟨body, hbody, rfl⟩ := prepend_eq_some_iff.mp h
    exact hcons (.plain hquote hbackslash (Nat.not_lt.mp hcontrol)) (ih hbody)
  all_goals cases h

/-! ### Strings that are skipped -/

/-- One character is skipped from its spelling. -/
theorem skipBody?_append (h : SkipsChar text ()) (hcs : cs ≠ []) :
    skipBody? (text ++ cs) = skipBody? cs := by
  cases h with
  | plain hquote hbackslash hcontrol =>
    obtain ⟨d, cs, rfl⟩ := List.exists_cons_of_ne_nil hcs
    rw [List.singleton_append]
    conv => lhs; unfold skipBody?
    rw [if_neg hquote, if_neg hbackslash, if_neg (Nat.not_lt.mpr hcontrol)]
  | @letter d c hescape =>
    have hu : d ≠ 'u' := by
      rintro rfl
      exact absurd hescape (Option.some_ne_none c).symm
    rw [List.cons_append, List.singleton_append]
    conv => lhs; unfold skipBody?
    rw [if_neg (by decide), if_pos rfl, if_neg hu, hescape]
  | unit hquad =>
    simp only [List.cons_append, List.nil_append]
    conv => lhs; unfold skipBody?
    rw [if_neg (by decide), if_pos rfl, if_pos rfl]
    simp only [hquad]

theorem skipBody?_complete {units : List Unit} (h : SpellsEach SkipsChar text units) :
    skipBody? (text ++ '"' :: rest) = some rest := by
  induction h with
  | nil =>
    rw [List.nil_append]
    unfold skipBody?
    cases rest with
    | nil => rfl
    | cons c rest => rfl
  | cons hchar _ ih => rw [List.append_assoc, skipBody?_append hchar (by simp), ih]

theorem skipBody?_sound (h : skipBody? cs = some rest) :
    ∃ text units, SpellsEach SkipsChar text units ∧ cs = text ++ '"' :: rest := by
  have hcons : ∀ {text cs : List Char}, SkipsChar text () →
      (∃ text units, SpellsEach SkipsChar text units ∧ cs = text ++ '"' :: rest) →
        ∃ text' units, SpellsEach SkipsChar text' units ∧ text ++ cs = text' ++ '"' :: rest := by
    rintro text _ hchar ⟨texts, units, hbody, rfl⟩
    exact ⟨text ++ texts, () :: units, .cons hchar hbody, by rw [List.append_assoc]⟩
  fun_induction skipBody? cs
  case case2 | case4 => cases h; exact ⟨[], [], .nil, rfl⟩
  case case6 hquad _ ih => exact hcons (.unit hquad) (ih h)
  case case9 hescape _ ih => exact hcons (.letter hescape) (ih h)
  case case11 hquote hbackslash hcontrol ih =>
    exact hcons (.plain hquote hbackslash (Nat.not_lt.mp hcontrol)) (ih h)
  all_goals cases h

end PlaylistRules.Json
