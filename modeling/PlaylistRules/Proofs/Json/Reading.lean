import PlaylistRules.Proofs.Json.Numeral
import PlaylistRules.Proofs.Json.Quoted
import PlaylistRules.Proofs.Outcome

/-!
# Readers and spellings

A reader reads a spelling when the values that it takes from the front of a text are those whose
spellings stand there. What holds of the readers of parts is carried over to arrays and objects.

## Main definitions

* `Json.Reads` : a reader takes exactly the values of a spelling.
* `Json.Starts` : the texts of a spelling start with a character of their own.

## Main results

* `Json.reads_readString`, `Json.reads_skipString` : strings.
* `Json.reads_readArray`, `Json.reads_readObject` : arrays and objects.
-/

namespace PlaylistRules.Json

variable {α β κ σ μ : Type} {cs rest text blanks : List Char} {c : Char}

/-! ### Blanks and marks -/

theorem IsBlank.append {blanks' : List Char} (h : IsBlank blanks) (h' : IsBlank blanks') :
    IsBlank (blanks ++ blanks') := fun c hc =>
  (List.mem_append.mp hc).elim (h c) (h' c)

theorem isBlank_nil : IsBlank [] := fun _ h => absurd h List.not_mem_nil

/-- Blanks are skipped up to a character that is not blank. -/
theorem skipSpace_append (h : IsBlank blanks) (hc : isSpace c = false) :
    skipSpace (blanks ++ c :: cs) = c :: cs := by
  rw [skipSpace, List.dropWhile_append_of_pos h, List.dropWhile_cons_of_neg (by rw [hc]; decide)]

/-- Only blanks are skipped. -/
theorem exists_blanks (cs : List Char) : ∃ blanks, IsBlank blanks ∧ cs = blanks ++ skipSpace cs :=
  ⟨cs.takeWhile isSpace, fun _ hc => List.mem_takeWhile_imp hc,
    List.takeWhile_append_dropWhile.symm⟩

theorem skipSpace_eq_cons_iff (hc : isSpace c = false) :
    skipSpace cs = c :: rest ↔ ∃ blanks, IsBlank blanks ∧ cs = blanks ++ c :: rest := by
  constructor
  · intro h
    obtain ⟨blanks, hblanks, hcs⟩ := exists_blanks cs
    exact ⟨blanks, hblanks, h ▸ hcs⟩
  · rintro ⟨blanks, hblanks, rfl⟩
    exact skipSpace_append hblanks hc

theorem skipSpace_eq_nil_iff : skipSpace cs = [] ↔ IsBlank cs :=
  List.dropWhile_eq_nil_iff

theorem endsNumeral_cons (h : c.isDigit = false ∧ c ≠ '.' ∧ c ≠ 'e' ∧ c ≠ 'E') :
    EndsNumeral (c :: cs) := fun _ hd => Option.some.inj hd ▸ h

/-- Blanks and what does not continue a numeral do not continue it. -/
theorem IsBlank.endsNumeral_append (h : IsBlank blanks) (hcs : EndsNumeral cs) :
    EndsNumeral (blanks ++ cs) := by
  cases blanks with
  | nil => exact hcs
  | cons c blanks =>
    refine endsNumeral_cons ?_
    have hspace := h c List.mem_cons_self
    simp only [isSpace, Bool.or_eq_true, beq_iff_eq] at hspace
    rcases hspace with ((rfl | rfl) | rfl) | rfl <;> decide

/-- Blanks and a mark that does not continue a numeral end it. -/
theorem IsBlank.endsNumeral_cons (h : IsBlank blanks)
    (hc : c.isDigit = false ∧ c ≠ '.' ∧ c ≠ 'e' ∧ c ≠ 'E') : EndsNumeral (blanks ++ c :: cs) :=
  h.endsNumeral_append (Json.endsNumeral_cons hc)

theorem IsBlank.endsNumeral (h : IsBlank blanks) : EndsNumeral blanks := by
  have hnil : EndsNumeral [] := fun _ hc => nomatch hc
  simpa only [List.append_nil] using h.endsNumeral_append hnil

/-- The colon of a member is read after blanks. -/
theorem readColon_eq_ok_iff :
    readColon cs = .ok rest ↔ ∃ blanks, IsBlank blanks ∧ cs = blanks ++ ':' :: rest := by
  rw [← skipSpace_eq_cons_iff (by decide)]
  unfold readColon
  split
  · next h => rw [h, Except.ok.injEq, List.cons.injEq, and_iff_right rfl]
  · next hne => exact ⟨nofun, fun h => absurd h (hne rest)⟩

/-! ### Readers -/

/-- A reader takes a value from the front of a text exactly when the value is spelled there, and
what follows does not continue a numeral. -/
structure Reads (reader : Reader α) (spelling : Spelling α) : Prop where
  sound {cs rest : List Char} {a : α} : reader cs = .ok (a, rest) →
    ∃ text, spelling text a ∧ cs = text ++ rest
  complete {text rest : List Char} {a : α} : spelling text a → EndsNumeral rest →
    reader (text ++ rest) = .ok (a, rest)

/-- The texts of a spelling start with a character that is no blank and closes nothing. -/
def Starts (spelling : Spelling α) : Prop :=
  ∀ text a, spelling text a → ∃ c cs, text = c :: cs ∧ isSpace c = false ∧ c ≠ ']' ∧ c ≠ '\x7d'

/-- A reader that skips blanks first reads a spelling with blanks before it. -/
theorem reads_spaced_of {reader : Reader α} {spelling : Spelling α} (hstarts : Starts spelling)
    (hsound : ∀ {cs rest a}, reader cs = .ok (a, rest) →
      ∃ body, spelling body a ∧ skipSpace cs = body ++ rest)
    (hcomplete : ∀ {cs body rest a}, spelling body a → skipSpace cs = body ++ rest →
      EndsNumeral rest → reader cs = .ok (a, rest)) : Reads reader (Spaced spelling) where
  sound {cs rest a} hread := by
    obtain ⟨body, hbody, hskip⟩ := hsound hread
    obtain ⟨blanks, hblanks, hcs⟩ := exists_blanks cs
    rw [hskip, ← List.append_assoc] at hcs
    exact ⟨blanks ++ body, ⟨blanks, body, hblanks, hbody, rfl⟩, hcs⟩
  complete {text rest a} hspells hrest := by
    obtain ⟨blanks, body, hblanks, hbody, rfl⟩ := hspells
    obtain ⟨c, cs, rfl, hc, -⟩ := hstarts body a hbody
    refine hcomplete hbody ?_ hrest
    rw [List.append_assoc, List.cons_append, skipSpace_append hblanks hc]

theorem Reads.congr {reader : Reader α} {spelling spelling' : Spelling α}
    (h : Reads reader spelling) (hiff : ∀ text a, spelling text a ↔ spelling' text a) :
    Reads reader spelling' where
  sound hread := by
    obtain ⟨text, htext, hcs⟩ := h.sound hread
    exact ⟨text, (hiff _ _).mp htext, hcs⟩
  complete hspells hrest := h.complete ((hiff _ _).mpr hspells) hrest

/-- What a reader returns is changed by a function. -/
theorem Reads.map {reader : Reader α} {spelling : Spelling α} (h : Reads reader spelling)
    (f : α → β) :
    Reads (fun cs => do let (a, cs) ← reader cs; .ok (f a, cs)) (Mapped f spelling) where
  sound {cs rest b} hread := by
    obtain ⟨⟨a, cs'⟩, hread, hresult⟩ := Outcome.bind_eq_ok_iff.mp hread
    cases hresult
    obtain ⟨text, htext, hcs⟩ := h.sound hread
    exact ⟨text, ⟨a, htext, rfl⟩, hcs⟩
  complete {text rest b} hspells hrest := by
    obtain ⟨a, htext, rfl⟩ := hspells
    exact Outcome.bind_eq_ok_iff.mpr ⟨(a, rest), h.complete htext hrest, rfl⟩

/-- A reader that only fails reads nothing. -/
theorem reads_error (fault : Fault) : Reads (fun _ => .error fault) (Nothing : Spelling α) :=
  ⟨nofun, nofun⟩

/-! ### Strings -/

theorem readString_append {value : String} (h : SpellsString text value) :
    readString (text ++ rest) = .ok (value, rest) := by
  obtain ⟨body, hbody, rfl⟩ := h
  simp only [List.cons_append, List.append_assoc, List.nil_append, readString,
    readBody?_complete hbody]
  exact congrArg (fun value => Except.ok (value, rest)) String.ofList_toList

theorem reads_readString : Reads readString SpellsString where
  sound {cs rest value} h := by
    unfold readString at h
    split at h
    · split at h
      · next body rest' hread =>
        cases h
        obtain ⟨text, hbody, rfl⟩ := readBody?_sound hread
        refine ⟨'"' :: text ++ ['"'], ⟨text, ?_, rfl⟩, by simp⟩
        rwa [String.toList_ofList]
      · cases h
    · cases h
  complete h _ := readString_append h

theorem skipString_append (h : SkipsString text ()) :
    skipString (text ++ rest) = .ok ((), rest) := by
  obtain ⟨units, body, hbody, rfl⟩ := h
  simp only [List.cons_append, List.append_assoc, List.nil_append, skipString,
    skipBody?_complete hbody]

theorem reads_skipString : Reads skipString SkipsString where
  sound {cs rest value} h := by
    unfold skipString at h
    split at h
    · split at h
      · next rest' hread =>
        cases h
        obtain ⟨text, units, hbody, rfl⟩ := skipBody?_sound hread
        exact ⟨'"' :: text ++ ['"'], ⟨units, text, hbody, rfl⟩, by simp⟩
      · cases h
    · cases h
  complete h _ := skipString_append h

theorem starts_spellsString : Starts SpellsString := by
  rintro _ value ⟨body, -, rfl⟩
  exact ⟨'"', _, rfl, by decide⟩

theorem starts_skipsString : Starts SkipsString := by
  rintro _ value ⟨units, body, -, rfl⟩
  exact ⟨'"', _, rfl, by decide⟩

/-! ### Items -/

section Items

variable {item : Spelling α} {closing : Char} {as : List α}

theorem SpellsItems.blanks_append (h : SpellsItems closing item text as)
    (hblanks : IsBlank blanks) : SpellsItems closing item (blanks ++ text) as := by
  have hspaced : ∀ {text : List Char} {a : α}, Spaced item text a →
      Spaced item (blanks ++ text) a := by
    rintro _ a ⟨blanks', body, hblanks', hbody, rfl⟩
    exact ⟨blanks ++ blanks', body, hblanks.append hblanks', hbody, by rw [List.append_assoc]⟩
  cases h with
  | last hfirst hafter =>
    rw [← List.append_assoc, ← List.append_assoc]
    exact .last (hspaced hfirst) hafter
  | cons hfirst hafter hothers =>
    rw [← List.append_assoc, ← List.append_assoc]
    exact .cons (hspaced hfirst) hafter hothers

/-- Items start with blanks and the start of the first one. -/
theorem SpellsItems.exists_start (h : SpellsItems closing item text as) (hstarts : Starts item) :
    ∃ blanks c cs, IsBlank blanks ∧ text = blanks ++ c :: cs ∧
      SpellsItems closing item (c :: cs) as ∧ isSpace c = false ∧ c ≠ ']' ∧ c ≠ '\x7d' := by
  cases h with
  | @last text after a hfirst hafter =>
    obtain ⟨blanks, body, hblanks, hbody, rfl⟩ := hfirst
    obtain ⟨c, cs, rfl, hc⟩ := hstarts body _ hbody
    exact ⟨blanks, c, cs ++ after ++ [closing], hblanks, by simp,
      .last ⟨[], c :: cs, isBlank_nil, hbody, rfl⟩ hafter, hc⟩
  | @cons text after texts a as hfirst hafter hothers =>
    obtain ⟨blanks, body, hblanks, hbody, rfl⟩ := hfirst
    obtain ⟨c, cs, rfl, hc⟩ := hstarts body _ hbody
    exact ⟨blanks, c, cs ++ after ++ ',' :: texts, hblanks, by simp,
      .cons ⟨[], c :: cs, isBlank_nil, hbody, rfl⟩ hafter hothers, hc⟩

/-- Every item has its own comma or closing mark. -/
theorem SpellsItems.length_le (h : SpellsItems closing item text as) :
    as.length ≤ text.length := by
  induction h with
  | last =>
    simp only [List.length_append, List.length_cons]
    omega
  | cons _ _ _ ih =>
    simp only [List.length_append, List.length_cons]
    omega

/-- Items are spelled in another way when each of them is. -/
theorem SpellsItems.imp {item' : Spelling α} (h : SpellsItems closing item text as)
    (himp : ∀ body a, body.length ≤ text.length → item body a → item' body a) :
    SpellsItems closing item' text as := by
  have hspaced : ∀ {text' : List Char} {a : α}, text'.length ≤ text.length →
      Spaced item text' a → Spaced item' text' a := by
    rintro _ a hle ⟨blanks, body, hblanks, hbody, rfl⟩
    rw [List.length_append] at hle
    exact ⟨blanks, body, hblanks, himp body a (Nat.le_trans (Nat.le_add_left _ _) hle) hbody, rfl⟩
  induction h with
  | last hfirst hafter =>
    refine .last (hspaced ?_ hfirst) hafter
    simp only [List.length_append]
    omega
  | @cons text blanks texts a as hfirst hafter _ ih =>
    have hle : texts.length ≤ (text ++ blanks ++ ',' :: texts).length := by
      simp only [List.length_append, List.length_cons]
      omega
    refine .cons (hspaced ?_ hfirst) hafter (ih (fun body a h => himp body a (h.trans hle))
      fun h => hspaced (h.trans hle))
    simp only [List.length_append]
    omega

theorem SpellsRest.imp {item' : Spelling α} (h : SpellsRest closing item text as)
    (himp : ∀ body a, body.length ≤ text.length → item body a → item' body a) :
    SpellsRest closing item' text as := by
  cases h with
  | empty hblanks => exact .empty hblanks
  | items h => exact .items (h.imp himp)

/-- A member is spelled in another way when its value is. -/
theorem SpellsMember.imp {key : Spelling κ} {value value' : κ → Spelling α} {m : κ × α}
    (himp : ∀ body a, body.length ≤ text.length → value m.1 body a → value' m.1 body a)
    (h : SpellsMember key value text m) : SpellsMember key value' text m := by
  obtain ⟨name, after, hname, hafter, rfl⟩ := h
  obtain ⟨blanks, _, hblanks, ⟨blanks', body, hblanks', hbody, rfl⟩, rfl⟩ := hafter
  refine ⟨name, _, hname, ⟨blanks, _, hblanks, ⟨blanks', body, hblanks', himp body _ ?_ hbody, rfl⟩,
    rfl⟩, rfl⟩
  simp only [List.length_append, List.length_cons]
  omega

end Items

/-! ### Arrays -/

section Arrays

variable {reader : Reader α} {item : Spelling α} {as : List α}

theorem readItems_sound (h : Reads reader (Spaced item)) {fuel : Nat}
    (hread : readItems reader fuel cs = .ok (as, rest)) :
    ∃ text, SpellsItems ']' item text as ∧ cs = text ++ rest := by
  induction fuel generalizing cs as with
  | zero => cases hread
  | succ fuel ih =>
    obtain ⟨⟨first, cs'⟩, hfirst, hmarks⟩ := Outcome.bind_eq_ok_iff.mp hread
    obtain ⟨text, htext, rfl⟩ := h.sound hfirst
    dsimp only at hmarks
    split at hmarks
    · next hmark =>
      cases hmarks
      obtain ⟨blanks, hblanks, rfl⟩ := (skipSpace_eq_cons_iff (by decide)).mp hmark
      exact ⟨_, .last htext hblanks, by simp⟩
    · next hmark =>
      obtain ⟨blanks, hblanks, rfl⟩ := (skipSpace_eq_cons_iff (by decide)).mp hmark
      obtain ⟨⟨others, rest'⟩, hothers, hresult⟩ := Outcome.bind_eq_ok_iff.mp hmarks
      cases hresult
      obtain ⟨texts, htexts, rfl⟩ := ih hothers
      exact ⟨_, .cons htext hblanks htexts, by simp⟩
    · cases hmarks

theorem readItems_complete (h : Reads reader (Spaced item)) {fuel : Nat}
    (hitems : SpellsItems ']' item text as) (hfuel : as.length ≤ fuel) :
    readItems reader fuel (text ++ rest) = .ok (as, rest) := by
  induction hitems generalizing fuel with
  | @last text blanks a hfirst hafter =>
    obtain ⟨fuel, rfl⟩ := Nat.exists_eq_succ_of_ne_zero (Nat.pos_iff_ne_zero.mp hfuel)
    have hend : EndsNumeral (blanks ++ ']' :: rest) :=
      hafter.endsNumeral_cons (by decide)
    refine Outcome.bind_eq_ok_iff.mpr ⟨(a, blanks ++ ']' :: rest), ?_, ?_⟩
    · simpa only [List.append_assoc, List.singleton_append] using h.complete hfirst hend
    · dsimp only
      rw [skipSpace_append hafter (by decide)]
      rfl
  | @cons text blanks texts a as hfirst hafter _ ih =>
    obtain ⟨fuel, rfl⟩ := Nat.exists_eq_succ_of_ne_zero
      (Nat.pos_iff_ne_zero.mp (Nat.lt_of_lt_of_le (Nat.succ_pos _) hfuel))
    have hend : EndsNumeral (blanks ++ ',' :: (texts ++ rest)) :=
      hafter.endsNumeral_cons (by decide)
    refine Outcome.bind_eq_ok_iff.mpr ⟨(a, blanks ++ ',' :: (texts ++ rest)), ?_, ?_⟩
    · simpa only [List.append_assoc, List.cons_append] using h.complete hfirst hend
    · dsimp only
      rw [skipSpace_append hafter (by decide)]
      exact Outcome.bind_eq_ok_iff.mpr ⟨(as, rest), ih (Nat.succ_le_succ_iff.mp hfuel), rfl⟩

/-- **An array is read after its opening bracket when its items are.** -/
theorem reads_readArray (h : Reads reader (Spaced item)) (hstarts : Starts item) :
    Reads (readArray reader) (SpellsRest ']' item) where
  sound {cs rest as} hread := by
    unfold readArray at hread
    dsimp only at hread
    obtain ⟨blanks, hblanks, hcs⟩ := exists_blanks cs
    split at hread
    · next hmark =>
      cases hread
      rw [hmark] at hcs
      exact ⟨blanks ++ [']'], .empty hblanks, by simpa using hcs⟩
    · obtain ⟨text, htext, hskip⟩ := readItems_sound h hread
      rw [hskip, ← List.append_assoc] at hcs
      exact ⟨blanks ++ text, .items (htext.blanks_append hblanks), hcs⟩
  complete {text rest as} hspells _ := by
    unfold readArray
    dsimp only
    cases hspells with
    | empty hblanks =>
      have hskip : skipSpace (_ ++ ']' :: rest) = _ := skipSpace_append hblanks (by decide)
      rw [List.append_assoc, List.singleton_append, hskip]
      rfl
    | items hitems =>
      obtain ⟨blanks, c, cs, hblanks, rfl, hitems, hc, hne, -⟩ := hitems.exists_start hstarts
      rw [List.append_assoc, List.cons_append, skipSpace_append hblanks hc]
      split
      · next heq => exact absurd (List.cons.inj heq).1 hne
      · refine readItems_complete h hitems (Nat.le_trans hitems.length_le ?_)
        simp only [List.length_cons, List.length_append]
        omega

end Arrays

/-! ### Objects -/

/-- A member of an object with its key, by what the earlier members have led to. -/
def readEntry (key : Reader κ) (member : σ → κ → Reader σ) (state : σ) : Reader σ := fun cs => do
  let (name, cs) ← key cs
  member state name cs

/-- A colon does not continue a numeral. -/
theorem AfterColon.endsNumeral {value : Spelling α} {a : α} (h : AfterColon value text a) :
    EndsNumeral (text ++ rest) := by
  obtain ⟨blanks, body, hblanks, -, rfl⟩ := h
  rw [List.append_assoc]
  exact hblanks.endsNumeral_cons (by decide)

/-- A value is read after its colon. -/
theorem reads_afterColon {reader : Reader α} {value : Spelling α}
    (h : Reads reader (Spaced value)) :
    Reads (fun cs => do reader (← readColon cs)) (AfterColon value) where
  sound {cs rest a} hread := by
    obtain ⟨cs', hcolon, hvalue⟩ := Outcome.bind_eq_ok_iff.mp hread
    obtain ⟨blanks, hblanks, rfl⟩ := readColon_eq_ok_iff.mp hcolon
    obtain ⟨body, hbody, rfl⟩ := h.sound hvalue
    exact ⟨_, ⟨blanks, body, hblanks, hbody, rfl⟩, by simp⟩
  complete {text rest a} hspells hrest := by
    obtain ⟨blanks, body, hblanks, hbody, rfl⟩ := hspells
    refine Outcome.bind_eq_ok_iff.mpr ⟨body ++ rest, ?_, h.complete hbody hrest⟩
    exact readColon_eq_ok_iff.mpr ⟨blanks, hblanks, by simp⟩

/-- A value is read after its colon and changed by a function. -/
theorem reads_afterColon_map {reader : Reader α} {value : Spelling α}
    (h : Reads reader (Spaced value)) (f : α → β) :
    Reads (fun cs => do let (a, cs) ← reader (← readColon cs); .ok (f a, cs))
      (Mapped f (AfterColon value)) := by
  simpa only [bind_assoc] using (reads_afterColon h).map f

section Objects

variable {key : Reader κ} {member : σ → κ → Reader σ} {entry : Spelling μ}
  {step : σ → μ → Option σ} {state state' : σ}

theorem readMembers_sound
    (h : ∀ state, Reads (readEntry key member state) fun text state' =>
      ∃ m, entry text m ∧ step state m = some state') {fuel : Nat}
    (hread : readMembers key member fuel state cs = .ok (state', rest)) :
    ∃ text members, SpellsItems '\x7d' entry text members ∧
      members.foldlM step state = some state' ∧ cs = text ++ rest := by
  induction fuel generalizing cs state with
  | zero => cases hread
  | succ fuel ih =>
    obtain ⟨⟨name, cs'⟩, hname, hnext⟩ := Outcome.bind_eq_ok_iff.mp hread
    obtain ⟨⟨next, cs''⟩, hmember, hmarks⟩ := Outcome.bind_eq_ok_iff.mp hnext
    obtain ⟨text, ⟨m, hentry, hstep⟩, rfl⟩ :=
      (h state).sound (Outcome.bind_eq_ok_iff.mpr ⟨(name, cs'), hname, hmember⟩)
    have hspaced : Spaced entry text m := ⟨[], text, isBlank_nil, hentry, rfl⟩
    dsimp only at hmarks
    split at hmarks
    · next hmark =>
      cases hmarks
      obtain ⟨blanks, hblanks, rfl⟩ := (skipSpace_eq_cons_iff (by decide)).mp hmark
      refine ⟨_, [m], .last hspaced hblanks, ?_, by simp⟩
      rw [List.foldlM_cons, hstep]
      rfl
    · next rest' hmark =>
      obtain ⟨blanks, hblanks, rfl⟩ := (skipSpace_eq_cons_iff (by decide)).mp hmark
      obtain ⟨texts, members, htexts, hfold, hskip⟩ := ih hmarks
      obtain ⟨blanks', hblanks', hcs⟩ := exists_blanks rest'
      rw [hskip, ← List.append_assoc] at hcs
      subst hcs
      refine ⟨_, m :: members, .cons hspaced hblanks (htexts.blanks_append hblanks'), ?_, by simp⟩
      rw [List.foldlM_cons, hstep]
      exact hfold
    · cases hmarks

/-- One member is read from its spelling. -/
private theorem readMembers_entry
    (h : ∀ state, Reads (readEntry key member state) fun text state' =>
      ∃ m, entry text m ∧ step state m = some state') (hstarts : Starts entry) {m : μ}
    (hentry : Spaced entry text m) (hstep : step state m = some state') (hend : EndsNumeral cs)
    (fuel : Nat) :
    readMembers key member (fuel + 1) state (skipSpace (text ++ cs)) =
      match skipSpace cs with
      | '\x7d' :: rest => .ok (state', rest)
      | ',' :: rest => readMembers key member fuel state' (skipSpace rest)
      | _ => .error .malformed := by
  obtain ⟨before, body, hbefore, hentry, rfl⟩ := hentry
  have hread := (h state).complete ⟨m, hentry, hstep⟩ hend
  obtain ⟨⟨name, cs'⟩, hname, hmember⟩ := Outcome.bind_eq_ok_iff.mp hread
  obtain ⟨c, body, rfl, hc, -⟩ := hstarts body m hentry
  rw [List.append_assoc, List.cons_append, skipSpace_append hbefore hc, ← List.cons_append,
    readMembers, hname]
  change member state name cs' = .ok (state', cs) at hmember
  show (member state name cs' >>= _) = _
  rw [hmember]
  rfl

theorem readMembers_complete
    (h : ∀ state, Reads (readEntry key member state) fun text state' =>
      ∃ m, entry text m ∧ step state m = some state') (hstarts : Starts entry) {fuel : Nat}
    {members : List μ} (hmembers : SpellsItems '\x7d' entry text members)
    (hfold : members.foldlM step state = some state') (hfuel : members.length ≤ fuel) :
    readMembers key member fuel state (skipSpace (text ++ rest)) = .ok (state', rest) := by
  induction hmembers generalizing fuel state with
  | @last text blanks m hfirst hafter =>
    obtain ⟨fuel, rfl⟩ := Nat.exists_eq_succ_of_ne_zero (Nat.pos_iff_ne_zero.mp hfuel)
    obtain ⟨next, hstep, hnext⟩ := Option.bind_eq_some_iff.mp hfold
    obtain rfl := Option.some.inj hnext
    have hend : EndsNumeral (blanks ++ '\x7d' :: rest) :=
      hafter.endsNumeral_cons (by decide)
    simp only [List.append_assoc, List.cons_append, List.nil_append]
    rw [readMembers_entry h hstarts hfirst hstep hend, skipSpace_append hafter (by decide)]
    rfl
  | @cons text blanks texts m members hfirst hafter _ ih =>
    obtain ⟨fuel, rfl⟩ := Nat.exists_eq_succ_of_ne_zero
      (Nat.pos_iff_ne_zero.mp (Nat.lt_of_lt_of_le (Nat.succ_pos _) hfuel))
    obtain ⟨next, hstep, hfold⟩ := Option.bind_eq_some_iff.mp hfold
    have hend : EndsNumeral (blanks ++ ',' :: (texts ++ rest)) :=
      hafter.endsNumeral_cons (by decide)
    simp only [List.append_assoc, List.cons_append]
    rw [readMembers_entry h hstarts hfirst hstep hend, skipSpace_append hafter (by decide)]
    exact ih hfold (Nat.succ_le_succ_iff.mp hfuel)

/-- **An object is read after its opening brace when its members are**, one after the other. -/
theorem reads_readObject
    (h : ∀ state, Reads (readEntry key member state) fun text state' =>
      ∃ m, entry text m ∧ step state m = some state') (hstarts : Starts entry) (start : σ) :
    Reads (readObject key member start) fun text state =>
      ∃ members, SpellsRest '\x7d' entry text members ∧
        members.foldlM step start = some state where
  sound {cs rest state} hread := by
    unfold readObject at hread
    dsimp only at hread
    obtain ⟨blanks, hblanks, hcs⟩ := exists_blanks cs
    split at hread
    · next hmark =>
      cases hread
      rw [hmark] at hcs
      exact ⟨blanks ++ ['\x7d'], ⟨[], .empty hblanks, rfl⟩, by simpa using hcs⟩
    · obtain ⟨text, members, htext, hfold, hskip⟩ := readMembers_sound h hread
      rw [hskip, ← List.append_assoc] at hcs
      exact ⟨blanks ++ text, ⟨members, .items (htext.blanks_append hblanks), hfold⟩, hcs⟩
  complete {text rest state} hspells _ := by
    obtain ⟨members, hspells, hfold⟩ := hspells
    unfold readObject
    dsimp only
    cases hspells with
    | empty hblanks =>
      have hskip : skipSpace (_ ++ '\x7d' :: rest) = _ := skipSpace_append hblanks (by decide)
      rw [List.append_assoc, List.singleton_append, hskip, Option.some.inj hfold]
      rfl
    | items hitems =>
      obtain ⟨blanks, c, cs, hblanks, rfl, hitems', hc, -, hne⟩ := hitems.exists_start hstarts
      have hskip : skipSpace (blanks ++ c :: cs ++ rest) = c :: (cs ++ rest) := by
        rw [List.append_assoc, List.cons_append, skipSpace_append hblanks hc]
      rw [hskip]
      split
      · next heq => exact absurd (List.cons.inj heq).1 hne
      · rw [← hskip]
        refine readMembers_complete h hstarts hitems hfold (Nat.le_trans hitems'.length_le ?_)
        rw [hskip]
        simp only [List.length_cons, List.length_append]
        omega

/-- A member is read when its key is and its value is by the key. -/
theorem reads_readEntry {name : Spelling κ} {value : κ → Spelling α} (step : σ → κ × α → Option σ)
    (hkey : Reads key name)
    (hmember : ∀ k, Reads (member state k) fun text state' =>
      ∃ a, AfterColon (value k) text a ∧ step state (k, a) = some state') :
    Reads (readEntry key member state) fun text state' =>
      ∃ m, SpellsMember name value text m ∧ step state m = some state' where
  sound {cs rest state'} hread := by
    obtain ⟨⟨k, cs'⟩, hname, hvalue⟩ := Outcome.bind_eq_ok_iff.mp hread
    obtain ⟨text, htext, rfl⟩ := hkey.sound hname
    obtain ⟨after, ⟨a, hafter, hstep⟩, rfl⟩ := (hmember k).sound hvalue
    exact ⟨text ++ after, ⟨(k, a), ⟨text, after, htext, hafter, rfl⟩, hstep⟩, by
      rw [List.append_assoc]⟩
  complete {text rest state'} hspells hrest := by
    obtain ⟨⟨k, a⟩, ⟨text, after, htext, hafter, rfl⟩, hstep⟩ := hspells
    refine Outcome.bind_eq_ok_iff.mpr ⟨(k, after ++ rest), ?_, ?_⟩
    · rw [List.append_assoc]
      exact hkey.complete htext hafter.endsNumeral
    · exact (hmember k).complete ⟨a, hafter, hstep⟩ hrest

/-- A member starts with its key. -/
theorem starts_spellsMember {name : Spelling κ} {value : κ → Spelling α} (h : Starts name) :
    Starts (SpellsMember name value) := by
  rintro _ m ⟨text, after, htext, -, rfl⟩
  obtain ⟨c, cs, rfl, hc⟩ := h text m.1 htext
  exact ⟨c, cs ++ after, rfl, hc⟩

end Objects

end PlaylistRules.Json
