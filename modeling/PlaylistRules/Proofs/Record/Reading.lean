import PlaylistRules.Proofs.Json.Values
import PlaylistRules.Proofs.Record.Grammar

/-!
# Reading rule records

The text of a stored tree is read exactly when it has the format of rule records, and to the tree
that it spells.

## Main results

* `Record.reads_readRule`, `Record.reads_readGroup`, `Record.reads_readTree` : the parts of a tree.
-/

namespace PlaylistRules.Record

open Json

variable {α β : Type} {cs rest text : List Char}

/-! ### Fields and lists -/

theorem reads_readField : Reads readField (Spaced SpellsString) := by
  refine reads_spaced_of starts_spellsString ?_ ?_
  · intro cs rest value hread
    unfold readField at hread
    dsimp only at hread
    split at hread
    · cases hread
    · next hskip =>
      rw [hskip]
      exact reads_readString.sound hread
    · cases hread
  · intro cs body rest value hbody hskip hrest
    have hread := reads_readString.complete hbody hrest
    obtain ⟨inner, hstart⟩ := exists_cons_of_spellsString hbody
    unfold readField
    dsimp only
    rw [hskip, hstart]
    rwa [hstart] at hread

theorem starts_spellsList {item : Spelling α} : Starts (SpellsList item) := by
  rintro _ as ⟨rest, -, rfl⟩
  exact ⟨'[', rest, rfl, by decide⟩

theorem reads_readList {item : Reader α} {spelling : Spelling α} (h : Reads item (Spaced spelling))
    (hstarts : Starts spelling) : Reads (readList item) (Spaced (SpellsList spelling)) := by
  refine reads_spaced_of starts_spellsList ?_ ?_
  · intro cs rest as hread
    unfold readList at hread
    dsimp only at hread
    split at hread
    · cases hread
    · next hskip =>
      obtain ⟨text, htext, rfl⟩ := (reads_readArray h hstarts).sound hread
      exact ⟨_, ⟨text, htext, rfl⟩, hskip⟩
    · cases hread
  · rintro cs _ rest as ⟨text, htext, rfl⟩ hskip hrest
    unfold readList
    dsimp only
    rw [hskip]
    exact (reads_readArray h hstarts).complete htext hrest

/-! ### Records in positions -/

theorem readClose_eq_ok_iff :
    readClose cs = .ok rest ↔ ∃ blanks, IsBlank blanks ∧ cs = blanks ++ ']' :: rest := by
  rw [← skipSpace_eq_cons_iff (by decide)]
  unfold readClose
  split
  · next h => rw [h, Except.ok.injEq, List.cons.injEq, and_iff_right rfl]
  · next hne => exact ⟨nofun, fun h => absurd h (hne rest)⟩

section Positions

variable {item : Reader α} {spelling : Spelling α} {a : α} {o : Option α} {first : Bool}
  {blanks : List Char}

/-- The first item of a record, or none before the closing bracket. -/
theorem readNext_first_sound (h : Reads item (Spaced spelling))
    (hread : readNext true item cs = .ok (o, rest)) :
    (∃ blanks tail, o = none ∧ IsBlank blanks ∧ rest = ']' :: tail ∧ cs = blanks ++ ']' :: tail) ∨
      ∃ a text, o = some a ∧ Spaced spelling text a ∧ cs = text ++ rest := by
  obtain ⟨blanks, hblanks, hcs⟩ := exists_blanks cs
  unfold readNext at hread
  dsimp only at hread
  split at hread
  · cases hread
  · next tail hskip =>
    cases hread
    exact .inl ⟨blanks, tail, rfl, hblanks, rfl, hskip ▸ hcs⟩
  · next c tail hskip =>
    rw [if_pos rfl, ← hskip] at hread
    obtain ⟨⟨a, rest'⟩, hitem, hresult⟩ := Outcome.map_eq_ok_iff.mp hread
    cases hresult
    obtain ⟨text, ⟨blanks', body, hblanks', hbody, rfl⟩, htext⟩ := h.sound hitem
    rw [htext, ← List.append_assoc, ← List.append_assoc] at hcs
    exact .inr ⟨a, _, rfl, ⟨blanks ++ blanks', body, hblanks.append hblanks', hbody, rfl⟩, hcs⟩

/-- A further item of a record after its comma, or none before the closing bracket. -/
theorem readNext_second_sound (h : Reads item (Spaced spelling))
    (hread : readNext false item cs = .ok (o, rest)) :
    (∃ blanks tail, o = none ∧ IsBlank blanks ∧ rest = ']' :: tail ∧ cs = blanks ++ ']' :: tail) ∨
      ∃ blanks a text, o = some a ∧ IsBlank blanks ∧ Spaced spelling text a ∧
        cs = blanks ++ ',' :: (text ++ rest) := by
  obtain ⟨blanks, hblanks, hcs⟩ := exists_blanks cs
  unfold readNext at hread
  dsimp only at hread
  split at hread
  · cases hread
  · next tail hskip =>
    cases hread
    exact .inl ⟨blanks, tail, rfl, hblanks, rfl, hskip ▸ hcs⟩
  · next c tail hskip =>
    rw [if_neg Bool.false_ne_true] at hread
    split at hread
    · next hcomma =>
      obtain ⟨⟨a, rest'⟩, hitem, hresult⟩ := Outcome.map_eq_ok_iff.mp hread
      cases hresult
      obtain ⟨text, htext, rfl⟩ := h.sound hitem
      rw [hskip, hcomma] at hcs
      exact .inr ⟨blanks, a, text, rfl, hblanks, htext, hcs⟩
    · cases hread

theorem readNext_none (hblanks : IsBlank blanks) :
    readNext first item (blanks ++ ']' :: rest) = .ok (none, ']' :: rest) := by
  have hskip : skipSpace (blanks ++ ']' :: rest) = ']' :: rest :=
    skipSpace_append hblanks (by decide)
  unfold readNext
  dsimp only
  rw [hskip]
  rfl

/-- The first item of a record. -/
theorem readNext_first (h : Reads item (Spaced spelling)) (hstarts : Starts spelling)
    (hspells : Spaced spelling text a) (hrest : EndsNumeral rest) :
    readNext true item (text ++ rest) = .ok (some a, rest) := by
  obtain ⟨blanks, body, hblanks, hbody, rfl⟩ := hspells
  obtain ⟨c, cs, hstart, hc, hclose, -⟩ := hstarts body a hbody
  have hskip : skipSpace (blanks ++ body ++ rest) = c :: (cs ++ rest) := by
    rw [hstart, List.append_assoc, List.cons_append, skipSpace_append hblanks hc]
  have hread := h.complete ⟨[], body, isBlank_nil, hbody, rfl⟩ hrest
  rw [List.nil_append, hstart, List.cons_append] at hread
  unfold readNext
  dsimp only
  rw [hskip]
  split
  · next heq => cases heq
  · next heq => exact absurd (List.cons.inj heq).1 hclose
  · next heq =>
    cases heq
    rw [if_pos rfl, hread]
    rfl

/-- A further item of a record. -/
theorem readNext_second (h : Reads item (Spaced spelling)) (hblanks : IsBlank blanks)
    (hspells : Spaced spelling text a) (hrest : EndsNumeral rest) :
    readNext false item (blanks ++ ',' :: (text ++ rest)) = .ok (some a, rest) := by
  have hskip : skipSpace (blanks ++ ',' :: (text ++ rest)) = ',' :: (text ++ rest) :=
    skipSpace_append hblanks (by decide)
  unfold readNext
  dsimp only
  rw [hskip]
  show (item (text ++ rest)).map _ = _
  rw [h.complete hspells hrest]
  rfl

end Positions

/-! ### Members that may stand once -/

/-- A value that is given, unless one was given before. -/
def takeOnce : Option α → Option α → Option (Option α)
  | taken, none => some taken
  | none, some a => some (some a)
  | some _, some _ => none

private theorem toList_inj {o o' : Option α} : o.toList = o'.toList ↔ o = o' := by
  cases o <;> cases o' <;> simp

theorem takeOnce_append_iff {taken given o : Option α} {as : List α} :
    (∃ next, takeOnce taken given = some next ∧ next.toList ++ as = o.toList) ↔
      taken.toList ++ (given.toList ++ as) = o.toList := by
  cases taken with
  | none => cases given <;> simp [takeOnce]
  | some a =>
    cases given with
    | none => simp [takeOnce]
    | some b =>
      constructor
      · rintro ⟨_, h, -⟩
        cases h
      · intro h
        cases o <;> cases h

theorem filterMap_cons_eq_append (f : α → Option β) (a : α) (as : List α) :
    (a :: as).filterMap f = (f a).toList ++ as.filterMap f := by
  rw [List.filterMap_cons]
  cases f a <;> rfl

theorem isOnlyOr_iff {default a : α} {values : List α} :
    IsOnlyOr default values a ↔ ∃ o : Option α, values = o.toList ∧ a = o.getD default := by
  constructor
  · rintro (rfl | ⟨rfl, rfl⟩)
    · exact ⟨some a, rfl, rfl⟩
    · exact ⟨none, rfl, rfl⟩
  · rintro ⟨o, rfl, rfl⟩
    cases o with
    | none => exact .inr ⟨rfl, rfl⟩
    | some a => exact .inl rfl

theorem afterColon_mapped {f : α → β} {value : Spelling α} {b : β} :
    AfterColon (Mapped f value) text b ↔ Mapped f (AfterColon value) text b := by
  constructor
  · rintro ⟨blanks, _, hblanks, ⟨blanks', body, hblanks', ⟨a, hbody, rfl⟩, rfl⟩, rfl⟩
    exact ⟨a, ⟨blanks, _, hblanks, ⟨blanks', body, hblanks', hbody, rfl⟩, rfl⟩, rfl⟩
  · rintro ⟨a, ⟨blanks, _, hblanks, ⟨blanks', body, hblanks', hbody, rfl⟩, rfl⟩, rfl⟩
    exact ⟨blanks, _, hblanks, ⟨blanks', body, hblanks', ⟨a, hbody, rfl⟩, rfl⟩, rfl⟩

/-- A member that may stand once is read after its colon, unless it was read before. -/
theorem reads_once {σ μ : Type} {reader : Reader α} {value : Spelling α}
    (h : Reads reader (Spaced value)) (taken : Bool) (fault : Fault) (f : α → σ) (g : α → μ)
    (step : μ → Option σ) (hstep : ∀ a, step (g a) = if taken then none else some (f a)) :
    Reads (fun cs => if taken then .error fault else do
        let (a, cs) ← reader (← readColon cs)
        .ok (f a, cs))
      fun text state => ∃ m, AfterColon (Mapped g value) text m ∧ step m = some state := by
  have hcongr : ∀ text state, (∃ m, AfterColon (Mapped g value) text m ∧ step m = some state) ↔
      ∃ a, AfterColon value text a ∧ (if taken then none else some (f a)) = some state := by
    intro text state
    simp only [afterColon_mapped, Mapped, ← hstep]
    constructor
    · rintro ⟨_, ⟨a, ha, rfl⟩, hs⟩
      exact ⟨a, ha, hs⟩
    · rintro ⟨a, ha, hs⟩
      exact ⟨g a, ⟨a, ha, rfl⟩, hs⟩
  cases taken with
  | true =>
    refine (reads_error fault).congr fun text state => ?_
    rw [hcongr]
    constructor
    · exact False.elim
    · rintro ⟨_, _, h⟩
      cases h
  | false =>
    refine (reads_afterColon_map h f).congr fun text state => ?_
    rw [hcongr]
    simp only [Mapped, Bool.false_eq_true, if_false, Option.some.injEq]

/-! ### Rules -/

theorem starts_spellsRule : Starts SpellsRule := by
  intro text rule h
  cases h with
  | object | items => exact ⟨_, _, rfl, by decide⟩

/-- A member of a rule is taken, unless one of its kind was taken before. -/
def takeMember (members : RuleMembers) (member : String × RuleMember) : Option RuleMembers := do
  let model ← takeOnce members.model member.2.model?
  let operator ← takeOnce members.operator member.2.operator?
  let value ← takeOnce members.value member.2.value?
  some ⟨model, operator, value⟩

section TakeMember

variable {state : RuleMembers} {key name : String} {json : Json}

theorem takeMember_model : takeMember state (key, .model name) =
    if state.model.isSome then none else some { state with model := some name } := by
  rcases state with ⟨_ | _, _ | _, _ | _⟩ <;> rfl

theorem takeMember_operator : takeMember state (key, .operator name) =
    if state.operator.isSome then none else some { state with operator := some name } := by
  rcases state with ⟨_ | _, _ | _, _ | _⟩ <;> rfl

theorem takeMember_value : takeMember state (key, .value json) =
    if state.value.isSome then none else some { state with value := some json } := by
  rcases state with ⟨_ | _, _ | _, _ | _⟩ <;> rfl

theorem takeMember_other : takeMember state (key, .other) = some state := by
  rcases state with ⟨_ | _, _ | _, _ | _⟩ <;> rfl

end TakeMember

/-- The known members of a rule are a model, an operator and a value. -/
theorem spellsRuleMember_known :
    SpellsRuleMember "model" = Mapped .model SpellsString ∧
      SpellsRuleMember "operator" = Mapped .operator SpellsString ∧
      SpellsRuleMember "value" = Mapped .value (SpellsValue valueDepth) :=
  ⟨if_pos rfl, (if_neg (by decide)).trans (if_pos rfl),
    (if_neg (by decide)).trans ((if_neg (by decide)).trans (if_pos rfl))⟩

/-- A member of a rule is read by its key. -/
theorem reads_readRuleMember (state : RuleMembers) (key : String) :
    Reads (readRuleMember state key) fun text state' =>
      ∃ m, AfterColon (SpellsRuleMember key) text m ∧ takeMember state (key, m) = some state' := by
  unfold readRuleMember SpellsRuleMember
  by_cases hmodel : key = "model"
  · simp only [if_pos hmodel]
    exact reads_once reads_readField state.model.isSome (.duplicate key)
      (fun name => { state with model := some name }) .model
      (fun m => takeMember state (key, m)) fun _ => takeMember_model
  simp only [if_neg hmodel]
  by_cases hoperator : key = "operator"
  · simp only [if_pos hoperator]
    exact reads_once reads_readField state.operator.isSome (.duplicate key)
      (fun name => { state with operator := some name }) .operator
      (fun m => takeMember state (key, m)) fun _ => takeMember_operator
  simp only [if_neg hoperator]
  by_cases hvalue : key = "value"
  · simp only [if_pos hvalue]
    exact reads_once (reads_readValue valueDepth) state.value.isSome (.duplicate key)
      (fun json => { state with value := some json }) .value
      (fun m => takeMember state (key, m)) fun _ => takeMember_value
  simp only [if_neg hvalue]
  exact reads_once reads_skipValue false .malformed (fun _ => state) (fun _ => .other)
    (fun m => takeMember state (key, m)) fun _ => takeMember_other

/-- Members are taken when none of a kind is repeated. -/
theorem foldlM_takeMember_iff {members : List (String × RuleMember)} {state state' : RuleMembers} :
    members.foldlM takeMember state = some state' ↔
      state.model.toList ++ (members.map Prod.snd).filterMap RuleMember.model? =
        state'.model.toList ∧
      state.operator.toList ++ (members.map Prod.snd).filterMap RuleMember.operator? =
        state'.operator.toList ∧
      state.value.toList ++ (members.map Prod.snd).filterMap RuleMember.value? =
        state'.value.toList := by
  induction members generalizing state with
  | nil =>
    obtain ⟨model, operator, value⟩ := state
    obtain ⟨model', operator', value'⟩ := state'
    simp only [List.foldlM_nil, List.map_nil, List.filterMap_nil, List.append_nil, toList_inj,
      Option.pure_def, Option.some.injEq, RuleMembers.mk.injEq]
  | cons m members ih =>
    simp only [List.foldlM_cons, List.map_cons, filterMap_cons_eq_append, ← takeOnce_append_iff]
    constructor
    · intro h
      obtain ⟨next, hnext, hfold⟩ := Option.bind_eq_some_iff.mp h
      obtain ⟨model, hmodel, h⟩ := Option.bind_eq_some_iff.mp hnext
      obtain ⟨operator, hoperator, h⟩ := Option.bind_eq_some_iff.mp h
      obtain ⟨value, hvalue, h⟩ := Option.bind_eq_some_iff.mp h
      obtain rfl := Option.some.inj h
      obtain ⟨hmodel', hoperator', hvalue'⟩ := ih.mp hfold
      exact ⟨⟨model, hmodel, hmodel'⟩, ⟨operator, hoperator, hoperator'⟩, value, hvalue, hvalue'⟩
    · rintro ⟨⟨model, hmodel, hmodel'⟩, ⟨operator, hoperator, hoperator'⟩, value, hvalue, hvalue'⟩
      refine Option.bind_eq_some_iff.mpr ⟨⟨model, operator, value⟩, ?_,
        ih.mpr ⟨hmodel', hoperator', hvalue'⟩⟩
      rw [takeMember, hmodel, hoperator, hvalue]
      rfl

theorem rule_eq_ok_iff {members : RuleMembers} {rule : RuleRecord} :
    members.rule = .ok rule ↔
      members.model = some rule.model ∧ members.operator = some rule.operator ∧
        rule.value = members.value.getD .null := by
  obtain ⟨model, operator, value⟩ := members
  obtain ⟨model', operator', value'⟩ := rule
  cases model with
  | none => exact ⟨nofun, nofun⟩
  | some model =>
    cases operator with
    | none => exact ⟨nofun, nofun⟩
    | some operator =>
      simp only [RuleMembers.rule, Except.ok.injEq, RuleRecord.mk.injEq, Option.some.injEq]
      exact and_congr_right fun _ => and_congr_right fun _ => eq_comm

/-- The members that have been read are those of a rule when they make it. -/
theorem isRule_iff {members : List (String × RuleMember)} {rule : RuleRecord} :
    (∃ state, members.foldlM takeMember {} = some state ∧ state.rule = .ok rule) ↔
      IsRule (members.map Prod.snd) rule := by
  simp only [foldlM_takeMember_iff, rule_eq_ok_iff, Option.toList_none, List.nil_append]
  constructor
  · rintro ⟨state, ⟨hmodel, hoperator, hvalue⟩, hmodel', hoperator', hvalue'⟩
    rw [hmodel'] at hmodel
    rw [hoperator'] at hoperator
    exact ⟨hmodel, hoperator, isOnlyOr_iff.mpr ⟨state.value, hvalue, hvalue'⟩⟩
  · rintro ⟨hmodel, hoperator, hvalue⟩
    obtain ⟨value, hvalue, hvalue'⟩ := isOnlyOr_iff.mp hvalue
    exact ⟨⟨some rule.model, some rule.operator, value⟩, ⟨hmodel, hoperator, hvalue⟩, rfl, rfl,
      hvalue'⟩

/-- A rule in an object, after the opening brace. -/
theorem reads_readRuleObject : Reads
    (fun cs => do
      let (members, rest) ← readObject readString readRuleMember {} cs
      .ok (← members.rule, rest))
    fun text rule => ∃ members,
      SpellsRest '\x7d' (SpellsMember SpellsString SpellsRuleMember) text members ∧
        IsRule (members.map Prod.snd) rule := by
  have hentry := fun state =>
    reads_readEntry takeMember reads_readString (reads_readRuleMember state)
  have hobject := reads_readObject hentry (starts_spellsMember starts_spellsString) {}
  refine ⟨fun hread => ?_, fun hspells hrest => ?_⟩
  · obtain ⟨⟨state, rest'⟩, hstate, hread⟩ := Outcome.bind_eq_ok_iff.mp hread
    obtain ⟨rule, hrule, hresult⟩ := Outcome.bind_eq_ok_iff.mp hread
    cases hresult
    obtain ⟨text, ⟨members, htext, hfold⟩, hcs⟩ := hobject.sound hstate
    exact ⟨text, ⟨members, htext, isRule_iff.mp ⟨state, hfold, hrule⟩⟩, hcs⟩
  · obtain ⟨members, htext, hmembers⟩ := hspells
    obtain ⟨state, hfold, hrule⟩ := isRule_iff.mpr hmembers
    exact Outcome.bind_eq_ok_iff.mpr ⟨(state, _), hobject.complete ⟨members, htext, hfold⟩ hrest,
      Outcome.bind_eq_ok_iff.mpr ⟨_, hrule, rfl⟩⟩

/-- A rule in an array, after the opening bracket. -/
theorem reads_readRuleItems : Reads readRuleItems SpellsRuleItems where
  sound {cs rest rule} hread := by
    obtain ⟨⟨model?, cs₁⟩, hmodel, hread₁⟩ := Outcome.bind_eq_ok_iff.mp hread
    obtain ⟨-, -, rfl, -⟩ | ⟨model, modelText, rfl, hmodelText, rfl⟩ :=
      readNext_first_sound reads_readField hmodel
    · cases hread₁
    obtain ⟨⟨operator?, cs₂⟩, hoperator, hread₂⟩ := Outcome.bind_eq_ok_iff.mp hread₁
    obtain ⟨-, -, rfl, -⟩ | ⟨after, operator, operatorText, rfl, hafter, hoperatorText, rfl⟩ :=
      readNext_second_sound reads_readField hoperator
    · cases hread₂
    obtain ⟨⟨value?, cs₃⟩, hvalue, hread₃⟩ := Outcome.bind_eq_ok_iff.mp hread₂
    obtain ⟨rest', hclose, hresult⟩ := Outcome.bind_eq_ok_iff.mp hread₃
    cases hresult
    obtain ⟨after', tail, rfl, hafter', rfl, rfl⟩ |
      ⟨after', value, valueText, rfl, hafter', hvalueText, rfl⟩ :=
      readNext_second_sound (reads_readValue valueDepth) hvalue
    · obtain rfl : tail = rest := Except.ok.inj hclose
      exact ⟨_, .pair hmodelText hafter hoperatorText hafter', by simp⟩
    · obtain ⟨after'', hafter'', rfl⟩ := readClose_eq_ok_iff.mp hclose
      exact ⟨_, .triple hmodelText hafter hoperatorText hafter' hvalueText hafter'', by simp⟩
  complete {text rest rule} hspells hrest := by
    have hcomma : ∀ {after cs : List Char}, IsBlank after → EndsNumeral (after ++ ',' :: cs) :=
      fun h => h.endsNumeral_cons (by decide)
    have hend : ∀ {after cs : List Char}, IsBlank after → EndsNumeral (after ++ ']' :: cs) :=
      fun h => h.endsNumeral_cons (by decide)
    cases hspells with
    | pair hmodel hafter hoperator hafter' =>
      simp only [List.append_assoc, List.cons_append, List.nil_append]
      refine Outcome.bind_eq_ok_iff.mpr ⟨_, readNext_first reads_readField starts_spellsString
        hmodel (hcomma hafter), ?_⟩
      refine Outcome.bind_eq_ok_iff.mpr ⟨_, readNext_second reads_readField hafter hoperator
        (hend hafter'), ?_⟩
      exact Outcome.bind_eq_ok_iff.mpr ⟨_, readNext_none hafter', rfl⟩
    | triple hmodel hafter hoperator hafter' hvalue hafter'' =>
      simp only [List.append_assoc, List.cons_append, List.nil_append]
      refine Outcome.bind_eq_ok_iff.mpr ⟨_, readNext_first reads_readField starts_spellsString
        hmodel (hcomma hafter), ?_⟩
      refine Outcome.bind_eq_ok_iff.mpr ⟨_, readNext_second reads_readField hafter hoperator
        (hcomma hafter'), ?_⟩
      refine Outcome.bind_eq_ok_iff.mpr ⟨_, readNext_second (reads_readValue valueDepth) hafter'
        hvalue (hend hafter''), ?_⟩
      exact Outcome.bind_eq_ok_iff.mpr ⟨rest, readClose_eq_ok_iff.mpr ⟨_, hafter'', rfl⟩, rfl⟩

/-- **A rule is read exactly when it is spelled.** -/
theorem reads_readRule : Reads readRule (Spaced SpellsRule) := by
  refine reads_spaced_of starts_spellsRule ?_ ?_
  · intro cs rest rule hread
    unfold readRule at hread
    dsimp only at hread
    split at hread
    · cases hread
    · next hskip =>
      obtain ⟨text, htext, rfl⟩ := reads_readRuleItems.sound hread
      exact ⟨_, .items htext, hskip⟩
    · next hskip =>
      obtain ⟨text, ⟨members, htext, hmembers⟩, rfl⟩ := reads_readRuleObject.sound hread
      exact ⟨_, .object htext hmembers, hskip⟩
    · cases hread
  · intro cs body rest rule hbody hskip hrest
    unfold readRule
    dsimp only
    rw [hskip]
    cases hbody with
    | object htext hmembers => exact reads_readRuleObject.complete ⟨_, htext, hmembers⟩ hrest
    | items htext => exact reads_readRuleItems.complete htext hrest

/-! ### Groups -/

theorem starts_spellsGroup : Starts SpellsGroup := by
  intro text group h
  cases h with
  | object | empty | single => exact ⟨_, _, rfl, by decide⟩

/-- The rules of a group are taken, unless they were taken before. -/
def takeRules (rules : Option (List RuleRecord)) (member : String × Option (List RuleRecord)) :
    Option (Option (List RuleRecord)) :=
  takeOnce rules member.2

/-- A member of a group is read by its key. -/
theorem reads_readGroupMember (state : Option (List RuleRecord)) (key : String) :
    Reads (readGroupMember state key) fun text state' =>
      ∃ m, AfterColon (SpellsGroupMember key) text m ∧ takeRules state (key, m) = some state' := by
  unfold readGroupMember SpellsGroupMember
  by_cases hrules : key = "rules"
  · simp only [if_pos hrules]
    exact reads_once (reads_readList reads_readRule starts_spellsRule) state.isSome (.duplicate key)
      some some (fun m => takeRules state (key, m)) fun _ => by cases state <;> rfl
  simp only [if_neg hrules]
  exact reads_once reads_skipValue false .malformed (fun _ => state) (fun _ => none)
    (fun m => takeRules state (key, m)) fun _ => by cases state <;> rfl

theorem foldlM_takeRules_iff {members : List (String × Option (List RuleRecord))}
    {state state' : Option (List RuleRecord)} :
    members.foldlM takeRules state = some state' ↔
      state.toList ++ members.filterMap Prod.snd = state'.toList := by
  induction members generalizing state with
  | nil => simp only [List.foldlM_nil, List.filterMap_nil, List.append_nil, toList_inj,
      Option.pure_def, Option.some.injEq]
  | cons m members ih =>
    simp only [List.foldlM_cons, filterMap_cons_eq_append, ← takeOnce_append_iff, ← ih]
    exact Option.bind_eq_some_iff

/-- A group in an object, after the opening brace. -/
theorem reads_readGroupObject : Reads
    (fun cs => do
      let (rules, rest) ← readObject readString readGroupMember none cs
      .ok (GroupRecord.mk (rules.getD []), rest))
    fun text group => ∃ members,
      SpellsRest '\x7d' (SpellsMember SpellsString SpellsGroupMember) text members ∧
        IsOnlyOr [] (members.filterMap Prod.snd) group.rules := by
  have hentry := fun state =>
    reads_readEntry takeRules reads_readString (reads_readGroupMember state)
  have hobject := reads_readObject hentry (starts_spellsMember starts_spellsString) none
  refine (hobject.map fun rules => GroupRecord.mk (rules.getD [])).congr fun text group => ?_
  simp only [Mapped, foldlM_takeRules_iff, isOnlyOr_iff, Option.toList_none, List.nil_append]
  constructor
  · rintro ⟨rules, ⟨members, htext, hrules⟩, rfl⟩
    exact ⟨members, htext, rules, hrules, rfl⟩
  · rintro ⟨members, htext, rules, hrules, hgroup⟩
    exact ⟨rules, ⟨members, htext, hrules⟩, congrArg GroupRecord.mk hgroup.symm⟩

/-- **A group is read exactly when it is spelled.** -/
theorem reads_readGroup : Reads readGroup (Spaced SpellsGroup) := by
  have hlist := reads_readList reads_readRule starts_spellsRule
  refine reads_spaced_of starts_spellsGroup ?_ ?_
  · intro cs rest group hread
    unfold readGroup at hread
    dsimp only at hread
    split at hread
    · cases hread
    · next hskip =>
      obtain ⟨⟨rules?, cs₁⟩, hrules, hread₁⟩ := Outcome.bind_eq_ok_iff.mp hread
      obtain ⟨rest', hclose, hresult⟩ := Outcome.bind_eq_ok_iff.mp hread₁
      cases hresult
      obtain ⟨after, tail, rfl, hafter, rfl, rfl⟩ | ⟨rules, rulesText, rfl, hrulesText, rfl⟩ :=
        readNext_first_sound hlist hrules
      · obtain rfl : tail = rest := Except.ok.inj hclose
        exact ⟨_, .empty hafter, by rw [hskip]; simp⟩
      · obtain ⟨after, hafter, rfl⟩ := readClose_eq_ok_iff.mp hclose
        exact ⟨_, .single hrulesText hafter, by rw [hskip]; simp⟩
    · next hskip =>
      obtain ⟨text, ⟨members, htext, hmembers⟩, rfl⟩ := reads_readGroupObject.sound hread
      exact ⟨_, .object htext hmembers, hskip⟩
    · cases hread
  · intro cs body rest group hbody hskip hrest
    unfold readGroup
    dsimp only
    rw [hskip]
    cases hbody with
    | object htext hmembers => exact reads_readGroupObject.complete ⟨_, htext, hmembers⟩ hrest
    | empty hafter =>
      simp only [List.append_assoc, List.cons_append, List.nil_append]
      exact Outcome.bind_eq_ok_iff.mpr ⟨_, readNext_none hafter, rfl⟩
    | single hrules hafter =>
      simp only [List.append_assoc, List.cons_append, List.nil_append]
      refine Outcome.bind_eq_ok_iff.mpr ⟨_, readNext_first hlist starts_spellsList hrules
        (hafter.endsNumeral_cons (by decide)), ?_⟩
      exact Outcome.bind_eq_ok_iff.mpr ⟨rest, readClose_eq_ok_iff.mpr ⟨_, hafter, rfl⟩, rfl⟩

/-! ### Trees -/

theorem reads_readTree :
    Reads readTree (Mapped TreeRecord.mk (Spaced (SpellsList SpellsGroup))) :=
  (reads_readList reads_readGroup starts_spellsGroup).map TreeRecord.mk

end PlaylistRules.Record
