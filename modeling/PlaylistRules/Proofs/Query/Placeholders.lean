import PlaylistRules.Proofs.Query.Compiled

/-!
# Placeholders and bound values

The question marks of a predicate that stand outside of quoted names are its placeholders. A text
holds a number of placeholders when it has so many of them and leaves what follows outside of a
name; the number is added when texts are put after each other. The condition of a rule holds a
placeholder for each value that the rule binds, so that in the text of a tree each placeholder lies
in the condition of the rule that binds its value.

## Main definitions

* `Query.placeholders` : the places of the placeholders of a text.
* `Query.Holds` : a text that holds a number of placeholders.
* `RuleTree.textBefore`, `RuleTree.valuesBefore` : what stands before a rule in the text and in the
  bound values of a tree.

## Main results

* `Query.holds_condition`, `Query.holds_predicate` : conditions and predicates hold as many
  placeholders as they have bound values.
* `RuleTree.placeholders_aligned` : each placeholder lies in the condition of the rule that binds
  its value.
-/

namespace PlaylistRules

/-! ### Reading a text for placeholders -/

namespace Query

/-- The places of the question marks outside of quoted names, for a text that starts at a place,
outside of a name or inside of one. Two quotation marks in a row belong to a name. -/
def placeholdersFrom : Nat → Bool → List Char → List Nat
  | _, _, [] => []
  | place, false, c :: cs =>
    if c = '"' then placeholdersFrom (place + 1) true cs
    else if c = '?' then place :: placeholdersFrom (place + 1) false cs
    else placeholdersFrom (place + 1) false cs
  | _, true, [_] => []
  | place, true, c :: d :: cs =>
    if c = '"' then
      if d = '"' then placeholdersFrom (place + 2) true cs
      else placeholdersFrom (place + 1) false (d :: cs)
    else placeholdersFrom (place + 1) true (d :: cs)

/-- The places of the placeholders of a text. -/
def placeholders (text : String) : List Nat :=
  placeholdersFrom 0 false text.toList

/-- A quotation mark inside of a name ends it, since one that follows begins it again. -/
theorem placeholdersFrom_true_mark (place : Nat) (cs : List Char) :
    placeholdersFrom place true ('"' :: cs) = placeholdersFrom (place + 1) false cs := by
  cases cs with
  | nil => simp [placeholdersFrom]
  | cons d cs =>
    by_cases hd : d = '"'
    · simp [placeholdersFrom, hd]
    · simp [placeholdersFrom, hd]

theorem placeholdersFrom_true_of_ne {c : Char} (hc : c ≠ '"') (place : Nat) (cs : List Char) :
    placeholdersFrom place true (c :: cs) = placeholdersFrom (place + 1) true cs := by
  cases cs with
  | nil => simp [placeholdersFrom]
  | cons d cs => simp [placeholdersFrom, hc]

/-- A quoted name is passed over as a whole. -/
theorem placeholdersFrom_quoted (name : List Char) (place : Nat) (cs : List Char) :
    placeholdersFrom place false (Text.quoted '"' name ++ cs) =
      placeholdersFrom (place + (Text.quoted '"' name).length) false cs := by
  have hbody : ∀ (place : Nat) (cs : List Char),
      placeholdersFrom place true (Text.doubled '"' name ++ '"' :: cs) =
        placeholdersFrom (place + (Text.doubled '"' name).length + 1) false cs := by
    induction name with
    | nil => exact fun place cs => placeholdersFrom_true_mark place cs
    | cons c name ih =>
      intro place cs
      by_cases hc : c = '"'
      · rw [Text.doubled, if_pos hc, List.cons_append, List.cons_append,
          placeholdersFrom_true_mark, placeholdersFrom, if_pos rfl, ih, List.length_cons,
          List.length_cons]
        exact congrArg (placeholdersFrom · false cs) (by omega)
      · rw [Text.doubled, if_neg hc, List.cons_append, placeholdersFrom_true_of_ne hc, ih,
          List.length_cons]
        exact congrArg (placeholdersFrom · false cs) (by omega)
  rw [Text.quoted, List.cons_append, List.append_assoc, placeholdersFrom, if_pos rfl,
    List.singleton_append, hbody, List.length_cons, List.length_append, List.length_singleton]
  exact congrArg (placeholdersFrom · false cs) (by omega)

/-! ### Texts that hold placeholders -/

/-- A text holds a number of placeholders: it has so many of them, wherever it stands outside of a
name, and what follows it is read outside of a name again. -/
def Holds (text : List Char) (count : Nat) : Prop :=
  ∀ (place : Nat) (cs : List Char), ∃ marks : List Nat, marks.length = count ∧
    (∀ mark ∈ marks, place ≤ mark ∧ mark < place + text.length) ∧
      placeholdersFrom place false (text ++ cs) =
        marks ++ placeholdersFrom (place + text.length) false cs

variable {text text' : List Char} {count count' : Nat}

theorem holds_nil : Holds [] 0 :=
  fun _ _ => ⟨[], rfl, fun _ h => absurd h List.not_mem_nil, rfl⟩

theorem Holds.append (h : Holds text count) (h' : Holds text' count') :
    Holds (text ++ text') (count + count') := by
  intro place cs
  obtain ⟨marks, hcount, hmarks, hread⟩ := h place (text' ++ cs)
  obtain ⟨marks', hcount', hmarks', hread'⟩ := h' (place + text.length) cs
  refine ⟨marks ++ marks', by rw [List.length_append, hcount, hcount'], ?_, ?_⟩
  · intro mark hmark
    rw [List.length_append]
    rcases List.mem_append.mp hmark with hmark | hmark
    · have := hmarks mark hmark
      omega
    · have := hmarks' mark hmark
      omega
  · rw [List.append_assoc, hread, hread', List.append_assoc, List.length_append, Nat.add_assoc]

/-- A character outside of names is a placeholder when it is a question mark. -/
theorem holds_singleton {c : Char} (hc : c ≠ '"') : Holds [c] (if c = '?' then 1 else 0) := by
  intro place cs
  by_cases hmark : c = '?'
  · refine ⟨[place], by rw [if_pos hmark, List.length_singleton], ?_, ?_⟩
    · intro mark h
      rw [List.mem_singleton.mp h, List.length_singleton]
      omega
    · rw [List.singleton_append, placeholdersFrom, if_neg hc, if_pos hmark, List.singleton_append,
        List.length_singleton]
  · refine ⟨[], by rw [if_neg hmark, List.length_nil], fun _ h => absurd h List.not_mem_nil, ?_⟩
    rw [List.singleton_append, placeholdersFrom, if_neg hc, if_neg hmark, List.nil_append,
      List.length_singleton]

/-- Words without quotation marks hold their question marks. -/
theorem holds_words {words : List Char} (h : '"' ∉ words) : Holds words (words.count '?') := by
  induction words with
  | nil => exact holds_nil
  | cons c words ih =>
    have hc : c ≠ '"' := fun hc => h (hc ▸ List.mem_cons_self)
    have hwords : Holds words (words.count '?') := ih fun hmem => h (List.mem_cons_of_mem _ hmem)
    have hcons := (holds_singleton hc).append hwords
    rw [List.count_cons, Nat.add_comm]
    simpa [beq_iff_eq] using hcons

/-- A quoted name holds no placeholder, whatever it contains. -/
theorem holds_quoteName (name : String) : Holds (Text.quoteName name).toList 0 := by
  intro place cs
  rw [toList_quoteName]
  exact ⟨[], rfl, fun _ h => absurd h List.not_mem_nil, placeholdersFrom_quoted _ place cs⟩

section Parts

variable {α : Type} {f : α → List Char} {n : α → Nat} {xs : List α}

theorem holds_flatMap (h : ∀ x ∈ xs, Holds (f x) (n x)) :
    Holds (xs.flatMap f) (xs.foldr (fun x count => n x + count) 0) := by
  induction xs with
  | nil => exact holds_nil
  | cons x xs ih =>
    rw [List.flatMap_cons, List.foldr_cons]
    exact (h x List.mem_cons_self).append (ih fun y hy => h y (List.mem_cons_of_mem _ hy))

/-- Parts with a text between them, divided at one of the parts. -/
theorem intercalate_append_cons (separator : List Char) (x : α) (ys : List α) :
    separator.intercalate ((xs ++ x :: ys).map f) =
      xs.flatMap (fun y => f y ++ separator) ++ (f x ++ ys.flatMap fun y => separator ++ f y) := by
  induction xs with
  | nil =>
    induction ys generalizing x with
    | nil => simp
    | cons y ys ih =>
      have := ih y
      simp only [List.nil_append, List.flatMap_nil, List.map_cons] at this ⊢
      rw [List.intercalate_cons_cons, this, List.flatMap_cons, List.append_assoc,
        List.append_assoc]
  | cons y xs ih =>
    have hne : (xs ++ x :: ys).map f ≠ [] := by simp
    rw [List.cons_append, List.map_cons, List.intercalate_cons_of_ne_nil hne, ih,
      List.flatMap_cons]
    simp only [List.append_assoc]

theorem holds_intercalate {separator : List Char} (hseparator : Holds separator 0)
    (h : ∀ x ∈ xs, Holds (f x) (n x)) :
    Holds (separator.intercalate (xs.map f)) (xs.foldr (fun x count => n x + count) 0) := by
  cases xs with
  | nil => exact holds_nil
  | cons x xs =>
    have hrest : Holds (xs.flatMap fun y => separator ++ f y)
        (xs.foldr (fun x count => n x + count) 0) := by
      refine holds_flatMap fun y hy => ?_
      rw [← Nat.zero_add (n y)]
      exact hseparator.append (h y (List.mem_cons_of_mem _ hy))
    have hall := (h x List.mem_cons_self).append hrest
    rwa [← List.nil_append (x :: xs), intercalate_append_cons, List.flatMap_nil, List.nil_append,
      List.nil_append, List.foldr_cons]

end Parts

/-! ### Conditions and groups -/

theorem holds_test (test : Test) : Holds test.text.toList test.comparison.arity := by
  have hcomparison : Holds (comparisonWords test.comparison).toList test.comparison.arity := by
    cases test.comparison <;> exact holds_words (by decide)
  rw [test.toList_text, ← Nat.zero_add test.comparison.arity]
  exact (holds_quoteName test.column).append hcomparison

theorem holds_columnRef (ref : ColumnRef) : Holds ref.text.toList 0 := by
  unfold ColumnRef.text
  rw [String.toList_append, String.toList_append]
  exact ((holds_quoteName ref.table).append (holds_words (by decide))).append
    (holds_quoteName ref.column)

/-- A condition holds as many placeholders as it has bound values. -/
theorem holds_condition (condition : Condition) :
    Holds condition.text.toList condition.arity := by
  cases condition with
  | own test => exact holds_test test
  | related table outer inner test =>
    have hwords : ∀ words : List Char, '"' ∉ words → words.count '?' = 0 → Holds words 0 :=
      fun words h hcount => hcount ▸ holds_words h
    have hall := ((((((hwords "exists (select * from ".toList (by decide) (by decide)).append
      (holds_quoteName table)).append (hwords " where ".toList (by decide) (by decide))).append
      (holds_columnRef outer)).append (hwords " = ".toList (by decide) (by decide))).append
      (holds_columnRef inner)).append (hwords " and ".toList (by decide) (by decide))
    have hend := (hall.append (holds_test test)).append (hwords ")".toList (by decide) (by decide))
    unfold Condition.text
    simp only [String.toList_append]
    rw [Nat.zero_add, Nat.add_zero] at hend
    exact hend

/-- A group holds the placeholders of its conditions. -/
theorem holds_group (group : List Condition) :
    Holds (groupText group).toList (groupArity group) := by
  have hand : Holds " and ".toList 0 := holds_words (by decide)
  have hconditions := holds_intercalate hand fun condition (_ : condition ∈ group) =>
    holds_condition condition
  have hopen : Holds ['('] 0 := holds_words (by decide)
  have hclose : Holds [')'] 0 := holds_words (by decide)
  have hall := (hopen.append hconditions).append hclose
  rw [Nat.zero_add, Nat.add_zero] at hall
  rwa [toList_groupText]

/-- A predicate holds as many placeholders as it has bound values. -/
theorem holds_predicate (predicate : Predicate) :
    Holds predicate.text.toList predicate.arity := by
  cases predicate with
  | never => exact holds_words (by decide)
  | anyOf groups =>
    have hor : Holds " or ".toList 0 := holds_words (by decide)
    rw [Predicate.toList_text_anyOf]
    exact holds_intercalate hor fun group _ => holds_group group

/-- A placeholder between those of a text and those of the next one lies in the next one. -/
theorem Holds.exists_getElem? (h : Holds text count) (h' : Holds text' count') {whole : String}
    (hwhole : text ++ text' <+: whole.toList) {k : Nat} (hlower : count ≤ k)
    (hupper : k < count + count') :
    ∃ mark, (placeholders whole)[k]? = some mark ∧ text.length ≤ mark ∧
      mark < text.length + text'.length := by
  obtain ⟨rest, hrest⟩ := hwhole
  obtain ⟨marks, hcount, -, hread⟩ := h 0 (text' ++ rest)
  obtain ⟨marks', hcount', hmarks', hread'⟩ := h' (0 + text.length) rest
  have hplaces : placeholders whole =
      marks ++ (marks' ++ placeholdersFrom (0 + text.length + text'.length) false rest) := by
    rw [placeholders, ← hrest, List.append_assoc, hread, hread']
  have hk : k - count < marks'.length := by omega
  refine ⟨marks'[k - count], ?_, ?_⟩
  · rw [hplaces, List.getElem?_append_right (by omega), List.getElem?_append_left (by omega),
      hcount, List.getElem?_eq_getElem hk]
  · have := hmarks' _ (List.getElem_mem hk)
    omega

end Query

/-! ### Compiled trees -/

namespace RuleTree

open Query (Condition Predicate Holds groupText placeholders placeholdersFrom)

variable {schema : Catalog.Schema} {base : String} {now : Calendar.Instant}
  {compiled : List (List (Condition × List Scalar))} {g r : Nat}
  {conditions : List (Condition × List Scalar)} {c : Condition × List Scalar}

/-- The text of a compiled tree before the condition of rule `r` of group `g`. -/
def textBefore (compiled : List (List (Condition × List Scalar))) (g r : Nat) : List Char :=
  ((compiled.take g).flatMap fun conditions =>
    (groupText (conditions.map Prod.fst)).toList ++ " or ".toList) ++
      '(' :: ((compiled.getD g []).take r).flatMap fun c => c.1.text.toList ++ " and ".toList

/-- The values that a compiled tree binds before those of rule `r` of group `g`. -/
def valuesBefore (compiled : List (List (Condition × List Scalar))) (g r : Nat) : List Scalar :=
  bindings (compiled.take g) ++ ((compiled.getD g []).take r).flatMap Prod.snd

private theorem eq_take_cons_drop {α : Type} {xs : List α} {i : Nat} {x : α}
    (h : xs[i]? = some x) : xs = xs.take i ++ x :: xs.drop (i + 1) := by
  obtain ⟨hi, rfl⟩ := List.getElem?_eq_some_iff.mp h
  rw [← List.drop_eq_getElem_cons hi, List.take_append_drop]

/-- The condition of a rule stands in the text of the tree after what is before it. -/
theorem textBefore_append_isPrefix (hg : compiled[g]? = some conditions)
    (hr : conditions[r]? = some c) :
    textBefore compiled g r ++ c.1.text.toList <+: (predicate compiled).text.toList := by
  have hne : compiled.isEmpty = false := by
    cases compiled with
    | nil => simp at hg
    | cons => rfl
  have hgroup : (groupText (conditions.map Prod.fst)).toList =
      '(' :: ((conditions.take r).flatMap (fun c => c.1.text.toList ++ " and ".toList) ++
        (c.1.text.toList ++ (conditions.drop (r + 1)).flatMap
          fun c => " and ".toList ++ c.1.text.toList) ++ [')']) := by
    rw [Query.toList_groupText, List.map_map, ← Query.intercalate_append_cons,
      ← eq_take_cons_drop hr]
    rfl
  have htext : (predicate compiled).text.toList =
      (compiled.take g).flatMap (fun conditions =>
        (groupText (conditions.map Prod.fst)).toList ++ " or ".toList) ++
      ((groupText (conditions.map Prod.fst)).toList ++ (compiled.drop (g + 1)).flatMap
        fun conditions => " or ".toList ++ (groupText (conditions.map Prod.fst)).toList) := by
    rw [← Query.intercalate_append_cons, ← eq_take_cons_drop hg, predicate, hne,
      if_neg Bool.false_ne_true, Predicate.toList_text_anyOf, List.map_map]
    rfl
  have hgetD : compiled.getD g [] = conditions := by rw [List.getD, hg, Option.getD_some]
  rw [htext, hgroup, textBefore, hgetD]
  simp only [List.append_assoc, List.cons_append, List.prefix_append_right_inj,
    List.cons_prefix_cons, true_and]
  exact List.prefix_append _ _

/-- The values of a rule stand in the bound values of the tree after what is before them. -/
theorem valuesBefore_append_isPrefix (hg : compiled[g]? = some conditions)
    (hr : conditions[r]? = some c) :
    valuesBefore compiled g r ++ c.2 <+: bindings compiled := by
  have hgetD : compiled.getD g [] = conditions := by rw [List.getD, hg, Option.getD_some]
  have hcompiled := congrArg bindings (eq_take_cons_drop hg)
  have hconditions := congrArg (List.flatMap Prod.snd) (eq_take_cons_drop hr)
  rw [hcompiled, valuesBefore, hgetD]
  simp only [bindings, List.flatMap_append, List.flatMap_cons] at hconditions ⊢
  rw [hconditions]
  simp only [List.append_assoc, List.prefix_append_right_inj]
  exact List.prefix_append _ _

/-- A place in the images of a list, put after each other, lies in the image of an item. -/
private theorem exists_item_of_lt_length_flatMap {α β : Type} {f : α → List β} {xs : List α}
    {k : Nat} (hk : k < (xs.flatMap f).length) :
    ∃ i x, xs[i]? = some x ∧ ((xs.take i).flatMap f).length ≤ k ∧
      k < ((xs.take i).flatMap f).length + (f x).length := by
  induction xs generalizing k with
  | nil => exact absurd hk (Nat.not_lt_zero k)
  | cons x xs ih =>
    rw [List.flatMap_cons, List.length_append] at hk
    by_cases hx : k < (f x).length
    · exact ⟨0, x, rfl, Nat.zero_le _, by simpa using hx⟩
    · obtain ⟨i, y, hy, hlower, hupper⟩ := ih (k := k - (f x).length) (by omega)
      refine ⟨i + 1, y, hy, ?_, ?_⟩ <;>
        rw [List.take_succ_cons, List.flatMap_cons, List.length_append] <;> omega

private theorem length_flatMap_eq_foldr {α β : Type} (f : α → List β) (xs : List α) :
    (xs.flatMap f).length = xs.foldr (fun x count => (f x).length + count) 0 := by
  induction xs with
  | nil => rfl
  | cons x xs ih => rw [List.flatMap_cons, List.length_append, List.foldr_cons, ih]

section Alignment

variable (hlength : ∀ conditions ∈ compiled, ∀ c ∈ conditions, c.2.length = c.1.arity)

include hlength

/-- The text before a rule holds a placeholder for each value before it. -/
theorem holds_textBefore (hg : compiled[g]? = some conditions) :
    Holds (textBefore compiled g r) (valuesBefore compiled g r).length := by
  have hgetD : compiled.getD g [] = conditions := by rw [List.getD, hg, Option.getD_some]
  have hgroups : Holds ((compiled.take g).flatMap fun conditions =>
      (groupText (conditions.map Prod.fst)).toList ++ " or ".toList)
      (bindings (compiled.take g)).length := by
    rw [bindings, length_flatMap_eq_foldr]
    refine Query.holds_flatMap fun conditions hconditions => ?_
    rw [← groupArity_eq_length (hlength conditions (List.mem_of_mem_take hconditions))]
    exact (Query.holds_group _).append (Query.holds_words (by decide))
  have hrules : Holds ((conditions.take r).flatMap fun c => c.1.text.toList ++ " and ".toList)
      ((conditions.take r).flatMap Prod.snd).length := by
    rw [length_flatMap_eq_foldr]
    refine Query.holds_flatMap fun c hc => ?_
    rw [hlength conditions (List.mem_of_getElem? hg) c (List.mem_of_mem_take hc)]
    exact (Query.holds_condition _).append (Query.holds_words (by decide))
  rw [textBefore, valuesBefore, hgetD, List.length_append]
  have hopen := (Query.holds_singleton (c := '(') (by decide)).append hrules
  simpa using hgroups.append hopen

/-- The predicate of a compiled tree has as many placeholders as the tree has bound values. -/
theorem length_placeholders_predicate :
    (placeholders (predicate compiled).text).length = (bindings compiled).length := by
  obtain ⟨marks, hcount, -, hread⟩ := Query.holds_predicate (predicate compiled) 0 []
  have hend : ∀ place, placeholdersFrom place false [] = [] := fun _ => by rw [placeholdersFrom]
  rw [List.append_nil, hend, List.append_nil] at hread
  rw [placeholders, hread, hcount, arity_predicate hlength]

end Alignment

/-- Rule `r` of group `g` of a tree binds value `k` of a query: its condition and its values stand
in the query after what the earlier rules put there, the value is one of them, and the placeholder
of the value lies in the condition. -/
structure Supplies (schema : Catalog.Schema) (base : String) (now : Calendar.Instant)
    (tree : RuleTree) (query : Query) (compiled : List (List (Condition × List Scalar)))
    (k g r : Nat) (rule : Rule) (condition : Condition) (values : List Scalar) : Prop where
  rule_at : (tree.groups[g]?.bind fun group => group.rules[r]?) = some rule
  compiled_at : (compiled[g]?.bind fun conditions => conditions[r]?) = some (condition, values)
  compile_rule : rule.compile schema base now = .ok (condition, values)
  coerce_values : rule.operator.coerce now rule.values = .ok values
  values_at : valuesBefore compiled g r ++ values <+: query.bindings
  le_place : (valuesBefore compiled g r).length ≤ k
  place_lt : k < (valuesBefore compiled g r).length + values.length
  text_at : textBefore compiled g r ++ condition.text.toList <+: query.predicate.toList
  mark_in : ∃ mark, (placeholders query.predicate)[k]? = some mark ∧
    (textBefore compiled g r).length ≤ mark ∧
      mark < (textBefore compiled g r).length + condition.text.toList.length

private theorem exists_rule_of_getElem? {tree : RuleTree}
    (h : Compiled schema base now tree.groups compiled) (hg : compiled[g]? = some conditions)
    (hr : conditions[r]? = some c) :
    ∃ rule, (tree.groups[g]?.bind fun group => group.rules[r]?) = some rule ∧
      rule.compile schema base now = .ok c := by
  obtain ⟨hlt, rfl⟩ := List.getElem?_eq_some_iff.mp hg
  obtain ⟨hrlt, rfl⟩ := List.getElem?_eq_some_iff.mp hr
  have hglt : g < tree.groups.length := h.length_eq ▸ hlt
  have hgroup := h.get hglt hlt
  simp only [List.get_eq_getElem] at hgroup
  have hrule := hgroup.get (hgroup.length_eq ▸ hrlt) hrlt
  simp only [List.get_eq_getElem] at hrule
  refine ⟨_, ?_, hrule⟩
  rw [List.getElem?_eq_getElem hglt, Option.bind_some, List.getElem?_eq_getElem]

/-- **Placeholders and bound values line up.** A compiled query has a placeholder for each bound
value. The bound values are those that the operators of the rules make of their values, group by
group and rule by rule, and each placeholder lies in the condition of the rule whose values supply
the bound value in the same place. -/
theorem placeholders_aligned {tree : RuleTree} {query : Query}
    (h : tree.compile schema base now = .ok query) :
    (placeholders query.predicate).length = query.bindings.length ∧
      ∃ compiled, Compiled schema base now tree.groups compiled ∧
        List.Forall₂ (fun group conditions => List.Forall₂ (fun rule c =>
          rule.operator.coerce now rule.values = .ok c.2) group.rules conditions)
            tree.groups compiled ∧
        query.bindings = compiled.flatMap (fun conditions => conditions.flatMap Prod.snd) ∧
        ∀ k < query.bindings.length, ∃ g r rule condition values,
          tree.Supplies schema base now query compiled k g r rule condition values := by
  obtain ⟨-, compiled, hcompiled, rfl⟩ := compile_eq_ok_iff.mp h
  have hlength : ∀ conditions ∈ compiled, ∀ c ∈ conditions, c.2.length = c.1.arity :=
    fun _ hconditions _ hc => length_of_mem_compiled hcompiled hconditions hc
  refine ⟨length_placeholders_predicate hlength, compiled, hcompiled, ?_, rfl, ?_⟩
  · refine hcompiled.imp fun group conditions hgroup => hgroup.imp fun rule c hrule => ?_
    obtain ⟨-, -, hcoerce, -⟩ := Rule.compile_eq_ok_iff.mp hrule
    exact hcoerce
  · intro k hk
    obtain ⟨g, conditions, hg, hlower, hupper⟩ := exists_item_of_lt_length_flatMap hk
    obtain ⟨r, c, hr, hlower', hupper'⟩ := exists_item_of_lt_length_flatMap
      (Nat.sub_lt_left_of_lt_add hlower hupper)
    obtain ⟨rule, hrule, hcompile⟩ := exists_rule_of_getElem? hcompiled hg hr
    obtain ⟨-, -, hcoerce, -⟩ := Rule.compile_eq_ok_iff.mp hcompile
    have hbefore : (valuesBefore compiled g r).length = (bindings (compiled.take g)).length +
        ((conditions.take r).flatMap Prod.snd).length := by
      rw [valuesBefore, List.getD, hg, Option.getD_some, List.length_append]
    have hfrom : (valuesBefore compiled g r).length ≤ k := by
      rw [hbefore, bindings]
      omega
    have hto : k < (valuesBefore compiled g r).length + c.2.length := by
      rw [hbefore, bindings]
      omega
    have hmem := List.mem_of_getElem? hg
    have harity := hlength conditions hmem c (List.mem_of_getElem? hr)
    exact ⟨g, r, rule, c.1, c.2, {
      rule_at := hrule
      compiled_at := by rw [hg, Option.bind_some, hr]
      compile_rule := hcompile
      coerce_values := hcoerce
      values_at := valuesBefore_append_isPrefix hg hr
      le_place := hfrom
      place_lt := hto
      text_at := textBefore_append_isPrefix hg hr
      mark_in := (holds_textBefore hlength hg).exists_getElem? (Query.holds_condition c.1)
        (textBefore_append_isPrefix hg hr) hfrom (harity ▸ hto) }⟩

/-- Question marks in the names of columns are no placeholders. -/
theorem placeholders_aligned_awkward_names :
    (placeholders "(\"?\" between ? and ?) or (\"c\"\" = ? or \"\"d\" LIKE ?)").length =
      [Scalar.int 1, Scalar.int 2, Scalar.text "%x%"].length := by
  have h : RuleTree.compile
      ((Catalog.Schema.empty 1).withEntity
        ⟨"a\" or \"b", "?", [.required "?" .int, .required "c\" = ? or \"d" .text]⟩)
      "a\" or \"b" (.midnight ⟨2018, 7, 15, by decide, by decide, by decide⟩)
      (.ofGroups [.ofRules [⟨"?", .isBetween, [.int 1, .int 2], rfl⟩],
        .ofRules [⟨"c\" = ? or \"d", .contains, [.text "x"], rfl⟩]]) =
      .ok ⟨"a\" or \"b", "(\"?\" between ? and ?) or (\"c\"\" = ? or \"\"d\" LIKE ?)",
        [.int 1, .int 2, .text "%x%"]⟩ := rfl
  exact (placeholders_aligned h).1

end RuleTree

end PlaylistRules
