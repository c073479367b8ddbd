import Mathlib.Data.List.Forall2

/-!
# Related lists

Lists whose items are related one for one. An item of one list is related to an item of the other
one, and what holds of some items or of all items of one list holds of the other list as well when
the relation keeps it.

## Main results

* `Related.exists_of_mem_left`, `Related.exists_of_mem_right` : the partner of an item.
* `Related.exists_mem_iff`, `Related.forall_mem_iff` : what holds of some items or of all.
* `Related.map_eq`, `Related.flatMap_eq` : what is made of related items.
* `Related.exists_forall₂`, `Related.mapM_eq_some_iff` : lists that are made item by item.
* `Related.exists_forall₂_map` : items that are changed on both sides.
-/

namespace PlaylistRules.Related

variable {α β : Type} {R : α → β → Prop} {as : List α} {bs : List β}

theorem exists_of_mem_right (h : List.Forall₂ R as bs) {b : β} (hb : b ∈ bs) :
    ∃ a ∈ as, R a b := by
  induction h with
  | nil => exact absurd hb List.not_mem_nil
  | cons hfirst _ ih =>
    rcases List.mem_cons.mp hb with rfl | hb
    · exact ⟨_, List.mem_cons_self, hfirst⟩
    · obtain ⟨a, ha, hab⟩ := ih hb
      exact ⟨a, List.mem_cons_of_mem _ ha, hab⟩

theorem exists_of_mem_left (h : List.Forall₂ R as bs) {a : α} (ha : a ∈ as) :
    ∃ b ∈ bs, R a b :=
  exists_of_mem_right h.flip ha

theorem exists_mem_iff (h : List.Forall₂ R as bs) {p : α → Prop} {q : β → Prop}
    (hpq : ∀ a b, R a b → (p a ↔ q b)) : (∃ a ∈ as, p a) ↔ ∃ b ∈ bs, q b := by
  induction h with
  | nil => simp only [List.not_mem_nil, false_and, exists_false]
  | cons hfirst _ ih =>
    simp only [List.mem_cons, exists_eq_or_imp]
    rw [hpq _ _ hfirst, ih]

theorem forall_mem_iff (h : List.Forall₂ R as bs) {p : α → Prop} {q : β → Prop}
    (hpq : ∀ a b, R a b → (p a ↔ q b)) : (∀ a ∈ as, p a) ↔ ∀ b ∈ bs, q b := by
  induction h with
  | nil => simp only [List.not_mem_nil, false_imp_iff, implies_true]
  | cons hfirst _ ih => rw [List.forall_mem_cons, List.forall_mem_cons, hpq _ _ hfirst, ih]

theorem map_eq {γ : Type} (h : List.Forall₂ R as bs) {f : α → γ} {g : β → γ}
    (hfg : ∀ a b, R a b → f a = g b) : as.map f = bs.map g := by
  induction h with
  | nil => rfl
  | cons hfirst _ ih => rw [List.map_cons, List.map_cons, hfg _ _ hfirst, ih]

theorem flatMap_eq {γ : Type} (h : List.Forall₂ R as bs) {f : α → List γ} {g : β → List γ}
    (hfg : ∀ a b, R a b → f a = g b) : as.flatMap f = bs.flatMap g := by
  rw [List.flatMap_def, List.flatMap_def, map_eq h hfg]

/-- A list is related to another one when each of its items is related to some item. -/
theorem exists_forall₂ (h : ∀ a ∈ as, ∃ b, R a b) : ∃ bs, List.Forall₂ R as bs := by
  induction as with
  | nil => exact ⟨[], .nil⟩
  | cons a as ih =>
    rw [List.forall_mem_cons] at h
    obtain ⟨⟨b, hb⟩, hothers⟩ := h
    obtain ⟨bs, hbs⟩ := ih hothers
    exact ⟨b :: bs, .cons hb hbs⟩

/-- A step that may fail is made on all items when its results are related to them. -/
theorem mapM_eq_some_iff {step : α → Option β} :
    as.mapM step = some bs ↔ List.Forall₂ (fun a b => step a = some b) as bs := by
  induction as generalizing bs with
  | nil =>
    rw [List.mapM_nil, Option.pure_def, Option.some.injEq, List.forall₂_nil_left_iff, eq_comm]
  | cons a as ih =>
    simp only [List.mapM_cons, List.forall₂_cons_left_iff, ← ih, Option.pure_def,
      Option.bind_eq_bind, Option.bind_eq_some_iff, Option.some.injEq]
    constructor
    · rintro ⟨b, hb, bs, hbs, rfl⟩
      exact ⟨b, bs, hb, hbs, rfl⟩
    · rintro ⟨b, bs, hb, hbs, rfl⟩
      exact ⟨b, hb, bs, hbs, rfl⟩

/-- Lists related to items that were changed one for one. -/
theorem exists_forall₂_map {α' β' : Type} {f : α → α'} {R' : α' → β' → Prop} {S : β → β' → Prop}
    (hstep : ∀ a b, R a b → ∃ b', R' (f a) b' ∧ S b b') (h : List.Forall₂ R as bs) :
    ∃ bs', List.Forall₂ R' (as.map f) bs' ∧ List.Forall₂ S bs bs' := by
  induction h with
  | nil => exact ⟨[], .nil, .nil⟩
  | @cons a b _ _ hfirst _ ih =>
    obtain ⟨b', hb', hsame⟩ := hstep a b hfirst
    obtain ⟨bs', hbs', hothers⟩ := ih
    exact ⟨b' :: bs', .cons hb' hbs', .cons hsame hothers⟩

end PlaylistRules.Related
