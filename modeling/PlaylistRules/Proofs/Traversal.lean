import PlaylistRules.Proofs.Outcome

/-!
# Steps on the items of a list

A step that may fail is made on each item of a list, with the index of the item. The steps before
the first failure succeed, and its error is the error of the whole.

## Main definitions

* `Outcome.each` : the results of a step on the items of a list.

## Main results

* `Outcome.each_eq_error_iff` : the error is the one of the first step that fails.
* `Outcome.exists_of_mem_each` : each result comes from an item.
* `Outcome.each_map_eq_ok` : steps that succeed on all items.
* `Outcome.each_eq_mapError` : steps whose errors are changed.
* `Outcome.mapM_eq_each` : steps that do not look at the index.
-/

namespace PlaylistRules.Outcome

variable {ε α β γ : Type} {step : Nat → α → Except ε β} {e : ε}

/-- The results of a step on the items of a list, which are numbered from an index on. -/
def each (step : Nat → α → Except ε β) : Nat → List α → Except ε (List β)
  | _, [] => .ok []
  | index, a :: as => do
    let b ← step index a
    return b :: (← each step (index + 1) as)

/-- The error of a list is the one of its first item, or else the one of the others. -/
theorem each_cons_eq_error_iff {index : Nat} {a : α} {as : List α} :
    each step index (a :: as) = .error e ↔
      step index a = .error e ∨
        (∃ b, step index a = .ok b) ∧ each step (index + 1) as = .error e := by
  rw [each, bind_eq_error_iff, ← exists_and_right]
  refine or_congr_right (exists_congr fun b => and_congr_right fun _ => ?_)
  exact bind_pure_eq_error_iff

theorem exists_ok_iff {x : Except ε α} : (∃ a, x = .ok a) ↔ ∀ e, x ≠ .error e := by
  cases x with
  | error e => exact ⟨nofun, fun h => absurd rfl (h e)⟩
  | ok a => exact ⟨fun _ _ => nofun, fun _ => ⟨a, rfl⟩⟩

/-- **The error of the steps is the one of the first step that fails.** -/
theorem each_eq_error_iff {index : Nat} {as : List α} :
    each step index as = .error e ↔
      ∃ k, (∃ a ∈ as[k]?, step (index + k) a = .error e) ∧
        ∀ j < k, ∀ a ∈ as[j]?, ∀ e', step (index + j) a ≠ .error e' := by
  induction as generalizing index with
  | nil => exact ⟨nofun, fun ⟨_, ⟨_, h, _⟩, _⟩ => nomatch h⟩
  | cons a as ih =>
    rw [each_cons_eq_error_iff, exists_ok_iff, ih]
    have hshift : ∀ k, index + 1 + k = index + (k + 1) := fun k => by omega
    simp only [hshift]
    constructor
    · rintro (hfirst | ⟨hfirst, k, hk, hbefore⟩)
      · exact ⟨0, ⟨a, rfl, hfirst⟩, fun j hj => absurd hj (Nat.not_lt_zero j)⟩
      · refine ⟨k + 1, hk, fun j hj b hb e' => ?_⟩
        cases j with
        | zero => exact Option.some.inj hb ▸ hfirst e'
        | succ j => exact hbefore j (Nat.lt_of_succ_lt_succ hj) b hb e'
    · rintro ⟨k, hk, hbefore⟩
      cases k with
      | zero =>
        obtain ⟨b, hb, hstep⟩ := hk
        exact .inl (Option.some.inj hb ▸ hstep)
      | succ k =>
        exact .inr ⟨hbefore 0 (Nat.succ_pos k) a rfl, k, hk, fun j hj b hb =>
          hbefore (j + 1) (Nat.succ_lt_succ hj) b hb⟩

/-- The steps succeed when none of them fails. -/
theorem each_eq_ok_iff {index : Nat} {as : List α} :
    (∃ bs, each step index as = .ok bs) ↔
      ∀ k, ∀ a ∈ as[k]?, ∃ b, step (index + k) a = .ok b := by
  simp only [exists_ok_iff]
  constructor
  · -- Of the steps that fail, the first one would give its error to the whole.
    intro h k
    induction k using Nat.strongRecOn with
    | ind k ih => exact fun a ha e he => h e (each_eq_error_iff.mpr ⟨k, ⟨a, ha, he⟩, ih⟩)
  · intro h e he
    obtain ⟨k, ⟨a, ha, hstep⟩, -⟩ := each_eq_error_iff.mp he
    exact h k a ha e hstep

/-- Each result is the one of the step on some item. -/
theorem exists_of_mem_each {index : Nat} {as : List α} {bs : List β}
    (h : each step index as = .ok bs) {b : β} (hb : b ∈ bs) :
    ∃ k, ∃ a ∈ as[k]?, step (index + k) a = .ok b := by
  induction as generalizing index bs with
  | nil =>
    obtain rfl := Except.ok.inj h
    exact absurd hb List.not_mem_nil
  | cons a as ih =>
    obtain ⟨first, hfirst, h⟩ := bind_eq_ok_iff.mp h
    obtain ⟨others, hothers, h⟩ := bind_eq_ok_iff.mp h
    obtain rfl := Except.ok.inj h
    rcases List.mem_cons.mp hb with rfl | hb
    · exact ⟨0, a, rfl, hfirst⟩
    · obtain ⟨k, other, hother, hstep⟩ := ih hothers hb
      exact ⟨k + 1, other, hother, by rwa [Nat.add_right_comm] at hstep⟩

/-- What the results have in common with the items, one for one. -/
theorem map_eq_of_each {f : α → γ} {g : β → γ}
    (hstep : ∀ index a b, step index a = .ok b → g b = f a) {index : Nat} {as : List α}
    {bs : List β} (h : each step index as = .ok bs) : bs.map g = as.map f := by
  induction as generalizing index bs with
  | nil =>
    obtain rfl := Except.ok.inj h
    rfl
  | cons a as ih =>
    obtain ⟨b, hb, h⟩ := bind_eq_ok_iff.mp h
    obtain ⟨bs, hbs, h⟩ := bind_eq_ok_iff.mp h
    obtain rfl := Except.ok.inj h
    rw [List.map_cons, List.map_cons, hstep index a b hb, ih hbs]

/-- There is one result for each item. -/
theorem length_of_each {index : Nat} {as : List α} {bs : List β}
    (h : each step index as = .ok bs) : bs.length = as.length := by
  have hmap := map_eq_of_each (f := fun _ => ()) (g := fun _ => ()) (fun _ _ _ _ => rfl) h
  rw [← List.length_map (fun _ => ()), hmap, List.length_map]

/-- Steps that succeed on all items give a result for each item and its index. -/
theorem each_map_eq_ok_zipIdx {source : γ → α} {result : γ → Nat → β} {cs : List γ}
    (hstep : ∀ index, ∀ c ∈ cs, step index (source c) = .ok (result c index)) (index : Nat) :
    each step index (cs.map source) = .ok ((cs.zipIdx index).map fun c => result c.1 c.2) := by
  induction cs generalizing index with
  | nil => rfl
  | cons c cs ih =>
    rw [List.map_cons, each, hstep index c List.mem_cons_self, ok_bind,
      ih (fun index c hc => hstep index c (List.mem_cons_of_mem _ hc)), List.zipIdx_cons]
    rfl

/-- Steps that succeed on all items, with results that do not depend on the index. -/
theorem each_map_eq_ok {source : γ → α} {result : γ → β} {cs : List γ}
    (hstep : ∀ index, ∀ c ∈ cs, step index (source c) = .ok (result c)) (index : Nat) :
    each step index (cs.map source) = .ok (cs.map result) := by
  rw [each_map_eq_ok_zipIdx hstep]
  conv => rhs; rw [← List.zipIdx_map_fst index cs, List.map_map]
  rfl

/-- Steps with the same results whose errors are changed alike. -/
theorem each_eq_mapError {ε' : Type} {step' : Nat → α → Except ε' β} {g : ε → ε'} {as : List α}
    (h : ∀ index, ∀ a ∈ as, step' index a = (step index a).mapError g) (index : Nat) :
    each step' index as = (each step index as).mapError g := by
  induction as generalizing index with
  | nil => rfl
  | cons a as ih =>
    rw [each, each, h index a List.mem_cons_self,
      ih fun index a ha => h index a (List.mem_cons_of_mem _ ha)]
    cases step index a with
    | error => rfl
    | ok b => cases each step (index + 1) as <;> rfl

/-- Steps on items that are made of other items. -/
theorem each_map {f : γ → α} {cs : List γ} (index : Nat) :
    each step index (cs.map f) = each (fun index c => step index (f c)) index cs := by
  induction cs generalizing index with
  | nil => rfl
  | cons c cs ih => rw [List.map_cons, each, each, ih]

/-- Steps that do not look at the index. -/
theorem mapM_eq_each {f : α → Except ε β} (index : Nat) (as : List α) :
    as.mapM f = each (fun _ => f) index as := by
  induction as generalizing index with
  | nil => rfl
  | cons a as ih => rw [List.mapM_cons, each, ih (index + 1)]

end PlaylistRules.Outcome
