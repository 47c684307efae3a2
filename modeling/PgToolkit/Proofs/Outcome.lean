import Mathlib.Data.List.Forall2

/-!
# Outcomes

What it means that a computation which may fail has succeeded: each of its steps has.
-/

namespace PgToolkit

variable {ε α β : Type}

theorem bind_eq_ok_iff {x : Except ε α} {f : α → Except ε β} {b : β} :
    (x >>= f) = .ok b ↔ ∃ a, x = .ok a ∧ f a = .ok b := by
  cases x with
  | error e => simp [bind, Except.bind]
  | ok a => simp [bind, Except.bind]

theorem map_eq_ok_iff {f : α → β} {x : Except ε α} {b : β} :
    f <$> x = .ok b ↔ ∃ a, x = .ok a ∧ f a = b := by
  cases x with
  | error e => simp [Functor.map, Except.map]
  | ok a => simp [Functor.map, Except.map]

theorem pure_eq_ok_iff {a b : α} : (pure a : Except ε α) = .ok b ↔ a = b := by
  simp [pure, Except.pure]

theorem ite_error_eq_ok_iff {c : Prop} [Decidable c] {e : ε} {x : Except ε α} {a : α} :
    (if c then .error e else x) = .ok a ↔ ¬ c ∧ x = .ok a := by
  split
  · next hc => exact iff_of_false (by simp) fun h => h.1 hc
  · next hc => exact (and_iff_right hc).symm

/-- A computation in two steps has a result when both steps have one. -/
theorem exists_bind_iff {x : Except ε α} {f : α → Except ε β} {P : Prop}
    (h : ∀ a, x = .ok a → ((∃ b, f a = .ok b) ↔ P)) :
    (∃ b, (x >>= f) = .ok b) ↔ (∃ a, x = .ok a) ∧ P := by
  simp only [bind_eq_ok_iff]
  constructor
  · rintro ⟨b, a, ha, hb⟩
    exact ⟨⟨a, ha⟩, (h a ha).1 ⟨b, hb⟩⟩
  · rintro ⟨⟨a, ha⟩, hP⟩
    obtain ⟨b, hb⟩ := (h a ha).2 hP
    exact ⟨b, a, ha, hb⟩

theorem exists_bind_pure_iff {x : Except ε α} {f : α → β} :
    (∃ b, (x >>= fun a => pure (f a)) = .ok b) ↔ ∃ a, x = .ok a :=
  (exists_bind_iff fun a _ => iff_true_intro ⟨f a, rfl⟩).trans (iff_of_eq (and_true _))

theorem exists_map_iff {f : α → β} {x : Except ε α} :
    (∃ b, f <$> x = .ok b) ↔ ∃ a, x = .ok a := by
  simp [map_eq_ok_iff]

theorem exists_error_iff {x : Except ε α} : (∃ e, x = .error e) ↔ ¬ ∃ a, x = .ok a := by
  cases x <;> simp

/-- A computation for every item succeeds when it does for each of them, and the results are in the
order of the items. -/
theorem mapM_eq_ok_iff {f : α → Except ε β} {items : List α} {results : List β} :
    items.mapM f = .ok results ↔
      List.Forall₂ (fun item result => f item = .ok result) items results := by
  induction items generalizing results with
  | nil => rw [List.mapM_nil, pure_eq_ok_iff, List.forall₂_nil_left_iff, eq_comm]
  | cons item items ih =>
    simp only [List.mapM_cons, bind_eq_ok_iff, pure_eq_ok_iff, ih, List.forall₂_cons_left_iff]
    constructor
    · rintro ⟨result, hresult, rest, hrest, rfl⟩
      exact ⟨result, rest, hresult, hrest, rfl⟩
    · rintro ⟨result, rest, hresult, hrest, rfl⟩
      exact ⟨result, hresult, rest, hrest, rfl⟩

theorem exists_mapM_eq_ok_iff {f : α → Except ε β} {items : List α} :
    (∃ results, items.mapM f = .ok results) ↔ ∀ item ∈ items, ∃ result, f item = .ok result := by
  simp only [mapM_eq_ok_iff]
  induction items with
  | nil => simp
  | cons item items ih =>
    simp only [List.forall₂_cons_left_iff, List.forall_mem_cons, ← ih]
    constructor
    · rintro ⟨_, result, results, hresult, hresults, -⟩
      exact ⟨⟨result, hresult⟩, results, hresults⟩
    · rintro ⟨⟨result, hresult⟩, results, hresults⟩
      exact ⟨_, result, results, hresult, hresults, rfl⟩

theorem exists_mem_of_forall₂ {R : α → β → Prop} {items : List α} {results : List β}
    (h : List.Forall₂ R items results) {result : β} (hresult : result ∈ results) :
    ∃ item ∈ items, R item result := by
  induction h with
  | nil => simp at hresult
  | @cons item first items results hfirst _ ih =>
    rcases List.mem_cons.1 hresult with rfl | hresult
    · exact ⟨item, List.mem_cons_self, hfirst⟩
    · obtain ⟨other, hother, hR⟩ := ih hresult
      exact ⟨other, List.mem_cons_of_mem _ hother, hR⟩

theorem exists_mem_of_mapM_eq_ok {f : α → Except ε β} {items : List α} {results : List β}
    (h : items.mapM f = .ok results) {result : β} (hresult : result ∈ results) :
    ∃ item ∈ items, f item = .ok result :=
  exists_mem_of_forall₂ (mapM_eq_ok_iff.1 h) hresult

/-- The result for an item is among the results for all of them. -/
theorem mem_of_mapM_eq_ok {f : α → Except ε β} {items : List α} {results : List β}
    (h : items.mapM f = .ok results) {item : α} (hitem : item ∈ items) {result : β}
    (hresult : f item = .ok result) : result ∈ results := by
  rw [mapM_eq_ok_iff] at h
  induction h with
  | nil => simp at hitem
  | cons hfirst _ ih =>
    rcases List.mem_cons.1 hitem with rfl | hitem
    · rw [hfirst] at hresult
      exact Except.ok.inj hresult ▸ List.mem_cons_self
    · exact List.mem_cons_of_mem _ (ih hitem)

/-- Two computations for the items of two lists: what holds of the results for two items holds of
the results for the lists. -/
theorem forall₂_of_mapM_eq_ok {γ δ : Type} {f : α → Except ε β} {g : γ → Except ε δ}
    {R : α → γ → Prop} {S : β → δ → Prop} {xs : List α} {ys : List γ} {bs : List β} {ds : List δ}
    (h : List.Forall₂ R xs ys) (hf : xs.mapM f = .ok bs) (hg : ys.mapM g = .ok ds)
    (hstep : ∀ x y b d, R x y → f x = .ok b → g y = .ok d → S b d) : List.Forall₂ S bs ds := by
  induction h generalizing bs ds with
  | nil =>
    rw [List.mapM_nil, pure_eq_ok_iff] at hf hg
    rw [← hf, ← hg]
    exact .nil
  | cons hxy _ ih =>
    simp only [List.mapM_cons, bind_eq_ok_iff, pure_eq_ok_iff] at hf hg
    obtain ⟨b, hb, bs, hbs, rfl⟩ := hf
    obtain ⟨d, hd, ds, hds, rfl⟩ := hg
    exact .cons (hstep _ _ _ _ hxy hb hd) (ih hbs hds)

end PgToolkit
