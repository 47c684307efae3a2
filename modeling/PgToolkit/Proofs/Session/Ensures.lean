import PgToolkit.Session.Executor

/-!
# What a session ensures

A session always ends, with a result or with an error, and leaves a state either way. What it
ensures is a condition on both. The rules below follow the way in which sessions are put together.

## Main definitions

- `Session.Ensures` — a condition on the result of a session and on the state that it leaves

## Main statements

- `Session.Ensures.bind` — one session after the other
- `Session.forM_runFrom` — a session for every item of a list: all of them ran, or one failed and
  none ran after it
-/

namespace PgToolkit.Session

variable {σ α β : Type}

/-! ### Runs -/

@[simp] theorem runFrom_pure (a : α) (s : SessionState σ) :
    runFrom (pure a : Session σ α) s = (.ok a, s) := rfl

@[simp] theorem runFrom_throw (e : Error) (s : SessionState σ) :
    runFrom (throw e : Session σ α) s = (.error e, s) := rfl

@[simp] theorem runFrom_ofExcept (r : Except Error α) (s : SessionState σ) :
    runFrom (ofExcept r : Session σ α) s = (r, s) := rfl

@[simp] theorem runFrom_report (event : Event) (s : SessionState σ) :
    runFrom (report event) s = (.ok (), { s with events := s.events ++ [event] }) := rfl

@[simp] theorem runFrom_attempt (x : Session σ α) (s : SessionState σ) :
    runFrom x.attempt s = (.ok (x.runFrom s).1, (x.runFrom s).2) := rfl

theorem runFrom_bind_of_ok {x : Session σ α} {f : α → Session σ β} {s t : SessionState σ} {a : α}
    (h : x.runFrom s = (.ok a, t)) : runFrom (x >>= f) s = runFrom (f a) t := by
  have hbind : runFrom (x >>= f) s = StateT.run (ExceptT.bindCont f (x.runFrom s).1)
      (x.runFrom s).2 := rfl
  rw [hbind, h]
  rfl

theorem runFrom_bind_of_error {x : Session σ α} {f : α → Session σ β} {s t : SessionState σ}
    {e : Error} (h : x.runFrom s = (.error e, t)) : runFrom (x >>= f) s = (.error e, t) := by
  have hbind : runFrom (x >>= f) s = StateT.run (ExceptT.bindCont f (x.runFrom s).1)
      (x.runFrom s).2 := rfl
  rw [hbind, h]
  rfl

/-! ### Conditions on runs -/

/-- A condition holds of the result of a session and of the state that it leaves. -/
def Ensures (x : Session σ α) (s : SessionState σ)
    (post : Except Error α → SessionState σ → Prop) : Prop :=
  post (x.runFrom s).1 (x.runFrom s).2

variable {x : Session σ α} {f : α → Session σ β} {s t : SessionState σ}
  {post post' : Except Error α → SessionState σ → Prop}
  {last : Except Error β → SessionState σ → Prop}

theorem Ensures.of_runFrom_eq (h : x.Ensures s post) {r : Except Error α}
    (hrun : x.runFrom s = (r, t)) : post r t := by
  rw [Ensures, hrun] at h
  exact h

theorem Ensures.mono (h : x.Ensures s post) (himp : ∀ r t, post r t → post' r t) :
    x.Ensures s post' :=
  himp _ _ h

theorem Ensures.bind (h : x.Ensures s post) (hok : ∀ a t, post (.ok a) t → (f a).Ensures t last)
    (herror : ∀ e t, post (.error e) t → last (.error e) t) : Ensures (x >>= f) s last := by
  rcases hrun : x.runFrom s with ⟨e | a, t⟩
  · rw [Ensures, runFrom_bind_of_error hrun]
    exact herror e t (h.of_runFrom_eq hrun)
  · rw [Ensures, runFrom_bind_of_ok hrun]
    exact hok a t (h.of_runFrom_eq hrun)

/-- A session whose second part does not depend on the first one. -/
theorem Ensures.bind_of_forall (hok : ∀ a t, (f a).Ensures t last)
    (herror : ∀ e t, last (.error e) t) : Ensures (x >>= f) s last := by
  have hany : x.Ensures s fun _ _ => True := trivial
  exact hany.bind (fun a t _ => hok a t) fun e t _ => herror e t

/-- A session whose first part is known already. -/
theorem Ensures.ofExcept_bind {r : Except Error α} (hok : ∀ a, r = .ok a → (f a).Ensures s last)
    (herror : ∀ e, r = .error e → last (.error e) s) : Ensures (ofExcept r >>= f) s last := by
  cases r with
  | error e => exact herror e rfl
  | ok a => exact hok a rfl

/-- A session whose failure is a result: what follows depends on it. -/
theorem Ensures.attempt_bind {f : Except Error α → Session σ β} (h : x.Ensures s post)
    (hnext : ∀ r t, post r t → (f r).Ensures t last) : Ensures (x.attempt >>= f) s last := by
  rw [Ensures, runFrom_bind_of_ok (runFrom_attempt x s)]
  exact hnext _ _ h

/-! ### Loops -/

theorem runFrom_forM_concat {f : α → Session σ Unit} {done : List α} {item : α}
    {s t u : SessionState σ} (hdone : runFrom (done.forM f) s = (.ok (), t))
    (hitem : (f item).runFrom t = (.ok (), u)) :
    runFrom ((done ++ [item]).forM f) s = (.ok (), u) := by
  have hconcat : (done ++ [item]).forM f = done.forM f >>= fun _ => [item].forM f :=
    List.forM_append
  have hlast : [item].forM f = f item >>= fun _ => pure () := rfl
  rw [hconcat, runFrom_bind_of_ok hdone, hlast, runFrom_bind_of_ok hitem, runFrom_pure]

/-- What a session for every item of a list does. With a condition on the items that are done and on
the state, which one item after the other preserves, either all items are done, or one of them
failed: then the ones in front of it ran and are done, and its failure is the end. -/
theorem forM_runFrom {f : α → Session σ Unit} {inv : List α → SessionState σ → Prop}
    {items : List α} (hstart : inv [] s)
    (hstep : ∀ done item rest, items = done ++ item :: rest → ∀ t, inv done t →
      ∀ u, (f item).runFrom t = (.ok (), u) → inv (done ++ [item]) u) :
    Ensures (items.forM f) s fun r t =>
      (r = .ok () ∧ inv items t) ∨
      ∃ e done item rest u, items = done ++ item :: rest ∧ inv done u ∧
        runFrom (done.forM f) s = (.ok (), u) ∧ r = .error e ∧
        (f item).runFrom u = (.error e, t) := by
  -- the induction is on the items that are left, for any that are done
  suffices hloop : ∀ left done t, items = done ++ left → inv done t →
      runFrom (done.forM f) s = (.ok (), t) → Ensures (left.forM f) t fun r u =>
        (r = .ok () ∧ inv items u) ∨
        ∃ e done item rest v, items = done ++ item :: rest ∧ inv done v ∧
          runFrom (done.forM f) s = (.ok (), v) ∧ r = .error e ∧
          (f item).runFrom v = (.error e, u) from hloop items [] s rfl hstart rfl
  intro left
  induction left with
  | nil =>
    intro done t hitems hinv _
    rw [List.append_nil] at hitems
    exact Or.inl ⟨rfl, hitems ▸ hinv⟩
  | cons item rest ih =>
    intro done t hitems hinv hdone
    have hcons : (item :: rest).forM f = f item >>= fun _ => rest.forM f := rfl
    rw [hcons]
    rcases hrun : (f item).runFrom t with ⟨e | ⟨⟩, u⟩
    · rw [Ensures, runFrom_bind_of_error hrun]
      exact Or.inr ⟨e, done, item, rest, t, hitems, hinv, hdone, rfl, hrun⟩
    · rw [Ensures, runFrom_bind_of_ok hrun]
      refine ih (done ++ [item]) u ?_ (hstep done item rest hitems t hinv u hrun)
        (runFrom_forM_concat hdone hrun)
      rw [hitems, List.append_assoc, List.singleton_append]

end PgToolkit.Session
