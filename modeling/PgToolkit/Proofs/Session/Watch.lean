import PgToolkit.Proofs.Session.Ensures
import PgToolkit.Session.Executor

/-!
# Watched sessions

An executor can be watched: after every call on it, what can be seen of the other side is kept. A
session over a watched executor does what it does over the executor itself, so what was seen are the
states through which the session went.
-/

namespace PgToolkit

/-- The other side of a connection, and what was seen of it after each call, oldest first. -/
structure Watched (σ η : Type) where
  remote : σ
  seen : List η := []

variable {σ η α β : Type}

namespace SessionState

/-- The state of a session without what was seen. -/
def forget (s : SessionState (Watched σ η)) : SessionState σ :=
  { s with remote := s.remote.remote }

/-- The state of a session of which nothing has been seen yet. -/
def unseen (s : SessionState σ) : SessionState (Watched σ η) :=
  { s with remote := { remote := s.remote } }

@[simp] theorem forget_unseen (s : SessionState σ) : (s.unseen (η := η)).forget = s := rfl

@[simp] theorem remote_forget (s : SessionState (Watched σ η)) :
    s.forget.remote = s.remote.remote := rfl

@[simp] theorem remote_unseen (s : SessionState σ) :
    (s.unseen (η := η)).remote.remote = s.remote := rfl

@[simp] theorem seen_unseen (s : SessionState σ) : (s.unseen (η := η)).remote.seen = [] := rfl

end SessionState

namespace Session

/-- Runs a session and keeps what `view` shows of the other side afterwards. -/
def watch (view : σ → η) (x : Session σ α) : Session (Watched σ η) α :=
  ExceptT.mk fun s =>
    let (result, t) := x.runFrom s.forget
    (result, { t with remote := ⟨t.remote, s.remote.seen ++ [view t.remote]⟩ })

end Session

def Executor.watched (view : σ → η) (conn : Executor σ) : Executor (Watched σ η) where
  query sql params := Session.watch view (conn.query sql params)
  execute sql params := Session.watch view (conn.execute sql params)
  batch sql := Session.watch view (conn.batch sql)
  batchTransaction sql := Session.watch view (conn.batchTransaction sql)

namespace Session

/-- A session over a watched connection has the result of another one over the connection itself,
from every state, and leaves the same state apart from what was seen. -/
def Forgets (x : Session (Watched σ η) α) (y : Session σ α) : Prop :=
  ∀ s : SessionState (Watched σ η), y.runFrom s.forget = ((x.runFrom s).1, (x.runFrom s).2.forget)

theorem forgets_watch (view : σ → η) (x : Session σ α) : Forgets (watch view x) x :=
  fun _ => rfl

theorem forgets_pure (a : α) : Forgets (pure a : Session (Watched σ η) α) (pure a) :=
  fun _ => rfl

theorem forgets_throw (e : Error) : Forgets (throw e : Session (Watched σ η) α) (throw e) :=
  fun _ => rfl

theorem forgets_ofExcept (r : Except Error α) :
    Forgets (ofExcept r : Session (Watched σ η) α) (ofExcept r) :=
  fun _ => rfl

theorem forgets_report (event : Event) :
    Forgets (report event : Session (Watched σ η) Unit) (report event) :=
  fun _ => rfl

variable {x : Session (Watched σ η) α} {y : Session σ α} {f : α → Session (Watched σ η) β}
  {g : α → Session σ β}

theorem Forgets.runFrom_eq (h : Forgets x y) {s t : SessionState (Watched σ η)} {r : Except Error α}
    (hrun : x.runFrom s = (r, t)) : y.runFrom s.forget = (r, t.forget) := by
  rw [h s, hrun]

theorem Forgets.attempt (h : Forgets x y) : Forgets x.attempt y.attempt := by
  intro s
  rw [runFrom_attempt, runFrom_attempt, h s]

theorem Forgets.bind (h : Forgets x y) (hnext : ∀ a, Forgets (f a) (g a)) :
    Forgets (x >>= f) (y >>= g) := by
  intro s
  rcases hrun : x.runFrom s with ⟨e | a, t⟩
  · rw [runFrom_bind_of_error hrun, runFrom_bind_of_error (h.runFrom_eq hrun)]
  · rw [runFrom_bind_of_ok hrun, runFrom_bind_of_ok (h.runFrom_eq hrun), hnext a t]

/-! ### Relations between sessions -/

/-- A relation between sessions over two connections that goes along with the ways in which sessions
are put together. -/
structure Respectful {τ : Type} (R : ∀ {α : Type}, Session τ α → Session σ α → Prop) : Prop where
  ofExcept : ∀ {α : Type} (r : Except Error α), R (ofExcept r) (ofExcept r)
  report : ∀ event, R (report event) (report event)
  attempt : ∀ {α : Type} {x : Session τ α} {y : Session σ α}, R x y → R x.attempt y.attempt
  bind : ∀ {α β : Type} {x : Session τ α} {y : Session σ α} {f : α → Session τ β}
    {g : α → Session σ β}, R x y → (∀ a, R (f a) (g a)) → R (x >>= f) (y >>= g)

namespace Respectful

variable {τ : Type} {R : ∀ {α : Type}, Session τ α → Session σ α → Prop}

theorem pure (h : Respectful R) (a : α) : R (pure a) (pure a) :=
  h.ofExcept (.ok a)

theorem throw (h : Respectful R) (e : Error) : R (throw e : Session τ α) (throw e) :=
  h.ofExcept (.error e)

theorem forM (h : Respectful R) {f : α → Session τ Unit} {g : α → Session σ Unit}
    (hitem : ∀ a, R (f a) (g a)) (items : List α) : R (items.forM f) (items.forM g) := by
  induction items with
  | nil => exact h.pure ()
  | cons item rest ih => exact h.bind (hitem item) fun _ => ih

end Respectful

theorem forgets_respectful : Respectful (@Forgets σ η) where
  ofExcept := forgets_ofExcept
  report := forgets_report
  attempt := Forgets.attempt
  bind := Forgets.bind

/-! ### Sessions with few calls -/

/-- A watched session that makes no call, and the session itself. -/
structure NoCall (x : Session (Watched σ η) α) (y : Session σ α) : Prop where
  forgets : Forgets x y
  same : ∀ s, (x.runFrom s).2.remote = s.remote

/-- A watched session that makes at most one call, and the session itself. What was seen last is
what the session leaves. -/
structure OneCall (view : σ → η) (x : Session (Watched σ η) α) (y : Session σ α) : Prop where
  forgets : Forgets x y
  seen : ∀ s, (x.runFrom s).2.remote = s.remote ∨
    (x.runFrom s).2.remote.seen = s.remote.seen ++ [view (x.runFrom s).2.remote.remote]

theorem noCall_pure (a : α) : NoCall (pure a : Session (Watched σ η) α) (pure a) :=
  ⟨forgets_pure a, fun _ => rfl⟩

theorem noCall_throw (e : Error) : NoCall (throw e : Session (Watched σ η) α) (throw e) :=
  ⟨forgets_throw e, fun _ => rfl⟩

theorem noCall_ofExcept (r : Except Error α) :
    NoCall (ofExcept r : Session (Watched σ η) α) (ofExcept r) :=
  ⟨forgets_ofExcept r, fun _ => rfl⟩

theorem noCall_report (event : Event) :
    NoCall (report event : Session (Watched σ η) Unit) (report event) :=
  ⟨forgets_report event, fun _ => rfl⟩

theorem oneCall_watch (view : σ → η) (y : Session σ α) : OneCall view (watch view y) y :=
  ⟨forgets_watch view y, fun _ => Or.inr rfl⟩

theorem NoCall.oneCall {view : σ → η} (h : NoCall x y) : OneCall view x y :=
  ⟨h.forgets, fun s => Or.inl (h.same s)⟩

/-- The state of a connection after two sessions is that after the second one, or after the first
one when it fails. -/
theorem remote_bind (last : Watched σ η → Prop) {s : SessionState (Watched σ η)}
    (hfirst : last (x.runFrom s).2.remote)
    (hnext : ∀ a t, t.remote = (x.runFrom s).2.remote → last ((f a).runFrom t).2.remote) :
    last (runFrom (x >>= f) s).2.remote := by
  rcases hrun : x.runFrom s with ⟨e | a, t⟩
  · rw [runFrom_bind_of_error hrun]
    rw [hrun] at hfirst
    exact hfirst
  · rw [runFrom_bind_of_ok hrun]
    exact hnext a t (by rw [hrun])

theorem NoCall.bind (h : NoCall x y) (hnext : ∀ a, NoCall (f a) (g a)) :
    NoCall (x >>= f) (y >>= g) where
  forgets := h.forgets.bind fun a => (hnext a).forgets
  same s := by
    refine remote_bind (· = s.remote) (h.same s) ?_
    intro a t ht
    rw [(hnext a).same t, ht, h.same s]

theorem NoCall.bind_oneCall {view : σ → η} (h : NoCall x y)
    (hnext : ∀ a, OneCall view (f a) (g a)) : OneCall view (x >>= f) (y >>= g) where
  forgets := h.forgets.bind fun a => (hnext a).forgets
  seen s := by
    refine remote_bind (fun w => w = s.remote ∨ w.seen = s.remote.seen ++ [view w.remote])
      (Or.inl (h.same s)) ?_
    intro a t ht
    rw [h.same s] at ht
    rw [← ht]
    exact (hnext a).seen t

theorem OneCall.bind {view : σ → η} (h : OneCall view x y) (hnext : ∀ a, NoCall (f a) (g a)) :
    OneCall view (x >>= f) (y >>= g) where
  forgets := h.forgets.bind fun a => (hnext a).forgets
  seen s := by
    refine remote_bind (fun w => w = s.remote ∨ w.seen = s.remote.seen ++ [view w.remote])
      (h.seen s) ?_
    intro a t ht
    rw [(hnext a).same t, ht]
    exact h.seen s

theorem OneCall.attempt {view : σ → η} (h : OneCall view x y) :
    OneCall view x.attempt y.attempt :=
  ⟨h.forgets.attempt, h.seen⟩

end Session

end PgToolkit
