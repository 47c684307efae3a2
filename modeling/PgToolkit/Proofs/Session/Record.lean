import PgToolkit.Proofs.Session.Watch

/-!
# Recorded sessions

An executor can be recorded: every request is kept, and whether it succeeded. A failure that a
session deals with is in the record all the same, so a record without failures tells that nothing
failed on the way, whatever the result is.
-/

namespace PgToolkit

/-- What an executor is asked for. -/
inductive Request where
  | query (sql : String) (params : List Value)
  | execute (sql : String) (params : List Value)
  | batch (sql : String)
  | transaction (sql : String)

/-- A request, and whether it succeeded. -/
structure Answered where
  request : Request
  succeeded : Bool

/-- A connection whose requests are recorded. -/
abbrev Recorded (σ : Type) := Watched σ Answered

variable {σ α β : Type}

namespace Session

/-- Runs a session as the answer to a request. -/
def record (request : Request) (x : Session σ α) : Session (Recorded σ) α :=
  ExceptT.mk fun s =>
    let (result, t) := x.runFrom s.forget
    (result, { t with remote := ⟨t.remote, s.remote.seen ++ [⟨request, result.isOk⟩]⟩ })

end Session

def Executor.recorded (conn : Executor σ) : Executor (Recorded σ) where
  query sql params := Session.record (.query sql params) (conn.query sql params)
  execute sql params := Session.record (.execute sql params) (conn.execute sql params)
  batch sql := Session.record (.batch sql) (conn.batch sql)
  batchTransaction sql := Session.record (.transaction sql) (conn.batchTransaction sql)

namespace Session

/-- What was recorded before a session stays. -/
def Grows (x : Session (Recorded σ) α) : Prop :=
  ∀ s, s.remote.seen <+: (x.runFrom s).2.remote.seen

/-- A session over a recorded connection has the runs of another one over the connection itself, and
its record grows. -/
structure Records (x : Session (Recorded σ) α) (y : Session σ α) : Prop where
  forgets : Forgets x y
  grows : Grows x

theorem runFrom_record (request : Request) {y : Session σ α} {s : SessionState (Recorded σ)}
    {t : SessionState σ} {r : Except Error α} (hrun : y.runFrom s.forget = (r, t)) :
    runFrom (record request y) s =
      (r, { t with remote := ⟨t.remote, s.remote.seen ++ [⟨request, r.isOk⟩]⟩ }) := by
  have hrecord : runFrom (record request y) s = ((y.runFrom s.forget).1,
      { (y.runFrom s.forget).2 with
        remote := ⟨(y.runFrom s.forget).2.remote,
          s.remote.seen ++ [⟨request, (y.runFrom s.forget).1.isOk⟩]⟩ }) := rfl
  rw [hrecord, hrun]

theorem records_record (request : Request) (y : Session σ α) : Records (record request y) y :=
  ⟨fun _ => rfl, fun _ => List.prefix_append ..⟩

theorem NoCall.records {x : Session (Recorded σ) α} {y : Session σ α} (h : NoCall x y) :
    Records x y :=
  ⟨h.forgets, fun s => h.same s ▸ List.prefix_rfl⟩

variable {x : Session (Recorded σ) α} {y : Session σ α} {f : α → Session (Recorded σ) β}
  {g : α → Session σ β}

theorem Records.attempt (h : Records x y) : Records x.attempt y.attempt :=
  ⟨h.forgets.attempt, h.grows⟩

theorem Grows.bind (h : Grows x) (hnext : ∀ a, Grows (f a)) : Grows (x >>= f) := by
  intro s
  refine remote_bind (s.remote.seen <+: ·.seen) (h s) fun a t ht => ?_
  exact List.IsPrefix.trans (ht ▸ h s) (hnext a t)

theorem Records.bind (h : Records x y) (hnext : ∀ a, Records (f a) (g a)) :
    Records (x >>= f) (y >>= g) :=
  ⟨h.forgets.bind fun a => (hnext a).forgets, h.grows.bind fun a => (hnext a).grows⟩

theorem records_respectful : Respectful (@Records σ) where
  ofExcept r := (noCall_ofExcept r).records
  report event := (noCall_report event).records
  attempt := Records.attempt
  bind := Records.bind

/-! ### Sessions in which nothing fails -/

/-- No request has failed so far. -/
def NoneFailed (s : SessionState (Recorded σ)) : Prop :=
  ∀ answered ∈ s.remote.seen, answered.succeeded = true

theorem NoneFailed.of_prefix {s t : SessionState (Recorded σ)} (h : NoneFailed t)
    (hgrows : s.remote.seen <+: t.remote.seen) : NoneFailed s :=
  fun answered hmem => h answered (hgrows.subset hmem)

/-- A session has a result, of which a condition holds, unless one of its requests fails. -/
def Succeeds (x : Session (Recorded σ) α) (s : SessionState (Recorded σ))
    (post : α → SessionState (Recorded σ) → Prop) : Prop :=
  x.Ensures s fun r t => NoneFailed t → ∃ a, r = .ok a ∧ post a t

variable {s : SessionState (Recorded σ)} {post : α → SessionState (Recorded σ) → Prop}
  {last : β → SessionState (Recorded σ) → Prop}

theorem Succeeds.of_runFrom_eq (h : x.Succeeds s post) {r : Except Error α}
    {t : SessionState (Recorded σ)} (hrun : x.runFrom s = (r, t)) (hnone : NoneFailed t) :
    ∃ a, r = .ok a ∧ post a t :=
  Ensures.of_runFrom_eq h hrun hnone

theorem succeeds_pure {a : α} (h : post a s) :
    Succeeds (pure a : Session (Recorded σ) α) s post :=
  fun _ => ⟨a, rfl, h⟩

theorem succeeds_report {event : Event} (post : Unit → SessionState (Recorded σ) → Prop)
    (h : ∀ t, t.remote = s.remote → post () t) : Succeeds (report event) s post :=
  fun _ => ⟨(), rfl, h _ rfl⟩

/-- A request is in the record, and what it did to the other side is known when it succeeded. -/
theorem succeeds_record {request : Request} {y : Session σ α}
    (h : ∀ a t, y.runFrom s.forget = (.ok a, t) →
      post a { t with remote := ⟨t.remote, s.remote.seen ++ [⟨request, true⟩]⟩ }) :
    Succeeds (record request y) s post := by
  rcases hrun : y.runFrom s.forget with ⟨e | a, t⟩
  · -- a failure is in the record
    intro hnone
    rw [runFrom_record request hrun] at hnone
    have hlast := hnone ⟨request, false⟩ (List.mem_append_right _ (List.mem_singleton.2 rfl))
    cases hlast
  · rw [Succeeds, Ensures, runFrom_record request hrun]
    exact fun _ => ⟨a, rfl, h a t hrun⟩

theorem Succeeds.mono {post' : α → SessionState (Recorded σ) → Prop} (h : x.Succeeds s post)
    (himp : ∀ a t, post a t → post' a t) : x.Succeeds s post' := by
  intro hnone
  obtain ⟨a, hr, hpost⟩ := h hnone
  exact ⟨a, hr, himp a _ hpost⟩

theorem Succeeds.bind (h : x.Succeeds s post) (hgrows : ∀ a, Grows (f a))
    (hnext : ∀ a t, post a t → (f a).Succeeds t last) : Succeeds (x >>= f) s last := by
  refine Ensures.bind h ?_ ?_
  · -- nothing failed in the first part when nothing failed at all
    intro a t hfirst hnone
    obtain ⟨_, ⟨⟩, hpost⟩ := hfirst (hnone.of_prefix (hgrows a t))
    exact hnext a t hpost hnone
  · intro e t hfirst hnone
    obtain ⟨_, ⟨⟩, _⟩ := hfirst hnone

/-- A session whose first part is known already. -/
theorem Succeeds.ofExcept_bind {r : Except Error α} {a : α} (hr : r = .ok a)
    (h : (f a).Succeeds s last) : Succeeds (ofExcept r >>= f) s last := by
  subst hr
  exact h

/-- A session that fails only with a request: what follows depends on the result. -/
theorem Succeeds.attempt_bind {f : Except Error α → Session (Recorded σ) β}
    (h : x.Succeeds s post) (hgrows : ∀ r, Grows (f r))
    (hnext : ∀ a t, post a t → (f (.ok a)).Succeeds t last) :
    Succeeds (x.attempt >>= f) s last := by
  refine Ensures.attempt_bind h ?_
  intro r t hfirst hnone
  obtain ⟨a, rfl, hpost⟩ := hfirst (hnone.of_prefix (hgrows r t))
  exact hnext a t hpost hnone

/-! ### What is asked for -/

/-- All requests that a session makes meet a condition. -/
def Asks (asked : Request → Prop) (x : Session (Recorded σ) α) : Prop :=
  ∀ s, ∃ made : List Answered, (x.runFrom s).2.remote.seen = s.remote.seen ++ made ∧
    ∀ answered ∈ made, asked answered.request

variable {asked : Request → Prop}

theorem asks_record {request : Request} (h : asked request) (y : Session σ α) :
    Asks asked (record request y) :=
  fun _ => ⟨[⟨request, _⟩], rfl, List.forall_mem_singleton.2 h⟩

theorem asks_ofExcept (r : Except Error α) :
    Asks asked (ofExcept r : Session (Recorded σ) α) :=
  fun _ => ⟨[], (List.append_nil _).symm, by simp⟩

theorem asks_pure (a : α) : Asks asked (pure a : Session (Recorded σ) α) :=
  asks_ofExcept (.ok a)

theorem asks_throw (e : Error) : Asks asked (throw e : Session (Recorded σ) α) :=
  asks_ofExcept (.error e)

theorem asks_report (event : Event) : Asks asked (report event : Session (Recorded σ) Unit) :=
  fun _ => ⟨[], (List.append_nil _).symm, by simp⟩

theorem Asks.attempt (h : Asks asked x) : Asks asked x.attempt := h

theorem Asks.bind (h : Asks asked x) (hnext : ∀ a, Asks asked (f a)) : Asks asked (x >>= f) := by
  intro s
  obtain ⟨made, hseen, hmade⟩ := h s
  rcases hrun : x.runFrom s with ⟨e | a, t⟩
  · rw [runFrom_bind_of_error hrun]
    rw [hrun] at hseen
    exact ⟨made, hseen, hmade⟩
  · rw [runFrom_bind_of_ok hrun]
    rw [hrun] at hseen
    obtain ⟨more, hmore, hall⟩ := hnext a t
    refine ⟨made ++ more, ?_, List.forall_mem_append.2 ⟨hmade, hall⟩⟩
    rw [hmore, hseen, List.append_assoc]

theorem Asks.ofExcept_bind {r : Except Error α} (h : ∀ a, r = .ok a → Asks asked (f a)) :
    Asks asked (ofExcept r >>= f) := by
  cases r with
  | error e => exact asks_throw e
  | ok a => exact h a rfl

theorem asks_forM {g : α → Session (Recorded σ) Unit} (h : ∀ a, Asks asked (g a))
    (items : List α) : Asks asked (items.forM g) := by
  induction items with
  | nil => exact asks_pure ()
  | cons item rest ih => exact (h item).bind fun _ => ih

end Session

end PgToolkit
