import PgToolkit.Proofs.Transaction.Batch

/-!
# Sessions in a transaction

A session in a transaction does what the same session does without one, on the data of the
transaction. Savepoints that were rolled back to stay behind; their names have not been used before,
so no later block takes one of them for its own.
-/

namespace PgToolkit

variable {κ δ α β : Type}

/-! ### Two sides -/

/-- A transaction that goes on; on the other side there are its data, and no transaction. -/
structure InStep (s : SessionState (Database κ δ)) (u : SessionState (Store κ δ))
    (tx : Transaction δ) : Prop where
  isOpen : s.remote.open? = some tx
  healthy : tx.failed = false
  remote : u.remote = ⟨s.remote.kept, tx.data⟩

/-- Savepoints that were named in a session, from one number up to another. -/
def NamedBetween (first last : Nat) (savepoints : List (String × δ)) : Prop :=
  ∀ savepoint ∈ savepoints, ∃ number, first ≤ number ∧ number < last ∧
    savepoint.1 = Control.savepointName number

/-- What is left behind by a session: nothing is committed, the savepoints `stack` are there, and
others only with names that the session gave, the numbers from `first` on. If the transaction
`goesOn`, its data are those of the other side. -/
structure Follows (committed : δ) (first : Nat) (stack : List (String × δ)) (goesOn : Prop)
    (t : SessionState (Database κ δ)) (v : SessionState (Store κ δ)) : Prop where
  committed : t.remote.committed = committed
  kept : v.remote.kept = t.remote.kept
  named : first ≤ t.savepoints
  transaction : ∃ tx stale, t.remote.open? = some tx ∧ tx.savepoints = stale ++ stack ∧
    NamedBetween first t.savepoints stale ∧ (goesOn → tx.failed = false ∧ v.remote.data = tx.data)

/-- The same result on both sides, and the states behind it. -/
def Tracks (s : SessionState (Database κ δ)) (u : SessionState (Store κ δ))
    (stack : List (String × δ)) (goesOn : Except Error α → Prop) (x : Session (Database κ δ) α)
    (y : Session (Store κ δ) α) : Prop :=
  x.Ensures s fun r t => y.Ensures u fun r' v =>
    r = r' ∧ Follows s.remote.committed s.savepoints stack (goesOn r) t v

/-- In every transaction that goes on, the same result; with success it still goes on. -/
def Mirrors (x : Session (Database κ δ) α) (y : Session (Store κ δ) α) : Prop :=
  ∀ s u tx, InStep s u tx → Tracks s u tx.savepoints (fun r => r.isOk = true) x y

/-- In every transaction that goes on, the same result, and it still goes on. -/
def Settles (x : Session (Database κ δ) α) (y : Session (Store κ δ) α) : Prop :=
  ∀ s u tx, InStep s u tx → Tracks s u tx.savepoints (fun _ => True) x y

section

variable {s t : SessionState (Database κ δ)} {u v : SessionState (Store κ δ)} {tx : Transaction δ}
  {stack : List (String × δ)} {committed : δ} {first : Nat} {goesOn : Prop}
  {x : Session (Database κ δ) α} {y : Session (Store κ δ) α}
  {f : α → Session (Database κ δ) β} {g : α → Session (Store κ δ) β}

theorem NamedBetween.mono {first' last last' : Nat} (h : NamedBetween first' last stack)
    (hfirst : first ≤ first') (hlast : last ≤ last') : NamedBetween first last' stack := by
  intro savepoint hmem
  obtain ⟨number, hle, hlt, hname⟩ := h savepoint hmem
  exact ⟨number, hfirst.trans hle, Nat.lt_of_lt_of_le hlt hlast, hname⟩

theorem namedBetween_nil {last : Nat} : NamedBetween first last ([] : List (String × δ)) := by
  intro savepoint hmem
  cases hmem

theorem InStep.follows (h : InStep s u tx) :
    Follows s.remote.committed s.savepoints tx.savepoints goesOn s u where
  committed := rfl
  kept := by rw [h.remote]
  named := Nat.le_refl _
  transaction := ⟨tx, [], h.isOpen, rfl, namedBetween_nil, fun _ => ⟨h.healthy, by rw [h.remote]⟩⟩

theorem Follows.mono {goesOn' : Prop} (h : Follows committed first stack goesOn t v)
    (himp : goesOn' → goesOn) : Follows committed first stack goesOn' t v where
  committed := h.committed
  kept := h.kept
  named := h.named
  transaction := by
    obtain ⟨tx, stale, hopen, hstack, hnames, hdata⟩ := h.transaction
    exact ⟨tx, stale, hopen, hstack, hnames, hdata ∘ himp⟩

theorem Follows.exists_inStep (h : Follows committed first stack goesOn t v) (hgoes : goesOn) :
    ∃ tx stale, InStep t v tx ∧ tx.savepoints = stale ++ stack ∧
      NamedBetween first t.savepoints stale := by
  obtain ⟨tx, stale, hopen, hstack, hnames, hdata⟩ := h.transaction
  obtain ⟨hfailed, hdata⟩ := hdata hgoes
  refine ⟨tx, stale, ⟨hopen, hfailed, ?_⟩, hstack, hnames⟩
  rw [← hdata, ← h.kept]

theorem Tracks.bind (h : Tracks s u stack (fun r => r.isOk = true) x y)
    (hnext : ∀ a t v tx, x.runFrom s = (.ok a, t) → InStep t v tx →
      Tracks t v tx.savepoints (fun r => r.isOk = true) (f a) (g a)) :
    Tracks s u stack (fun r => r.isOk = true) (x >>= f) (y >>= g) := by
  rw [Tracks, Session.Ensures] at h ⊢
  rcases hx : x.runFrom s with ⟨r, t⟩
  rcases hy : y.runFrom u with ⟨r', v⟩
  rw [hx, Session.Ensures, hy] at h
  obtain ⟨rfl, hfollows⟩ := h
  cases r with
  | error e =>
    rw [Session.runFrom_bind_of_error hx, Session.Ensures, Session.runFrom_bind_of_error hy]
    refine ⟨rfl, hfollows.mono ?_⟩
    intro hok
    cases hok
  | ok a =>
    -- the savepoints that the second session leaves behind lie on those of the first one
    obtain ⟨tx, stale, hstep, hstack, hnames⟩ := hfollows.exists_inStep rfl
    rw [Session.runFrom_bind_of_ok hx, Session.Ensures, Session.runFrom_bind_of_ok hy]
    obtain ⟨hresult, hlast⟩ := hnext a t v tx hx hstep
    obtain ⟨tx', stale', hopen', hstack', hnames', hdata'⟩ := hlast.transaction
    refine ⟨hresult, hlast.committed.trans hfollows.committed, hlast.kept,
      hfollows.named.trans hlast.named, tx', stale' ++ stale, hopen', ?_, ?_, hdata'⟩
    · rw [hstack', hstack, List.append_assoc]
    · intro savepoint hmem
      rcases List.mem_append.1 hmem with hmem | hmem
      · exact hnames'.mono hfollows.named (Nat.le_refl _) savepoint hmem
      · exact hnames.mono (Nat.le_refl _) hlast.named savepoint hmem

theorem Mirrors.bind (h : Mirrors x y) (hnext : ∀ a, Mirrors (f a) (g a)) :
    Mirrors (x >>= f) (y >>= g) :=
  fun s u tx hstep => (h s u tx hstep).bind fun a _ _ _ _ hstep => hnext a _ _ _ hstep

theorem mirrors_ofExcept (r : Except Error α) :
    Mirrors (Session.ofExcept r : Session (Database κ δ) α) (Session.ofExcept r) :=
  fun _ _ _ hstep => ⟨rfl, hstep.follows⟩

/-- A session that settles can be followed by anything, whatever its result is. -/
theorem Settles.attempt (h : Settles x y) : Mirrors x.attempt y.attempt := by
  intro s u tx hstep
  obtain ⟨hresult, hfollows⟩ := h s u tx hstep
  exact ⟨congrArg Except.ok hresult, hfollows.mono fun _ => trivial⟩

end

/-! ### Statements -/

section

variable {engine : Server (Store κ δ)} {accept : Control → Exchange κ Unit} {sql : String}

theorem mirrors_ordinary (x : Exchange (Store κ δ) α) :
    Mirrors (Server.lift (Server.ordinary x)) (Server.lift x) := by
  intro s u tx hstep
  rcases hx : x.run ⟨s.remote.kept, tx.data⟩ with ⟨r, store⟩
  rw [Tracks, Session.Ensures, Server.runFrom_lift,
    Server.ordinary_of_open hstep.isOpen hstep.healthy hx, Session.Ensures, Server.runFrom_lift,
    hstep.remote, hx]
  refine ⟨rfl, rfl, rfl, Nat.le_refl _, _, [], rfl, rfl, namedBetween_nil,
    fun hok => ⟨?_, rfl⟩⟩
  rw [isOk_mapError] at hok
  simp [hok]

/-- Behind the preparation of a statement, it is the one to run. -/
theorem runFrom_prepare (hsql : Control.ofText? sql = none) (s : SessionState (Database κ δ)) :
    (Server.lift ((engine.transactional accept).prepare sql)).runFrom s =
      (Server.lift (Server.ordinary (engine.prepare sql))).runFrom
        { s with remote := { s.remote with prepared := sql } } := by
  simp only [Server.transactional, hsql]
  rfl

theorem runFrom_run {s : SessionState (Database κ δ)}
    (hprepared : Control.ofText? s.remote.prepared = none)
    (params : List (Option (List UInt8))) :
    (Server.lift ((engine.transactional accept).run params)).runFrom s =
      (Server.lift (Server.ordinary (engine.run params))).runFrom s := by
  have hget : ∀ f : Database κ δ → Exchange (Database κ δ) Outcome,
      (get >>= f).run s.remote = (f s.remote).run s.remote := fun _ => rfl
  rw [Server.runFrom_lift, Server.runFrom_lift]
  simp only [Server.transactional, hget, hprepared]

/-- A statement other than a control statement leaves alone which one was prepared. -/
theorem prepared_ordinary (x : Exchange (Store κ δ) α) (db : Database κ δ) :
    ((Server.ordinary x).run db).2.prepared = db.prepared := by
  unfold Server.ordinary
  rw [ExceptT.run_mk]
  split
  · rfl
  · split <;> rfl

theorem prepared_of_runFrom_prepare (hsql : Control.ofText? sql = none)
    {s t : SessionState (Database κ δ)} {r : Except Error Description}
    (h : (Server.lift ((engine.transactional accept).prepare sql)).runFrom s = (r, t)) :
    t.remote.prepared = sql := by
  rw [runFrom_prepare hsql] at h
  obtain rfl := congrArg Prod.snd h
  exact prepared_ordinary _ _

theorem eq_of_sendable {text : String} (h : Server.sendable sql = .ok text) : text = sql := by
  unfold Server.sendable at h
  split at h
  · cases h
  · exact (Except.ok.inj h).symm

theorem mirrors_exchange (values : List Value)
    (hsql : Control.ofText? (Sql.numberPlaceholders sql) = none) :
    Mirrors ((engine.transactional accept).exchange sql values) (engine.exchange sql values) := by
  intro s u tx hstep
  refine (mirrors_ofExcept (Server.sendable _) s u tx hstep).bind ?_
  intro text s u tx htext hstep
  obtain rfl := eq_of_sendable (congrArg Prod.fst htext)
  have hprepare : Tracks s u tx.savepoints (fun r => r.isOk = true)
      (Server.lift ((engine.transactional accept).prepare (Sql.numberPlaceholders sql)))
      (Server.lift (engine.prepare (Sql.numberPlaceholders sql))) := by
    rw [Tracks, Session.Ensures, runFrom_prepare hsql]
    exact mirrors_ordinary _ _ u tx ⟨hstep.isOpen, hstep.healthy, hstep.remote⟩
  refine hprepare.bind ?_
  intro description s u tx hprepared hstep
  have hprepared : Control.ofText? s.remote.prepared = none := by
    rw [prepared_of_runFrom_prepare hsql hprepared, hsql]
  refine (mirrors_ofExcept (Server.bindAll _ _) s u tx hstep).bind ?_
  intro bound t u tx hbound hstep
  obtain rfl : s = t := congrArg Prod.snd hbound
  have hrun : Tracks s u tx.savepoints (fun r => r.isOk = true)
      (Server.lift ((engine.transactional accept).run bound)) (Server.lift (engine.run bound)) := by
    rw [Tracks, Session.Ensures, runFrom_run hprepared]
    exact mirrors_ordinary _ s u tx hstep
  exact hrun.bind fun outcome t u tx _ hstep =>
    mirrors_ofExcept (.ok (description, outcome)) t u tx hstep

theorem mirrors_query (values : List Value)
    (hsql : Control.ofText? (Sql.numberPlaceholders sql) = none) :
    Mirrors ((engine.transactional accept).client.query sql values)
      (engine.client.query sql values) :=
  (mirrors_exchange values hsql).bind fun _ => mirrors_ofExcept _

theorem mirrors_execute (values : List Value)
    (hsql : Control.ofText? (Sql.numberPlaceholders sql) = none) :
    Mirrors ((engine.transactional accept).client.execute sql values)
      (engine.client.execute sql values) :=
  (mirrors_exchange values hsql).bind fun answer => mirrors_ofExcept (.ok answer.2.affected)

theorem mirrors_send (hsql : Control.ofText? sql = none) :
    Mirrors ((engine.transactional accept).send sql) (engine.send sql) := by
  intro s u tx hstep
  refine (mirrors_ofExcept (Server.sendable sql) s u tx hstep).bind ?_
  intro text s u tx htext hstep
  obtain rfl := eq_of_sendable (congrArg Prod.fst htext)
  rw [Server.transactional_command_of_none hsql]
  exact mirrors_ordinary _ s u tx hstep

end

/-! ### Blocks -/

/-- A session that is undone when it fails. What is not undone by rolling back stays. -/
def Session.allOrNothing (y : Session (Store κ δ) α) : Session (Store κ δ) α :=
  ExceptT.mk fun u =>
    match y.runFrom u with
    | (.ok a, v) => (.ok a, v)
    | (.error e, v) => (.error e, { v with remote := { v.remote with data := u.remote.data } })

/-- A session that carries out a control statement whenever it is legal. -/
def Carries (x : Session (Database κ δ) Unit) (sql : String) : Prop :=
  ∀ c s db, Control.ofText? sql = some c → c.apply s.remote = .ok db →
    x.runFrom s = (.ok (), { s with remote := db })

section

variable {u : SessionState (Store κ δ)} {x : Session (Database κ δ) α} {y : Session (Store κ δ) α}

theorem runFrom_allOrNothing_ok {a : α} {v : SessionState (Store κ δ)}
    (h : y.runFrom u = (.ok a, v)) : y.allOrNothing.runFrom u = (.ok a, v) := by
  show (match y.runFrom u with | (.ok a, v) => _ | (.error e, v) => _) = _
  rw [h]

theorem runFrom_allOrNothing_error {e : Error} {v : SessionState (Store κ δ)}
    (h : y.runFrom u = (.error e, v)) : y.allOrNothing.runFrom u =
      (.error e, { v with remote := { v.remote with data := u.remote.data } }) := by
  show (match y.runFrom u with | (.ok a, v) => _ | (.error e, v) => _) = _
  rw [h]

theorem carries_command (engine : Server (Store κ δ)) (sql : String) :
    Carries (Server.lift ((engine.transactional fun _ => pure ()).command sql)) sql := by
  intro c s db hsql happly
  rw [Server.transactional_command_of_control hsql, Server.runFrom_lift,
    Server.control_of_apply happly]
  rfl

theorem carries_send (engine : Server (Store κ δ)) (sql : String) :
    Carries ((engine.transactional fun _ => pure ()).send sql) sql := by
  intro c s db hsql happly
  have hsendable := Server.sendable_eq_ok (Control.nul_not_mem_of_ofText? hsql)
  rw [Server.send, hsendable]
  exact carries_command engine sql c s db hsql happly

theorem carries_enter (engine : Server (Store κ δ)) (b : Bracket) :
    Carries ((engine.transactional fun _ => pure ()).enter b) b.opening := by
  intro c s db hsql happly
  have hopen := carries_command engine b.opening c s db hsql happly
  have hattempt : (Server.lift ((engine.transactional fun _ => pure ()).command
      b.opening)).attempt.runFrom s = (.ok (.ok ()), { s with remote := db }) := by
    rw [Session.runFrom_attempt, hopen]
  rw [Server.enter, Session.runFrom_bind_of_ok hattempt]
  rfl

/-- A name stands for the savepoint that was set last under it, so those with other names in front
of it are passed over. -/
theorem savepointsFrom_append {first last number : Nat} {stale rest : List (String × δ)} {data : δ}
    (hstale : NamedBetween first last stale) (hnumber : number < first) :
    savepointsFrom (Control.savepointName number)
      (stale ++ (Control.savepointName number, data) :: rest) =
        (Control.savepointName number, data) :: rest := by
  rw [savepointsFrom, List.dropWhile_append_of_pos]
  · simp
  · intro savepoint hmem
    obtain ⟨other, hle, -, hname⟩ := hstale savepoint hmem
    rw [hname, bne_iff_ne]
    intro heq
    have := Control.savepointName_injective heq
    omega

/-- A block in a savepoint of its own. Whatever its body does, the transaction goes on behind it,
with the effects of the body or with none. -/
theorem settles_savepointed {bracket : String → Bracket}
    {enter : Bracket → Session (Database κ δ) Unit} {command : String → Session (Database κ δ) Unit}
    {reason : Error → String}
    (hbracket : ∀ number, (bracket (Control.savepointName number)).Controls
      (.savepoint (Control.savepointName number)) (.release (Control.savepointName number))
      (.rollbackTo (Control.savepointName number)))
    (henter : ∀ b, Carries (enter b) b.opening) (hcommand : ∀ sql, Carries (command sql) sql)
    (hbody : Mirrors x y) :
    Settles (Bracket.savepointed bracket enter command reason x) y.allOrNothing := by
  intro s u tx hstep
  have hcontrols := hbracket s.savepoints
  -- inside of the block the transaction has one savepoint more
  obtain ⟨inside, hopen, hstep', hcommitted, hsavepoints⟩ : ∃ inside,
      (enter (bracket (Control.savepointName s.savepoints))).runFrom s.named = (.ok (), inside) ∧
      InStep inside u { tx with
        savepoints := (Control.savepointName s.savepoints, tx.data) :: tx.savepoints } ∧
      inside.remote.committed = s.remote.committed ∧ inside.savepoints = s.savepoints + 1 :=
    ⟨_, henter _ _ s.named _ hcontrols.opening
      (Control.apply_savepoint _ hstep.isOpen hstep.healthy),
      ⟨rfl, hstep.healthy, hstep.remote⟩, rfl, rfl⟩
  have htracks := hbody inside u _ hstep'
  rcases hx : x.runFrom inside with ⟨r, t⟩
  rcases hy : y.runFrom u with ⟨r', v⟩
  rw [Tracks, Session.Ensures, hx, Session.Ensures, hy] at htracks
  obtain ⟨rfl, hfollows⟩ := htracks
  rw [hcommitted, hsavepoints] at hfollows
  obtain ⟨tx', stale, hopen', hstack, hnames, hdata⟩ := hfollows.transaction
  -- later savepoints have greater numbers, so the name still stands for this one
  have hfrom : savepointsFrom (Control.savepointName s.savepoints) tx'.savepoints =
      (Control.savepointName s.savepoints, tx.data) :: tx.savepoints := by
    rw [hstack]
    exact savepointsFrom_append hnames (Nat.lt_succ_self _)
  have hnumber : s.savepoints < t.savepoints := hfollows.named
  rw [Tracks, Session.Ensures, Bracket.savepointed,
    Session.runFrom_bind_of_ok (Session.runFrom_nextSavepoint s), Bracket.runFrom_enclosed hopen hx]
  cases r with
  | ok a =>
    obtain ⟨hhealthy, hdata⟩ := hdata rfl
    have hclose := hcommand _ _ t _ hcontrols.closing
      (Control.apply_release hopen' hhealthy hfrom)
    rw [Bracket.runFrom_leave_ok hclose, Session.Ensures, runFrom_allOrNothing_ok hy]
    exact ⟨rfl, hfollows.committed, hfollows.kept, hnumber.le, _, [], rfl, rfl,
      namedBetween_nil, fun _ => ⟨hhealthy, hdata⟩⟩
  | error e =>
    have hundo := hcommand _ _ t _ hcontrols.undoing (Control.apply_rollbackTo hopen' hfrom)
    rw [Bracket.runFrom_leave_error hundo, Session.Ensures, runFrom_allOrNothing_error hy]
    refine ⟨rfl, hfollows.committed, hfollows.kept, hnumber.le, _,
      [(Control.savepointName s.savepoints, tx.data)], rfl, rfl, ?_, fun _ => ⟨rfl, ?_⟩⟩
    · intro savepoint hmem
      rw [List.mem_singleton.1 hmem]
      exact ⟨s.savepoints, Nat.le_refl _, hnumber, rfl⟩
    · rw [hstep.remote]

end

end PgToolkit
