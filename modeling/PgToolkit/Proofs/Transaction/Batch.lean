import PgToolkit.Proofs.Session.Bracket
import PgToolkit.Proofs.Transaction.Database
import PgToolkit.Schema.Queue

/-!
# Batches in a transaction

Between the statements of a bracket a batch has all of its effects or none. Whatever fails, the
committed data are as before, and so are the data of a transaction around the batch, unless that is
aborted.
-/

namespace PgToolkit

variable {σ κ δ α : Type}

/-! ### What reaches a server -/

@[simp] theorem Server.runFrom_lift (x : Exchange σ α) (s : SessionState σ) :
    (Server.lift x).runFrom s =
      ((x.run s.remote).1.mapError DatabaseError.toError, { s with remote := (x.run s.remote).2 }) :=
  rfl

/-- Batches come to a server and end with its answer; a text that cannot be sent has no effect. -/
def Executor.Reaches (e : Executor σ) (server : Server σ) : Prop :=
  ∀ sql s, (e.batch sql).Ensures s fun r t =>
    ('\x00' ∉ sql.toList ∧ ∃ answer : Except DatabaseError Unit,
      (server.command sql).run s.remote = (answer, t.remote) ∧ r.isOk = answer.isOk) ∨
    ('\x00' ∈ sql.toList ∧ r.isOk = false ∧ t.remote = s.remote)

theorem isOk_mapError {ε ε' : Type} (f : ε → ε') (r : Except ε α) :
    (r.mapError f).isOk = r.isOk := by
  cases r <;> rfl

theorem Server.reaches_client (server : Server σ) : server.client.Reaches server := by
  intro sql s
  have hbatch : server.client.batch sql =
      Session.ofExcept (sendable sql) >>= fun text => lift (server.command text) := rfl
  rw [hbatch]
  refine Session.Ensures.ofExcept_bind ?_ ?_
  · intro text htext
    unfold sendable at htext
    split at htext
    · cases htext
    next hnul =>
      cases htext
      refine .inl ⟨by simpa using hnul, _, rfl, ?_⟩
      rw [runFrom_lift]
      exact isOk_mapError _ _
  · intro failure hfailure
    unfold sendable at hfailure
    split at hfailure
    next hnul => exact .inr ⟨by simpa using hnul, rfl, rfl⟩
    · cases hfailure

/-! ### Statements in a transaction -/

theorem ofText?_batchText (statements : List String) :
    Control.ofText? (batchText statements) = none :=
  Control.ofText?_of_getLast (by simp [batchText])

/-- Statements took effect in their order, each of them once, and turned one state of the data into
another one. -/
def AppliedInOrder (apply : String → Exchange (Store κ δ) Unit) (statements : List String)
    (before after : δ) : Prop :=
  ∃ kept store, (statements.forM apply).run ⟨kept, before⟩ = (.ok (), store) ∧ store.data = after

section

variable {engine : Server (Store κ δ)} {accept : Control → Exchange κ Unit}
  {e : Executor (Database κ δ)} {s t u v : SessionState (Database κ δ)} {r : Except Error Unit}
  {c : Control} {sql : String} {tx : Transaction δ}

theorem Executor.Reaches.of_control (he : e.Reaches (engine.transactional accept))
    (hsql : Control.ofText? sql = some c) (hrun : (e.batch sql).runFrom s = (r, t)) :
    ∃ decided : Database κ δ, decided.committed = s.remote.committed ∧
      decided.open? = s.remote.open? ∧ ((r.isOk = true ∧ c.apply decided = .ok t.remote) ∨
        (r.isOk = false ∧ t.remote = c.fail decided)) := by
  rcases (he sql s).of_runFrom_eq hrun with ⟨-, answer, hanswer, hok⟩ | ⟨hnul, -, -⟩
  · rw [Server.transactional_command_of_control hsql] at hanswer
    obtain ⟨decided, hcommitted, hopen, ⟨rfl, happly⟩ | ⟨hfailed, hfail⟩⟩ :=
      Server.control_cases hanswer
    · exact ⟨decided, hcommitted, hopen, .inl ⟨hok, happly⟩⟩
    · exact ⟨decided, hcommitted, hopen, .inr ⟨hok.trans hfailed, hfail⟩⟩
  · exact absurd hnul (Control.nul_not_mem_of_ofText? hsql)

/-- What other statements do in a transaction: their effect, if they come to the server. -/
theorem Executor.Reaches.of_open (he : e.Reaches (engine.transactional accept))
    (hsql : Control.ofText? sql = none) (hopen : s.remote.open? = some tx)
    (hfailed : tx.failed = false) (hrun : (e.batch sql).runFrom s = (r, t)) :
    (∃ answer store, (engine.command sql).run ⟨s.remote.kept, tx.data⟩ = (answer, store) ∧
      r.isOk = answer.isOk ∧ t.remote = { s.remote with
        kept := store.kept
        open? := some { tx with data := store.data, failed := !answer.isOk } }) ∨
    (r.isOk = false ∧ t.remote = s.remote) := by
  rcases (he sql s).of_runFrom_eq hrun with ⟨-, answer, hanswer, hok⟩ | ⟨-, hok, hremote⟩
  · rw [Server.transactional_command_of_none hsql] at hanswer
    rcases hengine : (engine.command sql).run ⟨s.remote.kept, tx.data⟩ with ⟨answer', store⟩
    rw [Server.ordinary_of_open hopen hfailed hengine] at hanswer
    obtain ⟨rfl, hremote⟩ := Prod.mk.inj hanswer
    exact .inl ⟨_, store, rfl, hok, hremote.symm⟩
  · exact .inr ⟨hok, hremote⟩

/-- A batch in a transaction changes its data by all of its statements, or aborts it, or never comes
to the server. -/
theorem Executor.Reaches.batch_of_open {apply : String → Exchange (Store κ δ) Unit}
    {statements : List String} (he : e.Reaches (engine.transactional accept))
    (hcommand : engine.command (batchText statements) = statements.forM apply)
    (hopen : s.remote.open? = some tx) (hfailed : tx.failed = false)
    (hrun : (e.batch (batchText statements)).runFrom s = (r, t)) :
    t.remote.committed = s.remote.committed ∧ ∃ data failed,
      t.remote.open? = some { tx with data, failed } ∧
      (r.isOk = true → failed = false ∧ AppliedInOrder apply statements tx.data data) := by
  rcases he.of_open (ofText?_batchText statements) hopen hfailed hrun with
    ⟨answer, store, hengine, hok, hremote⟩ | ⟨hok, hremote⟩
  · rw [hremote]
    refine ⟨rfl, store.data, !answer.isOk, rfl, fun hr => ?_⟩
    rw [hok] at hr
    refine ⟨by rw [hr]; rfl, s.remote.kept, store, ?_, rfl⟩
    rw [← hcommand, hengine]
    cases answer with
    | error _ => cases hr
    | ok _ => rfl
  · refine ⟨by rw [hremote], tx.data, tx.failed, by rw [hremote, hopen], fun hr => ?_⟩
    rw [hok] at hr
    cases hr

end

/-! ### A transaction of its own -/

/-- The statements of a batch took effect and are committed. -/
structure Committed (apply : String → Exchange (Store κ δ) Unit) (statements : List String)
    (db db' : Database κ δ) : Prop where
  applied : AppliedInOrder apply statements db.current db'.committed
  ended : db'.open? = none

/-- Nothing was committed, and nothing can be. -/
structure Abandoned (db db' : Database κ δ) : Prop where
  committed : db'.committed = db.committed
  aborted : ∀ tx ∈ db'.open?, tx.failed = true

section

variable {engine : Server (Store κ δ)} {accept : Control → Exchange κ Unit}
  {apply : String → Exchange (Store κ δ) Unit} {statements : List String}
  {e : Executor (Database κ δ)} {s t : SessionState (Database κ δ)} {r : Except Error Unit}

theorem abandoned_abort {db db' : Database κ δ} (h : db'.committed = db.committed) :
    Abandoned db db'.abort where
  committed := h
  aborted := by
    intro tx htx
    obtain ⟨_, -, rfl⟩ := Option.map_eq_some_iff.1 htx
    rfl

theorem exists_tx_of_plain {u v : SessionState (Database κ δ)}
    (he : e.Reaches (engine.transactional accept))
    (hcommand : engine.command (batchText statements) = statements.forM apply)
    (hopen : (e.batch Bracket.plain.opening).runFrom s = (.ok (), u))
    (hbody : (e.batch (batchText statements)).runFrom u = (r, v)) :
    v.remote.committed = s.remote.committed ∧ ∃ tx, v.remote.open? = some tx ∧
      (r.isOk = true → tx.failed = false ∧
        AppliedInOrder apply statements s.remote.current tx.data) := by
  obtain ⟨decided, hdecided, hsame, ⟨-, happly⟩ | ⟨hr, -⟩⟩ :=
    he.of_control Bracket.controls_plain.opening hopen
  · obtain ⟨tx, htx, hfailed, hdata, hcommitted⟩ := Control.of_apply_start happly
    obtain ⟨hbatch, data, failed, hopen, hok⟩ := he.batch_of_open hcommand htx hfailed hbody
    have hcurrent : decided.current = s.remote.current := by
      rw [Database.current, Database.current, hsame, hdecided]
    rw [hdata, hcurrent] at hok
    exact ⟨hbatch.trans (hcommitted.trans hdecided), _, hopen, hok⟩
  · cases hr

theorem plain_left (he : e.Reaches (engine.transactional accept))
    (hcommand : engine.command (batchText statements) = statements.forM apply)
    {reason : Error → String}
    (hleft : Bracket.plain.Left (e.batch Bracket.plain.opening) e.batch reason
      (e.batch (batchText statements)) s r t) :
    (r.isOk = true → Committed apply statements s.remote t.remote) ∧
    (r.isOk = false → Abandoned s.remote t.remote) := by
  have hcontrols := Bracket.controls_plain
  -- whichever way the batch is left, a transaction was begun for it, unless it was not entered
  cases hleft with
  | notEntered hopen =>
    obtain ⟨decided, hdecided, -, ⟨hr, -⟩ | ⟨-, hfail⟩⟩ := he.of_control hcontrols.opening hopen
    · cases hr
    · refine ⟨nofun, fun _ => ?_⟩
      rw [hfail]
      exact abandoned_abort hdecided
  | closed hopen hbody hend =>
    obtain ⟨-, tx, htx, hok⟩ := exists_tx_of_plain he hcommand hopen hbody
    obtain ⟨hfailed, happlied⟩ := hok rfl
    obtain ⟨decided, -, hsame, ⟨-, hclose⟩ | ⟨hr, -⟩⟩ := he.of_control hcontrols.closing hend
    · rw [Control.apply_commit (hsame.trans htx) hfailed] at hclose
      refine ⟨fun _ => ?_, nofun⟩
      rw [← Except.ok.inj hclose]
      exact ⟨happlied, rfl⟩
    · cases hr
  | notClosed hopen hbody hend =>
    obtain ⟨hcommitted, tx, htx, hok⟩ := exists_tx_of_plain he hcommand hopen hbody
    obtain ⟨decided, hdecided, hsame, ⟨hr, -⟩ | ⟨-, hfail⟩⟩ := he.of_control hcontrols.closing hend
    · cases hr
    · rw [Control.fail_commit (hsame.trans htx) (hok rfl).1] at hfail
      refine ⟨nofun, fun _ => ?_⟩
      rw [hfail]
      exact ⟨hdecided.trans hcommitted, nofun⟩
  | undone hopen hbody hend =>
    obtain ⟨hcommitted, tx, htx, -⟩ := exists_tx_of_plain he hcommand hopen hbody
    obtain ⟨decided, hdecided, hsame, ⟨-, hundo⟩ | ⟨hr, -⟩⟩ := he.of_control hcontrols.undoing hend
    · rw [Control.apply_rollback (hsame.trans htx)] at hundo
      refine ⟨nofun, fun _ => ?_⟩
      rw [← Except.ok.inj hundo]
      exact ⟨hdecided.trans hcommitted, nofun⟩
    · cases hr
  | notUndone hopen hbody hend =>
    obtain ⟨hcommitted, -⟩ := exists_tx_of_plain he hcommand hopen hbody
    obtain ⟨decided, hdecided, -, ⟨hr, -⟩ | ⟨-, hfail⟩⟩ := he.of_control hcontrols.undoing hend
    · cases hr
    · refine ⟨nofun, fun _ => ?_⟩
      rw [hfail]
      exact abandoned_abort (hdecided.trans hcommitted)

end

/-! ### A savepoint -/

/-- The statements of a batch took effect in the open transaction, which is as it was otherwise. -/
def Absorbed (apply : String → Exchange (Store κ δ) Unit) (statements : List String)
    (db db' : Database κ δ) : Prop :=
  ∃ tx data, db.open? = some tx ∧ AppliedInOrder apply statements tx.data data ∧
    db'.open? = some { tx with data } ∧ db'.committed = db.committed

/-- Nothing was committed, and an open transaction is aborted or has its data from before. In either
case it can be rolled back as before. -/
structure Restored (db db' : Database κ δ) : Prop where
  committed : db'.committed = db.committed
  idle : db.open? = none → db'.open? = none
  restored : ∀ tx ∈ db.open?, ∃ tx' ∈ db'.open?, tx.savepoints <:+ tx'.savepoints ∧
    (tx'.failed = true ∨ tx'.data = tx.data)

section

variable {engine : Server (Store κ δ)} {accept : Control → Exchange κ Unit}
  {apply : String → Exchange (Store κ δ) Unit} {statements : List String}
  {e : Executor (Database κ δ)} {s t : SessionState (Database κ δ)} {r : Except Error Unit}
  {number : Nat}

theorem restored_of_open {db db' : Database κ δ} {tx tx' : Transaction δ}
    (hcommitted : db'.committed = db.committed) (hopen : db.open? = some tx)
    (hopen' : db'.open? = some tx') (hsavepoints : tx.savepoints <:+ tx'.savepoints)
    (hdata : tx'.failed = true ∨ tx'.data = tx.data) : Restored db db' where
  committed := hcommitted
  idle h := by
    rw [hopen] at h
    cases h
  restored tx₀ htx₀ := by
    rw [hopen] at htx₀
    cases htx₀
    exact ⟨tx', hopen', hsavepoints, hdata⟩

theorem restored_abort {db db' : Database κ δ} (hcommitted : db'.committed = db.committed)
    (hopen : db'.open? = db.open?) : Restored db db'.abort where
  committed := hcommitted
  idle h := by rw [Database.abort, hopen, h]; rfl
  restored tx htx := by
    refine ⟨{ tx with failed := true }, ?_, List.suffix_refl _, .inl rfl⟩
    rw [Database.abort, hopen, htx]
    rfl

theorem restored_abort_of_open {db db' : Database κ δ} {tx tx' : Transaction δ}
    (hcommitted : db'.committed = db.committed) (hopen : db.open? = some tx)
    (hopen' : db'.open? = some tx') (hsavepoints : tx.savepoints <:+ tx'.savepoints) :
    Restored db db'.abort := by
  have haborted : db'.abort.open? = some { tx' with failed := true } := by
    rw [Database.abort, hopen']
    rfl
  exact restored_of_open hcommitted hopen haborted hsavepoints (.inl rfl)

theorem exists_tx_of_savepointBatch {u v : SessionState (Database κ δ)}
    (he : e.Reaches (engine.transactional accept))
    (hcommand : engine.command (batchText statements) = statements.forM apply)
    (hopen : (e.batch (Bracket.savepointBatch (Control.savepointName number)).opening).runFrom s =
      (.ok (), u))
    (hbody : (e.batch (batchText statements)).runFrom u = (r, v)) :
    v.remote.committed = s.remote.committed ∧ ∃ tx data failed, s.remote.open? = some tx ∧
      v.remote.open? =
        some ⟨data, (Control.savepointName number, tx.data) :: tx.savepoints, failed⟩ ∧
      tx.failed = false ∧
      (r.isOk = true → failed = false ∧ AppliedInOrder apply statements tx.data data) := by
  obtain ⟨decided, hdecided, hsame, ⟨-, happly⟩ | ⟨hr, -⟩⟩ :=
    he.of_control (Bracket.controls_savepointBatch number).opening hopen
  · obtain ⟨tx, htx, hfailed⟩ := Control.exists_of_apply_savepoint happly
    rw [Control.apply_savepoint _ htx hfailed] at happly
    have hremote := Except.ok.inj happly
    have hset : u.remote.open? = some { tx with
        savepoints := (Control.savepointName number, tx.data) :: tx.savepoints } := by
      rw [← hremote]
    obtain ⟨hcommitted, data, failed, hopen, hok⟩ := he.batch_of_open hcommand hset hfailed hbody
    refine ⟨hcommitted.trans ?_, tx, data, failed, hsame.symm.trans htx, hopen, hfailed, hok⟩
    rw [← hremote]
    exact hdecided
  · cases hr

theorem savepointBatch_left (he : e.Reaches (engine.transactional accept))
    (hcommand : engine.command (batchText statements) = statements.forM apply)
    {reason : Error → String} {b : Bracket}
    (hb : b = Bracket.savepointBatch (Control.savepointName number))
    (hleft : b.Left (e.batch b.opening) e.batch reason (e.batch (batchText statements)) s r t) :
    (r.isOk = true → Absorbed apply statements s.remote t.remote) ∧
    (r.isOk = false → Restored s.remote t.remote) := by
  subst hb
  have hcontrols := Bracket.controls_savepointBatch number
  have hlast {tx : Transaction δ} : savepointsFrom (Control.savepointName number)
      ((Control.savepointName number, tx.data) :: tx.savepoints) =
        (Control.savepointName number, tx.data) :: tx.savepoints := by
    simp [savepointsFrom]
  -- the savepoint is still the last one when the bracket ends
  cases hleft with
  | notEntered hopen =>
    obtain ⟨decided, hdecided, hsame, ⟨hr, -⟩ | ⟨-, hfail⟩⟩ := he.of_control hcontrols.opening hopen
    · cases hr
    · refine ⟨nofun, fun _ => ?_⟩
      rw [hfail]
      exact restored_abort hdecided hsame
  | closed hopen hbody hend =>
    obtain ⟨hcommitted, tx, data, failed, htx, hopen, hhealthy, hok⟩ :=
      exists_tx_of_savepointBatch he hcommand hopen hbody
    obtain ⟨rfl, happlied⟩ := hok rfl
    obtain ⟨decided, hdecided, hsame, ⟨-, hclose⟩ | ⟨hr, -⟩⟩ :=
      he.of_control hcontrols.closing hend
    · rw [Control.apply_release (hsame.trans hopen) rfl hlast] at hclose
      refine ⟨fun _ => ⟨tx, data, htx, happlied, ?_, ?_⟩, nofun⟩
      · rw [← Except.ok.inj hclose, hhealthy]
      · rw [← Except.ok.inj hclose]
        exact hdecided.trans hcommitted
    · cases hr
  | notClosed hopen hbody hend =>
    obtain ⟨hcommitted, tx, data, failed, htx, hopen, -⟩ :=
      exists_tx_of_savepointBatch he hcommand hopen hbody
    obtain ⟨decided, hdecided, hsame, ⟨hr, -⟩ | ⟨-, hfail⟩⟩ := he.of_control hcontrols.closing hend
    · cases hr
    · refine ⟨nofun, fun _ => ?_⟩
      rw [hfail]
      exact restored_abort_of_open (hdecided.trans hcommitted) htx (hsame.trans hopen)
        (List.suffix_cons _ _)
  | undone hopen hbody hend =>
    obtain ⟨hcommitted, tx, data, failed, htx, hopen, -⟩ :=
      exists_tx_of_savepointBatch he hcommand hopen hbody
    obtain ⟨decided, hdecided, hsame, ⟨-, hundo⟩ | ⟨hr, -⟩⟩ := he.of_control hcontrols.undoing hend
    · rw [Control.apply_rollbackTo (hsame.trans hopen) hlast] at hundo
      refine ⟨nofun, fun _ => ?_⟩
      rw [← Except.ok.inj hundo]
      exact restored_of_open (hdecided.trans hcommitted) htx rfl (List.suffix_cons _ _) (.inr rfl)
    · cases hr
  | notUndone hopen hbody hend =>
    obtain ⟨hcommitted, tx, data, failed, htx, hopen, -⟩ :=
      exists_tx_of_savepointBatch he hcommand hopen hbody
    obtain ⟨decided, hdecided, hsame, ⟨hr, -⟩ | ⟨-, hfail⟩⟩ := he.of_control hcontrols.undoing hend
    · cases hr
    · refine ⟨nofun, fun _ => ?_⟩
      rw [hfail]
      exact restored_abort_of_open (hdecided.trans hcommitted) htx (hsame.trans hopen)
        (List.suffix_cons _ _)

end

end PgToolkit
