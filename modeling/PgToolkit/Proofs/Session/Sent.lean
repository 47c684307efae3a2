import PgToolkit.Proofs.Session.Bracket
import PgToolkit.Proofs.Session.Unheeding
import PgToolkit.Proofs.Transaction.Database
import PgToolkit.Session.Layer

/-!
# What is sent for a request

A server is watched: it does what it does, and every message to it is kept. For a request of an
executor over such a server, the messages tell what was made of the text and of the parameters.
-/

namespace PgToolkit

variable {σ α : Type}

/-! ### Messages -/

/-- A server and the messages to it. -/
abbrev Kept (σ : Type) := Watched σ Call

namespace Server

/-- An exchange before which a message is kept. -/
def keep (call : Call) (x : Exchange σ α) : Exchange (Kept σ) α :=
  ExceptT.mk fun s =>
    let (result, remote) := x.run s.remote
    (result, ⟨remote, s.seen ++ [call]⟩)

def kept (server : Server σ) : Server (Kept σ) where
  prepare sql := keep (.prepare sql) (server.prepare sql)
  run bound := keep (.bind bound) (server.run bound)
  command sql := keep (.simple sql) (server.command sql)
  post sql s := ⟨server.post sql s.remote, s.seen ++ [.simple sql]⟩

end Server

/-- The messages for statements without parameters: their text as it is, if it can be sent. -/
def verbatim (sql : String) : List Call :=
  if '\x00' ∈ sql.toList then [] else [.simple sql]

/-- The messages for a statement with parameters. Its placeholders are numbered once, and what is
bound are its parameters, when their number and types are right. -/
inductive Prepared (sql : String) (params : List Value) : List Call → Prop
  | notSent (hnul : '\x00' ∈ (Sql.numberPlaceholders sql).toList) : Prepared sql params []
  | notRun (hnul : '\x00' ∉ (Sql.numberPlaceholders sql).toList) :
    Prepared sql params [.prepare (Sql.numberPlaceholders sql)]
  | run (hnul : '\x00' ∉ (Sql.numberPlaceholders sql).toList) {types : List Wire.PgType}
    {bound : List (Option (List UInt8))} (hbound : Server.bindAll params types = .ok bound) :
    Prepared sql params [.prepare (Sql.numberPlaceholders sql), .bind bound]

/-- The messages for a batch in a bracket: the batch as it is, between the statements of the
bracket. -/
inductive Bracketed (b : Bracket) (sql : String) : List Call → Prop
  | notEntered : Bracketed b sql [.simple b.opening]
  | left {last : String} (hlast : last = b.closing ∨ last = b.undoing) :
    Bracketed b sql (.simple b.opening :: (verbatim sql ++ [.simple last]))

/-- The brackets of atomic batches on a connection. -/
def Connection.Encloses (c : Connection) (b : Bracket) : Prop :=
  if c.isOpen then ∃ number, b = .savepointBatch (Control.savepointName number) else b = .plain

/-- The messages for a request on a connection. -/
def Request.Sent (c : Connection) : Request → List Call → Prop
  | .query sql params, calls => Prepared sql params calls
  | .execute sql params, calls => Prepared sql params calls
  | .batch sql, calls => calls = verbatim sql
  | .transaction sql, calls => ∃ b, c.Encloses b ∧ Bracketed b sql calls

/-! ### Sessions that send -/

namespace Session

/-- A session sends messages of which a condition holds. -/
def Sends (x : Session (Kept σ) α) (sent : List Call → Prop) : Prop :=
  ∀ s, x.Ensures s fun _ t => ∃ calls, t.remote.seen = s.remote.seen ++ calls ∧ sent calls

/-- What is done with a result sends nothing. -/
theorem Sends.bind_ofExcept {β : Type} {x : Session (Kept σ) α} {sent : List Call → Prop}
    (h : x.Sends sent) (f : α → Except Error β) : (x >>= fun a => ofExcept (f a)).Sends sent :=
  fun s => (h s).bind (fun _ _ hsent => hsent) fun _ _ hsent => hsent

end Session

namespace Server

variable {server : Server σ}

theorem seen_lift_keep (call : Call) (x : Exchange σ α) (s : SessionState (Kept σ)) :
    (lift (keep call x)).Ensures s fun _ t => t.remote.seen = s.remote.seen ++ [call] :=
  rfl

theorem seen_send (sql : String) (s : SessionState (Kept σ)) :
    (server.kept.send sql).Ensures s fun _ t =>
      t.remote.seen = s.remote.seen ++ verbatim sql := by
  have hsend : server.kept.send sql =
      Session.ofExcept (sendable sql) >>= fun text => lift (server.kept.command text) := rfl
  rw [hsend]
  by_cases hnul : '\x00' ∈ sql.toList
  · have hfails : sendable sql = .error (.query .unsendable) := by simp [sendable, hnul]
    rw [hfails, verbatim, if_pos hnul]
    exact (List.append_nil s.remote.seen).symm
  · rw [sendable_eq_ok hnul, verbatim, if_neg hnul]
    exact seen_lift_keep (.simple sql) _ s

theorem sends_exchange (sql : String) (values : List Value) :
    (server.kept.exchange sql values).Sends (Prepared sql values) := by
  intro s
  by_cases hnul : '\x00' ∈ (Sql.numberPlaceholders sql).toList
  · have hfails : sendable (Sql.numberPlaceholders sql) = .error (.query .unsendable) := by
      simp [sendable, hnul]
    rw [exchange, hfails]
    exact ⟨[], (List.append_nil _).symm, .notSent hnul⟩
  rw [exchange, sendable_eq_ok hnul]
  refine Session.Ensures.ofExcept_bind (fun text htext => ?_) fun _ h => by cases h
  cases htext
  refine (seen_lift_keep (.prepare _) _ s).bind (fun description t hprepared => ?_)
    fun _ t hprepared => ⟨_, hprepared, .notRun hnul⟩
  refine Session.Ensures.ofExcept_bind (fun bound hbound => ?_)
    fun _ _ => ⟨_, hprepared, .notRun hnul⟩
  have hsent (u : SessionState (Kept σ)) (hrun : u.remote.seen = t.remote.seen ++ [.bind bound]) :
      ∃ calls, u.remote.seen = s.remote.seen ++ calls ∧ Prepared sql values calls := by
    rw [hprepared, List.append_assoc] at hrun
    exact ⟨_, hrun, .run hnul hbound⟩
  exact (seen_lift_keep (.bind bound) _ t).bind (fun _ u hrun => hsent u hrun)
    fun _ u hrun => hsent u hrun

/-- A batch in a bracket whose statements can be sent. -/
theorem sends_around (b : Bracket) (hopening : '\x00' ∉ b.opening.toList)
    (hclosing : '\x00' ∉ b.closing.toList) (hundoing : '\x00' ∉ b.undoing.toList)
    (reason : Error → String) (sql : String) :
    (b.around server.kept.send reason (server.kept.send sql)).Sends (Bracketed b sql) := by
  have hsend (text : String) {s t : SessionState (Kept σ)} {r : Except Error Unit}
      (hrun : (server.kept.send text).runFrom s = (r, t)) :
      t.remote.seen = s.remote.seen ++ verbatim text :=
    (seen_send text s).of_runFrom_eq hrun
  have hopen : verbatim b.opening = [.simple b.opening] := if_neg hopening
  -- the messages of the batch stand between those of the opening and of the end
  have hleft {last : String} {s u v t : SessionState (Kept σ)} {r r' r'' : Except Error Unit}
      (hlast : last = b.closing ∨ last = b.undoing)
      (hentered : (server.kept.send b.opening).runFrom s = (r, u))
      (hbody : (server.kept.send sql).runFrom u = (r', v))
      (hend : (server.kept.send last).runFrom v = (r'', t)) :
      ∃ calls, t.remote.seen = s.remote.seen ++ calls ∧ Bracketed b sql calls := by
    have hnul : '\x00' ∉ last.toList := by rcases hlast with rfl | rfl <;> assumption
    have hclose : verbatim last = [.simple last] := if_neg hnul
    refine ⟨_, ?_, .left hlast⟩
    rw [hsend _ hend, hsend _ hbody, hsend _ hentered, hopen, hclose]
    simp
  intro s
  refine (b.left_around server.kept.send reason (server.kept.send sql) s).mono ?_
  intro r t h
  cases h with
  | notEntered hentered => exact ⟨_, hopen ▸ hsend _ hentered, .notEntered⟩
  | closed hentered hbody hend => exact hleft (.inl rfl) hentered hbody hend
  | notClosed hentered hbody hend => exact hleft (.inl rfl) hentered hbody hend
  | undone hentered hbody hend => exact hleft (.inr rfl) hentered hbody hend
  | notUndone hentered hbody hend => exact hleft (.inr rfl) hentered hbody hend

theorem sends_query (sql : String) (values : List Value) :
    (server.kept.client.query sql values).Sends (Prepared sql values) :=
  (sends_exchange sql values).bind_ofExcept _

theorem sends_execute (sql : String) (values : List Value) :
    (server.kept.client.execute sql values).Sends (Prepared sql values) :=
  (sends_exchange sql values).bind_ofExcept fun answer => .ok answer.2.affected

end Server

/-! ### Connections -/

namespace Connection

theorem nul_not_mem_of_encloses {c : Connection} {b : Bracket} (h : c.Encloses b) :
    '\x00' ∉ b.opening.toList ∧ '\x00' ∉ b.closing.toList ∧ '\x00' ∉ b.undoing.toList := by
  -- the statements of brackets control transactions, and those can be sent
  have hcontrols {b : Bracket} {opening closing undoing : Control}
      (h : b.Controls opening closing undoing) : '\x00' ∉ b.opening.toList ∧
        '\x00' ∉ b.closing.toList ∧ '\x00' ∉ b.undoing.toList :=
    ⟨Control.nul_not_mem_of_ofText? h.opening, Control.nul_not_mem_of_ofText? h.closing,
      Control.nul_not_mem_of_ofText? h.undoing⟩
  unfold Encloses at h
  split at h
  · obtain ⟨number, rfl⟩ := h
    exact hcontrols (Bracket.controls_savepointBatch number)
  · subst h
    exact hcontrols Bracket.controls_plain

/-- A connection from a pool runs statements like the connection of the driver. -/
theorem executor_eq_driver (server : Server σ) (c : Connection) :
    c.executor server = c.driver server := by
  cases c <;> rfl

theorem unheeding_executor (server : Server σ) (c : Connection) :
    (c.executor server).Unheeding := by
  rw [executor_eq_driver, driver]
  split
  · exact server.unheeding_client.inTransaction
  · exact server.unheeding_client

theorem sends_batchTransaction (server : Server σ) (c : Connection) (sql : String) :
    ((c.executor server.kept).batchTransaction sql).Sends
      fun calls => ∃ b, c.Encloses b ∧ Bracketed b sql calls := by
  have haround {b : Bracket} (hb : c.Encloses b) (s : SessionState (Kept σ)) :
      (b.around server.kept.send Error.message (server.kept.send sql)).Ensures s fun _ t =>
        ∃ calls, t.remote.seen = s.remote.seen ++ calls ∧ ∃ b, c.Encloses b ∧
          Bracketed b sql calls := by
    obtain ⟨hopening, hclosing, hundoing⟩ := nul_not_mem_of_encloses hb
    refine (Server.sends_around b hopening hclosing hundoing Error.message sql s).mono ?_
    rintro _ t ⟨calls, hcalls, hbracketed⟩
    exact ⟨calls, hcalls, b, hb, hbracketed⟩
  intro s
  rw [executor_eq_driver, driver]
  split
  · next hopen =>
    have hb : c.Encloses (.savepointBatch (Control.savepointName s.savepoints)) := by
      rw [Encloses, if_pos hopen]
      exact ⟨s.savepoints, rfl⟩
    have hrun : (server.kept.client.inTransaction.batchTransaction sql).runFrom s =
        ((Bracket.savepointBatch (Control.savepointName s.savepoints)).around server.kept.send
          Error.message (server.kept.send sql)).runFrom s.named :=
      Session.runFrom_bind_of_ok (Session.runFrom_nextSavepoint s)
    rw [Session.Ensures, hrun]
    exact haround hb s.named
  · next hopen =>
    have hb : c.Encloses .plain := by
      rw [Encloses, if_neg hopen]
    exact haround hb s

theorem sent_serve (server : Server σ) (c : Connection) (request : Request) :
    ((c.executor server.kept).serve request).Sends (request.Sent c) := by
  have hquery (sql : String) (params : List Value) :
      ((c.executor server.kept).query sql params).Sends (Prepared sql params) := by
    rw [executor_eq_driver, driver]
    split <;> exact Server.sends_query sql params
  have hexecute (sql : String) (params : List Value) :
      ((c.executor server.kept).execute sql params).Sends (Prepared sql params) := by
    rw [executor_eq_driver, driver]
    split <;> exact Server.sends_execute sql params
  have hbatch (sql : String) :
      ((c.executor server.kept).batch sql).Sends fun calls => calls = verbatim sql := by
    intro s
    rw [executor_eq_driver, driver]
    split <;> exact ⟨_, Server.seen_send sql s, rfl⟩
  cases request with
  | query sql params =>
    exact (hquery sql params).bind_ofExcept fun rows => .ok (Response.rows rows)
  | execute sql params =>
    exact (hexecute sql params).bind_ofExcept fun count => .ok (Response.affected count)
  | batch sql => exact (hbatch sql).bind_ofExcept fun _ => .ok Response.done
  | transaction sql =>
    exact (sends_batchTransaction server c sql).bind_ofExcept fun _ => .ok Response.done

end Connection

end PgToolkit
