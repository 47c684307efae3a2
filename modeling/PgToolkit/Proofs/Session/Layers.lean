import Mathlib.Data.List.Forall2
import PgToolkit.Proofs.Session.Sent

/-!
# Layers are transparent

Whatever references and logging layers are put around an executor, and whichever connection of a
pool stands in for the one of the driver: a run of requests has the same answers and the same
effect, and what is sent does not depend on the layers. Only the events tell how many layers are
logged.
-/

namespace PgToolkit

variable {σ α β : Type}

/-- The state of a session with further events. -/
def SessionState.telling (s : SessionState σ) (events : List Event) : SessionState σ :=
  { s with events := s.events ++ events }

/-! ### Events of a request -/

namespace Request

def kind : Request → CallKind
  | .query .. => .query
  | .execute .. => .execute
  | .batch _ => .batch
  | .transaction _ => .transaction

def sql : Request → String
  | .query sql _ => sql
  | .execute sql _ => sql
  | .batch sql => sql
  | .transaction sql => sql

def parameterCount : Request → Nat
  | .query _ params => params.length
  | .execute _ params => params.length
  | .batch _ => 0
  | .transaction _ => 0

end Request

/-- The event of a request, by the way it ended. -/
def LogConfig.event (config : LogConfig) (request : Request) : Except Error α → Event
  | .ok _ =>
    .statement config.level request.kind request.parameterCount (config.shownSql request.sql)
  | .error e => .statementFailed request.kind request.parameterCount (config.shownSql request.sql) e

/-- The events that a layer reports for a request. -/
def Layer.told (request : Request) (result : Except Error α) : Layer → List Event
  | .reference => []
  | .logging config => [config.event request result]

/-- The events that layers report for a request, the innermost layer first. -/
def toldBy (layers : List Layer) (request : Request) (result : Except Error α) : List Event :=
  layers.flatMap (Layer.told request result)

/-! ### One request -/

namespace Session

/-- A session with the runs of another one, which reports some events at the end. -/
def Tells (x y : Session σ α) (told : Except Error α → List Event) : Prop :=
  ∀ s, x.runFrom s = ((y.runFrom s).1, (y.runFrom s).2.telling (told (y.runFrom s).1))

variable {x y z : Session σ α} {told more : Except Error α → List Event}

theorem Tells.refl (x : Session σ α) : Tells x x fun _ => [] := by
  intro s
  simp [SessionState.telling]

theorem Tells.trans (hxy : Tells x y more) (hyz : Tells y z told) :
    Tells x z fun r => told r ++ more r := by
  intro s
  rw [hxy s, hyz s]
  simp [SessionState.telling]

/-- What is done with a result makes no difference to the events, if they tell of failures only. -/
theorem Tells.map (h : Tells x y told) (f : α → β) {told' : Except Error β → List Event}
    (hok : ∀ a, told' (.ok (f a)) = told (.ok a))
    (herror : ∀ e, told' (.error e) = told (.error e)) :
    Tells (x >>= fun a => pure (f a)) (y >>= fun a => pure (f a)) told' := by
  intro s
  have hx := h s
  rcases hrun : y.runFrom s with ⟨e | a, t⟩
  · rw [hrun] at hx
    rw [runFrom_bind_of_error hrun, runFrom_bind_of_error hx, herror]
  · rw [hrun] at hx
    rw [runFrom_bind_of_ok hrun, runFrom_bind_of_ok hx, runFrom_pure, runFrom_pure, hok]

end Session

namespace Executor

theorem tells_observed (config : LogConfig) (request : Request) (call : Session σ α) :
    Session.Tells (observed config request.kind request.sql request.parameterCount call) call
      fun r => [config.event request r] := by
  intro s
  rw [observed, Session.runFrom_bind_of_ok (Session.runFrom_attempt call s)]
  cases (call.runFrom s).1 <;> rfl

theorem tells_layer (e : Executor σ) (l : Layer) (request : Request) :
    Session.Tells ((e.layer l).serve request) (e.serve request) (l.told request) := by
  cases l with
  | reference => cases request <;> exact Session.Tells.refl _
  | logging config =>
    have hserve {α : Type} {call : Session σ α} {f : α → Response} :
        Session.Tells
          (observed config request.kind request.sql request.parameterCount call >>= fun a =>
            pure (f a))
          (call >>= fun a => pure (f a)) (Layer.told request · (.logging config)) :=
      (tells_observed config request call).map f (fun _ => rfl) fun _ => rfl
    cases request <;> exact hserve

/-- Layers around an executor make no difference to its answer. Each logging layer reports one event
for the request, an inner layer before an outer one. -/
theorem tells_layered (e : Executor σ) (layers : List Layer) (request : Request) :
    Session.Tells ((e.layered layers).serve request) (e.serve request) (toldBy layers request) := by
  induction layers generalizing e with
  | nil => exact Session.Tells.refl _
  | cons l layers ih => exact (ih (e.layer l)).trans (tells_layer e l request)

end Executor

/-! ### Runs of requests -/

/-- What came of a request: its answer, and the events that were reported meanwhile. -/
structure Answer where
  result : Except Error Response
  reported : List Event

namespace Executor

/-- Makes a request. Its failure is an answer. -/
def answer (e : Executor σ) (request : Request) : Session σ Answer := do
  let before ← get
  let result ← (e.serve request).attempt
  let after ← get
  return ⟨result, after.events.drop before.events.length⟩

/-- Makes requests one after the other, whether they fail or not. -/
def answerAll (e : Executor σ) (requests : List Request) : Session σ (List Answer) :=
  requests.mapM e.answer

end Executor

/-- An answer with the events of layers around the executor behind its own ones. -/
def Answer.told (layers : List Layer) (request : Request) (a : Answer) : Answer :=
  { a with reported := a.reported ++ toldBy layers request a.result }

/-- From every state, a run of requests has the answers of another executor and leaves the same
other side, and every request is reported by the layers as well. -/
def Executor.AnswersLike (e base : Executor σ) (layers : List Layer) : Prop :=
  ∀ requests s, ∃ answers t, (base.answerAll requests).runFrom s = (.ok answers, t) ∧
    answers.length = requests.length ∧
    (e.answerAll requests).runFrom s = (.ok (List.zipWith (Answer.told layers) requests answers),
      { t with events := s.events ++
          (List.zipWith (Answer.told layers) requests answers).flatMap Answer.reported })

namespace Executor

variable {e : Executor σ}

theorem runFrom_answer (e : Executor σ) (request : Request) (s : SessionState σ) :
    (e.answer request).runFrom s =
      (.ok ⟨((e.serve request).runFrom s).1,
        ((e.serve request).runFrom s).2.events.drop s.events.length⟩,
        ((e.serve request).runFrom s).2) := rfl

/-- The events before a request are not its own. -/
theorem Unheeding.answer (h : e.Unheeding) (request : Request) : (e.answer request).Unheeding := by
  intro events s
  rw [runFrom_answer, runFrom_answer, h.serve request events s]
  simp [SessionState.behind]

theorem Unheeding.answerAll (h : e.Unheeding) (requests : List Request) :
    (e.answerAll requests).Unheeding := by
  induction requests with
  | nil => exact Session.unheeding_pure []
  | cons request requests ih =>
    rw [Executor.answerAll, List.mapM_cons]
    exact (h.answer request).bind fun a => ih.bind fun rest => Session.unheeding_pure (a :: rest)

theorem unheeding_observed (config : LogConfig) (kind : CallKind) (sql : String) (parameters : Nat)
    {call : Session σ α} (h : call.Unheeding) :
    (observed config kind sql parameters call).Unheeding := by
  refine h.attempt.bind fun result => ?_
  cases result with
  | _ => exact (Session.unheeding_report _).bind fun _ => Session.unheeding_ofExcept _

theorem Unheeding.layer (h : e.Unheeding) (l : Layer) : (e.layer l).Unheeding := by
  cases l with
  | reference => exact ⟨h.query, h.execute, h.batch, h.batchTransaction⟩
  | logging config => exact {
      query := fun sql params => unheeding_observed config _ _ _ (h.query sql params)
      execute := fun sql params => unheeding_observed config _ _ _ (h.execute sql params)
      batch := fun sql => unheeding_observed config _ _ _ (h.batch sql)
      batchTransaction := fun sql => unheeding_observed config _ _ _ (h.batchTransaction sql) }

theorem Unheeding.layered (h : e.Unheeding) (layers : List Layer) :
    (e.layered layers).Unheeding := by
  induction layers generalizing e with
  | nil => exact h
  | cons l layers ih => exact ih (h.layer l)

theorem runFrom_answerAll_cons {request : Request} {requests : List Request} {a : Answer}
    {answers : List Answer} {s u t : SessionState σ}
    (hfirst : (e.answer request).runFrom s = (.ok a, u))
    (hrest : (e.answerAll requests).runFrom u = (.ok answers, t)) :
    (e.answerAll (request :: requests)).runFrom s = (.ok (a :: answers), t) := by
  rw [answerAll, List.mapM_cons, Session.runFrom_bind_of_ok hfirst]
  exact Session.runFrom_bind_of_ok hrest

/-- A run of requests on an executor with layers around it. The induction is on the requests, from
states without events, because the events before a request make no difference to it. -/
theorem answersLike_layered (h : e.Unheeding) (layers : List Layer) :
    (e.layered layers).AnswersLike e layers := by
  intro requests
  induction requests with
  | nil => exact fun s => ⟨[], s, rfl, rfl, by simp [answerAll]⟩
  | cons request requests ih =>
    intro s
    rcases hserve : (e.serve request).runFrom { s with events := [] } with ⟨r, u⟩
    have hbase : (e.serve request).runFrom s = (r, u.behind s.events) := by
      have hbehind := h.serve request s.events { s with events := [] }
      rw [hserve] at hbehind
      simpa [SessionState.behind] using hbehind
    have hlayered : ((e.layered layers).serve request).runFrom s =
        (r, (u.behind s.events).telling (toldBy layers request r)) := by
      rw [tells_layered e layers request s, hbase]
    obtain ⟨answers, t, hanswers, hlength, htold⟩ := ih { u with events := [] }
    have hrest := h.answerAll requests (s.events ++ u.events) { u with events := [] }
    have hrest' := (h.layered layers).answerAll requests
      (s.events ++ (u.events ++ toldBy layers request r)) { u with events := [] }
    rw [hanswers] at hrest
    rw [htold] at hrest'
    refine ⟨⟨r, u.events⟩ :: answers, t.behind (s.events ++ u.events), ?_, ?_, ?_⟩
    · refine runFrom_answerAll_cons ?_ hrest
      simp [runFrom_answer, hbase, SessionState.behind]
    · simp [hlength]
    · have hfirst : ((e.layered layers).answer request).runFrom s =
          (.ok (Answer.told layers request ⟨r, u.events⟩),
            SessionState.behind (s.events ++ (u.events ++ toldBy layers request r))
              { u with events := [] }) := by
        simp [runFrom_answer, hlayered, SessionState.behind, SessionState.telling, Answer.told]
      rw [runFrom_answerAll_cons hfirst hrest']
      simp [SessionState.behind, Answer.told]

/-! ### Messages of a run -/

/-- What is sent for one request after the other. -/
theorem sent_answerAll {e : Executor (Kept σ)} {sent : Request → List Call → Prop}
    (h : ∀ request, (e.serve request).Sends (sent request)) (requests : List Request)
    (s : SessionState (Kept σ)) :
    (e.answerAll requests).Ensures s fun r t => r.isOk = true ∧ ∃ calls,
      List.Forall₂ sent requests calls ∧ t.remote.seen = s.remote.seen ++ calls.flatten := by
  induction requests generalizing s with
  | nil => exact ⟨rfl, [], .nil, (List.append_nil _).symm⟩
  | cons request requests ih =>
    have hfirst : (e.answer request).Ensures s fun r t => r.isOk = true ∧
        ∃ calls, t.remote.seen = s.remote.seen ++ calls ∧ sent request calls :=
      ⟨rfl, h request s⟩
    rw [answerAll, List.mapM_cons]
    refine hfirst.bind ?_ fun e t hfails => nomatch hfails.1
    rintro a u ⟨-, first, hseen, hsent⟩
    refine (ih u).bind ?_ fun e t hfails => nomatch hfails.1
    rintro answers t ⟨-, calls, hall, hcalls⟩
    refine ⟨rfl, first :: calls, .cons hsent hall, ?_⟩
    rw [Session.runFrom_pure, hcalls, hseen, List.flatten_cons, List.append_assoc]

theorem sends_layered {e : Executor (Kept σ)} {request : Request} {sent : List Call → Prop}
    (h : (e.serve request).Sends sent) (layers : List Layer) :
    ((e.layered layers).serve request).Sends sent := by
  intro s
  rw [Session.Ensures, tells_layered e layers request s]
  exact h s

/-! ### Transparency -/

/-- References and logging layers around an executor that does not look at events make no difference
to the answers of a run of requests and to the other side, and each logging layer reports one event
for each request. The connections of a pool, with layers around them, answer like the connections of
the driver. Whatever the layers and the connection are, the text of a statement is prepared with its
placeholders numbered once, and batches are sent as they are. -/
theorem layered_transparent (layers : List Layer) :
    (∀ {σ : Type} (e : Executor σ), e.Unheeding → (e.layered layers).AnswersLike e layers) ∧
      (∀ {σ : Type} (server : Server σ) (c : Connection),
        ((c.executor server).layered layers).AnswersLike (c.driver server) layers) ∧
      ∀ {σ : Type} (server : Server σ) (c : Connection) (requests : List Request)
        (s : SessionState (Kept σ)), ∃ calls, List.Forall₂ (Request.Sent c) requests calls ∧
          ((((c.executor server.kept).layered layers).answerAll requests).runFrom s).2.remote.seen =
            s.remote.seen ++ calls.flatten := by
  refine ⟨fun e h => answersLike_layered h layers, fun server c => ?_,
    fun server c requests s => ?_⟩
  · rw [← c.executor_eq_driver]
    exact answersLike_layered (c.unheeding_executor server) layers
  · exact (sent_answerAll (fun request => sends_layered (c.sent_serve server request) layers)
      requests s).2

/-- Two logging layers with references around and between them. -/
def fourLayers : List Layer :=
  [.reference, .logging {}, .reference, .logging ⟨.info, some 8⟩]

/-- Requests of which the second one fails over a broken script. -/
def markedRequests : List Request :=
  [.query "SELECT a ?? 'k' FROM t WHERE b = ?" [.int 1], .transaction "boom",
    .batch "SELECT a ?? 'k'"]

def brokenScript : SessionState (Script Reply Error) :=
  ⟨{ failures := [("boom", .connection "boom")] }, 0, []⟩

theorem layered_transparent_fourLayers :
    Script.executor.Unheeding ∧
      (((Script.executor.layered fourLayers).answerAll markedRequests).runFrom
          brokenScript).2.remote.calls =
        [.query "SELECT a ?? 'k' FROM t WHERE b = ?" [.int 1], .batch "BEGIN", .batch "boom",
          .batch "ROLLBACK", .batch "SELECT a ?? 'k'"] ∧
      .prepare "SELECT a ? 'k' FROM t WHERE b = $1" ∈
        ((((Connection.pooledClient.executor ServerScript.server.kept).layered fourLayers).answerAll
          markedRequests).runFrom ⟨⟨{}, []⟩, 0, []⟩).2.remote.seen := by
  obtain ⟨hlayers, -, hsent⟩ := layered_transparent fourLayers
  refine ⟨Script.unheeding_executor, ?_, ?_⟩
  · obtain ⟨answers, t, hbase, -, hrun⟩ :=
      hlayers Script.executor Script.unheeding_executor markedRequests brokenScript
    rw [hrun]
    exact (congrArg (fun run => run.2.remote.calls) hbase).symm
  · obtain ⟨calls, hall, hseen⟩ :=
      hsent ServerScript.server .pooledClient markedRequests ⟨⟨{}, []⟩, 0, []⟩
    have hnul : '\x00' ∉ (Sql.numberPlaceholders "SELECT a ?? 'k' FROM t WHERE b = ?").toList := by
      decide +kernel
    have htext : Sql.numberPlaceholders "SELECT a ?? 'k' FROM t WHERE b = ?" =
        "SELECT a ? 'k' FROM t WHERE b = $1" := by decide +kernel
    rw [hseen]
    cases hall with
    | cons hfirst _ =>
      cases hfirst with
      | notSent h => exact absurd h hnul
      | notRun => simp [htext]
      | run => simp [htext]

end Executor

end PgToolkit
