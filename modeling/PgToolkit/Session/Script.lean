import PgToolkit.Session.Server

/-!
# Scripted connections

Connections whose answers are given beforehand and that keep what is sent to them. They stand in for
an executor or for a server where statements are to be looked at instead of run.
-/

namespace PgToolkit

/-- What is sent over a scripted connection. -/
inductive Call where
  | query (sql : String) (params : List Value)
  | execute (sql : String) (params : List Value)
  | batch (sql : String)
  | prepare (sql : String)
  | bind (params : List (Option (List UInt8)))
  | simple (sql : String)
  deriving Repr

/-- The state of a scripted connection with replies `ρ` and failures `ε`. -/
structure Script (ρ ε : Type) where
  replies : List ρ := []
  /-- Commands that hold one of these texts fail. -/
  failures : List (String × ε) := []
  /-- The calls so far, oldest first. -/
  calls : List Call := []

def occursIn (needle : List Char) : List Char → Bool
  | [] => needle.isEmpty
  | c :: rest => needle.isPrefixOf (c :: rest) || occursIn needle rest

/-- The reply of a scripted executor. -/
structure Reply where
  rows : List Record := []
  affected : Nat := 0
  error? : Option Error := none

/-- The reply of a scripted server. -/
structure ServerReply where
  description : Description := ⟨[], []⟩
  rows : List (List (Option (List UInt8))) := []
  /-- The number of affected rows, when it is not the number of rows. -/
  affected? : Option Nat := none
  prepareError? : Option DatabaseError := none
  runError? : Option DatabaseError := none

namespace Script

variable {ρ ε : Type}

def record (call : Call) (s : Script ρ ε) : Script ρ ε :=
  { s with calls := s.calls ++ [call] }

/-- The failure of a command, if it is to fail. -/
def failureOf? (s : Script ρ ε) (sql : String) : Option ε :=
  (s.failures.find? fun (needle, _) => occursIn needle.toList sql.toList).map (·.2)

/-- The reply that is next; an empty one when there are none left. -/
def nextReply [Inhabited ρ] (s : Script ρ ε) : ρ × Script ρ ε :=
  match s.replies with
  | [] => (default, s)
  | reply :: rest => (reply, { s with replies := rest })

instance : Inhabited Reply := ⟨{}⟩

instance : Inhabited ServerReply := ⟨{}⟩

/-- Keeps a call on an executor and takes the reply to it. -/
def take (call : Call) : Session (Script Reply Error) Reply := do
  let s ← get
  let (reply, remote) := (s.remote.record call).nextReply
  set { s with remote }
  match reply.error? with
  | some e => throw e
  | none => return reply

/-- Keeps a batch and lets it fail if it is to. -/
def batch (sql : String) : Session (Script Reply Error) Unit := do
  let s ← get
  set { s with remote := s.remote.record (.batch sql) }
  match s.remote.failureOf? sql with
  | some e => throw e
  | none => return

def executor : Executor (Script Reply Error) :=
  Executor.ofStatements
    (fun sql params => do return (← take (.query sql params)).rows)
    (fun sql params => do return (← take (.execute sql params)).affected)
    batch

end Script

/-- The state of a scripted server: its script, the reply to the statement that was prepared last,
and the commands whose answer nobody waits for. -/
structure ServerScript where
  script : Script ServerReply DatabaseError := {}
  prepared : ServerReply := {}
  /-- Commands that arrive ahead of the next call, oldest first. -/
  posted : List String := []

namespace ServerScript

/-- Keeps a call, behind the commands that were posted before it. -/
def record (call : Call) : Exchange ServerScript Unit :=
  modify fun s =>
    let arrived := s.posted.foldl (fun script sql => script.record (.simple sql)) s.script
    { s with script := arrived.record call, posted := [] }

def failWith : Option DatabaseError → Exchange ServerScript Unit
  | some e => throw e
  | none => return

def server : Server ServerScript where
  prepare sql := do
    record (.prepare sql)
    let s ← get
    let (reply, script) := s.script.nextReply
    set { s with script, prepared := reply }
    failWith reply.prepareError?
    return reply.description
  run params := do
    record (.bind params)
    let reply := (← get).prepared
    failWith reply.runError?
    return ⟨reply.rows, reply.affected?.getD reply.rows.length⟩
  command sql := do
    record (.simple sql)
    failWith ((← get).script.failureOf? sql)
  post sql s := { s with posted := s.posted ++ [sql] }

end ServerScript

end PgToolkit
