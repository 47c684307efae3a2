import PgToolkit.Proofs.Session.Bracket
import PgToolkit.Proofs.Sql.Region
import PgToolkit.Session.Server

/-!
# A server with transactions

A server that keeps transactions, on top of one that only runs statements. What statements change is
undone by going back to a state from before; a part of the state that is never undone is left to
whatever else the outcome of a statement depends on.

A name stands for the savepoint that was set last under it. A statement that fails in a transaction
aborts it, and an aborted transaction refuses everything until it is rolled back.
-/

namespace PgToolkit

/-! ### Control statements -/

/-- A statement that controls transactions. -/
inductive Control where
  | start
  | commit
  | rollback
  | savepoint (name : String)
  | release (name : String)
  | rollbackTo (name : String)
  deriving DecidableEq, Repr

namespace Control

/-- The name behind a keyword, if the text is nothing else. -/
def nameBehind? (keyword text : String) : Option String :=
  let name := text.toList.drop keyword.toList.length
  if keyword.toList <+: text.toList ∧ name ≠ [] ∧ name.all Sql.isTagPart = true then
    some (String.ofList name)
  else none

/-- The keywords in front of the name of a savepoint. -/
def keywords : List (String × (String → Control)) :=
  [("SAVEPOINT ", savepoint), ("RELEASE SAVEPOINT ", release), ("RELEASE ", release),
    ("ROLLBACK TO SAVEPOINT ", rollbackTo), ("ROLLBACK TO ", rollbackTo)]

/-- The control statement that a text is. -/
def ofText? (text : String) : Option Control :=
  if text = "BEGIN" ∨ text = "START TRANSACTION" then some .start
  else if text = "COMMIT" then some .commit
  else if text = "ROLLBACK" then some .rollback
  else keywords.findSome? fun (keyword, control) => (nameBehind? keyword text).map control

end Control

/-! ### States -/

/-- What statements read and change. -/
structure Store (κ δ : Type) where
  /-- What is not undone. -/
  kept : κ
  data : δ

/-- An open transaction. -/
structure Transaction (δ : Type) where
  data : δ
  /-- The savepoints and the data at each of them, the last one first. -/
  savepoints : List (String × δ) := []
  failed : Bool := false

/-- What a server keeps for one connection. -/
structure Database (κ δ : Type) where
  kept : κ
  committed : δ
  open? : Option (Transaction δ) := none
  /-- The statement that was prepared last. -/
  prepared : String := ""

namespace Database

variable {κ δ : Type}

/-- The data that the next statement sees. -/
def current (db : Database κ δ) : δ :=
  match db.open? with
  | some tx => tx.data
  | none => db.committed

/-- Aborts the transaction, if one is open. -/
def abort (db : Database κ δ) : Database κ δ :=
  { db with open? := db.open?.map fun tx => { tx with failed := true } }

end Database

/-! ### Statements -/

/-- A refusal by the server. -/
def refusal (code message : String) : DatabaseError := ⟨code, message, none⟩

def abortedRefusal : DatabaseError :=
  refusal "25P02" "current transaction is aborted, commands ignored until end of transaction block"

def idleRefusal : DatabaseError :=
  refusal "25P01" "there is no transaction in progress"

def savepointRefusal : DatabaseError :=
  refusal "3B001" "savepoint does not exist"

variable {κ δ α : Type}

/-- The savepoints from the last one of a name on. -/
def savepointsFrom (name : String) (savepoints : List (String × δ)) : List (String × δ) :=
  savepoints.dropWhile fun savepoint => savepoint.1 != name

namespace Control

/-- What a control statement does in an open transaction. -/
def applyOpen (c : Control) (tx : Transaction δ) (db : Database κ δ) :
    Except DatabaseError (Database κ δ) :=
  match c with
  | .rollback => .ok { db with open? := none }
  | .rollbackTo name =>
    match savepointsFrom name tx.savepoints with
    | [] => .error savepointRefusal
    | (name, data) :: rest =>
      .ok { db with open? := some { data, savepoints := (name, data) :: rest } }
  | c =>
    if tx.failed then .error abortedRefusal
    else
      match c with
      | .commit => .ok { db with committed := tx.data, open? := none }
      | .savepoint name =>
        .ok { db with open? := some { tx with savepoints := (name, tx.data) :: tx.savepoints } }
      | .release name =>
        match savepointsFrom name tx.savepoints with
        | [] => .error savepointRefusal
        | _ :: rest => .ok { db with open? := some { tx with savepoints := rest } }
      -- a transaction that is open already only makes the server warn
      | _ => .ok db

/-- What a control statement does. -/
def apply (c : Control) (db : Database κ δ) : Except DatabaseError (Database κ δ) :=
  match db.open?, c with
  | some tx, c => c.applyOpen tx db
  | none, .start => .ok { db with open? := some { data := db.committed } }
  -- without a transaction, ending one only makes the server warn
  | none, .commit => .ok db
  | none, .rollback => .ok db
  | none, _ => .error idleRefusal

/-- What the failure of a control statement does. A transaction that could not be committed is over;
every other failure aborts it. -/
def fail (c : Control) (db : Database κ δ) : Database κ δ :=
  match c, db.open? with
  | .commit, some tx => if tx.failed then db else { db with open? := none }
  | _, _ => db.abort

end Control

namespace Server

/-- A control statement. Whether the server can carry it out, `accept` says. -/
def control (accept : Control → Exchange κ Unit) (c : Control) : Exchange (Database κ δ) Unit :=
  ExceptT.mk fun db =>
    let (accepted, kept) := (accept c).run db.kept
    match accepted.bind fun _ => c.apply { db with kept } with
    | .ok db => (.ok (), db)
    | .error e => (.error e, c.fail { db with kept })

/-- Any other statement: on the data of the open transaction, or in one of its own. -/
def ordinary (x : Exchange (Store κ δ) α) : Exchange (Database κ δ) α :=
  ExceptT.mk fun db =>
    match db.open? with
    | none =>
      let (result, store) := x.run ⟨db.kept, db.committed⟩
      (result, { db with
        kept := store.kept
        committed := if result.isOk then store.data else db.committed })
    | some tx =>
      if tx.failed then (.error abortedRefusal, db)
      else
        let (result, store) := x.run ⟨db.kept, tx.data⟩
        (result, { db with
          kept := store.kept
          open? := some { tx with data := store.data, failed := !result.isOk } })

/-- Commands of a server with transactions. -/
def transactionalCommand (engine : Server (Store κ δ)) (accept : Control → Exchange κ Unit)
    (sql : String) : Exchange (Database κ δ) Unit :=
  match Control.ofText? sql with
  | some c => control accept c
  | none => ordinary (engine.command sql)

/-- A server with transactions, over one that runs statements. Control statements can be prepared,
too. -/
def transactional (engine : Server (Store κ δ)) (accept : Control → Exchange κ Unit) :
    Server (Database κ δ) where
  prepare sql := do
    modify fun db => { db with prepared := sql }
    match Control.ofText? sql with
    | some _ => return ⟨[], []⟩
    | none => ordinary (engine.prepare sql)
  run params := do
    match Control.ofText? (← get).prepared with
    | some c =>
      control accept c
      return ⟨[], 0⟩
    | none => ordinary (engine.run params)
  command := transactionalCommand engine accept
  post sql db := ((transactionalCommand engine accept sql).run db).2

end Server

/-! ### Texts -/

namespace Control

variable {keyword name text : String}

theorem nameBehind?_append (hne : name.toList ≠ [])
    (hname : name.toList.all Sql.isTagPart = true) :
    nameBehind? keyword (keyword ++ name) = some name := by
  simp [nameBehind?, hne, hname]

theorem nameBehind?_of_not_prefix (h : ¬ keyword.toList <+: text.toList) :
    nameBehind? keyword text = none := by
  rw [nameBehind?, if_neg fun hall => h hall.1]

/-- A name and the keyword in front of it are the whole text. -/
theorem append_of_nameBehind? (h : nameBehind? keyword text = some name) :
    text.toList = keyword.toList ++ name.toList ∧ name.toList.all Sql.isTagPart = true := by
  unfold nameBehind? at h
  dsimp only at h
  split at h
  next hall =>
    obtain ⟨⟨rest, hrest⟩, -, hname⟩ := hall
    obtain rfl := Option.some.inj h
    rw [← hrest, List.drop_left] at hname ⊢
    exact ⟨by rw [String.toList_ofList], by rw [String.toList_ofList, hname]⟩
  next => cases h

/-- A text that does not end with a name is no keyword with a name. -/
theorem nameBehind?_of_getLast {c : Char} (hlast : text.toList.getLast? = some c)
    (hc : Sql.isTagPart c = false) : nameBehind? keyword text = none := by
  rw [nameBehind?, if_neg]
  rintro ⟨-, hne, hall⟩
  have hmem : c ∈ text.toList.drop keyword.toList.length := by
    refine List.mem_of_getLast? ?_
    rw [List.getLast?_drop, if_neg (mt List.drop_eq_nil_of_le hne), hlast]
  rw [List.all_eq_true.1 hall c hmem] at hc
  cases hc

/-- A text that ends with a semicolon is no control statement. -/
theorem ofText?_of_getLast (hlast : text.toList.getLast? = some ';') : ofText? text = none := by
  have hname {keyword : String} : nameBehind? keyword text = none :=
    nameBehind?_of_getLast hlast (by decide)
  have hword {word : String} (hword : word.toList.getLast? ≠ some ';') : text ≠ word := by
    rintro rfl
    exact hword hlast
  rw [ofText?, if_neg, if_neg, if_neg]
  · simp [hname, keywords]
  · exact hword (by decide)
  · exact hword (by decide)
  · rintro (h | h)
    · exact hword (by decide) h
    · exact hword (by decide) h

/-- The name of a savepoint, by its number in the session. -/
def savepointName (number : Nat) : String := "pgfluent_sp_" ++ toString number

theorem toList_savepointName (number : Nat) :
    (savepointName number).toList = "pgfluent_sp_".toList ++ Nat.toDigits 10 number := by
  simp [savepointName]

theorem savepointName_injective : Function.Injective savepointName := by
  intro m n h
  have hdigits := congrArg String.toList h
  rw [toList_savepointName, toList_savepointName] at hdigits
  rw [← Nat.ofDigitChars_ten_toDigits (n := m), List.append_cancel_left hdigits,
    Nat.ofDigitChars_ten_toDigits]

theorem all_savepointName (number : Nat) :
    (savepointName number).toList.all Sql.isTagPart = true := by
  rw [toList_savepointName, List.all_append, Bool.and_eq_true]
  refine ⟨by decide, List.all_eq_true.2 fun c hc => ?_⟩
  have hdigit := Nat.isDigit_of_mem_toDigits (by decide) (by decide) hc
  simp [Sql.isTagPart, Char.isAlphanum, hdigit]

theorem nameBehind?_savepointName (keyword : String) (number : Nat) :
    nameBehind? keyword (keyword ++ savepointName number) = some (savepointName number) := by
  refine nameBehind?_append ?_ (all_savepointName number)
  rw [toList_savepointName]
  exact List.cons_ne_nil _ _

theorem ofText?_append_savepointName {control : String → Control}
    (h : (keyword, control) ∈ keywords) (number : Nat) :
    ofText? (keyword ++ savepointName number) = some (control (savepointName number)) := by
  simp only [keywords, List.mem_cons, List.not_mem_nil, or_false, Prod.mk.injEq] at h
  rcases h with ⟨rfl, rfl⟩ | ⟨rfl, rfl⟩ | ⟨rfl, rfl⟩ | ⟨rfl, rfl⟩ | ⟨rfl, rfl⟩
  all_goals
    rw [ofText?, if_neg, if_neg, if_neg, keywords]
    · simp [nameBehind?_savepointName, nameBehind?_of_not_prefix, toList_savepointName]
    all_goals simp [String.ext_iff, toList_savepointName]

/-- Control statements can always be sent. -/
theorem nul_not_mem_of_ofText? {c : Control} (h : ofText? text = some c) :
    '\x00' ∉ text.toList := by
  unfold ofText? at h
  split at h
  next hword => rcases hword with rfl | rfl <;> decide
  split at h
  next hword => subst hword; decide
  split at h
  next hword => subst hword; decide
  obtain ⟨⟨keyword, control⟩, hmem, hname⟩ := List.exists_of_findSome?_eq_some h
  obtain ⟨name, hname, -⟩ := Option.map_eq_some_iff.1 hname
  obtain ⟨htext, hall⟩ := append_of_nameBehind? hname
  rw [htext, List.mem_append, not_or]
  constructor
  · have hkeywords : ∀ entry ∈ keywords, '\x00' ∉ entry.1.toList := by
      simp [keywords]
    exact hkeywords _ hmem
  · intro hnul
    have hpart := List.all_eq_true.1 hall _ hnul
    revert hpart
    decide

end Control

theorem Session.runFrom_nextSavepoint {σ : Type} (s : SessionState σ) :
    Session.nextSavepoint.runFrom s = (.ok (Control.savepointName s.savepoints), s.named) := rfl

/-- What the statements of a bracket are to a server. -/
structure Bracket.Controls (b : Bracket) (opening closing undoing : Control) : Prop where
  opening : Control.ofText? b.opening = some opening
  closing : Control.ofText? b.closing = some closing
  undoing : Control.ofText? b.undoing = some undoing

namespace Bracket

open Control

theorem controls_plain : plain.Controls .start .commit .rollback where
  opening := by simp [plain, ofText?]
  closing := by simp [plain, ofText?]
  undoing := by simp [plain, ofText?]

theorem controls_transaction : transaction.Controls .start .commit .rollback where
  opening := by simp [transaction, ofText?]
  closing := by simp [transaction, ofText?]
  undoing := by simp [transaction, ofText?]

theorem controls_savepointBatch (number : Nat) :
    (savepointBatch (savepointName number)).Controls (.savepoint (savepointName number))
      (.release (savepointName number)) (.rollbackTo (savepointName number)) where
  opening := ofText?_append_savepointName (by simp [keywords]) number
  closing := ofText?_append_savepointName (by simp [keywords]) number
  undoing := ofText?_append_savepointName (by simp [keywords]) number

theorem controls_savepoint (number : Nat) :
    (savepoint (savepointName number)).Controls (.savepoint (savepointName number))
      (.release (savepointName number)) (.rollbackTo (savepointName number)) where
  opening := ofText?_append_savepointName (by simp [keywords]) number
  closing := ofText?_append_savepointName (by simp [keywords]) number
  undoing := ofText?_append_savepointName (by simp [keywords]) number

end Bracket

/-! ### Outcomes -/

namespace Control

variable {name : String} {db db' : Database κ δ} {tx : Transaction δ} {data : δ}
  {rest : List (String × δ)}

theorem of_apply_start (h : start.apply db = .ok db') :
    ∃ tx, db'.open? = some tx ∧ tx.failed = false ∧ tx.data = db.current ∧
      db'.committed = db.committed := by
  obtain ⟨kept, committed, open?⟩ := db
  cases open? with
  | none =>
    cases h
    exact ⟨_, rfl, rfl, rfl, rfl⟩
  | some tx =>
    cases hfailed : tx.failed with
    | true => simp [apply, applyOpen, hfailed] at h
    | false =>
      simp only [apply, applyOpen, hfailed] at h
      cases h
      exact ⟨tx, rfl, hfailed, rfl, rfl⟩

theorem apply_commit (hopen : db.open? = some tx) (hfailed : tx.failed = false) :
    commit.apply db = .ok { db with committed := tx.data, open? := none } := by
  simp [apply, applyOpen, hopen, hfailed]

theorem apply_rollback (hopen : db.open? = some tx) :
    rollback.apply db = .ok { db with open? := none } := by
  simp [apply, applyOpen, hopen]

theorem apply_savepoint (name : String) (hopen : db.open? = some tx) (hfailed : tx.failed = false) :
    (savepoint name).apply db =
      .ok { db with
        open? := some { tx with savepoints := (name, tx.data) :: tx.savepoints } } := by
  simp [apply, applyOpen, hopen, hfailed]

theorem exists_of_apply_savepoint (h : (savepoint name).apply db = .ok db') :
    ∃ tx, db.open? = some tx ∧ tx.failed = false := by
  cases hopen : db.open? with
  | none => simp [apply, hopen] at h
  | some tx =>
    refine ⟨tx, rfl, ?_⟩
    by_contra hfailed
    rw [Bool.not_eq_false] at hfailed
    simp [apply, applyOpen, hopen, hfailed] at h

theorem apply_release (hopen : db.open? = some tx) (hfailed : tx.failed = false)
    (hfrom : savepointsFrom name tx.savepoints = (name, data) :: rest) :
    (release name).apply db = .ok { db with open? := some { tx with savepoints := rest } } := by
  simp [apply, applyOpen, hopen, hfailed, hfrom]

theorem apply_rollbackTo (hopen : db.open? = some tx)
    (hfrom : savepointsFrom name tx.savepoints = (name, data) :: rest) :
    (rollbackTo name).apply db =
      .ok { db with open? := some { data, savepoints := (name, data) :: rest } } := by
  simp [apply, applyOpen, hopen, hfrom]

theorem fail_commit (hopen : db.open? = some tx) (hfailed : tx.failed = false) :
    commit.fail db = { db with open? := none } := by
  simp [fail, hopen, hfailed]

end Control

namespace Server

variable {engine : Server (Store κ δ)} {accept : Control → Exchange κ Unit} {c : Control}
  {sql : String} {db db' : Database κ δ} {tx : Transaction δ}

theorem transactional_command_of_control (h : Control.ofText? sql = some c) :
    (engine.transactional accept).command sql = control accept c := by
  simp only [transactional, transactionalCommand, h]

theorem transactional_command_of_none (h : Control.ofText? sql = none) :
    (engine.transactional accept).command sql = ordinary (engine.command sql) := by
  simp only [transactional, transactionalCommand, h]

/-- A server that accepts all control statements carries out every legal one. -/
theorem control_of_apply (happly : c.apply db = .ok db') :
    (control (fun _ => pure ()) c).run db = (.ok (), db') := by
  simp only [control, ExceptT.run_mk]
  show (match (Except.ok ()).bind fun _ => c.apply db with
    | .ok db => (Except.ok (), db)
    | .error e => (.error e, c.fail db)) = _
  rw [Except.bind, happly]

/-- The outcomes of a control statement. Deciding on it changes nothing that can be undone. -/
theorem control_cases {r : Except DatabaseError Unit} (h : (control accept c).run db = (r, db')) :
    ∃ decided : Database κ δ, decided.committed = db.committed ∧ decided.open? = db.open? ∧
      ((r = .ok () ∧ c.apply decided = .ok db') ∨ (r.isOk = false ∧ db' = c.fail decided)) := by
  rcases haccept : (accept c).run db.kept with ⟨e | _, kept⟩
  · refine ⟨{ db with kept }, rfl, rfl, ?_⟩
    simp only [control, ExceptT.run_mk, haccept] at h
    cases h
    exact .inr ⟨rfl, rfl⟩
  · refine ⟨{ db with kept }, rfl, rfl, ?_⟩
    cases happly : c.apply { db with kept } with
    | error e =>
      simp only [control, ExceptT.run_mk, haccept, Except.bind, happly] at h
      cases h
      exact .inr ⟨rfl, rfl⟩
    | ok db'' =>
      simp only [control, ExceptT.run_mk, haccept, Except.bind, happly] at h
      cases h
      exact .inl ⟨rfl, rfl⟩

theorem ordinary_of_open {x : Exchange (Store κ δ) α} {r : Except DatabaseError α}
    {store : Store κ δ} (hopen : db.open? = some tx) (hfailed : tx.failed = false)
    (hx : x.run ⟨db.kept, tx.data⟩ = (r, store)) :
    (ordinary x).run db = (r, { db with
      kept := store.kept
      open? := some { tx with data := store.data, failed := !r.isOk } }) := by
  simp [ordinary, hopen, hfailed, hx]

end Server

end PgToolkit
