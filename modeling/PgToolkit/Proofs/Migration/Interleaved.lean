import Mathlib.Logic.Function.Basic
import PgToolkit.Proofs.Migration.Phase

/-!
# Runs that take turns

Several runners work on one database. Each of them has a run, and a turn of a runner is the next
piece of its run, of at most one call. The turns come in any order.
-/

namespace PgToolkit

open Session History

variable {σ ι : Type}

/-- A turn of one of several runners: the phases of its run and the histories around it. -/
structure Turn (ι : Type) where
  runner : ι
  before : Phase
  after : Phase
  old : History
  new : History

namespace Turn

/-- The rows that were added in a turn. -/
def added (turn : Turn ι) : History := turn.new.drop turn.old.length

/-- The migration that was applied in a turn: its transaction succeeded. -/
def applied? (turn : Turn ι) : Option String :=
  match turn.after, turn.before with
  | .applying .., .applying _ _ _ (name :: _) => some name
  | _, _ => none

@[simp] theorem added_of_same (i : ι) (before after : Phase) (h : History) :
    added ⟨i, before, after, h, h⟩ = [] := by
  simp [added]

@[simp] theorem added_of_append (i : ι) (before after : Phase) (h rest : History) :
    added ⟨i, before, after, h, h ++ rest⟩ = rest := by
  simp [added]

end Turn

/-- The states of a database after the turns of some runners, and where these are. Each of them
begins at the beginning. What a session keeps on its own side of the connection may be anything. -/
inductive Interleaved [DecidableEq ι] (m : ι → Migrator) (conn : ι → Executor σ)
    (rows : σ → History) (start : σ) : List (Turn ι) → σ → (ι → Phase) → Prop where
  | start : Interleaved m conn rows start [] start fun _ => .opening
  | turn {turns : List (Turn ι)} {phases : ι → Phase} {s t : SessionState σ}
      {r : Except Error Phase} (i : ι) : Interleaved m conn rows start turns s.remote phases →
      ((m i).advance (conn i) (phases i)).runFrom s = (r, t) →
      Interleaved m conn rows start
        (turns ++ [⟨i, phases i, .behind r, rows s.remote, rows t.remote⟩]) t.remote
        (Function.update phases i (.behind r))

variable [DecidableEq ι] {m : ι → Migrator} {conn : ι → Executor σ} {rows : σ → History}
  {start : σ} {turns : List (Turn ι)} {phases : ι → Phase}

/-! ### A runner alone -/

/-- When only one runner has turns from a phase on, its run ends as what is left of it does. -/
def EndsAlone (m : ι → Migrator) (conn : ι → Executor σ) (rows : σ → History) (start : σ) (i : ι)
    (phase : Phase) : Prop :=
  ∀ (turns : List (Turn ι)) (phases : ι → Phase) (s t : SessionState σ)
    (r : Except Error (List String)), Interleaved m conn rows start turns s.remote phases →
    phases i = phase → ((m i).finish (conn i) phase).runFrom s = (r, t) →
    ∃ more, Interleaved m conn rows start (turns ++ more) t.remote
      (Function.update phases i (.ended r)) ∧ ∀ turn ∈ more, turn.runner = i

namespace EndsAlone

variable {i : ι}

theorem ended (result : Except Error (List String)) :
    EndsAlone m conn rows start i (.ended result) := by
  intro turns phases s t r hreach hphase hrun
  obtain ⟨rfl, rfl⟩ := Prod.mk.inj hrun
  refine ⟨[], ?_, by simp⟩
  rw [List.append_nil, ← hphase, Function.update_eq_self]
  exact hreach

theorem turn {phase : Phase} (hnext : ∀ s : SessionState σ,
      ((m i).advance (conn i) phase).Ensures s fun r _ =>
        EndsAlone m conn rows start i (.behind r)) :
    EndsAlone m conn rows start i phase := by
  intro turns phases s t r hreach hphase hrun
  -- behind the first turn, what is left of the run has the same end
  rcases hturn : ((m i).advance (conn i) phase).runFrom s with ⟨r', u⟩
  rw [Migrator.runFrom_finish hturn] at hrun
  obtain ⟨more, hmore, hrunner⟩ := (hnext s).of_runFrom_eq hturn _ _ u t r
    (hreach.turn i (hphase ▸ hturn)) (Function.update_self ..) hrun
  rw [Function.update_idem, List.append_assoc] at hmore
  refine ⟨_, hmore, ?_⟩
  intro turn hmem
  rcases List.mem_append.1 hmem with hmem | hmem
  · rw [List.mem_singleton.1 hmem]
  · exact hrunner turn hmem

theorem applying (table : String) (batch : Int64) (pending left : List String) :
    EndsAlone m conn rows start i (.applying table batch pending left) := by
  induction left with
  | nil => exact .turn fun _ => .ended _
  | cons name left ih =>
    exact .turn fun _ => Ensures.bind_of_forall (fun _ _ => ih) fun _ _ => .ended _

theorem reading : EndsAlone m conn rows start i .reading := by
  refine .turn fun _ => Ensures.bind_of_forall (fun status t => ?_) fun _ _ => .ended _
  by_cases hdone : status.isUpToDate = true
  · rw [if_pos hdone]
    exact .ended _
  · rw [if_neg hdone]
    refine Ensures.bind_of_forall (fun table t => ?_) fun _ _ => .ended _
    exact EndsAlone.applying table (status.lastBatch + 1) status.pending status.pending

theorem opening : EndsAlone m conn rows start i .opening :=
  .turn fun _ => Ensures.bind_of_forall (fun _ _ => .reading) fun _ _ => .ended _

end EndsAlone

/-- A runner that has turns alone until its run ends does what a run does. -/
theorem Interleaved.exists_alone {s t : SessionState σ} {r : Except Error (List String)} {i : ι}
    (hreach : Interleaved m conn rows start turns s.remote phases) (hphase : phases i = .opening)
    (hrun : ((m i).latest (conn i)).runFrom s = (r, t)) :
    ∃ more, Interleaved m conn rows start (turns ++ more) t.remote
      (Function.update phases i (.ended r)) ∧ ∀ turn ∈ more, turn.runner = i :=
  EndsAlone.opening turns phases s t r hreach hphase hrun

/-! ### Schedules -/

namespace Interleaved

/-- One turn more. -/
def next (m : ι → Migrator) (conn : ι → Executor σ) (rows : σ → History)
    (state : List (Turn ι) × σ × (ι → Phase)) (i : ι) : List (Turn ι) × σ × (ι → Phase) :=
  let (turns, remote, phases) := state
  let (r, t) := ((m i).advance (conn i) (phases i)).runFrom { remote }
  (turns ++ [⟨i, phases i, .behind r, rows remote, rows t.remote⟩], t.remote,
    Function.update phases i (.behind r))

/-- What the turns of a schedule lead to. -/
def play (m : ι → Migrator) (conn : ι → Executor σ) (rows : σ → History) (start : σ)
    (schedule : List ι) : List (Turn ι) × σ × (ι → Phase) :=
  schedule.foldl (next m conn rows) ([], start, fun _ => .opening)

theorem interleaved_play (schedule : List ι) :
    Interleaved m conn rows start (play m conn rows start schedule).1
      (play m conn rows start schedule).2.1 (play m conn rows start schedule).2.2 := by
  induction schedule using List.reverseRecOn with
  | nil => exact .start
  | append_singleton schedule i ih =>
    rw [play, List.foldl_append]
    exact ih.turn (s := { remote := (play m conn rows start schedule).2.1 }) i rfl

end Interleaved

end PgToolkit
