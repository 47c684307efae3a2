import PgToolkit.Proofs.Migration.Calls

/-!
# Runs of a migrator

What each part of a run does to the history, over an executor that keeps the history and is watched:
every call leaves a legal history behind, one step away from the one before.
-/

namespace PgToolkit

open Session History

variable {σ α : Type} {conn : Executor σ} {rows : σ → History} {declared : List String}
  {op : Operation}

/-- The histories that were seen between two states of a connection are legal, and steps of an
operation apart. -/
def Trail (rows : σ → History) (declared : List String) (op : Operation)
    (w w' : Watched σ History) : Prop :=
  ∃ seen, w'.seen = w.seen ++ seen ∧ Path declared op (rows w.remote) seen (rows w'.remote)

namespace Trail

variable {w w' w'' : Watched σ History}

theorem refl (w : Watched σ History) : Trail rows declared op w w :=
  ⟨[], (List.append_nil _).symm, .refl _⟩

theorem trans (h : Trail rows declared op w w') (h' : Trail rows declared op w' w'') :
    Trail rows declared op w w'' := by
  obtain ⟨seen, hseen, hpath⟩ := h
  obtain ⟨seen', hseen', hpath'⟩ := h'
  refine ⟨seen ++ seen', ?_, hpath.append hpath'⟩
  rw [hseen', hseen, List.append_assoc]

theorem legal (h : Trail rows declared op w w') (hlegal : Legal declared (rows w.remote)) :
    Legal declared (rows w'.remote) := by
  obtain ⟨seen, -, hpath⟩ := h
  exact hpath.legal hlegal

theorem call (hstep : Step declared op (rows w.remote) (rows w'.remote))
    (hlegal : Legal declared (rows w'.remote)) (hseen : w'.seen = w.seen ++ [rows w'.remote]) :
    Trail rows declared op w w' :=
  ⟨[rows w'.remote], hseen, .cons hstep hlegal (.refl _)⟩

theorem of_status (h : Trail rows declared .status w w') : Trail rows declared op w w' := by
  obtain ⟨seen, hseen, hpath⟩ := h
  exact ⟨seen, hseen, hpath.of_status⟩

theorem eq_of_status (h : Trail rows declared .status w w') :
    ∀ k ∈ w'.seen.drop w.seen.length, k = rows w.remote := by
  obtain ⟨seen, hseen, hpath⟩ := h
  rw [hseen, List.drop_left]
  exact hpath.eq_of_status

end Trail

/-- A session left a trail, and changed the history in a way when it succeeded. When it failed, the
history is as it was. -/
structure Advances (rows : σ → History) (declared : List String) (op : Operation)
    (w : Watched σ History) (change : α → History → Prop) (r : Except Error α)
    (w' : Watched σ History) : Prop where
  trail : Trail rows declared op w w'
  ok : ∀ a, r = .ok a → change a (rows w'.remote)
  error : ∀ e, r = .error e → rows w'.remote = rows w.remote

variable {s : SessionState (Watched σ History)}

/-- A session that makes at most one call leaves a trail, when the call goes one step on to a legal
history. -/
theorem Advances.of_oneCall {change : α → History → Prop} {x : Session (Watched σ History) α}
    {y : Session σ α} (hcall : OneCall rows x y) (hlegal : Legal declared (rows s.remote.remote))
    (hchanged : y.Ensures s.forget (Changed rows (rows s.remote.remote) fun a h =>
      Step declared op (rows s.remote.remote) h ∧ Legal declared h ∧ change a h)) :
    x.Ensures s fun r t => Advances rows declared op s.remote change r t.remote := by
  rcases hrun : x.runFrom s with ⟨r, t⟩
  obtain ⟨hok, herror⟩ := hchanged.of_runFrom_eq (hcall.forgets.runFrom_eq hrun)
  have hnext : Step declared op (rows s.remote.remote) (rows t.remote.remote) ∧
      Legal declared (rows t.remote.remote) := by
    cases r with
    | error e =>
      have hsame : rows t.remote.remote = rows s.remote.remote := herror e rfl
      rw [hsame]
      exact ⟨.same _, hlegal⟩
    | ok a =>
      obtain ⟨hstep, hnew, -⟩ := hok a rfl
      exact ⟨hstep, hnew⟩
  have htrail : Trail rows declared op s.remote t.remote := by
    have hseen := hcall.seen s
    rw [hrun] at hseen
    rcases hseen with hsame | hseen
    · have hsame : t.remote = s.remote := hsame
      rw [hsame]
      exact .refl s.remote
    · exact .call hnext.1 hnext.2 hseen
  rw [Ensures, hrun]
  exact ⟨htrail, fun a hr => (hok a hr).2.2, herror⟩

/-- One session after another one that leaves the history alone. -/
theorem Advances.bind {β : Type} {change : β → History → Prop} {x : Session (Watched σ History) α}
    {f : α → Session (Watched σ History) β}
    (h : x.Ensures s fun r t => Advances rows declared op s.remote
      (fun _ h => h = rows s.remote.remote) r t.remote)
    (hnext : ∀ a t, rows t.remote.remote = rows s.remote.remote →
      (f a).Ensures t fun r u => Advances rows declared op t.remote change r u.remote) :
    Ensures (x >>= f) s fun r u => Advances rows declared op s.remote change r u.remote := by
  refine Ensures.bind h ?_ ?_
  · intro a t hfirst
    have hsame := hfirst.ok a rfl
    refine (hnext a t hsame).mono fun r u hsecond => ?_
    exact ⟨hfirst.trail.trans hsecond.trail, hsecond.ok,
      fun e he => (hsecond.error e he).trans hsame⟩
  · intro e t hfirst
    exact ⟨hfirst.trail, by simp, fun _ _ => hfirst.error e rfl⟩

namespace Migrator

variable {m : Migrator} {table name : String} {batch : Int64}

theorem ensures_ensureTable (op : Operation) (hkeeps : KeepsHistory conn rows m)
    (hlegal : Legal m.names (rows s.remote.remote)) :
    (m.ensureTable (conn.watched rows)).Ensures s fun r t =>
      Advances rows m.names op s.remote (fun _ h => h = rows s.remote.remote) r t.remote := by
  refine .of_oneCall (m.oneCall_ensureTable conn rows) hlegal ?_
  refine (changed_ensureTable hkeeps).mono fun r t hchanged => hchanged.mono ?_
  rintro _ _ rfl
  exact ⟨.same _, hlegal, rfl⟩

theorem ensures_status (op : Operation) (hkeeps : KeepsHistory conn rows m)
    (hlegal : Legal m.names (rows s.remote.remote)) :
    (m.status (conn.watched rows)).Ensures s fun r t =>
      Advances rows m.names op s.remote (fun status h => h = rows s.remote.remote ∧
        status = ⟨h, m.names.drop h.length⟩) r t.remote := by
  refine .of_oneCall (m.oneCall_status conn rows) hlegal ?_
  refine (changed_status hkeeps).mono fun r t hchanged => hchanged.mono ?_
  rintro _ _ ⟨rfl, hstatus⟩
  exact ⟨.same _, hlegal, rfl, hstatus⟩

/-- One migration is applied: the history has its row more. -/
theorem ensures_applyOne (hkeeps : KeepsHistory conn rows m) (hname : name ≠ Value.nowText)
    (hlegal : Legal m.names (rows s.remote.remote))
    (hnext : m.names[(rows s.remote.remote).length]? = some name)
    (hnumber : rows s.remote.remote ≠ [] ∧ batch.toInt = (rows s.remote.remote).lastNumber ∨
      batch.toInt = (rows s.remote.remote).lastNumber + 1)
    (htable : Sql.quoteIdentifier m.table = .ok table) :
    (m.applyOne (conn.watched rows) table batch name).Ensures s fun r t =>
      Advances rows m.names .latest s.remote (fun _ h => ∃ row, h = rows s.remote.remote ++ [row] ∧
        row.name = name ∧ row.batch = batch) r t.remote := by
  refine .of_oneCall (m.oneCall_applyOne conn rows table name batch) hlegal ?_
  refine (changed_applyOne hkeeps hname htable).mono fun r t hchanged => hchanged.mono ?_
  rintro _ _ ⟨⟨row, rfl, hrow⟩, -⟩
  have hget : m.names[(rows s.remote.remote).length]? = some row.name := hrow.name ▸ hnext
  have hnew : Legal m.names (rows s.remote.remote ++ [row]) :=
    hlegal.append_row hget hrow.key (by rw [AppliedMigration.number, hrow.batch]; exact hnumber)
      hrow.fits
  exact ⟨.apply _ row hget, hnew, row, rfl, hrow.name, hrow.batch⟩

/-- One migration is undone: the history has its last row less. -/
theorem ensures_revertOne {rest : History} {row : AppliedMigration}
    (hkeeps : KeepsHistory conn rows m) (hdistinct : m.names.Nodup)
    (hname : row.name ≠ Value.nowText) (hlegal : Legal m.names (rows s.remote.remote))
    (hlast : rows s.remote.remote = rest ++ [row])
    (htable : Sql.quoteIdentifier m.table = .ok table) :
    (m.revertOne (conn.watched rows) table batch row.name).Ensures s fun r t =>
      Advances rows m.names .rollback s.remote (fun _ h => h = rest) r t.remote := by
  refine .of_oneCall (m.oneCall_revertOne conn rows table row.name batch) hlegal ?_
  refine (changed_revertOne hkeeps hname htable).mono fun r t hchanged => hchanged.mono ?_
  rintro _ _ rfl
  rw [hlast] at hlegal
  have hrest : (rows s.forget.remote).filter (·.name ≠ row.name) = rest := by
    rw [SessionState.remote_forget, hlast,
      filter_name_ne_of_nodup (hdistinct.sublist hlegal.names.sublist), List.append_nil]
  rw [hrest, hlast]
  exact ⟨.revert rest row, hlegal.of_append, rfl⟩

end Migrator

end PgToolkit
