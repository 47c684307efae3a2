import PgToolkit.Proofs.Migration.Concurrent
import PgToolkit.Proofs.Migration.Undoing

/-!
# Applying next to undoing

One runner applies what is pending while another one undoes the last batch. They declare the same
migrations, share one history, and take turns in any order. Nothing keeps a runner from changing the
history after the other one has changed it, so what it goes by may be old. Up to the first such
change the history is one of first declared names; from then on a name is missing in it for good.
-/

namespace PgToolkit

open Session History

variable {σ : Type}

/-- The two runners, by what they do. -/
inductive Side where
  | applies | undoes
  deriving DecidableEq, Repr

/-- A turn of one of the two runners. -/
structure Move where
  side : Side
  /-- Whether the runner reads the history in this turn. -/
  reads : Bool
  old : History
  new : History

def Move.Changes (move : Move) : Prop := move.new ≠ move.old

def Phase.isReading : Phase → Bool
  | .reading => true
  | _ => false

def UndoPhase.isReading : UndoPhase → Bool
  | .reading => true
  | _ => false

/-- The names of the migrations that are left to apply. -/
def Phase.left : Phase → List String
  | .applying _ _ _ left => left
  | _ => []

/-- The states of a database after turns of two runners, and where these are. Both of them begin at
the beginning. What a session keeps on its own side of the connection may be anything. -/
inductive Opposed (m : Side → Migrator) (conn : Side → Executor σ) (rows : σ → History)
    (start : σ) : List Move → σ → Phase → UndoPhase → Prop where
  | start : Opposed m conn rows start [] start .opening .opening
  | apply {moves : List Move} {phase : Phase} {undo : UndoPhase} {s t : SessionState σ}
      {r : Except Error Phase} : Opposed m conn rows start moves s.remote phase undo →
      ((m .applies).advance (conn .applies) phase).runFrom s = (r, t) →
      Opposed m conn rows start
        (moves ++ [⟨.applies, phase.isReading, rows s.remote, rows t.remote⟩]) t.remote
        (.behind r) undo
  | undo {moves : List Move} {phase : Phase} {undo : UndoPhase} {s t : SessionState σ}
      {r : Except Error UndoPhase} : Opposed m conn rows start moves s.remote phase undo →
      ((m .undoes).retreat (conn .undoes) undo).runFrom s = (r, t) →
      Opposed m conn rows start
        (moves ++ [⟨.undoes, undo.isReading, rows s.remote, rows t.remote⟩]) t.remote
        phase (.behind r)

/-! ### Who reads, and who changes -/

/-- A runner has read the history. -/
def HasRead (moves : List Move) (side : Side) : Prop :=
  ∃ reading ∈ moves, reading.side = side ∧ reading.reads = true

/-- The other runner has changed the history since a runner read it. -/
def Overtaken (moves : List Move) (side : Side) : Prop :=
  ∃ reading change : Move, [reading, change].Sublist moves ∧ reading.side = side ∧
    reading.reads = true ∧ change.side ≠ side ∧ change.Changes

/-- A runner changed the history although the other one had changed it since the runner read it. -/
def Disturbed (moves : List Move) : Prop :=
  ∃ reading change late : Move, [reading, change, late].Sublist moves ∧ reading.reads = true ∧
    change.side ≠ reading.side ∧ change.Changes ∧ late.side = reading.side ∧ late.Changes

section

variable {moves : List Move} {move : Move} {side : Side}

/-- A subsequence ends with the last item, or it is one of the items in front of that. -/
theorem append_singleton_sublist_concat (items : List Move) {last : Move} :
    (items ++ [last]).Sublist (moves ++ [move]) ↔
      (items ++ [last]).Sublist moves ∨ items.Sublist moves ∧ last = move := by
  constructor
  · intro hsub
    obtain ⟨front, back, heq, hfront, hback⟩ := List.sublist_append_iff.1 hsub
    rcases List.sublist_singleton.1 hback with rfl | rfl
    · rw [List.append_nil] at heq
      exact Or.inl (heq ▸ hfront)
    · obtain ⟨rfl, hlast⟩ := List.append_inj' heq rfl
      exact Or.inr ⟨hfront, List.singleton_inj.1 hlast⟩
  · rintro (hsub | ⟨hsub, rfl⟩)
    · exact hsub.trans (List.sublist_append_left ..)
    · exact hsub.append (List.Sublist.refl _)

theorem hasRead_concat : HasRead (moves ++ [move]) side ↔
    HasRead moves side ∨ move.side = side ∧ move.reads = true := by
  simp [HasRead, or_and_right, exists_or]

theorem overtaken_concat : Overtaken (moves ++ [move]) side ↔
    Overtaken moves side ∨ HasRead moves side ∧ move.side ≠ side ∧ move.Changes := by
  constructor
  · rintro ⟨reading, change, hsub, hside, hreads, hother, hchanges⟩
    rcases (append_singleton_sublist_concat [reading]).1 hsub with hfront | ⟨hfront, rfl⟩
    · exact Or.inl ⟨reading, change, hfront, hside, hreads, hother, hchanges⟩
    · exact Or.inr ⟨⟨reading, List.singleton_sublist.1 hfront, hside, hreads⟩, hother, hchanges⟩
  · rintro (⟨reading, change, hsub, hrest⟩ | ⟨⟨reading, hmem, hside, hreads⟩, hother, hchanges⟩)
    · exact ⟨reading, change, hsub.trans (List.sublist_append_left ..), hrest⟩
    · refine ⟨reading, move, ?_, hside, hreads, hother, hchanges⟩
      exact (append_singleton_sublist_concat [reading]).2
        (Or.inr ⟨List.singleton_sublist.2 hmem, rfl⟩)

theorem disturbed_concat : Disturbed (moves ++ [move]) ↔
    Disturbed moves ∨ Overtaken moves move.side ∧ move.Changes := by
  constructor
  · rintro ⟨reading, change, late, hsub, hreads, hother, hchange, hlate, hchanges⟩
    rcases (append_singleton_sublist_concat [reading, change]).1 hsub with
      hfront | ⟨hfront, rfl⟩
    · exact Or.inl ⟨reading, change, late, hfront, hreads, hother, hchange, hlate, hchanges⟩
    · exact Or.inr ⟨⟨reading, change, hfront, hlate.symm, hreads, hlate ▸ hother, hchange⟩,
        hchanges⟩
  · rintro (⟨reading, change, late, hsub, hrest⟩ |
      ⟨⟨reading, change, hsub, hside, hreads, hother, hchange⟩, hchanges⟩)
    · exact ⟨reading, change, late, hsub.trans (List.sublist_append_left ..), hrest⟩
    · refine ⟨reading, change, move, ?_, hreads, hside ▸ hother, hchange, hside.symm, hchanges⟩
      exact (append_singleton_sublist_concat [reading, change]).2 (Or.inr ⟨hsub, rfl⟩)

theorem Overtaken.hasRead (h : Overtaken moves side) : HasRead moves side := by
  obtain ⟨reading, change, hsub, hside, hreads, -⟩ := h
  exact ⟨reading, hsub.subset List.mem_cons_self, hside, hreads⟩

end

/-! ### Missing names -/

/-- A name is missing in a history although one that is declared behind it is there, and neither can
change: the first one is not left to apply, and the second one is not left to undo. -/
def Gap (declared : List String) (h : History) (toApply toUndo : List String) : Prop :=
  ∃ missing present : String, [missing, present].Sublist declared ∧ missing ∉ h.names ∧
    present ∈ h.names ∧ missing ∉ toApply ∧ present ∉ toUndo

namespace Gap

variable {declared toApply toUndo toApply' toUndo' : List String} {h : History}

theorem not_begins (hgap : Gap declared h toApply toUndo) (hdistinct : declared.Nodup) :
    ¬ h.names <+: declared := by
  rintro ⟨rest, rfl⟩
  obtain ⟨missing, present, hsub, hmissing, hpresent, -⟩ := hgap
  -- the name that is there would have the other one in front of it
  obtain ⟨front, back, heq, hfront, hback⟩ := List.sublist_append_iff.1 hsub
  rcases front with _ | ⟨name, front⟩
  · rw [List.nil_append] at heq
    have hmem : present ∈ rest := hback.subset (by simp [← heq])
    exact (List.nodup_append.1 hdistinct).2.2 present hpresent present hmem rfl
  · obtain ⟨rfl, -⟩ := List.cons.inj heq
    exact hmissing (hfront.subset List.mem_cons_self)

theorem mono (hgap : Gap declared h toApply toUndo) (happly : toApply' ⊆ toApply)
    (hundo : toUndo' ⊆ toUndo) : Gap declared h toApply' toUndo' := by
  obtain ⟨missing, present, hsub, hmissing, hpresent, hleft, hleft'⟩ := hgap
  exact ⟨missing, present, hsub, hmissing, hpresent, fun h => hleft (happly h),
    fun h => hleft' (hundo h)⟩

/-- Another migration is applied, and the gap stays. -/
theorem append_row {row : AppliedMigration} (hgap : Gap declared h (row.name :: toApply) toUndo) :
    Gap declared (h ++ [row]) toApply toUndo := by
  obtain ⟨missing, present, hsub, hmissing, hpresent, hleft, hleft'⟩ := hgap
  obtain ⟨hname, hleft⟩ := not_or.1 (mt List.mem_cons.2 hleft)
  exact ⟨missing, present, hsub, by simp [hmissing, hname], by simp [hpresent], hleft, hleft'⟩

/-- Another migration is undone, and the gap stays. -/
theorem remove {name : String} (hgap : Gap declared h toApply (name :: toUndo)) :
    Gap declared (h.filter (·.name ≠ name)) toApply toUndo := by
  obtain ⟨missing, present, hsub, hmissing, hpresent, hleft, hleft'⟩ := hgap
  obtain ⟨hname, hleft'⟩ := not_or.1 (mt List.mem_cons.2 hleft')
  refine ⟨missing, present, hsub, ?_, ?_, hleft, hleft'⟩
  · exact fun hmem => hmissing ((List.filter_sublist.map _).subset hmem)
  · obtain ⟨row, hrow, rfl⟩ := List.mem_map.1 hpresent
    exact List.mem_map_of_mem (List.mem_filter.2 ⟨hrow, by simpa using hname⟩)

end Gap

/-! ### What turns preserve -/

/-- Where a runner stands that applies. The declared names `front` are behind it, and as long as
nobody is disturbed it has been overtaken if these are not all there. -/
def Phase.Stands (m : Migrator) (declared : List String) (moves : List Move) (h : History) :
    Phase → Prop
  | .opening | .reading => ¬ HasRead moves .applies
  | .applying table batch _ left => Sql.quoteIdentifier m.table = .ok table ∧
    HasRead moves .applies ∧ (¬ HasRead moves .undoes → ∀ row ∈ h, row.number ≤ batch.toInt) ∧
    ∃ front, declared = front ++ left ∧ h.names.Sublist front ∧
      (¬ Disturbed moves → (Overtaken moves .applies ↔ h.names ≠ front))
  | .ended _ => True

/-- Where a runner stands that undoes. As long as nobody is disturbed, the rows that are left to
undo are together, and it has been overtaken if there are rows behind them. -/
def UndoPhase.Stands (m : Migrator) (declared : List String) (moves : List Move) (h : History) :
    UndoPhase → Prop
  | .opening | .reading => ¬ HasRead moves .undoes
  | .reverting table _ _ left => Sql.quoteIdentifier m.table = .ok table ∧
    HasRead moves .undoes ∧ left ⊆ declared ∧
    (¬ Disturbed moves → ∃ kept rest added : History, h = kept ++ rest ++ added ∧
      left = rest.names.reverse ∧ (Overtaken moves .undoes ↔ added ≠ []))
  | .ended _ => True

/-- What is true of a history, of the turns that led to it, and of both runners. -/
structure Standing (m : Side → Migrator) (declared : List String) (moves : List Move) (h : History)
    (phase : Phase) (undo : UndoPhase) : Prop where
  ordered : h.names.Sublist declared
  /-- Who changes the history has read it. -/
  changed : ∀ move ∈ moves, move.Changes → HasRead moves move.side
  sorted : ¬ HasRead moves .undoes → h.Sorted
  applies : phase.Stands (m .applies) declared moves h
  undoes : undo.Stands (m .undoes) declared moves h
  begins : ¬ Disturbed moves → h.names <+: declared
  gap : Disturbed moves → Gap declared h phase.left undo.left

/-! ### Turns that change nothing -/

section

variable {m : Migrator} {declared : List String} {moves : List Move} {move : Move} {h : History}

theorem disturbed_concat_of_same (hsame : ¬ move.Changes) :
    Disturbed (moves ++ [move]) ↔ Disturbed moves := by
  simp [disturbed_concat, hsame]

theorem overtaken_concat_of_same (hsame : ¬ move.Changes) (side : Side) :
    Overtaken (moves ++ [move]) side ↔ Overtaken moves side := by
  simp [overtaken_concat, hsame]

theorem hasRead_concat_of_ne {side : Side} (hside : move.side ≠ side) :
    HasRead (moves ++ [move]) side ↔ HasRead moves side := by
  simp [hasRead_concat, hside]

/-- The other runner has a turn and changes nothing. -/
theorem Phase.Stands.same {phase : Phase} (hst : phase.Stands m declared moves h)
    (hsame : ¬ move.Changes) (hside : move.side = .undoes) :
    phase.Stands m declared (moves ++ [move]) h := by
  have happlies : HasRead (moves ++ [move]) .applies ↔ HasRead moves .applies :=
    hasRead_concat_of_ne (by simp [hside])
  cases phase with
  | opening => exact fun hread => hst (happlies.1 hread)
  | reading => exact fun hread => hst (happlies.1 hread)
  | applying table batch pending left =>
    obtain ⟨htable, hread, hnumber, front, hsplit, hfront, hovertaken⟩ := hst
    refine ⟨htable, happlies.2 hread, ?_, front, hsplit, hfront, ?_⟩
    · exact fun hunread => hnumber fun hread => hunread (hasRead_concat.2 (Or.inl hread))
    · rw [disturbed_concat_of_same hsame, overtaken_concat_of_same hsame]
      exact hovertaken
  | ended result => trivial

theorem UndoPhase.Stands.same {undo : UndoPhase} (hst : undo.Stands m declared moves h)
    (hsame : ¬ move.Changes) (hside : move.side = .applies) :
    undo.Stands m declared (moves ++ [move]) h := by
  have hundoes : HasRead (moves ++ [move]) .undoes ↔ HasRead moves .undoes :=
    hasRead_concat_of_ne (by simp [hside])
  cases undo with
  | opening => exact fun hread => hst (hundoes.1 hread)
  | reading => exact fun hread => hst (hundoes.1 hread)
  | reverting table batch names left =>
    obtain ⟨htable, hread, hleft, hrows⟩ := hst
    refine ⟨htable, hundoes.2 hread, hleft, ?_⟩
    rw [disturbed_concat_of_same hsame, overtaken_concat_of_same hsame]
    exact hrows
  | ended result => trivial

/-- The runner that undoes is overtaken when a migration is applied. -/
theorem UndoPhase.Stands.append_row {undo : UndoPhase} (hst : undo.Stands m declared moves h)
    (row : AppliedMigration) :
    undo.Stands m declared (moves ++ [⟨.applies, false, h, h ++ [row]⟩]) (h ++ [row]) := by
  have hundoes : HasRead (moves ++ [⟨.applies, false, h, h ++ [row]⟩]) .undoes ↔
      HasRead moves .undoes := hasRead_concat_of_ne (by simp)
  cases undo with
  | opening => exact fun hread => hst (hundoes.1 hread)
  | reading => exact fun hread => hst (hundoes.1 hread)
  | reverting table batch names left =>
    obtain ⟨htable, hread, hsubset, hrows⟩ := hst
    refine ⟨htable, hundoes.2 hread, hsubset, fun hnone => ?_⟩
    obtain ⟨kept, rest, added, rfl, hleft, -⟩ :=
      hrows fun hd => hnone (disturbed_concat.2 (Or.inl hd))
    refine ⟨kept, rest, added ++ [row], by simp, hleft, iff_of_true ?_ (by simp)⟩
    exact overtaken_concat.2 (Or.inr ⟨hread, by simp, by simp [Move.Changes]⟩)
  | ended result => trivial

/-- The runner that applies is overtaken when a migration is undone. -/
theorem Phase.Stands.remove {phase : Phase} {h' : History} (hst : phase.Stands m declared moves h)
    (hread : HasRead moves .undoes) (hsub : h'.names.Sublist h.names)
    (hless : ¬ Disturbed (moves ++ [⟨.undoes, false, h, h'⟩]) → h'.length < h.length) :
    phase.Stands m declared (moves ++ [⟨.undoes, false, h, h'⟩]) h' := by
  have happlies : HasRead (moves ++ [⟨.undoes, false, h, h'⟩]) .applies ↔
      HasRead moves .applies := hasRead_concat_of_ne (by simp)
  cases phase with
  | opening => exact fun hread => hst (happlies.1 hread)
  | reading => exact fun hread => hst (happlies.1 hread)
  | applying table batch pending left =>
    obtain ⟨htable, hread', -, front, hsplit, hfront, -⟩ := hst
    refine ⟨htable, happlies.2 hread', fun hunread => ?_, front, hsplit, hsub.trans hfront,
      fun hnone => ?_⟩
    · exact absurd (hasRead_concat.2 (Or.inl hread)) hunread
    have hlength := hless hnone
    refine iff_of_true (overtaken_concat.2 (Or.inr ⟨hread', by simp, ?_⟩)) ?_
    · exact fun heq => hlength.ne (congrArg List.length heq)
    · rintro rfl
      have hle := hfront.length_le
      rw [length_names, length_names] at hle
      omega
  | ended result => trivial

end

namespace Standing

variable {m : Side → Migrator} {conn : Side → Executor σ} {rows : σ → History}
  {declared : List String} {moves : List Move} {move : Move} {h h' : History}
  {phase phase' : Phase} {undo undo' : UndoPhase}

theorem start (hnames : h.names <+: declared) (hsorted : h.Sorted) :
    Standing m declared [] h .opening .opening where
  ordered := hnames.sublist
  changed := by simp
  sorted _ := hsorted
  applies := by simp [Phase.Stands, HasRead]
  undoes := by simp [UndoPhase.Stands, HasRead]
  begins _ := hnames
  gap hdisturbed := by simp [Disturbed] at hdisturbed

/-- Once a runner is disturbed, both of them have read the history. -/
theorem hasRead_of_disturbed (hst : Standing m declared moves h phase undo)
    (hdisturbed : Disturbed moves) (side : Side) : HasRead moves side := by
  obtain ⟨reading, change, late, hsub, hreads, hother, hchange, -⟩ := hdisturbed
  have hchanged : HasRead moves change.side := hst.changed change (hsub.subset (by simp)) hchange
  have hread : HasRead moves reading.side := ⟨reading, hsub.subset (by simp), rfl, hreads⟩
  rcases hr : reading.side <;> rcases hc : change.side <;> rcases side <;> simp_all

/-- Who has changed the history has read it, also after a turn of one who has. -/
theorem changed_concat (hst : Standing m declared moves h phase undo)
    (hread : move.Changes → HasRead moves move.side) :
    ∀ other ∈ moves ++ [move], other.Changes → HasRead (moves ++ [move]) other.side := by
  intro other hother hchanges
  rcases List.mem_append.1 hother with hother | hother
  · exact hasRead_concat.2 (Or.inl (hst.changed other hother hchanges))
  · obtain rfl := List.mem_singleton.1 hother
    exact hasRead_concat.2 (Or.inl (hread hchanges))

/-- A turn that changes nothing. -/
theorem same (hst : Standing m declared moves h phase undo) (hsame : ¬ move.Changes)
    (happlies : phase'.Stands (m .applies) declared (moves ++ [move]) h)
    (hundoes : undo'.Stands (m .undoes) declared (moves ++ [move]) h)
    (hleft : Disturbed moves → phase'.left ⊆ phase.left ∧ undo'.left ⊆ undo.left) :
    Standing m declared (moves ++ [move]) h phase' undo' where
  ordered := hst.ordered
  changed := hst.changed_concat fun hchanges => absurd hchanges hsame
  sorted hunread := hst.sorted fun hread => hunread (hasRead_concat.2 (Or.inl hread))
  applies := happlies
  undoes := hundoes
  begins := by
    rw [disturbed_concat_of_same hsame]
    exact hst.begins
  gap := by
    rw [disturbed_concat_of_same hsame]
    intro hdisturbed
    exact (hst.gap hdisturbed).mono (hleft hdisturbed).1 (hleft hdisturbed).2

/-! ### A runner reads the history -/

theorem read_apply (hshares : SharesHistory m conn rows declared) {table : String}
    {pending : List String} (hst : Standing m declared moves h .reading undo)
    (htable : Sql.quoteIdentifier (m .applies).table = .ok table)
    (hpending : pending = (m .applies).names.drop h.length) :
    Standing m declared (moves ++ [⟨.applies, true, h, h⟩]) h
      (.applying table ((MigrationStatus.mk h pending).lastBatch + 1) pending pending) undo := by
  have hsame : ¬ Move.Changes ⟨.applies, true, h, h⟩ := fun hchanges => hchanges rfl
  have hunread : ¬ HasRead moves .applies := hst.applies
  have hquiet : ¬ Disturbed moves := fun hd => hunread (hst.hasRead_of_disturbed hd .applies)
  have hnames : h.names = declared.take h.length := by
    rw [← length_names, ← List.prefix_iff_eq_take]
    exact hst.begins hquiet
  refine hst.same hsame ?_ (hst.undoes.same hsame rfl) fun hd => absurd hd hquiet
  refine ⟨htable, hasRead_concat.2 (Or.inr ⟨rfl, rfl⟩), ?_, declared.take h.length, ?_, ?_, ?_⟩
  · intro hunread row hrow
    have hs := hst.sorted fun hread => hunread (hasRead_concat.2 (Or.inl hread))
    have hle := hs.number_le_lastNumber hrow
    rw [hs.toInt_lastBatch_add_one]
    omega
  · rw [hpending, hshares.names, List.take_append_drop]
  · exact hnames ▸ List.Sublist.refl _
  · rw [overtaken_concat_of_same hsame]
    exact fun _ => iff_of_false (fun ho => hunread ho.hasRead) (fun hne => hne hnames)

theorem read_undo {table : String} {pending names : List String} {batch : Int64}
    (hst : Standing m declared moves h phase .reading)
    (htable : Sql.quoteIdentifier (m .undoes).table = .ok table)
    (hbatch : batch = (MigrationStatus.mk h pending).lastBatch)
    (hnames : names = Migrator.batchNames ⟨h, pending⟩ batch) :
    Standing m declared (moves ++ [⟨.undoes, true, h, h⟩]) h phase
      (.reverting table batch names names) := by
  have hsame : ¬ Move.Changes ⟨.undoes, true, h, h⟩ := fun hchanges => hchanges rfl
  have hunread : ¬ HasRead moves .undoes := hst.undoes
  have hquiet : ¬ Disturbed moves := fun hd => hunread (hst.hasRead_of_disturbed hd .undoes)
  -- nothing was undone yet, so the rows of the last batch are the end of the history
  have hs := hst.sorted hunread
  obtain ⟨kept, last, hsplit, hlast, hkept⟩ := hs.exists_lastBatch
  rw [← hs.toInt_lastBatch pending, ← hbatch] at hlast hkept
  rw [batchNames_eq hsplit hlast hkept] at hnames
  have hsubset : names ⊆ h.names := by
    rw [hnames, hsplit, names_append]
    exact fun name hname => List.mem_append_right _ (List.mem_reverse.1 hname)
  refine hst.same hsame (hst.applies.same hsame rfl) ?_ fun hd => absurd hd hquiet
  refine ⟨htable, hasRead_concat.2 (Or.inr ⟨rfl, rfl⟩),
    fun name hname => hst.ordered.subset (hsubset hname), fun _ => ⟨kept, last, [], ?_, hnames, ?_⟩⟩
  · rw [List.append_nil, hsplit]
  · rw [overtaken_concat_of_same hsame]
    exact iff_of_false (fun ho => hunread ho.hasRead) (by simp)

/-! ### A runner changes the history -/

/-- As long as nobody is disturbed, what is left to undo is there. -/
theorem undo_left_subset (hst : Standing m declared moves h phase undo)
    (hquiet : ¬ Disturbed moves) : undo.left ⊆ h.names := by
  cases undo with
  | reverting table batch names left =>
    obtain ⟨-, -, -, hrows⟩ := hst.undoes
    obtain ⟨kept, rest, added, rfl, hleft, -⟩ := hrows hquiet
    intro name hname
    have hname : name ∈ rest.names := List.mem_reverse.1 (hleft ▸ hname)
    simp [hname]
  | _ => exact List.nil_subset _

/-- A runner applies a migration after it has been overtaken: one of the names in front of it is
missing. -/
theorem gap_of_applied (hdistinct : declared.Nodup) {front left : List String}
    {row : AppliedMigration} (hst : Standing m declared moves h phase undo)
    (hquiet : ¬ Disturbed moves) (hsplit : declared = front ++ row.name :: left)
    (hfront : h.names.Sublist front) (hne : h.names ≠ front) :
    Gap declared (h ++ [row]) left undo.left := by
  have hbegins : h.names <+: front :=
    List.prefix_of_prefix_length_le (hst.begins hquiet) (hsplit ▸ List.prefix_append ..)
      hfront.length_le
  obtain ⟨rest, rfl⟩ := hbegins
  cases rest with
  | nil => exact absurd (List.append_nil _).symm hne
  | cons missing rest =>
    have hundo := hst.undo_left_subset hquiet
    rw [hsplit] at hdistinct
    have hnew : row.name ∉ h.names := by
      intro hmem
      exact (List.nodup_append.1 hdistinct).2.2 row.name (by simp [hmem]) row.name (by simp) rfl
    refine ⟨missing, row.name, ?_, ?_, by simp, ?_, fun hmem => hnew (hundo hmem)⟩
    · rw [hsplit, List.append_assoc]
      refine List.Sublist.trans ?_ (List.sublist_append_right ..)
      exact (List.singleton_sublist.2 (by simp)).append (List.singleton_sublist.2 (by simp))
    · simp only [names_append, names_cons, names_nil, List.mem_append, List.mem_singleton, not_or]
      grind
    · grind

theorem applied (hdistinct : declared.Nodup) {table : String} {batch : Int64}
    {pending left : List String} {row : AppliedMigration}
    (hst : Standing m declared moves h (.applying table batch pending (row.name :: left)) undo)
    (hbatch : row.batch = batch) (hfits : row.number ≤ Int32.maxValue.toInt) :
    Standing m declared (moves ++ [⟨.applies, false, h, h ++ [row]⟩]) (h ++ [row])
      (.applying table batch pending left) undo := by
  obtain ⟨htable, hread, hnumber, front, hsplit, hfront, hovertaken⟩ := hst.applies
  set move : Move := ⟨.applies, false, h, h ++ [row]⟩ with hmove
  have hchanges : move.Changes := by simp [hmove, Move.Changes]
  have happlies : HasRead (moves ++ [move]) .applies := hasRead_concat.2 (Or.inl hread)
  have hundoes : HasRead (moves ++ [move]) .undoes ↔ HasRead moves .undoes :=
    hasRead_concat_of_ne (by simp [hmove])
  have hdisturbed : Disturbed (moves ++ [move]) ↔ Disturbed moves ∨ Overtaken moves .applies :=
    disturbed_concat.trans (or_congr_right (and_iff_left hchanges))
  have hsame : Overtaken (moves ++ [move]) .applies ↔ Overtaken moves .applies := by
    simp [overtaken_concat, hmove]
  -- when nobody is disturbed, the names of the history are those in front of the new one
  have hquiet : ¬ Disturbed (moves ++ [move]) → h.names = front := by
    intro hnone
    obtain ⟨hnone, hup⟩ := not_or.1 (mt hdisturbed.2 hnone)
    exact Classical.not_not.1 (mt (hovertaken hnone).2 hup)
  have hnames : names (h ++ [row]) = h.names ++ [row.name] := by simp
  have hsplit' : declared = (front ++ [row.name]) ++ left := by simp [hsplit]
  have hfront' : (names (h ++ [row])).Sublist (front ++ [row.name]) :=
    hnames ▸ hfront.append (List.Sublist.refl _)
  constructor
  case ordered =>
    exact hfront'.trans (hsplit' ▸ List.sublist_append_left ..)
  case changed =>
    exact hst.changed_concat fun _ => hread
  case sorted =>
    intro hunread
    rw [hundoes] at hunread
    refine (hst.sorted hunread).append_row ?_ hfits
    intro old hold
    rw [AppliedMigration.number, AppliedMigration.number, hbatch]
    exact hnumber hunread old hold
  case applies =>
    refine ⟨htable, happlies, ?_, front ++ [row.name], hsplit', hfront', ?_⟩
    · intro hunread old hold
      rw [hundoes] at hunread
      rcases List.mem_append.1 hold with hold | hold
      · exact hnumber hunread old hold
      · rw [List.mem_singleton.1 hold, AppliedMigration.number, hbatch]
    · intro hnone
      refine iff_of_false (fun ho => hnone (hdisturbed.2 (Or.inr (hsame.1 ho)))) fun hne => hne ?_
      rw [hnames, hquiet hnone]
  case undoes =>
    exact hst.undoes.append_row row
  case begins =>
    intro hnone
    rw [hnames, hquiet hnone, hsplit']
    exact List.prefix_append ..
  case gap =>
    intro hafter
    by_cases hbefore : Disturbed moves
    · exact (hst.gap hbefore).append_row
    · have hup := (hdisturbed.1 hafter).resolve_left hbefore
      exact hst.gap_of_applied hdistinct hbefore hsplit hfront ((hovertaken hbefore).1 hup)

/-- As long as nobody is disturbed, the next migration to undo has a row. -/
theorem exists_row (hdistinct : declared.Nodup) {table name : String} {batch : Int64}
    {names' left : List String}
    (hst : Standing m declared moves h phase (.reverting table batch names' (name :: left)))
    (hquiet : ¬ Disturbed moves) :
    ∃ (kept rest added : History) (row : AppliedMigration),
      h = (kept ++ rest) ++ row :: added ∧ row.name = name ∧ left = rest.names.reverse ∧
      h.filter (·.name ≠ name) = (kept ++ rest) ++ added ∧
      (Overtaken moves .undoes ↔ added ≠ []) := by
  obtain ⟨-, -, -, hrows⟩ := hst.undoes
  obtain ⟨kept, rest, added, hall, hleft, hovertaken⟩ := hrows hquiet
  rcases rest.eq_nil_or_concat' with rfl | ⟨rest, row, rfl⟩
  · cases hleft
  rw [names_append, List.reverse_append] at hleft
  obtain ⟨rfl, hrest⟩ := List.cons.inj hleft
  have hsplit : h = (kept ++ rest) ++ row :: added := by simp [hall]
  have hnodup : (names ((kept ++ rest) ++ row :: added)).Nodup :=
    hsplit ▸ hdistinct.sublist hst.ordered
  refine ⟨kept, rest, added, row, hsplit, rfl, hrest, ?_, hovertaken⟩
  rw [hsplit]
  exact filter_name_ne_of_nodup hnodup

/-- A runner undoes a migration after it has been overtaken: behind the name that is missing then,
others are still there. -/
theorem gap_of_reverted (hdistinct : declared.Nodup) {front rest added : History}
    {row : AppliedMigration} {left : List String} (hst : Standing m declared moves h phase undo)
    (hall : h = front ++ rest ++ row :: added)
    (hleft : left = rest.names.reverse) (hadded : added ≠ []) :
    Gap declared (front ++ rest ++ added) phase.left left := by
  obtain ⟨other, added, rfl⟩ := List.exists_cons_of_ne_nil hadded
  have hnodup : (names h).Nodup := hdistinct.sublist hst.ordered
  have hsub : [row.name, other.name].Sublist h.names := by
    rw [hall]
    simp
  have happly : ∀ name ∈ h.names, name ∉ phase.left := by
    cases phase with
    | applying table batch pending left =>
      obtain ⟨-, -, -, front, hsplit, hfront, -⟩ := hst.applies
      intro name hname hmem
      rw [hsplit] at hdistinct
      exact (List.nodup_append.1 hdistinct).2.2 name (hfront.subset hname) name hmem rfl
    | _ => exact fun _ _ => List.not_mem_nil
  rw [hall] at hnodup
  refine ⟨row.name, other.name, hsub.trans hst.ordered, ?_, by simp, ?_, ?_⟩
  · simp only [names_append, names_cons] at hnodup ⊢
    grind
  · exact happly row.name (by simp [hall])
  · simp only [names_append, names_cons] at hnodup
    rw [hleft]
    grind

theorem reverted (hdistinct : declared.Nodup) {table name : String} {batch : Int64}
    {names' left : List String}
    (hst : Standing m declared moves h phase (.reverting table batch names' (name :: left))) :
    Standing m declared (moves ++ [⟨.undoes, false, h, h.filter (·.name ≠ name)⟩])
      (h.filter (·.name ≠ name)) phase (.reverting table batch names' left) := by
  obtain ⟨htable, hread, hsubset, -⟩ := hst.undoes
  set move : Move := ⟨.undoes, false, h, h.filter (·.name ≠ name)⟩ with hmove
  have hundoes : HasRead (moves ++ [move]) .undoes := hasRead_concat.2 (Or.inl hread)
  have hsame : Overtaken (moves ++ [move]) .undoes ↔ Overtaken moves .undoes := by
    simp [overtaken_concat, hmove]
  have hdisturbed : Disturbed (moves ++ [move]) ↔
      Disturbed moves ∨ Overtaken moves .undoes ∧ move.Changes := disturbed_concat
  have hsub : (names (h.filter (·.name ≠ name))).Sublist h.names := List.filter_sublist.map _
  -- when nobody is disturbed, the row of the migration is the last one
  have hquiet : ¬ Disturbed (moves ++ [move]) → ¬ Disturbed moves ∧ move.Changes ∧
      ∃ (kept rest : History) (row : AppliedMigration), h = kept ++ rest ++ [row] ∧
        left = rest.names.reverse ∧ h.filter (·.name ≠ name) = kept ++ rest := by
    intro hafter
    obtain ⟨hnone, hup⟩ := not_or.1 (mt hdisturbed.2 hafter)
    obtain ⟨kept, rest, added, row, hall, -, hleft, hfilter, hovertaken⟩ :=
      hst.exists_row hdistinct hnone
    have hchanges : move.Changes := by
      intro heq
      have hlength := congrArg List.length heq
      simp only [hmove] at hlength
      rw [hfilter, hall] at hlength
      simp at hlength
    have hnil : added = [] :=
      Classical.not_not.1 fun hadded => hup ⟨hovertaken.2 hadded, hchanges⟩
    subst hnil
    exact ⟨hnone, hchanges, kept, rest, row, hall, hleft, by rw [hfilter, List.append_nil]⟩
  constructor
  case ordered =>
    exact hsub.trans hst.ordered
  case changed =>
    exact hst.changed_concat fun _ => hread
  case sorted =>
    exact fun hunread => absurd hundoes hunread
  case applies =>
    refine hst.applies.remove hread hsub fun hnone => ?_
    obtain ⟨-, -, kept, rest, row, hall, -, hfilter⟩ := hquiet hnone
    rw [hfilter, hall]
    simp
  case undoes =>
    refine ⟨htable, hundoes, fun name hname => hsubset (List.mem_cons_of_mem _ hname), ?_⟩
    intro hnone
    obtain ⟨-, -, kept, rest, row, -, hleft, hfilter⟩ := hquiet hnone
    refine ⟨kept, rest, [], by rw [hfilter, List.append_nil], hleft, iff_of_false ?_ (by simp)⟩
    exact fun ho => hnone (hdisturbed.2 (Or.inr ⟨hsame.1 ho, (hquiet hnone).2.1⟩))
  case begins =>
    intro hnone
    obtain ⟨hbefore, -, kept, rest, row, hall, -, hfilter⟩ := hquiet hnone
    have hbegins := hst.begins hbefore
    rw [hall, names_append] at hbegins
    rw [hfilter]
    exact (List.prefix_append ..).trans hbegins
  case gap =>
    intro hafter
    by_cases hbefore : Disturbed moves
    · exact (hst.gap hbefore).remove
    · obtain ⟨hup, -⟩ := (hdisturbed.1 hafter).resolve_left hbefore
      obtain ⟨kept, rest, added, row, hall, rfl, hleft, hfilter, hovertaken⟩ :=
        hst.exists_row hdistinct hbefore
      rw [hfilter]
      exact hst.gap_of_reverted hdistinct hall hleft (hovertaken.1 hup)

/-! ### Any turn -/

theorem ready_apply (hshares : SharesHistory m conn rows declared)
    (hst : Standing m declared moves h phase undo) : phase.Ready (m .applies) := by
  cases phase with
  | applying table batch pending left =>
    obtain ⟨htable, -, -, front, hsplit, -⟩ := hst.applies
    exact ⟨htable, fun hnow => hshares.plain (hsplit ▸ List.mem_append_right front hnow)⟩
  | _ => trivial

theorem ready_undo (hshares : SharesHistory m conn rows declared)
    (hst : Standing m declared moves h phase undo) : undo.Ready (m .undoes) := by
  cases undo with
  | reverting table batch names left =>
    obtain ⟨htable, -, hleft, -⟩ := hst.undoes
    exact ⟨htable, fun hnow => hshares.plain (hleft hnow)⟩
  | _ => trivial

/-- What a turn of the runner that applies preserves. -/
theorem turn_apply (hshares : SharesHistory m conn rows declared)
    (hst : Standing m declared moves h phase undo)
    (hadvanced : Advanced (m .applies) (conn .applies) rows h phase phase' h') :
    Standing m declared (moves ++ [⟨.applies, phase.isReading, h, h'⟩]) h' phase' undo := by
  cases hadvanced with
  | opened =>
    have hsame : ¬ Move.Changes ⟨.applies, Phase.opening.isReading, h, h⟩ := fun hne => hne rfl
    refine hst.same hsame ?_ (hst.undoes.same hsame rfl) fun _ => ⟨List.nil_subset _, fun _ => id⟩
    have hunread : ¬ HasRead moves .applies := hst.applies
    simp [Phase.Stands, hasRead_concat, Phase.isReading, hunread]
  | read htable hpending => exact hst.read_apply hshares htable hpending
  | applied hrow hrun hrows =>
    obtain rfl := hrow.name
    exact hst.applied hshares.distinct hrow.batch hrow.fits
  | ended =>
    have hsame : ¬ Move.Changes ⟨.applies, phase.isReading, h, h⟩ := fun hne => hne rfl
    exact hst.same hsame trivial (hst.undoes.same hsame rfl) fun _ =>
      ⟨List.nil_subset _, fun _ => id⟩

/-- What a turn of the runner that undoes preserves. -/
theorem turn_undo (hshares : SharesHistory m conn rows declared)
    (hst : Standing m declared moves h phase undo)
    (hretreated : Retreated (m .undoes) h undo undo' h') :
    Standing m declared (moves ++ [⟨.undoes, undo.isReading, h, h'⟩]) h' phase undo' := by
  cases hretreated with
  | opened =>
    have hsame : ¬ Move.Changes ⟨.undoes, UndoPhase.opening.isReading, h, h⟩ := fun hne => hne rfl
    refine hst.same hsame (hst.applies.same hsame rfl) ?_ fun _ => ⟨fun _ => id, List.nil_subset _⟩
    have hunread : ¬ HasRead moves .undoes := hst.undoes
    simp [UndoPhase.Stands, hasRead_concat, UndoPhase.isReading, hunread]
  | read htable hbatch hnames => exact hst.read_undo htable hbatch hnames
  | reverted => exact hst.reverted hshares.distinct
  | ended =>
    have hsame : ¬ Move.Changes ⟨.undoes, undo.isReading, h, h⟩ := fun hne => hne rfl
    exact hst.same hsame (hst.applies.same hsame rfl) trivial fun _ =>
      ⟨fun _ => id, List.nil_subset _⟩

end Standing

namespace Opposed

variable {m : Side → Migrator} {conn : Side → Executor σ} {rows : σ → History}
  {declared : List String} {start remote : σ} {moves : List Move} {phase : Phase}
  {undo : UndoPhase}

/-- What all turns preserve. -/
theorem standing (hshares : SharesHistory m conn rows declared)
    (hnames : (rows start).names <+: declared) (hsorted : (rows start).Sorted)
    (hreach : Opposed m conn rows start moves remote phase undo) :
    Standing m declared moves (rows remote) phase undo := by
  induction hreach with
  | start => exact .start hnames hsorted
  | apply _ hrun ih =>
    have hready := ih.ready_apply hshares
    exact ih.turn_apply hshares
      ((Migrator.advanced_advance (hshares.keeps .applies) hready).of_runFrom_eq hrun)
  | undo _ hrun ih =>
    have hready := ih.ready_undo hshares
    exact ih.turn_undo hshares
      ((Migrator.retreated_retreat (hshares.keeps .undoes) hready).of_runFrom_eq hrun)

/-- One runner applies what is pending and another one undoes the last batch, in any turns. The
names of the history are distinct and in the declared order at all times. They are the first
declared ones exactly as long as neither runner has changed the history after the other one had
changed it since the runner read it.

The phases of the runners are those of `Migrator.latest` and `Migrator.rollback`: the pieces of a
run put together are the run (`Migrator.finish_eq_advance`, `Migrator.unwind_eq_retreat`), and each
of them makes at most one call (`Migrator.oneCall_advance`, `Migrator.oneCall_retreat`). -/
theorem names_prefix_iff (hshares : SharesHistory m conn rows declared)
    (hnames : (rows start).names <+: declared) (hsorted : (rows start).Sorted)
    (hreach : Opposed m conn rows start moves remote phase undo) :
    ((rows remote).names <+: declared ↔ ¬ Disturbed moves) ∧
    (rows remote).names.Sublist declared ∧ (rows remote).names.Nodup := by
  have hst := hreach.standing hshares hnames hsorted
  refine ⟨⟨fun hbegins hdisturbed => ?_, hst.begins⟩, hst.ordered,
    hshares.distinct.sublist hst.ordered⟩
  exact (hst.gap hdisturbed).not_begins hshares.distinct hbegins

/-! ### Schedules -/

/-- One turn more. -/
def next (m : Side → Migrator) (conn : Side → Executor σ) (rows : σ → History)
    (state : List Move × σ × Phase × UndoPhase) (side : Side) :
    List Move × σ × Phase × UndoPhase :=
  let (moves, remote, phase, undo) := state
  match side with
  | .applies =>
    let (r, t) := ((m .applies).advance (conn .applies) phase).runFrom { remote }
    (moves ++ [⟨.applies, phase.isReading, rows remote, rows t.remote⟩], t.remote, .behind r, undo)
  | .undoes =>
    let (r, t) := ((m .undoes).retreat (conn .undoes) undo).runFrom { remote }
    (moves ++ [⟨.undoes, undo.isReading, rows remote, rows t.remote⟩], t.remote, phase, .behind r)

/-- What the turns of a schedule lead to. -/
def play (m : Side → Migrator) (conn : Side → Executor σ) (rows : σ → History) (start : σ)
    (schedule : List Side) : List Move × σ × Phase × UndoPhase :=
  schedule.foldl (next m conn rows) ([], start, .opening, .opening)

theorem opposed_play (schedule : List Side) :
    Opposed m conn rows start (play m conn rows start schedule).1
      (play m conn rows start schedule).2.1 (play m conn rows start schedule).2.2.1
      (play m conn rows start schedule).2.2.2 := by
  induction schedule using List.reverseRecOn with
  | nil => exact .start
  | append_singleton schedule side ih =>
    rw [play, List.foldl_append]
    cases side with
    | applies => exact ih.apply (s := { remote := (play m conn rows start schedule).2.1 }) rfl
    | undoes => exact ih.undo (s := { remote := (play m conn rows start schedule).2.1 }) rfl

end Opposed

/-! ### Two runners and a table in memory -/

namespace Ledger

/-- The table after one migration was applied. -/
def onlyUsers : Ledger where
  rows := [⟨1, "001_users", 1, none⟩]
  next := 2

theorem sorted_onlyUsers : Sorted onlyUsers.rows :=
  ⟨List.pairwise_singleton .., by decide⟩

theorem begins_onlyUsers : names onlyUsers.rows <+: migrator.names := by
  decide +kernel

/-- Turns of both runners from there. One begins when the other one has undone the migration. -/
def oneAfterOther : List Move × Ledger × Phase × UndoPhase :=
  Opposed.play (fun _ => migrator) (fun _ => uniqueConn) Ledger.rows onlyUsers
    [.undoes, .undoes, .applies, .undoes, .applies, .applies]

theorem map_oneAfterOther :
    oneAfterOther.1.map (fun move => (move.side, names move.new)) =
        [(.undoes, ["001_users"]), (.undoes, ["001_users"]), (.applies, ["001_users"]),
          (.undoes, []), (.applies, []), (.applies, ["001_users"])] ∧
      names oneAfterOther.2.1.rows = ["001_users"] := by
  decide +kernel

/-- Turns of both runners from there. One undoes the migration that the other one has read. -/
def oneIntoOther : List Move × Ledger × Phase × UndoPhase :=
  Opposed.play (fun _ => migrator) (fun _ => uniqueConn) Ledger.rows onlyUsers
    [.applies, .applies, .undoes, .undoes, .undoes, .applies]

theorem names_oneIntoOther : names oneIntoOther.2.1.rows = ["002_posts"] := by
  decide +kernel

end Ledger

namespace Opposed

open Ledger

/-- The second runner begins when the first one is done. -/
theorem names_prefix_iff_ledger :
    SharesHistory (fun _ : Side => migrator) (fun _ => uniqueConn) Ledger.rows migrator.names ∧
    names onlyUsers.rows <+: migrator.names ∧ Sorted onlyUsers.rows ∧
    Opposed (fun _ => migrator) (fun _ => uniqueConn) Ledger.rows onlyUsers oneAfterOther.1
      oneAfterOther.2.1 oneAfterOther.2.2.1 oneAfterOther.2.2.2 ∧
    oneAfterOther.1.map (fun move => (move.side, names move.new)) =
      [(.undoes, ["001_users"]), (.undoes, ["001_users"]), (.applies, ["001_users"]),
        (.undoes, []), (.applies, []), (.applies, ["001_users"])] ∧
    names oneAfterOther.2.1.rows = ["001_users"] ∧ ¬ Disturbed oneAfterOther.1 := by
  have hreach : Opposed (fun _ => migrator) (fun _ => uniqueConn) Ledger.rows onlyUsers
      oneAfterOther.1 oneAfterOther.2.1 oneAfterOther.2.2.1 oneAfterOther.2.2.2 := opposed_play _
  obtain ⟨hiff, -⟩ :=
    names_prefix_iff (sharesHistory Side) begins_onlyUsers sorted_onlyUsers hreach
  refine ⟨sharesHistory Side, begins_onlyUsers, sorted_onlyUsers, hreach, map_oneAfterOther.1,
    map_oneAfterOther.2, hiff.1 ?_⟩
  rw [map_oneAfterOther.2]
  exact begins_onlyUsers

/-- A runner that applies goes by a history from which the other one has taken the only row: the
second migration is applied then, and the first one is not. -/
theorem names_not_prefix_ledger :
    SharesHistory (fun _ : Side => migrator) (fun _ => uniqueConn) Ledger.rows migrator.names ∧
    names onlyUsers.rows <+: migrator.names ∧ Sorted onlyUsers.rows ∧
    Opposed (fun _ => migrator) (fun _ => uniqueConn) Ledger.rows onlyUsers oneIntoOther.1
      oneIntoOther.2.1 oneIntoOther.2.2.1 oneIntoOther.2.2.2 ∧
    names oneIntoOther.2.1.rows = ["002_posts"] ∧
    ¬ names oneIntoOther.2.1.rows <+: migrator.names := by
  refine ⟨sharesHistory Side, begins_onlyUsers, sorted_onlyUsers, opposed_play _,
    names_oneIntoOther, ?_⟩
  rw [names_oneIntoOther]
  decide +kernel

end Opposed

end PgToolkit
