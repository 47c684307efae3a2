import PgToolkit.Proofs.Migration.Table

/-!
# Validating a history

A history is accepted exactly if the declared names are distinct and its own names are the first of
them. What is refused is refused for one reason only, and the error says which. An accepted history
divides the declared list into what was applied and what is left to do, and every name on either
side leads to the migration that was declared there.
-/

namespace PgToolkit

/-- Why declared names and the names of a history do not fit together. A name that is declared twice
counts first, then the first position at which the two differ, then the end of the declared list. -/
inductive Misfit (declared applied : List String) : MigrationFault → Prop where
  /-- The names in front of the one that is declared again are distinct. -/
  | declaredTwice (front back : List String) (name : String) :
      declared = front ++ name :: back → front.Nodup → name ∈ front →
      Misfit declared applied (.declaredTwice name)
  /-- The names in front of the position are the same; positions count from one. -/
  | diverges (front rest others : List String) (name other : String) : declared.Nodup →
      declared = front ++ name :: rest → applied = front ++ other :: others → other ≠ name →
      Misfit declared applied (.diverges (front.length + 1) other name)
  /-- All declared names were applied, and one more. -/
  | undeclared (others : List String) (other : String) : declared.Nodup →
      applied = declared ++ other :: others → Misfit declared applied (.undeclared other)

/-! ### The first fault -/

theorem firstRepeated?_eq_some_iff {seen names : List String} {name : String}
    (hseen : seen.Nodup) :
    firstRepeated? seen names = some name ↔ ∃ front back, names = front ++ name :: back ∧
      (seen ++ front).Nodup ∧ name ∈ seen ++ front := by
  induction names generalizing seen with
  | nil => simp [firstRepeated?]
  | cons first rest ih =>
    -- a name that was read moves to the ones that were seen
    have hperm (front : List String) : (seen ++ first :: front).Perm (first :: seen ++ front) :=
      List.perm_middle
    by_cases hfirst : first ∈ seen
    · rw [firstRepeated?, if_pos (by simpa using hfirst)]
      constructor
      · intro h
        obtain rfl := Option.some.inj h
        exact ⟨[], rest, rfl, by simpa using hseen, by simpa using hfirst⟩
      · rintro ⟨front, back, hnames, hnodup, -⟩
        cases front with
        | nil => exact congrArg some (List.cons.inj hnames).1
        | cons other front =>
          obtain rfl := (List.cons.inj hnames).1
          rw [(hperm front).nodup_iff, List.cons_append, List.nodup_cons] at hnodup
          exact absurd (List.mem_append_left front hfirst) hnodup.1
    · rw [firstRepeated?, if_neg (by simpa using hfirst), ih (List.nodup_cons.2 ⟨hfirst, hseen⟩)]
      constructor
      · rintro ⟨front, back, rfl, hnodup, hname⟩
        exact ⟨first :: front, back, rfl, (hperm front).nodup_iff.2 hnodup,
          (hperm front).mem_iff.2 hname⟩
      · rintro ⟨front, back, hnames, hnodup, hname⟩
        cases front with
        | nil =>
          obtain rfl := (List.cons.inj hnames).1
          exact absurd (by simpa using hname) hfirst
        | cons other front =>
          obtain ⟨rfl, rfl⟩ := List.cons.inj hnames
          exact ⟨front, back, rfl, (hperm front).nodup_iff.1 hnodup, (hperm front).mem_iff.1 hname⟩

theorem nodup_of_firstRepeated? {seen names : List String} (hseen : seen.Nodup)
    (h : firstRepeated? seen names = none) : (seen ++ names).Nodup := by
  induction names generalizing seen with
  | nil => rwa [List.append_nil]
  | cons first rest ih =>
    rw [firstRepeated?] at h
    split at h
    · cases h
    · next hfirst =>
      have hnew : first ∉ seen := by simpa using hfirst
      have hnodup : (first :: seen ++ rest).Nodup := ih (List.nodup_cons.2 ⟨hnew, hseen⟩) h
      exact List.perm_middle.nodup_iff.2 hnodup

theorem firstRepeated?_eq_none_iff {names : List String} :
    firstRepeated? [] names = none ↔ names.Nodup :=
  ⟨nodup_of_firstRepeated? .nil, fun hnodup => firstRepeated?_eq_none hnodup (by simp)⟩

/-- Names that are the same in front only move the position. -/
theorem compareNames_append (position : Nat) (front applied declared : List String) :
    compareNames position (front ++ applied) (front ++ declared) =
      compareNames (position + front.length) applied declared := by
  induction front generalizing position with
  | nil => rfl
  | cons name front ih =>
    rw [List.cons_append, List.cons_append, compareNames, if_pos rfl, ih, List.length_cons,
      Nat.add_assoc, Nat.add_comm 1]

/-- Two lists of names are the same in front, up to the end of one of them or up to a position at
which they differ. -/
theorem exists_common_front (applied declared : List String) :
    applied <+: declared ∨
    (∃ front name rest other others, declared = front ++ name :: rest ∧
      applied = front ++ other :: others ∧ other ≠ name) ∨
    ∃ other others, applied = declared ++ other :: others := by
  induction applied generalizing declared with
  | nil => exact .inl List.nil_prefix
  | cons other others ih =>
    cases declared with
    | nil => exact .inr (.inr ⟨other, others, rfl⟩)
    | cons name rest =>
      by_cases hsame : other = name
      · subst hsame
        rcases ih rest with hstart | ⟨front, hfront⟩ | ⟨last, more, rfl⟩
        · exact .inl (List.cons_prefix_cons.2 ⟨rfl, hstart⟩)
        · obtain ⟨name, rest, last, more, rfl, rfl, hne⟩ := hfront
          exact .inr (.inl ⟨other :: front, name, rest, last, more, rfl, rfl, hne⟩)
        · exact .inr (.inr ⟨last, more, rfl⟩)
      · exact .inr (.inl ⟨[], name, rest, other, others, rfl, rfl, hsame⟩)

/-! ### Which histories are accepted -/

namespace Migrator

variable {m : Migrator} {h : History}

/-- Once the declared names are distinct, the names of the history decide. -/
theorem validate_of_nodup (hdistinct : m.names.Nodup) :
    m.validate h = (compareNames 1 h.names m.names).mapError .migration := by
  rw [validate, firstRepeated?_eq_none_iff.2 hdistinct]
  rfl

/-- What does not fit is refused, and the error says why. -/
theorem validate_of_misfit {fault : MigrationFault} (hmisfit : Misfit m.names h.names fault) :
    m.validate h = .error (.migration fault) := by
  cases hmisfit with
  | declaredTwice front back name hdeclared hnodup hname =>
    have hfirst : firstRepeated? [] m.names = some name :=
      (firstRepeated?_eq_some_iff .nil).2 ⟨front, back, hdeclared, hnodup, hname⟩
    rw [validate, hfirst]
  | diverges front rest others name other hdistinct hdeclared happlied hne =>
    rw [validate_of_nodup hdistinct, hdeclared, happlied, compareNames_append, compareNames,
      if_neg hne, Nat.add_comm]
    rfl
  | undeclared others other hdistinct happlied =>
    have hend : compareNames 1 (m.names ++ other :: others) (m.names ++ []) =
        .error (.undeclared other) := by
      rw [compareNames_append, compareNames]
    rw [validate_of_nodup hdistinct, happlied]
    rw [List.append_nil] at hend
    rw [hend]
    rfl

/-- A history fits, or there is one reason why it does not. -/
theorem fits_or_misfit (declared applied : List String) :
    declared.Nodup ∧ applied <+: declared ∨ ∃ fault, Misfit declared applied fault := by
  cases hfirst : firstRepeated? [] declared with
  | some name =>
    obtain ⟨front, back, hdeclared, hnodup, hname⟩ := (firstRepeated?_eq_some_iff .nil).1 hfirst
    exact .inr ⟨_, .declaredTwice front back name hdeclared hnodup hname⟩
  | none =>
    have hdistinct := firstRepeated?_eq_none_iff.1 hfirst
    rcases exists_common_front applied declared with hstart | hdiverges | ⟨other, others, happlied⟩
    · exact .inl ⟨hdistinct, hstart⟩
    · obtain ⟨front, name, rest, other, others, hdeclared, happlied, hne⟩ := hdiverges
      exact .inr ⟨_, .diverges front rest others name other hdistinct hdeclared happlied hne⟩
    · exact .inr ⟨_, .undeclared others other hdistinct happlied⟩

theorem validate_of_fits (hdistinct : m.names.Nodup) (hstart : h.names <+: m.names) :
    m.validate h = .ok () := by
  rw [validate_of_nodup hdistinct, compareNames_eq_ok hstart]
  rfl

theorem validate_eq_ok_iff : m.validate h = .ok () ↔ m.names.Nodup ∧ h.names <+: m.names := by
  refine ⟨fun hok => ?_, fun ⟨hdistinct, hstart⟩ => validate_of_fits hdistinct hstart⟩
  rcases fits_or_misfit m.names h.names with hfits | ⟨fault, hmisfit⟩
  · exact hfits
  · rw [validate_of_misfit hmisfit] at hok
    cases hok

theorem validate_eq_error_iff {e : Error} : m.validate h = .error e ↔
    ∃ fault, e = .migration fault ∧ Misfit m.names h.names fault := by
  constructor
  · intro herror
    rcases fits_or_misfit m.names h.names with ⟨hdistinct, hstart⟩ | ⟨fault, hmisfit⟩
    · rw [validate_of_fits hdistinct hstart] at herror
      cases herror
    · rw [validate_of_misfit hmisfit] at herror
      exact ⟨fault, (Except.error.inj herror).symm, hmisfit⟩
  · rintro ⟨fault, rfl, hmisfit⟩
    exact validate_of_misfit hmisfit

/-! ### Statuses -/

/-- A status divides the declared migrations into those that were applied and those that are left,
and each name on either side is looked up as the migration that was declared at its position. -/
structure Divides (m : Migrator) (status : MigrationStatus) : Prop where
  names : History.names status.applied ++ status.pending = m.names
  distinct : m.names.Nodup
  upToDate : status.isUpToDate = true ↔ History.names status.applied = m.names
  applied : ∀ (position : Nat) (row : AppliedMigration), status.applied[position]? = some row →
    ∃ migration, m.migrations[position]? = some migration ∧ m.find row.name = .ok migration
  pending : ∀ (position : Nat) (name : String), status.pending[position]? = some name →
    ∃ migration, m.migrations[status.applied.length + position]? = some migration ∧
      m.find name = .ok migration

/-- Of distinct names, each leads to the migration that was declared at its position. -/
theorem find_of_getElem? (hdistinct : m.names.Nodup) {position : Nat} {name : String}
    (hname : m.names[position]? = some name) :
    ∃ migration, m.migrations[position]? = some migration ∧ m.find name = .ok migration := by
  rw [names, List.getElem?_map] at hname
  obtain ⟨migration, hget, rfl⟩ := Option.map_eq_some_iff.1 hname
  refine ⟨migration, hget, ?_⟩
  obtain ⟨hlt, hat⟩ := List.getElem?_eq_some_iff.1 hget
  have hfound : m.migrations.find? (·.name = migration.name) = some migration := by
    rw [List.find?_eq_some_iff_getElem]
    refine ⟨by simp, position, hlt, hat, fun before hbefore => ?_⟩
    -- the ones in front have other names
    have hne : m.migrations[before].name ≠ m.migrations[position].name := by
      rw [names, List.Nodup, List.pairwise_map, List.pairwise_iff_getElem] at hdistinct
      exact hdistinct before position _ hlt hbefore
    rw [hat] at hne
    simpa using hne
  rw [find, hfound]

theorem statusOf_eq_ok_iff {status : MigrationStatus} : m.statusOf h = .ok status ↔
    status = ⟨h, m.names.drop h.length⟩ ∧ m.names.Nodup ∧ h.names <+: m.names := by
  rw [statusOf, bind_eq_ok_iff, ← validate_eq_ok_iff]
  simp only [pure_eq_ok_iff]
  constructor
  · rintro ⟨⟨⟩, hvalid, rfl⟩
    exact ⟨rfl, hvalid⟩
  · rintro ⟨rfl, hvalid⟩
    exact ⟨(), hvalid, rfl⟩

/-- A status is read off the history, which was valid. -/
theorem status_eq_ok_iff {σ : Type} {conn : Executor σ} {s t : SessionState σ}
    {status : MigrationStatus} : (m.status conn).runFrom s = (.ok status, t) ↔
      (m.fetchHistory conn).runFrom s = (.ok status.applied, t) ∧
        m.statusOf status.applied = .ok status := by
  rw [Migrator.status]
  rcases hrun : (m.fetchHistory conn).runFrom s with ⟨e | h, u⟩
  · rw [Session.runFrom_bind_of_error hrun]
    simp
  · rw [Session.runFrom_bind_of_ok hrun, Session.runFrom_ofExcept, Prod.mk.injEq, Prod.mk.injEq,
      Except.ok.injEq]
    constructor
    · rintro ⟨hstatus, rfl⟩
      have happlied : h = status.applied := by rw [(statusOf_eq_ok_iff.1 hstatus).1]
      exact ⟨⟨happlied, rfl⟩, happlied ▸ hstatus⟩
    · rintro ⟨⟨rfl, rfl⟩, hstatus⟩
      exact ⟨hstatus, rfl⟩

theorem divides_of_statusOf {status : MigrationStatus} (hstatus : m.statusOf h = .ok status) :
    m.Divides status := by
  obtain ⟨rfl, hdistinct, hstart⟩ := statusOf_eq_ok_iff.1 hstatus
  obtain ⟨pending, hnames⟩ := hstart
  have hpending : m.names.drop h.length = pending := by
    rw [← hnames, ← History.length_names, List.drop_left]
  refine ⟨by rw [hpending, hnames], hdistinct, ?_, fun position row hrow => ?_,
    fun position name hname => ?_⟩
  · rw [MigrationStatus.isUpToDate_iff, hpending, ← hnames]
    exact List.self_eq_append_right.symm
  · refine find_of_getElem? hdistinct ?_
    have hrow' : h.names[position]? = some row.name := by
      rw [History.names, List.getElem?_map, hrow]
      rfl
    rw [← hnames, List.getElem?_append_left (List.getElem?_eq_some_iff.1 hrow').1, hrow']
  · refine find_of_getElem? hdistinct ?_
    rwa [List.getElem?_drop] at hname

/-- Validation accepts a history exactly if the declared names are distinct and its names are the
first of them; otherwise it says the first thing that is wrong. A status is given for the history
that was read, and divides the declared migrations. -/
theorem status_divides (m : Migrator) :
    (∀ h : History, m.validate h = .ok () ↔ m.names.Nodup ∧ h.names <+: m.names) ∧
    (∀ (h : History) (e : Error), m.validate h = .error e ↔
      ∃ fault, e = .migration fault ∧ Misfit m.names h.names fault) ∧
    ∀ (σ : Type) (conn : Executor σ) (s t : SessionState σ) (status : MigrationStatus),
      (m.status conn).runFrom s = (.ok status, t) →
        (m.fetchHistory conn).runFrom s = (.ok status.applied, t) ∧ m.Divides status := by
  refine ⟨fun h => validate_eq_ok_iff, fun h e => validate_eq_error_iff, ?_⟩
  intro σ conn s t status hrun
  obtain ⟨hread, hstatus⟩ := status_eq_ok_iff.1 hrun
  exact ⟨hread, divides_of_statusOf hstatus⟩

/-- Two migrations. -/
def usersAndPosts : Migrator where
  migrations := [⟨"001_users", .ok, .ok⟩, ⟨"002_posts", .ok, .ok⟩]

/-- The row of the first of them. -/
def usersRow : AppliedMigration := ⟨1, "001_users", 1, none⟩

/-- A connection whose table has that row. -/
def usersConn : Executor Unit :=
  .ofStatements (fun _ _ => return [usersRow.toRecord]) (fun _ _ => return 0) fun _ => return ()

/-- One of two migrations was applied. -/
theorem status_divides_users :
    (usersAndPosts.status usersConn).runFrom { remote := () } =
      (.ok ⟨[usersRow], ["002_posts"]⟩, { remote := () }) ∧
    usersAndPosts.Divides ⟨[usersRow], ["002_posts"]⟩ := by
  have htable : Sql.quoteIdentifier usersAndPosts.table = .ok "\"pgfluent_migrations\"" := by
    decide +kernel
  have hread : (usersAndPosts.fetchHistory usersConn).runFrom { remote := () } =
      (.ok [usersRow], { remote := () }) := by
    rw [fetchHistory, htable]
    rfl
  have hstatus : usersAndPosts.statusOf [usersRow] = .ok ⟨[usersRow], ["002_posts"]⟩ :=
    statusOf_eq_ok_iff.2 ⟨rfl, by decide, ["002_posts"], rfl⟩
  have hrun : (usersAndPosts.status usersConn).runFrom { remote := () } =
      (.ok ⟨[usersRow], ["002_posts"]⟩, { remote := () }) := status_eq_ok_iff.2 ⟨hread, hstatus⟩
  exact ⟨hrun, (usersAndPosts.status_divides.2.2 _ _ _ _ _ hrun).2⟩

end Migrator

end PgToolkit
