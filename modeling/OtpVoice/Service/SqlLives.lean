import OtpVoice.Service.Install
import OtpVoice.Service.Lives

/-!
# Processes over the tables

Each process opens the database file with `init_db`, upgrades it if it has to, serves until it is
killed, and leaves the tables of its last commit. `sqlLives` runs such processes one after the
other, with starts in between that are cut short before they serve. It does what `lives` does over
the store (`sql_lives`): `Between` carries the interrupted starts, `sqlDurableRefinement` the runs,
and what a killed process leaves can be opened again (`Kept.openable`, `Kept.older`).
-/

set_option autoImplicit false

namespace OtpVoice

open Coroutine

/-! ## A process -/

/-- Configurations of the service on SQL tables. -/
abbrev SqlConf : Type := Config Cmd Cmd.Resp Exc Env SqlWorld Op Answer

/-- A process that has opened the database: what it has created is committed. -/
def sqlDurableRun (o : CallOriginator) (yields : Cmd → Bool) (db : Sql.Database)
    (limiter : RateLimiter) (acts : List Turn) : SqlConf :=
  (sqlService o yields).run (.initial ⟨db, db, limiter, [], []⟩) acts

/-- A start that serves, after starts that have been cut short: what each statement of `init_db`
raises in them. -/
structure Launch where
  cutShort : List (ℕ → Option String)
  start : Start

/-- Each process with its settings, as it is killed. A process that cannot open the database does
not serve. -/
def sqlLives (yields : Cmd → Bool) (path : String) :
    Sql.Database → List Launch → List (CallOriginator × SqlConf)
  | _, [] => []
  | db, launch :: rest =>
    match start path (fun _ => none) (restarted path launch.cutShort { db := db }) with
    | (.ok (), _, opened) =>
      let s := sqlDurableRun launch.start.originator yields opened.db launch.start.limiter
        launch.start.acts
      (launch.start.originator, s) :: sqlLives yields path s.world.committed rest
    | (.error _, _, opened) => sqlLives yields path opened.db rest

/-! ## What a process keeps -/

/-- The database represents the store, and no table has the name of an index. -/
structure Kept (db : Sql.Database) (st : Store) : Prop where
  represents : Represents db st
  free : ∀ ix ∈ serviceIndexes, db.find ix.name = none

section Kept

variable {db : Sql.Database} {st : Store}

theorem Stmt.sql_on (s : Stmt) : ∃ table ∈ serviceTables, s.sql.On table := by
  cases s with
  | insertEvent row => exact ⟨"otp_events", by decide, rfl⟩
  | selectEvents requestId => exact ⟨"otp_events", by decide, rfl⟩
  | deleteOrphanEvents => exact ⟨"otp_events", by decide, rfl⟩
  | _ => exact ⟨"otp_calls", by decide, rfl⟩

/-- A statement of the service creates no table. -/
theorem run_free (h : ∀ ix ∈ serviceIndexes, db.find ix.name = none) (s : Stmt) :
    ∀ ix ∈ serviceIndexes, (s.run db).2.find ix.name = none := by
  intro ix hix
  simp only [Stmt.run]
  cases hexec : s.sql.exec db with
  | error text => exact h ix hix
  | ok x =>
    obtain ⟨r, db'⟩ := x
    obtain ⟨table, htable, hon⟩ := s.sql_on
    rcases hon.exec hexec with hsame | ⟨t, hput⟩
    · show db'.find ix.name = none
      rw [hsame]
      exact h ix hix
    · have hne : ix.name ≠ table := by
        obtain ⟨hcalls, hevents⟩ := serviceIndexes_name hix
        rcases List.mem_cons.1 htable with rfl | htable
        · exact hcalls
        · exact (List.mem_singleton.1 htable) ▸ hevents
      show db'.find ix.name = none
      rw [hput, db.find_put_ne hne]
      exact h ix hix

/-- A row that stores cells holds them. -/
theorem Stores.holds {row cells : Sql.Row} (h : Stores row cells) : Holds row cells :=
  fun x hx => .inl (h x hx)

/-- The database of a process that was killed is one that `init_db` knows. -/
theorem Kept.older (h : Kept db st) : Older db st where
  calls t ht := by
    obtain ⟨t', ht', hcalls⟩ := h.represents.calls
    cases ht.symm.trans ht'
    exact ⟨hcalls.fits.key, fun c hc => .inl (hcalls.fits.columns c hc), hcalls.fits.others,
      hcalls.sequence, hcalls.rows.imp fun _ _ hrow => hrow.holds⟩
  noCalls hnone := by
    obtain ⟨t, ht, -⟩ := h.represents.calls
    cases hnone.symm.trans ht
  events t ht := by
    obtain ⟨t', ht', hevents⟩ := h.represents.events
    cases ht.symm.trans ht'
    exact hevents
  noEvents hnone := by
    obtain ⟨t, ht, -⟩ := h.represents.events
    cases hnone.symm.trans ht

/-- The columns of the indexes are columns of the schema. -/
theorem index_columns {ix : Sql.Index} (hix : ix ∈ serviceIndexes) :
    (ix.table = "otp_calls" → ∀ c ∈ ix.columns, c ∈ Sql.names callColumns) ∧
      (ix.table = "otp_events" → ∀ c ∈ ix.columns, c ∈ Sql.names eventColumns) := by
  revert ix
  decide

theorem Kept.openable (h : Kept db st) : Openable db where
  tables name hname hnone := by
    obtain ⟨t, ht, -⟩ := h.represents.calls
    obtain ⟨t', ht', -⟩ := h.represents.events
    rcases List.mem_cons.1 hname with rfl | hname
    · cases hnone.symm.trans ht
    · obtain rfl := List.mem_singleton.1 hname
      cases hnone.symm.trans ht'
  indexes ix hix := by
    refine ⟨h.free ix hix, .inr fun t ht c hc => .inl ?_⟩
    obtain ⟨tc, htc, hcalls⟩ := h.represents.calls
    obtain ⟨te, hte, hevents⟩ := h.represents.events
    rcases serviceIndexes_table hix with htable | htable
    · rw [htable, htc] at ht
      cases ht
      exact hcalls.fits.mem_names ((index_columns hix).1 htable c hc)
    · rw [htable, hte] at ht
      cases ht
      exact hevents.fits.mem_names ((index_columns hix).2 htable c hc)

end Kept

/-! ## A run over the tables -/

/-- The tables represent the store, and those of the last commit too; no table has the name of an
index. -/
structure ShowsDurable (w : SqlWorld) (v : World) : Prop where
  shown : Shows w v
  free : ∀ ix ∈ serviceIndexes, w.db.find ix.name = none
  durable : Kept w.committed v.committed

/-- A command keeps the names of the indexes free, in the tables and in those of the last commit. -/
theorem respond_free {w : SqlWorld} (h : ∀ ix ∈ serviceIndexes, w.db.find ix.name = none)
    (h' : ∀ ix ∈ serviceIndexes, w.committed.find ix.name = none) (e : Env) (n : ℕ) (c : Cmd) :
    (∀ ix ∈ serviceIndexes, (SqlWorld.respond e n w c).2.db.find ix.name = none) ∧
      ∀ ix ∈ serviceIndexes, (SqlWorld.respond e n w c).2.committed.find ix.name = none := by
  cases c with
  | execute s =>
    have hrun := run_free h s
    simp only [SqlWorld.respond]
    split
    · refine ⟨fun ix hix => ?_, h'⟩
      simp only [SqlWorld.undo]
      split
      · exact h' ix hix
      · exact h ix hix
    · split
      · rename_i hs
        rw [hs] at hrun
        exact ⟨hrun, h'⟩
      · exact ⟨h, h'⟩
  | commit =>
    simp only [SqlWorld.respond]
    split
    · exact ⟨h', h'⟩
    · exact ⟨h, h⟩
  | _ => exact ⟨h, h'⟩

/-- The service over the tables, with what a killed process leaves, refines that over the store. -/
def sqlDurableRefinement (o : CallOriginator) (yields : Cmd → Bool) :
    Service.Refinement (sqlService o yields) (otpService o yields) where
  rel := ShowsDurable
  cmd := Cmd.Issued
  yields := (sqlRefinement o yields).yields
  entry := (sqlRefinement o yields).entry
  body := (sqlRefinement o yields).body
  spawns := (sqlRefinement o yields).spawns
  uses := (sqlRefinement o yields).uses
  respond := by
    intro w v c e n h hc
    obtain ⟨hanswer, hshown⟩ := shows_respond h.shown e n hc
    obtain ⟨hfree, hkept⟩ := respond_free h.free h.durable.free e n c
    exact ⟨hanswer, hshown, hfree, hshown.committed, hkept⟩

/-! ## All processes -/

/-- A start without exceptions opens the database, whatever has been cut short before. -/
theorem opens (path : String) (cutShort : List (ℕ → Option String)) {db : Sql.Database}
    {st : Store} (hopen : Openable db) (hold : Older db st) : ∃ n w,
      start path (fun _ => none) (restarted path cutShort { db := db }) = (.ok (), n, w) ∧
        Kept w.db st := by
  have hbetween := restarted_between path cutShort { db := db }
  have hcalm := (calmly_initDb path (restarted path cutShort { db := db })).complete
  have hok := hcalm.1.2 (hbetween.openable_iff.2 hopen)
  have hupgraded := hbetween.upgraded (hcalm.2 hok)
  refine ⟨_, _, Prod.ext hok rfl, hupgraded.represents hold, fun ix hix => ?_⟩
  have hother : ix.name ∉ serviceTables := by
    obtain ⟨hcalls, hevents⟩ := serviceIndexes_name hix
    simp [serviceTables, hcalls, hevents]
  exact (hupgraded.others ix.name hother).trans (hopen.indexes ix hix).1

/-- The same threads after the same commands, and tables that represent what the store holds. -/
def SameLife (x : CallOriginator × SqlConf) (y : CallOriginator × Conf) : Prop :=
  x.1 = y.1 ∧ x.2.threads = y.2.threads ∧ x.2.trace = y.2.trace ∧
    ShowsDurable x.2.world y.2.world

/-- From an install of any version, through any number of processes that are killed at any moment
and starts that are cut short: every process opens the database and does over its tables what it
does over the store. -/
theorem sql_lives (yields : Cmd → Bool) (path : String) {db : Sql.Database} {st : Store}
    (hopen : Openable db) (hold : Older db st) (launches : List Launch) :
    List.Forall₂ SameLife (sqlLives yields path db launches)
      (lives yields st (launches.map Launch.start)) := by
  induction launches generalizing db st with
  | nil => exact .nil
  | cons launch rest ih =>
    obtain ⟨n, w, hstart, hkept⟩ := opens path launch.cutShort hopen hold
    have hshows : ShowsDurable ⟨w.db, w.db, launch.start.limiter, [], []⟩
        (.opened { store := st, committed := st, limiter := launch.start.limiter }) :=
      ⟨⟨hkept.represents, hkept.represents, rfl, rfl, rfl⟩, hkept.free, hkept⟩
    have hmatch := Service.Refinement.run (Service.Refinement.matches_initial
      (K := sqlDurableRefinement launch.start.originator yields) hshows) launch.start.acts
    have hlife : SameLife
        (launch.start.originator, sqlDurableRun launch.start.originator yields w.db
          launch.start.limiter launch.start.acts)
        (launch.start.originator, durableRun launch.start.originator yields
          { store := st, committed := st, limiter := launch.start.limiter } launch.start.acts) :=
      ⟨rfl, hmatch.threads, hmatch.trace, hmatch.world⟩
    have hleft := hmatch.world.durable
    simp only [sqlLives, hstart, List.map_cons, lives]
    exact .cons hlife (ih hleft.openable hleft.older)

/-- An install from before the newer columns: its first start meets a full disk, the next process is
killed while an action waits for its acknowledgement, and another one starts. -/
theorem sql_lives_older :
    List.Forall₂ SameLife
      (sqlLives Cmd.waitsForAsterisk "otp.db" olderInstall
        [⟨[fun _ => some "disk full"], ⟨sampleOriginator, sampleWorld.limiter, waitingRun⟩⟩,
          ⟨[], ⟨sampleOriginator, sampleWorld.limiter, waitingRun⟩⟩])
      (lives Cmd.waitsForAsterisk olderStore
        [⟨sampleOriginator, sampleWorld.limiter, waitingRun⟩,
          ⟨sampleOriginator, sampleWorld.limiter, waitingRun⟩]) :=
  sql_lives Cmd.waitsForAsterisk "otp.db" openable_olderInstall older_olderInstall _

end OtpVoice
