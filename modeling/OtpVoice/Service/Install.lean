import OtpVoice.Service.SqlService
import OtpVoice.Service.System
import OtpVoice.Storage.Upgrade

/-!
# The service on an upgraded install

The tables of an older install (`Older`) hold the records of a store in the columns that they have;
what a missing column would hold is its default. `Upgraded.represents`: once such a database is
upgraded it represents the store. So from there the service over the tables does what the service
over the store does (`upgraded_service`), whatever has interrupted the starts before.
-/

set_option autoImplicit false

namespace OtpVoice

open Coroutine

/-! ## An older install -/

/-- The columns that the migration adds. -/
def newer : List Sql.Column := newerColumns.map Prod.fst

/-- The row has these cells, but for those of the newer columns it lacks, which are defaults. -/
def Holds (row cells : Sql.Row) : Prop :=
  ∀ x ∈ cells, row.lookup x.1 = some x.2 ∨
    (row.lookup x.1 = none ∧ ∃ c ∈ newer, c.name = x.1 ∧ c.dflt = x.2)

/-- An older table of the records. -/
structure OlderCalls (t : Sql.Relation) (records : List CallRecord) : Prop where
  key : t.key = "request_id"
  columns : ∀ c ∈ callColumns, c ∈ t.columns ∨ (c ∈ newer ∧ c.name ∉ Sql.names t.columns)
  others : ∀ c ∈ t.columns, c.name ∉ Sql.names callColumns → c.accepts c.dflt = true
  sequence : t.sequence = none
  rows : List.Forall₂ (fun row r => Holds row r.cells) t.rows records

/-- A database of the service, perhaps of an older version or without tables, with the rows of a
store. -/
structure Older (db : Sql.Database) (st : Store) : Prop where
  calls : ∀ t, db.find "otp_calls" = some t → OlderCalls t st.calls.rows
  noCalls : db.find "otp_calls" = none → st.calls.rows = []
  events : ∀ t, db.find "otp_events" = some t → EventsOf t st.events
  noEvents : db.find "otp_events" = none → st.events = []

/-! ## The tables after the upgrade -/

/-- The newer columns are columns of the schema. -/
theorem newer_mem {c : Sql.Column} (h : c ∈ newer) : c ∈ callColumns := by
  revert c
  decide

section Tables

variable {t t' : Sql.Relation} {cs : List Sql.Column} {records : List CallRecord}

/-- The added columns are the newer ones that were missing. -/
theorem mem_added (hperm : cs.Perm ((missing t).map Prod.fst)) {c : Sql.Column} :
    c ∈ cs ↔ c ∈ newer ∧ c.name ∉ Sql.names t.columns := by
  rw [hperm.mem_iff, List.mem_map]
  constructor
  · rintro ⟨x, hx, rfl⟩
    obtain ⟨hx, hfree⟩ := mem_missing.1 hx
    exact ⟨List.mem_map_of_mem hx, hfree⟩
  · rintro ⟨hc, hfree⟩
    obtain ⟨x, hx, rfl⟩ := List.mem_map.1 hc
    exact ⟨x, mem_missing.2 ⟨hx, hfree⟩, rfl⟩

/-- The defaults complete the row. -/
theorem Holds.stores {row cells : Sql.Row} (h : Holds row cells)
    (hrow : row.map Prod.fst = Sql.names t.columns) (hext : t.Extended t' cs)
    (hperm : cs.Perm ((missing t).map Prod.fst)) :
    Stores (row ++ cs.map fun c => (c.name, c.dflt)) cells := by
  intro x hx
  rw [List.lookup_append]
  rcases h x hx with hold | ⟨hnone, c, hnewer, hname, hdflt⟩
  · rw [hold]
    rfl
  · have hfree : c.name ∉ Sql.names t.columns := by
      rw [← hrow, ← Sql.lookup_isSome_iff, hname, hnone]
      exact Bool.false_ne_true
    have hc : c ∈ cs := (mem_added hperm).2 ⟨hnewer, hfree⟩
    rw [hnone, ← hname, Sql.lookup_defaults hext.disjoint.1 hc, ← hdflt]
    rfl

/-- The upgraded table has the columns of the schema and the rows of the records. -/
theorem OlderCalls.upgraded (h : OlderCalls t records) (hext : t.Extended t' cs)
    (hperm : cs.Perm ((missing t).map Prod.fst)) : CallsOf t' records where
  fits :=
    { key := hext.key.trans h.key
      columns := by
        intro c hc
        rw [hext.columns, List.mem_append]
        exact (h.columns c hc).imp id (mem_added hperm).2
      others := by
        intro c hc hname
        rw [hext.columns, List.mem_append] at hc
        rcases hc with hc | hc
        · exact h.others c hc hname
        · have hnewer := ((mem_added hperm).1 hc).1
          exact absurd (List.mem_map_of_mem (newer_mem hnewer)) hname }
  sequence := hext.sequence.trans h.sequence
  rows := by
    rw [hext.rows, List.forall₂_map_left_iff]
    refine List.Forall₂.imp ?_ ((List.forall₂_and_left _ _).2 ⟨t.shaped, h.rows⟩)
    rintro row r ⟨hshaped, hrow⟩
    exact hrow.stores hshaped hext hperm

end Tables

theorem fits_newCalls : Fits newCalls callColumns "request_id" where
  key := rfl
  columns _ hc := hc
  others _ hc hname := absurd (List.mem_map_of_mem hc) hname

theorem fits_newEvents : Fits newEvents eventColumns "id" where
  key := rfl
  columns _ hc := hc
  others _ hc hname := absurd (List.mem_map_of_mem hc) hname

/-- An upgraded database represents the store of the older one. -/
theorem Upgraded.represents {db db' : Sql.Database} {st : Store} (h : Upgraded db db')
    (hold : Older db st) : Represents db' st where
  calls := by
    cases hcalls : db.find "otp_calls" with
    | none =>
      refine ⟨newCalls, h.absent hcalls, fits_newCalls, rfl, ?_⟩
      rw [hold.noCalls hcalls]
      exact .nil
    | some t =>
      obtain ⟨t', cs, ht', hext, hperm⟩ := h.present t hcalls
      exact ⟨t', ht', (hold.calls t hcalls).upgraded hext hperm⟩
  events := by
    have hevents := h.events
    cases htable : db.find "otp_events" with
    | none =>
      rw [htable] at hevents
      refine ⟨newEvents, hevents, fits_newEvents, ⟨0, rfl, ?_⟩, ?_⟩
      · exact fun row hrow => absurd hrow List.not_mem_nil
      · rw [hold.noEvents htable]
        exact .nil
    | some t =>
      rw [htable] at hevents
      exact ⟨t, hevents, hold.events t htable⟩

/-! ## Runs -/

/-- Both runs have the same threads, with their outcomes, and the same trace, and end in tables and
a store of the same content. -/
def SameRun (s : Config Cmd Cmd.Resp Exc Env SqlWorld Op Answer)
    (s' : Config Cmd Cmd.Resp Exc Env World Op Answer) : Prop :=
  s.threads = s'.threads ∧ s.trace = s'.trace ∧ Shows s.world s'.world

theorem sameRun_of_matches {o : CallOriginator} {yields : Cmd → Bool}
    {s : Config Cmd Cmd.Resp Exc Env SqlWorld Op Answer}
    {s' : Config Cmd Cmd.Resp Exc Env World Op Answer}
    (h : (sqlRefinement o yields).Matches s s') : SameRun s s' := ⟨h.threads, h.trace, h.world⟩

/-- The service over tables does what the service over the store does that they represent, in every
run, whatever fails and in whatever order its coroutines continue. -/
theorem sql_service (o : CallOriginator) (yields : Cmd → Bool) {w : SqlWorld} {v : World}
    (h : Shows w v) (acts : List (Act Env Input)) :
    SameRun ((sqlService o yields).run (.initial w) acts)
      ((otpService o yields).run (.initial v) acts) :=
  sameRun_of_matches (Service.Refinement.run (Service.Refinement.matches_initial h) acts)

/-- A new install: both tables are empty. -/
theorem sql_service_new :
    let db : Sql.Database := (Sql.Database.put ⟨∅, []⟩ "otp_calls" newCalls).put
      "otp_events" newEvents
    SameRun
      ((sqlService sampleOriginator fun _ => true).run
        (.initial ⟨db, db, sampleWorld.limiter, [], []⟩) waitingRun)
      ((otpService sampleOriginator fun _ => true).run (.initial sampleWorld) waitingRun) := by
  intro db
  have hnew : Represents db sampleWorld.store :=
    ⟨⟨newCalls, rfl, fits_newCalls, rfl, .nil⟩,
      ⟨newEvents, rfl, fits_newEvents, ⟨0, rfl, fun _ h => absurd h List.not_mem_nil⟩, .nil⟩⟩
  exact sql_service sampleOriginator _ ⟨hnew, hnew, rfl, rfl, rfl⟩ waitingRun

/-- After starts that were cut short or failed in part, a start without exceptions ends normally,
and from there every run of the service over the upgraded tables is its run over the old
records. -/
theorem upgraded_service (path : String) (faults : List (ℕ → Option String)) {w : DbWorld}
    {st : Store} (hopen : Openable w.db) (hold : Older w.db st) (o : CallOriginator)
    (yields : Cmd → Bool) (limiter : RateLimiter) (acts : List (Act Env Input)) :
    let last := start path (fun _ => none) (restarted path faults w)
    last.1 = .ok () ∧
      SameRun
        ((sqlService o yields).run (.initial ⟨last.2.2.db, last.2.2.db, limiter, [], []⟩) acts)
        ((otpService o yields).run (.initial ⟨st, st, limiter, [], []⟩) acts) := by
  intro last
  have hbetween := restarted_between path faults w
  have hcalm := (calmly_initDb path (restarted path faults w)).complete
  have hok : last.1 = .ok () := hcalm.1.2 (hbetween.openable_iff.2 hopen)
  have hupgraded : Upgraded w.db last.2.2.db := hbetween.upgraded (hcalm.2 hok)
  have hshows : Shows ⟨last.2.2.db, last.2.2.db, limiter, [], []⟩ ⟨st, st, limiter, [], []⟩ :=
    ⟨hupgraded.represents hold, hupgraded.represents hold, rfl, rfl, rfl⟩
  exact ⟨hok, sameRun_of_matches (Service.Refinement.run
    (Service.Refinement.matches_initial (K := sqlRefinement o yields) hshows) acts)⟩

/-- A table from before the newer columns. -/
def olderTable : Sql.Relation where
  columns := callColumns.filter fun c => c ∉ newer
  key := "request_id"
  sequence := none
  rows := [[("request_id", .text "5f0c"), ("mobile", .text "09121234567"),
    ("code_masked", .text "4***"), ("status", .text "completed"), ("hangup_cause", .text "16"),
    ("duration", .null), ("created_at", .real 10), ("updated_at", .real 40),
    ("expires_at", .real 310)]]
  distinct := by decide
  shaped := by decide

/-- The record of the old install as the service sees it. -/
def olderRecord : CallRecord where
  requestId := "5f0c"
  mobile := "09121234567"
  code := ""
  codeMasked := "4***"
  status := .completed
  hangupCause := some "16"
  parentRequestId := none
  createdAt := 10
  updatedAt := 40
  expiresAt := 310

/-- An install that has only this table. -/
def olderInstall : Sql.Database := Sql.Database.put ⟨∅, []⟩ "otp_calls" olderTable

/-- The tables of the old install as the service sees them. -/
def olderStore : Store := ⟨⟨[olderRecord], List.nodup_singleton _⟩, []⟩

theorem olderInstall_calls : olderInstall.find "otp_calls" = some olderTable :=
  Sql.Database.find_put_self _ _ _

theorem olderInstall_other {name : String} (h : name ≠ "otp_calls") :
    olderInstall.find name = none := Sql.Database.find_put_ne _ h _

theorem olderTable_covers : ∀ ix ∈ serviceIndexes, ix.table = "otp_calls" → ∀ c ∈ ix.columns,
    c ∈ Sql.names olderTable.columns ∨ c ∈ newerColumns.map fun x => x.1.name := by
  decide

theorem openable_olderInstall : Openable olderInstall where
  tables _ _ _ := rfl
  indexes ix hix := by
    have hname : ix.name ≠ "otp_calls" := by
      revert ix
      decide
    refine ⟨olderInstall_other hname, .inr fun t ht => ?_⟩
    by_cases htable : ix.table = "otp_calls"
    · rw [htable, olderInstall_calls] at ht
      cases ht
      exact olderTable_covers ix hix htable
    · rw [olderInstall_other htable] at ht
      cases ht

theorem older_olderInstall : Older olderInstall olderStore where
  calls t ht := by
    rw [olderInstall_calls] at ht
    cases ht
    refine ⟨rfl, by decide, by decide, rfl, .cons ?_ .nil⟩
    unfold Holds
    decide
  noCalls hnone := by
    rw [olderInstall_calls] at hnone
    cases hnone
  events t ht := by
    rw [olderInstall_other (by decide)] at ht
    cases ht
  noEvents _ := rfl

/-- The first start of the new version meets a full disk. -/
theorem upgraded_service_older :
    let last := start "otp.db" (fun _ => none)
      (restarted "otp.db" [fun _ => some "disk full"] { db := olderInstall })
    last.1 = .ok () ∧ SameRun
      ((sqlService sampleOriginator fun _ => true).run
        (.initial ⟨last.2.2.db, last.2.2.db, sampleWorld.limiter, [], []⟩) waitingRun)
      ((otpService sampleOriginator fun _ => true).run
        (.initial ⟨olderStore, olderStore, sampleWorld.limiter, [], []⟩) waitingRun) :=
  upgraded_service "otp.db" _ (w := { db := olderInstall }) openable_olderInstall
    older_olderInstall sampleOriginator _ sampleWorld.limiter waitingRun

end OtpVoice
