import OtpVoice.Storage.Migration

/-!
# The schema after a start

`Upgraded db db'` says what the service needs of its database, and that `db'` has it beside all that
`db` has: the rows keep their values, and each newer column has its default. A start that meets no
exception ends normally if and only if the columns of the indexes are there or can be added
(`Openable`), and then its database is upgraded. `starts_converge`: so it is after any number of
starts that were cut short or failed in part.
-/

set_option autoImplicit false

namespace OtpVoice

open Coroutine

/-! ## A start without exceptions -/

/-- What `p` does from `w` when nothing but the statements themselves can fail. -/
def Calmly {α : Type} (post : Except Exc α → DbWorld → Prop) (p : DbProg α) (w : DbWorld) : Prop :=
  Coro.Sat (fun (w : DbWorld) c r w' => (r, w') = w.answer c) (fun _ _ _ _ => True) post p w

section Rules

variable {α β : Type} {post : Except Exc α → DbWorld → Prop} {w : DbWorld}

/-- A coroutine that is run without exceptions of the environment. -/
theorem Calmly.complete {p : DbProg α} (h : Calmly post p w) :
    post (p.complete (DbWorld.respond fun _ => none) 0 w).1
      (p.complete (DbWorld.respond fun _ => none) 0 w).2.2 :=
  Coro.Sat.complete (fun _ _ _ => rfl) h 0

theorem Calmly.mono {post' : Except Exc α → DbWorld → Prop} {p : DbProg α} (h : Calmly post p w)
    (hpost : ∀ r w', post r w' → post' r w') : Calmly post' p w :=
  Coro.Sat.mono hpost h

theorem Calmly.bind {Q : Except Exc β → DbWorld → Prop} {p : DbProg β} {f : β → DbProg α}
    (hp : Calmly Q p w) (hok : ∀ a w', Q (.ok a) w' → Calmly post (f a) w')
    (herror : ∀ x w', Q (.error x) w' → post (.error x) w') : Calmly post (p >>= f) w := by
  refine (Coro.sat_bind _ f p w).2 (Coro.Sat.mono ?_ hp)
  intro r w' hQ
  cases r with
  | ok a => exact hok a w' hQ
  | error x => exact herror x w' hQ

theorem calmly_issue {c : DbCmd} {post : Except Exc c.Resp → DbWorld → Prop}
    (h : post (w.answer c).1 (w.answer c).2) : Calmly post (Opening.issue c) w := by
  intro r w' hstep
  have hr : r = (w.answer c).1 := congrArg Prod.fst hstep
  have hw : w' = (w.answer c).2 := congrArg Prod.snd hstep
  rw [hr, hw]
  exact ⟨trivial, h⟩

/-- A command that succeeds, before the rest. -/
theorem calmly_issue_bind {c : DbCmd} {f : c.Resp → DbProg α} {a : c.Resp} {w' : DbWorld}
    (hc : w.answer c = (.ok a, w')) (h : Calmly post (f a) w') :
    Calmly post (Opening.issue c >>= f) w := by
  refine Calmly.bind (Q := fun r v => r = .ok a ∧ v = w') (calmly_issue ?_) ?_ ?_
  · rw [hc]
    exact ⟨rfl, rfl⟩
  · rintro b v ⟨hb, rfl⟩
    cases hb
    exact h
  · rintro x v ⟨hx, -⟩
    cases hx

/-- A statement that fails, before the rest. -/
theorem calmly_execute_error {s : Sql.Statement} {f : Sql.Result → DbProg α} {text : String}
    (hs : s.exec w.db = .error text) (h : post (.error (.other text)) w) :
    Calmly post (Opening.execute s >>= f) w := by
  have hanswer : w.answer (.execute s) = (.error (.other text), w) := by
    simp only [DbWorld.answer, hs]
  refine Calmly.bind (Q := fun r v => r = .error (.other text) ∧ v = w) (calmly_issue ?_) ?_ ?_
  · rw [hanswer]
    exact ⟨rfl, rfl⟩
  · rintro b v ⟨hb, -⟩
    cases hb
  · rintro x v ⟨hx, rfl⟩
    cases hx
    exact h

theorem answer_getConn (hw : w.connected = true) : w.answer .getConn = (.ok (), w) := by
  simp only [DbWorld.answer, hw, if_true]

theorem answer_execute {s : Sql.Statement} {r : Sql.Result} {db : Sql.Database}
    (hs : s.exec w.db = .ok (r, db)) :
    w.answer (.execute s) = (.ok r, { w with db := db }) := by
  simp only [DbWorld.answer, hs]

end Rules

/-! ## What each part does -/

section Parts

open Opening

variable {w : DbWorld}

/-- A run that ends as the statements do: normally with their database, or with the first error. -/
def Reports (e : Except String Sql.Database) (r : Except Exc Unit) (w : DbWorld) : Prop :=
  match e with
  | .ok db => r = .ok () ∧ w.db = db ∧ w.connected = true
  | .error text => r = .error (.other text)

theorem calmly_executescript (hw : w.connected = true) (statements : List Sql.Statement) :
    Calmly (Reports (Sql.runAll w.db statements)) (executescript statements) w := by
  induction statements generalizing w with
  | nil => exact ⟨rfl, rfl, hw⟩
  | cons s rest ih =>
    simp only [executescript, Sql.runAll]
    cases hs : s.exec w.db with
    | error text => exact calmly_execute_error hs rfl
    | ok x => exact calmly_issue_bind (answer_execute hs) (ih (w := { w with db := x.2 }) hw)

/-- A part that gets the connection, runs a script and commits. -/
theorem calmly_script (hw : w.connected = true) (statements : List Sql.Statement) :
    Calmly (Reports (Sql.runAll w.db statements)) (do
      Opening.issue .getConn
      executescript statements
      Opening.issue .commit) w := by
  refine calmly_issue_bind (answer_getConn hw) ?_
  refine (calmly_executescript hw statements).bind (fun _ w' h => ?_) fun x w' h => ?_
  · exact calmly_issue h
  · exact h

theorem infoNames_info (t : Sql.Relation) :
    infoNames t.info = (Sql.names t.columns).map Sql.Value.text := by
  have hmap : infoNames t.info = t.columns.zipIdx.map fun x => .text x.1.name := by
    rw [infoNames, Sql.Relation.info, List.filterMap_map, ← List.filterMap_eq_map]
    rfl
  rw [hmap, Sql.names, List.map_map]
  conv_rhs => rw [← List.zipIdx_map_fst 0 t.columns, List.map_map]
  rfl

/-- The columns that an install lacks, in the order of the source. -/
def missing (t : Sql.Relation) : List (Sql.Column × String) :=
  newerColumns.filter fun x => x.1.name ∉ Sql.names t.columns

/-- The table is there with more columns, and nothing else has changed. -/
def Altered (db : Sql.Database) (t : Sql.Relation) (cs : List Sql.Column) (db' : Sql.Database) :
    Prop :=
  db'.indexes = db.indexes ∧ (∀ name, name ≠ "otp_calls" → db'.find name = db.find name) ∧
    ∃ t', db'.find "otp_calls" = some t' ∧ t.Extended t' cs

theorem calmly_alterAll (hw : w.connected = true) {t : Sql.Relation}
    (ht : w.db.find "otp_calls" = some t) {add : List (Sql.Column × String)}
    (hdistinct : (add.map fun x => x.1.name).Nodup)
    (hnew : ∀ x ∈ add, x.1.name ∉ Sql.names t.columns) :
    Calmly (fun r w' => r = .ok () ∧ w'.connected = true ∧
      Altered w.db t (add.map Prod.fst) w'.db) (alterAll add) w := by
  induction add generalizing w t with
  | nil => exact ⟨rfl, hw, rfl, fun _ _ => rfl, t, ht, t.extended_refl⟩
  | cons x rest ih =>
    rw [List.map_cons, List.nodup_cons] at hdistinct
    obtain ⟨t', ht', hext⟩ := Sql.Relation.addColumn_ok (hnew x List.mem_cons_self)
    have hexec : (Sql.Statement.addColumn "otp_calls" x.1).exec w.db =
        .ok ({}, w.db.put "otp_calls" t') := by
      simp only [Sql.Statement.exec]
      exact Sql.bind_eq_ok.2 ⟨t, Sql.Database.require_eq_ok_iff.2 ht,
        Sql.bind_eq_ok.2 ⟨t', ht', rfl⟩⟩
    have halter : Calmly (fun r w' => r = .ok () ∧ w' = { w with db := w.db.put "otp_calls" t' })
        (alter x) w := by
      refine (Coro.sat_tryCatch _ _ _ w).2 ?_
      exact calmly_issue_bind (answer_execute hexec) ⟨rfl, rfl⟩
    refine halter.bind ?_ ?_
    · rintro _ w' ⟨-, rfl⟩
      refine (ih (w := { w with db := w.db.put "otp_calls" t' }) hw (w.db.find_put_self _ _)
        hdistinct.2 ?_).mono ?_
      · intro y hy hmem
        rw [hext.columns, Sql.names, List.map_append, List.mem_append] at hmem
        rcases hmem with hmem | hmem
        · exact hnew y (List.mem_cons_of_mem _ hy) hmem
        · rw [List.map_singleton, List.mem_singleton] at hmem
          exact hdistinct.1 (hmem ▸ List.mem_map_of_mem (f := fun x => x.1.name) hy)
      · rintro r w' ⟨hr, hw', hindexes, hothers, t'', ht'', hext'⟩
        refine ⟨hr, hw', hindexes, fun name hname => ?_, t'', ht'', hext.trans hext'⟩
        rw [hothers name hname]
        exact w.db.find_put_ne hname _
    · rintro e w' ⟨he, -⟩
      cases he

theorem mem_missing {t : Sql.Relation} {x : Sql.Column × String} :
    x ∈ missing t ↔ x ∈ newerColumns ∧ x.1.name ∉ Sql.names t.columns := by
  simp [missing]

theorem missing_distinct (t : Sql.Relation) : ((missing t).map fun x => x.1.name).Nodup := by
  have hall : (newerColumns.map fun x => x.1.name).Nodup := by decide
  exact hall.sublist (List.Sublist.map _ List.filter_sublist)

theorem missing_nodup (t : Sql.Relation) : ((missing t).map Prod.fst).Nodup := by
  refine List.Nodup.of_map Sql.Column.name ?_
  rw [List.map_map]
  exact missing_distinct t

theorem calmly_migrateSchema (hw : w.connected = true) {t : Sql.Relation}
    (ht : w.db.find "otp_calls" = some t) :
    Calmly (fun r w' => r = .ok () ∧ w'.connected = true ∧
      Altered w.db t ((missing t).map Prod.fst) w'.db) migrateSchema w := by
  have hinfo :
      (Sql.Statement.tableInfo "otp_calls").exec w.db = .ok ({ rows := t.info }, w.db) := by
    simp only [Sql.Statement.exec, ht]
    rfl
  have hadd : (newerColumns.filter fun x => Sql.Value.text x.1.name ∉ infoNames t.info) =
      missing t := by
    apply List.filter_congr
    intro x _
    simp [infoNames_info]
  refine calmly_issue_bind (answer_getConn hw) ?_
  refine calmly_issue_bind (answer_execute hinfo) ?_
  simp only [hadd]
  refine (calmly_alterAll hw ht (missing_distinct t) ?_).bind ?_ ?_
  · intro x hx
    simpa using (List.mem_filter.1 hx).2
  · intro _ w' h
    cases (missing t).isEmpty with
    | true => exact h
    | false => exact calmly_issue h
  · rintro e w' ⟨he, -⟩
    cases he

end Parts

/-! ## The schema of the service -/

/-- The tables of the service. -/
def serviceTables : List String := ["otp_calls", "otp_events"]

/-- What `init_db` needs of a database: names that are free, and columns for the indexes that are
there or can be added. -/
structure Openable (db : Sql.Database) : Prop where
  tables : ∀ name ∈ serviceTables, db.find name = none → db.hasIndex name = false
  indexes : ∀ ix ∈ serviceIndexes, db.find ix.name = none ∧
    (db.hasIndex ix.name = true ∨ ∀ t, db.find ix.table = some t → Covered ix t)

/-- `db'` is `db` with the tables, the columns and the indexes of the service. -/
structure Upgraded (db db' : Sql.Database) : Prop where
  absent : db.find "otp_calls" = none → db'.find "otp_calls" = some newCalls
  present : ∀ t, db.find "otp_calls" = some t → ∃ t' cs, db'.find "otp_calls" = some t' ∧
    t.Extended t' cs ∧ cs.Perm ((missing t).map Prod.fst)
  events : db'.find "otp_events" = some ((db.find "otp_events").getD newEvents)
  others : ∀ name, name ∉ serviceTables → db'.find name = db.find name
  indexes : ∀ ix, ix ∈ db'.indexes ↔
    ix ∈ db.indexes ∨ (ix ∈ serviceIndexes ∧ db.hasIndex ix.name = false)

/-- A new table lacks nothing. -/
theorem missing_newCalls : missing newCalls = [] := by decide

/-- The columns of a table after the migration. -/
theorem mem_names_altered {t t' : Sql.Relation} (h : t.Extended t' ((missing t).map Prod.fst))
    {c : String} : c ∈ Sql.names t'.columns ↔
      c ∈ Sql.names t.columns ∨ c ∈ newerColumns.map fun x => x.1.name := by
  rw [h.columns, Sql.names, List.map_append, List.mem_append, List.map_map]
  constructor
  · rintro (hold | hnew)
    · exact .inl hold
    · obtain ⟨x, hx, rfl⟩ := List.mem_map.1 hnew
      exact .inr (List.mem_map_of_mem (f := fun x => x.1.name) (List.mem_filter.1 hx).1)
  · rintro (hold | hnew)
    · exact .inl hold
    · by_cases hold : c ∈ Sql.names t.columns
      · exact .inl hold
      · obtain ⟨x, hx, rfl⟩ := List.mem_map.1 hnew
        refine .inr (List.mem_map.2 ⟨x, List.mem_filter.2 ⟨hx, ?_⟩, rfl⟩)
        simpa using hold

/-- The tables of a new database cover every index. -/
theorem covered_new {ix : Sql.Index} (hix : ix ∈ serviceIndexes) :
    (ix.table = "otp_calls" → ∀ c ∈ ix.columns, c ∈ Sql.names newCalls.columns) ∧
      (ix.table = "otp_events" → ∀ c ∈ ix.columns, c ∈ Sql.names newEvents.columns) := by
  revert ix
  decide

/-- The indexes of `otp_events` use no column that the migration could add. -/
theorem events_index_old {ix : Sql.Index} (hix : ix ∈ serviceIndexes)
    (htable : ix.table = "otp_events") :
    ∀ c ∈ ix.columns, c ∉ newerColumns.map fun x => x.1.name := by
  revert ix
  decide

/-- The database between the migration and the indexes. -/
structure Migrated (db db' : Sql.Database) : Prop where
  calls : ∃ t', db'.find "otp_calls" = some t' ∧ ((db.find "otp_calls").getD newCalls).Extended t'
    ((missing ((db.find "otp_calls").getD newCalls)).map Prod.fst)
  events : db'.find "otp_events" = some ((db.find "otp_events").getD newEvents)
  others : ∀ name, name ∉ serviceTables → db'.find name = db.find name
  indexes : db'.indexes = db.indexes

section Migrated

variable {db db' : Sql.Database}

theorem Migrated.hasIndex (h : Migrated db db') (name : String) :
    db'.hasIndex name = db.hasIndex name := by
  rw [Sql.Database.hasIndex, Sql.Database.hasIndex, h.indexes]

/-- After the migration an index can be created if and only if it could be foreseen before. -/
theorem Migrated.admits_iff (h : Migrated db db') {ix : Sql.Index} (hix : ix ∈ serviceIndexes) :
    db'.Admits ix ↔ db.find ix.name = none ∧
      (db.hasIndex ix.name = true ∨ ∀ t, db.find ix.table = some t → Covered ix t) := by
  have hname : db'.find ix.name = db.find ix.name := by
    apply h.others
    revert ix
    decide
  -- the columns of the table of the index, before and after
  have hcolumns : ∃ t', db'.find ix.table = some t' ∧
      ((∀ c ∈ ix.columns, c ∈ Sql.names t'.columns) ↔
        ∀ t, db.find ix.table = some t → Covered ix t) := by
    rcases serviceIndexes_table hix with htable | htable
    · obtain ⟨t', ht', hext⟩ := h.calls
      rw [htable]
      refine ⟨t', ht', ?_⟩
      cases hcalls : db.find "otp_calls" with
      | none =>
        rw [hcalls] at hext
        refine iff_of_true (fun c hc => ?_) fun t ht => by cases ht
        exact (mem_names_altered hext).2 (.inl ((covered_new hix).1 htable c hc))
      | some t =>
        rw [hcalls] at hext
        simp only [Option.some.injEq, forall_eq']
        exact forall₂_congr fun c _ => mem_names_altered hext
    · rw [htable, h.events]
      refine ⟨_, rfl, ?_⟩
      cases hevents : db.find "otp_events" with
      | none =>
        refine iff_of_true (fun c hc => ?_) fun t ht => by cases ht
        exact (covered_new hix).2 htable c hc
      | some t =>
        simp only [Option.some.injEq, forall_eq', Option.getD_some]
        refine forall₂_congr fun c hc => ?_
        rw [or_iff_left (events_index_old hix htable c hc)]
  obtain ⟨t', ht', hiff⟩ := hcolumns
  rw [Sql.Database.Admits, hname, h.hasIndex, ← hiff, ht']
  simp only [Option.some.injEq, exists_eq_left']

/-- With its indexes the database has the schema of the service. -/
theorem Migrated.upgraded (h : Migrated db db') : Upgraded db
    { db' with indexes :=
      db'.indexes ++ serviceIndexes.filter fun ix => !db'.hasIndex ix.name } where
  absent hnone := by
    obtain ⟨t', ht', hext⟩ := h.calls
    rw [hnone, Option.getD_none, missing_newCalls] at hext
    rw [← hext.eq_of_nil]
    exact ht'
  present t ht := by
    obtain ⟨t', ht', hext⟩ := h.calls
    rw [ht, Option.getD_some] at hext
    exact ⟨t', _, ht', hext, List.Perm.refl _⟩
  events := h.events
  others := h.others
  indexes ix := by
    simp only [List.mem_append, List.mem_filter, h.indexes, h.hasIndex, Bool.not_eq_true']

end Migrated

section Calm

open Opening

variable {w : DbWorld}

/-- The tables that `_create_tables` leaves. -/
theorem runAll_createTables (db : Sql.Database) :
    (∃ text, Sql.runAll db
        [.createTable "otp_calls" newCalls, .createTable "otp_events" newEvents] = .error text) ∧
        (¬ ∀ name ∈ serviceTables, db.find name = none → db.hasIndex name = false) ∨
      ∃ db', Sql.runAll db
          [.createTable "otp_calls" newCalls, .createTable "otp_events" newEvents] = .ok db' ∧
        (∀ name ∈ serviceTables, db.find name = none → db.hasIndex name = false) ∧
        db'.indexes = db.indexes ∧
        db'.find "otp_calls" = some ((db.find "otp_calls").getD newCalls) ∧
        db'.find "otp_events" = some ((db.find "otp_events").getD newEvents) ∧
        ∀ name, name ∉ serviceTables → db'.find name = db.find name := by
  have htables : (∀ name ∈ serviceTables, db.find name = none → db.hasIndex name = false) ↔
      (db.find "otp_calls" = none → db.hasIndex "otp_calls" = false) ∧
        (db.find "otp_events" = none → db.hasIndex "otp_events" = false) := by
    simp only [serviceTables, List.forall_mem_cons, List.not_mem_nil, false_imp_iff, implies_true,
      and_true]
  rw [htables]
  simp only [Sql.runAll]
  rcases Sql.exec_createTable db "otp_calls" newCalls with ⟨⟨text, herror⟩, hnone, hindex⟩ |
      ⟨db₁, hok, hfree, hindexes, hfind⟩
  · rw [herror]
    exact .inl ⟨⟨text, rfl⟩, fun h => by simp [h.1 hnone] at hindex⟩
  · have hevents : db₁.find "otp_events" = db.find "otp_events" := by
      rw [hfind, if_neg (by decide)]
    have hhas : ∀ name, db₁.hasIndex name = db.hasIndex name := by
      intro name
      rw [Sql.Database.hasIndex, Sql.Database.hasIndex, hindexes]
    rw [hok]
    rcases Sql.exec_createTable db₁ "otp_events" newEvents with ⟨⟨text, herror⟩, hnone, hindex⟩ |
        ⟨db₂, hok₂, hfree₂, hindexes₂, hfind₂⟩
    · simp only [herror]
      rw [hevents] at hnone
      rw [hhas] at hindex
      exact .inl ⟨⟨text, rfl⟩, fun h => by simp [h.2 hnone] at hindex⟩
    · simp only [hok₂]
      rw [hevents, hhas] at hfree₂
      refine .inr ⟨db₂, rfl, ⟨hfree, hfree₂⟩, hindexes₂.trans hindexes, ?_, ?_, ?_⟩
      · rw [hfind₂, if_neg (by decide), hfind, if_pos rfl]
      · rw [hfind₂, if_pos rfl, hevents]
      · intro name hname
        have hcalls : name ≠ "otp_calls" := fun h => hname (h ▸ by decide)
        have hother : name ≠ "otp_events" := fun h => hname (h ▸ by decide)
        rw [hfind₂, if_neg hother, hfind, if_neg hcalls]

/-- A start that meets no exception ends normally if and only if the database can be opened, and
then the database is upgraded. -/
theorem calmly_initDb (path : String) (w : DbWorld) :
    Calmly (fun r w' => (r = .ok () ↔ Openable w.db) ∧ (r = .ok () → Upgraded w.db w'.db))
      (initDb path) w := by
  refine calmly_issue_bind (c := .makedirs path) rfl ?_
  refine calmly_issue_bind (c := .connect path) rfl ?_
  refine calmly_issue_bind (c := .pragma _) rfl ?_
  refine calmly_issue_bind (c := .pragma _) rfl ?_
  refine Calmly.bind (calmly_script (w := { w with connected := true }) rfl _) ?_ ?_
  · intro _ w₁ h₁
    rcases runAll_createTables w.db with ⟨⟨text, herror⟩, -⟩ |
        ⟨db₁, hok, htables, hindexes, hcalls, hevents, hothers⟩
    · simp only [Reports, herror] at h₁
      cases h₁
    · simp only [Reports, hok] at h₁
      obtain ⟨-, rfl, hw₁⟩ := h₁
      refine (calmly_migrateSchema hw₁ hcalls).bind ?_ ?_
      · rintro _ w₂ ⟨-, hw₂, hindexes₂, hothers₂, t', ht', hext⟩
        have hmigrated : Migrated w.db w₂.db := by
          refine ⟨⟨t', ht', hext⟩, ?_, ?_, hindexes₂.trans hindexes⟩
          · rw [hothers₂ _ (by decide), hevents]
          · intro name hname
            rw [hothers₂ name fun h => hname (h ▸ by decide), hothers name hname]
        have hadmits : (∀ ix ∈ serviceIndexes, w₂.db.Admits ix) ↔ Openable w.db := by
          constructor
          · intro h
            exact ⟨htables, fun ix hix => (hmigrated.admits_iff hix).1 (h ix hix)⟩
          · intro h ix hix
            exact (hmigrated.admits_iff hix).2 (h.indexes ix hix)
        refine Calmly.bind (calmly_script hw₂ _) ?_ ?_
        · intro _ w₃ h₃
          rcases Sql.runAll_createIndex serviceIndexes (by decide) w₂.db with
              ⟨⟨text, herror⟩, -⟩ | ⟨hok, hall⟩
          · simp only [Reports, herror] at h₃
            cases h₃
          · simp only [Reports, hok] at h₃
            refine calmly_issue ⟨iff_of_true rfl (hadmits.1 hall), fun _ => ?_⟩
            show Upgraded w.db w₃.db
            rw [h₃.2.1]
            exact hmigrated.upgraded
        · intro x w₃ h₃
          rcases Sql.runAll_createIndex serviceIndexes (by decide) w₂.db with
              ⟨-, hnot⟩ | ⟨hok, -⟩
          · rw [hadmits] at hnot
            exact ⟨iff_of_false (fun h => by cases h) hnot, fun h => by cases h⟩
          · simp only [Reports, hok] at h₃
            cases h₃.1
      · rintro e w₂ ⟨he, -⟩
        cases he
  · intro x w₁ h₁
    rcases runAll_createTables w.db with ⟨-, hnot⟩ | ⟨db₁, hok, -⟩
    · exact ⟨iff_of_false (fun h => by cases h) fun h => hnot h.tables, fun h => by cases h⟩
    · simp only [Reports, hok] at h₁
      cases h₁.1

end Calm

/-! ## Starts that were cut short -/

section Between

variable {db db' db'' : Sql.Database}

theorem Between.hasIndex (h : Between db db') {name : String} (hindex : db.hasIndex name = true) :
    db'.hasIndex name = true := by
  obtain ⟨ix, hix, hname⟩ := List.any_eq_true.1 hindex
  exact List.any_eq_true.2 ⟨ix, h.kept.subset hix, hname⟩

/-- The indexes of the service have distinct names. -/
theorem serviceIndexes_inj {ix ix' : Sql.Index} (h : ix ∈ serviceIndexes)
    (h' : ix' ∈ serviceIndexes) (hname : ix.name = ix'.name) : ix = ix' :=
  List.inj_on_of_nodup_map (by decide : (serviceIndexes.map Sql.Index.name).Nodup) h h' hname

/-- A table of an index that was there is there, and has its columns. -/
theorem Between.table (h : Between db db') {ix : Sql.Index} (hix : ix ∈ serviceIndexes)
    {t : Sql.Relation} (ht : db.find ix.table = some t) : ∃ t', db'.find ix.table = some t' ∧
      ∀ c ∈ Sql.names t.columns, c ∈ Sql.names t'.columns := by
  rcases serviceIndexes_table hix with htable | htable
  · rw [htable] at ht ⊢
    obtain ⟨t', cs, ht', hext, -⟩ := h.present t ht
    refine ⟨t', ht', fun c hc => ?_⟩
    rw [hext.columns, Sql.names, List.map_append]
    exact List.mem_append_left _ hc
  · rw [htable] at ht ⊢
    rcases h.events with heq | ⟨hnone, -⟩
    · exact ⟨t, heq.trans ht, fun c hc => hc⟩
    · cases hnone.symm.trans ht

/-- A table of an index that was not there is one of a new database. -/
theorem Between.table_new (h : Between db db') {ix : Sql.Index} (hix : ix ∈ serviceIndexes)
    (hnone : db.find ix.table = none) {t' : Sql.Relation} (ht' : db'.find ix.table = some t') :
    ∀ c ∈ ix.columns, c ∈ Sql.names t'.columns := by
  rcases serviceIndexes_table hix with htable | htable
  · rw [htable] at hnone ht'
    rcases h.absent hnone with hdb | ⟨hdb, -⟩
    · cases hdb.symm.trans ht'
    · cases hdb.symm.trans ht'
      exact (covered_new hix).1 htable
  · rw [htable] at hnone ht'
    rcases h.events with heq | ⟨-, hnew, -⟩
    · cases (heq.symm.trans ht').symm.trans hnone
    · cases hnew.symm.trans ht'
      exact (covered_new hix).2 htable

/-- No start makes a table that has the name of an index. -/
theorem Between.find_index (h : Between db db') {ix : Sql.Index} (hix : ix ∈ serviceIndexes) :
    db'.find ix.name = db.find ix.name := by
  obtain ⟨hcalls, hevents⟩ := serviceIndexes_name hix
  exact h.others _ hcalls hevents

theorem Between.openable_before (h : Between db db') (h' : Openable db') : Openable db := by
  constructor
  · intro name hservice hnone
    cases hfind : db'.find name with
    | none => exact h.hasIndex_of (h'.tables name hservice hfind)
    | some t =>
      -- the table has been created meanwhile
      rcases List.mem_cons.1 hservice with rfl | hservice
      · rcases h.absent hnone with hdb | ⟨-, hindex⟩
        · cases hdb.symm.trans hfind
        · exact hindex
      · obtain rfl := List.mem_singleton.1 hservice
        rcases h.events with heq | ⟨-, -, hindex⟩
        · cases (heq.symm.trans hfind).symm.trans hnone
        · exact hindex
  · intro ix hix
    obtain ⟨hfree, hready⟩ := h'.indexes ix hix
    refine ⟨(h.find_index hix).symm.trans hfree, ?_⟩
    rcases hready with hindex | hcovered
    · obtain ⟨ix', hix', heq⟩ := List.any_eq_true.1 hindex
      rcases h.added ix' hix' with hold | ⟨hservice, -, -, hcovered⟩
      · exact .inl (List.any_eq_true.2 ⟨ix', hold, heq⟩)
      · rw [serviceIndexes_inj hix hservice (of_decide_eq_true heq).symm]
        exact .inr hcovered
    · refine .inr fun t ht c hc => ?_
      obtain ⟨t', ht', -⟩ := h.table hix ht
      rcases hcovered t' ht' c hc with hmem | hnewer
      · exact h.names_table hix ht ht' hmem
      · exact .inr hnewer

theorem Between.openable_after (h : Between db db') (h' : Openable db) : Openable db' := by
  constructor
  · intro name hservice hnone
    have hbefore : db.find name = none := by
      cases hfind : db.find name with
      | none => rfl
      | some t =>
        rcases List.mem_cons.1 hservice with rfl | hservice
        · obtain ⟨t', -, ht', -⟩ := h.present t hfind
          cases hnone.symm.trans ht'
        · obtain rfl := List.mem_singleton.1 hservice
          rcases h.events with heq | ⟨hnone', -⟩
          · cases (heq.symm.trans hnone).symm.trans hfind
          · cases hnone'.symm.trans hfind
    have hfree := h'.tables name hservice hbefore
    rw [Sql.Database.hasIndex, List.any_eq_false] at hfree ⊢
    intro ix hix
    rcases h.added ix hix with hold | ⟨hnew, -⟩
    · exact hfree ix hold
    · -- no index of the service has the name of a table
      obtain ⟨hcalls, hevents⟩ := serviceIndexes_name hnew
      rcases List.mem_cons.1 hservice with rfl | hservice
      · simpa using hcalls
      · rw [List.mem_singleton.1 hservice]
        simpa using hevents
  · intro ix hix
    obtain ⟨hfree, hready⟩ := h'.indexes ix hix
    refine ⟨(h.find_index hix).trans hfree, hready.imp h.hasIndex fun hcovered t' ht' => ?_⟩
    cases hfind : db.find ix.table with
    | none => exact fun c hc => .inl (h.table_new hix hfind ht' c hc)
    | some t =>
      intro c hc
      obtain ⟨u, hu, hsub⟩ := h.table hix hfind
      cases hu.symm.trans ht'
      exact (hcovered t hfind c hc).imp_left (hsub c)

/-- A start that was cut short changes nothing about whether the database can be opened. -/
theorem Between.openable_iff (h : Between db db') : Openable db' ↔ Openable db :=
  ⟨h.openable_before, h.openable_after⟩

/-- What was added before and what is added now are together what was missing. -/
theorem missing_extended {t t' : Sql.Relation} {cs : List Sql.Column} (h : t.Extended t' cs)
    (hcs : ∀ c ∈ cs, c ∈ newerColumns.map Prod.fst) :
    (cs ++ (missing t').map Prod.fst).Perm ((missing t).map Prod.fst) := by
  have hnodup : (newerColumns.map fun x => x.1.name).Nodup := by decide
  have hinj : ∀ x ∈ newerColumns, ∀ y ∈ newerColumns, x.1.name = y.1.name → x = y :=
    fun x hx y hy => List.inj_on_of_nodup_map hnodup hx hy
  obtain ⟨hdistinct, hold⟩ := h.disjoint
  have hnames : ∀ c, c ∈ Sql.names t'.columns ↔ c ∈ Sql.names t.columns ∨ c ∈ Sql.names cs := by
    intro c
    rw [h.columns, Sql.names, List.map_append, List.mem_append]
    rfl
  have hleft : (cs ++ (missing t').map Prod.fst).Nodup := by
    rw [List.nodup_append]
    refine ⟨hdistinct.of_map _, missing_nodup t', ?_⟩
    rintro c hc d hd rfl
    obtain ⟨x, hx, rfl⟩ := List.mem_map.1 hd
    exact (mem_missing.1 hx).2 ((hnames _).2 (.inr (List.mem_map_of_mem hc)))
  rw [List.perm_ext_iff_of_nodup hleft (missing_nodup t)]
  intro c
  rw [List.mem_append, List.mem_map, List.mem_map]
  constructor
  · rintro (hc | ⟨x, hx, rfl⟩)
    · obtain ⟨x, hx, rfl⟩ := List.mem_map.1 (hcs c hc)
      exact ⟨x, mem_missing.2 ⟨hx, hold _ hc⟩, rfl⟩
    · obtain ⟨hx, hfree⟩ := mem_missing.1 hx
      exact ⟨x, mem_missing.2 ⟨hx, fun h => hfree ((hnames _).2 (.inl h))⟩, rfl⟩
  · rintro ⟨x, hx, rfl⟩
    obtain ⟨hx, hfree⟩ := mem_missing.1 hx
    by_cases hc : x.1.name ∈ Sql.names cs
    · -- the column was added before
      obtain ⟨c, hc, hname⟩ := List.mem_map.1 hc
      obtain ⟨y, hy, rfl⟩ := List.mem_map.1 (hcs c hc)
      rw [← hinj y hy x hx hname]
      exact .inl hc
    · exact .inr ⟨x, mem_missing.2 ⟨hx, fun h => ((hnames _).1 h).elim hfree hc⟩, rfl⟩

/-- A start completes what earlier ones have begun. -/
theorem Between.upgraded (h : Between db db') (h' : Upgraded db' db'') : Upgraded db db'' where
  absent hnone := by
    rcases h.absent hnone with hdb | ⟨hdb, -⟩
    · exact h'.absent hdb
    · obtain ⟨t', cs, ht', hext, hperm⟩ := h'.present _ hdb
      rw [missing_newCalls, List.map_nil, List.perm_nil] at hperm
      subst hperm
      rw [← hext.eq_of_nil]
      exact ht'
  present t ht := by
    obtain ⟨t', cs, ht', hext, hcs⟩ := h.present t ht
    obtain ⟨t'', cs', ht'', hext', hperm⟩ := h'.present t' ht'
    refine ⟨t'', cs ++ cs', ht'', hext.trans hext', ?_⟩
    exact (hperm.append_left cs).trans (missing_extended hext hcs)
  events := by
    rw [h'.events]
    rcases h.events with heq | ⟨hnone, hnew, -⟩
    · rw [heq]
    · rw [hnone, hnew]
      rfl
  others name hname := by
    have hcalls : name ≠ "otp_calls" := fun heq => hname (heq ▸ by decide)
    have hevents : name ≠ "otp_events" := fun heq => hname (heq ▸ by decide)
    rw [h'.others name hname, h.others name hcalls hevents]
  indexes ix := by
    rw [h'.indexes]
    constructor
    · rintro (hix | ⟨hix, hfree⟩)
      · rcases h.added ix hix with hold | ⟨hservice, -, hindex, -⟩
        · exact .inl hold
        · exact .inr ⟨hservice, hindex⟩
      · exact .inr ⟨hix, h.hasIndex_of hfree⟩
    · rintro (hix | ⟨hix, hfree⟩)
      · exact .inl (h.kept.subset hix)
      · cases hindex : db'.hasIndex ix.name with
        | false => exact .inr ⟨hix, rfl⟩
        | true =>
          obtain ⟨ix', hix', heq⟩ := List.any_eq_true.1 hindex
          rcases h.added ix' hix' with hold | ⟨hservice, -⟩
          · have hbefore : db.hasIndex ix.name = true := List.any_eq_true.2 ⟨ix', hold, heq⟩
            cases hbefore.symm.trans hfree
          · rw [serviceIndexes_inj hix hservice (of_decide_eq_true heq).symm]
            exact .inl hix'

end Between

/-- The database after starts of which each may be cut short or fail in part. -/
def restarted (path : String) (faults : List (ℕ → Option String)) (w : DbWorld) : DbWorld :=
  faults.foldl (fun w fault => (start path fault w).2.2) w

theorem restarted_between (path : String) (faults : List (ℕ → Option String)) (w : DbWorld) :
    Between w.db (restarted path faults w).db := by
  have hrun : ∀ v : DbWorld, Between w.db v.db → Between w.db (restarted path faults v).db := by
    induction faults with
    | nil => exact fun v h => h
    | cons fault rest ih => exact fun v h => ih _ (start_between path fault h)
  exact hrun w (between_refl _)

/-- However many starts have been cut short or have failed in part, a start that meets no exception
ends normally if and only if the first database can be opened, and then its tables, rows and values
are all there, with the defaults of the newer columns and the indexes of the service. -/
theorem starts_converge (path : String) (faults : List (ℕ → Option String)) (w : DbWorld) :
    let last := start path (fun _ => none) (restarted path faults w)
    (last.1 = .ok () ↔ Openable w.db) ∧ (last.1 = .ok () → Upgraded w.db last.2.2.db) := by
  have hbetween := restarted_between path faults w
  have hcalm := (calmly_initDb path (restarted path faults w)).complete
  refine ⟨?_, fun hok => ?_⟩
  · rw [← hbetween.openable_iff]
    exact hcalm.1
  · exact hbetween.upgraded (hcalm.2 hok)

end OtpVoice
