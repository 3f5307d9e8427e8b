import OtpVoice.Storage.Opening

/-!
# What opening the database does to its tables

- `Between db db'`: `db'` is on the way from `db` to the schema of the service. Every statement of
  `init_db` keeps it (`between_exec`), so every start does, whatever raises (`start_between`).
-/

set_option autoImplicit false

namespace OtpVoice

open Coroutine

/-- One start: `init_db` run alone. -/
def start (path : String) (fault : ℕ → Option String) (w : DbWorld) :
    Except Exc Unit × ℕ × DbWorld :=
  (Opening.initDb path).complete (DbWorld.respond fault) 0 w

/-! ## On the way to the schema -/

/-- The columns of an index are those of the table, or columns that the migration adds. -/
def Covered (ix : Sql.Index) (t : Sql.Relation) : Prop :=
  ∀ c ∈ ix.columns, c ∈ Sql.names t.columns ∨ c ∈ newerColumns.map fun x => x.1.name

/-- `db'` has the tables of `db`, with some of the newer columns and some of the indexes; a table of
the service that `db` lacks is new or still missing. -/
structure Between (db db' : Sql.Database) : Prop where
  absent : db.find "otp_calls" = none →
    db'.find "otp_calls" = none ∨
      (db'.find "otp_calls" = some newCalls ∧ db.hasIndex "otp_calls" = false)
  present : ∀ t, db.find "otp_calls" = some t → ∃ t' cs, db'.find "otp_calls" = some t' ∧
    t.Extended t' cs ∧ ∀ c ∈ cs, c ∈ newerColumns.map Prod.fst
  events : db'.find "otp_events" = db.find "otp_events" ∨
    (db.find "otp_events" = none ∧ db'.find "otp_events" = some newEvents ∧
      db.hasIndex "otp_events" = false)
  others : ∀ name, name ≠ "otp_calls" → name ≠ "otp_events" → db'.find name = db.find name
  kept : db.indexes <+: db'.indexes
  added : ∀ ix ∈ db'.indexes, ix ∈ db.indexes ∨ (ix ∈ serviceIndexes ∧ db.find ix.name = none ∧
    db.hasIndex ix.name = false ∧ ∀ t, db.find ix.table = some t → Covered ix t)

theorem between_refl (db : Sql.Database) : Between db db where
  absent h := .inl h
  present t h := ⟨t, [], h, t.extended_refl, fun _ hc => absurd hc List.not_mem_nil⟩
  events := .inl rfl
  others _ _ _ := rfl
  kept := List.prefix_refl _
  added _ h := .inl h

/-- The statements of `init_db`. -/
inductive AtStart : Sql.Statement → Prop
  | calls : AtStart (.createTable "otp_calls" newCalls)
  | events : AtStart (.createTable "otp_events" newEvents)
  | info : AtStart (.tableInfo "otp_calls")
  | alter {x : Sql.Column × String} (h : x ∈ newerColumns) : AtStart (.addColumn "otp_calls" x.1)
  | index {ix : Sql.Index} (h : ix ∈ serviceIndexes) : AtStart (.createIndex ix)

/-- A new table has all columns, so no `ALTER TABLE` changes it. -/
theorem newCalls_complete {x : Sql.Column × String} (h : x ∈ newerColumns) :
    x.1.name ∈ Sql.names newCalls.columns := by
  revert x
  decide

section Exec

variable {db db' db'' : Sql.Database} {r : Sql.Result}

/-- An index stays. -/
theorem Between.hasIndex_of (h : Between db db') {name : String}
    (hindex : db'.hasIndex name = false) : db.hasIndex name = false := by
  rw [Sql.Database.hasIndex, List.any_eq_false] at hindex ⊢
  exact fun ix hix => hindex ix (h.kept.subset hix)

theorem Between.put_calls (h : Between db db') (hnone : db'.find "otp_calls" = none)
    (hindex : db'.hasIndex "otp_calls" = false) :
    Between db (db'.put "otp_calls" newCalls) where
  absent _ := .inr ⟨db'.find_put_self _ _, h.hasIndex_of hindex⟩
  present t ht := by
    -- a table that is there stays there
    obtain ⟨t', cs, ht', -⟩ := h.present t ht
    cases hnone.symm.trans ht'
  events := by
    rw [db'.find_put_ne (by decide)]
    exact h.events
  others name hcalls hevents := by
    rw [db'.find_put_ne hcalls]
    exact h.others name hcalls hevents
  kept := h.kept
  added := h.added

theorem Between.put_events (h : Between db db') (hnone : db'.find "otp_events" = none)
    (hindex : db'.hasIndex "otp_events" = false) : Between db (db'.put "otp_events" newEvents) where
  absent ht := by
    rw [db'.find_put_ne (by decide)]
    exact h.absent ht
  present t ht := by
    rw [db'.find_put_ne (by decide)]
    exact h.present t ht
  events := by
    refine .inr ⟨?_, db'.find_put_self _ _, h.hasIndex_of hindex⟩
    rcases h.events with heq | ⟨hdb, -⟩
    · rw [← heq, hnone]
    · exact hdb
  others name hcalls hevents := by
    rw [db'.find_put_ne hevents]
    exact h.others name hcalls hevents
  kept := h.kept
  added := h.added

theorem Between.put_altered (h : Between db db') {x : Sql.Column × String} (hx : x ∈ newerColumns)
    {t t' : Sql.Relation} (ht : db'.find "otp_calls" = some t) (hadd : t.addColumn x.1 = .ok t') :
    Between db (db'.put "otp_calls" t') where
  absent hnone := by
    rcases h.absent hnone with hdb | ⟨hdb, -⟩
    · cases hdb.symm.trans ht
    · -- the new table has the column already
      cases hdb.symm.trans ht
      rw [Sql.Relation.addColumn_error (newCalls_complete hx)] at hadd
      cases hadd
  present t₀ ht₀ := by
    obtain ⟨u, cs, hu, hext, hcs⟩ := h.present t₀ ht₀
    cases hu.symm.trans ht
    by_cases hmem : x.1.name ∈ Sql.names t.columns
    · rw [Sql.Relation.addColumn_error hmem] at hadd
      cases hadd
    · obtain ⟨v, hv, hstep⟩ := Sql.Relation.addColumn_ok hmem
      cases hadd.symm.trans hv
      refine ⟨t', cs ++ [x.1], db'.find_put_self _ _, hext.trans hstep, ?_⟩
      intro c hc
      rcases List.mem_append.1 hc with hc | hc
      · exact hcs c hc
      · rw [List.mem_singleton.1 hc]
        exact List.mem_map_of_mem hx
  events := by
    rw [db'.find_put_ne (by decide)]
    exact h.events
  others name hcalls hevents := by
    rw [db'.find_put_ne hcalls]
    exact h.others name hcalls hevents
  kept := h.kept
  added := h.added

/-- The tables of an index are those of the service. -/
theorem serviceIndexes_table {ix : Sql.Index} (h : ix ∈ serviceIndexes) :
    ix.table = "otp_calls" ∨ ix.table = "otp_events" := by
  revert ix
  decide

theorem serviceIndexes_name {ix : Sql.Index} (h : ix ∈ serviceIndexes) :
    ix.name ≠ "otp_calls" ∧ ix.name ≠ "otp_events" := by
  revert ix
  decide

/-- What a table has on the way, it had before, or the migration has added it. -/
theorem Between.names_table (h : Between db db') {ix : Sql.Index} (hix : ix ∈ serviceIndexes)
    {t t' : Sql.Relation} (ht : db.find ix.table = some t) (ht' : db'.find ix.table = some t')
    {c : String} (hc : c ∈ Sql.names t'.columns) :
    c ∈ Sql.names t.columns ∨ c ∈ newerColumns.map fun x => x.1.name := by
  rcases serviceIndexes_table hix with htable | htable
  · rw [htable] at ht ht'
    obtain ⟨u, cs, hu, hext, hcs⟩ := h.present t ht
    cases hu.symm.trans ht'
    rw [hext.columns, Sql.names, List.map_append, List.mem_append] at hc
    refine hc.imp_right fun hc => ?_
    obtain ⟨column, hcolumn, rfl⟩ := List.mem_map.1 hc
    obtain ⟨x, hx, rfl⟩ := List.mem_map.1 (hcs column hcolumn)
    exact List.mem_map_of_mem hx
  · rw [htable] at ht ht'
    rcases h.events with heq | ⟨hnone, -⟩
    · rw [heq, ht] at ht'
      cases ht'
      exact .inl hc
    · cases hnone.symm.trans ht

theorem Between.add_index (h : Between db db') {ix : Sql.Index} (hix : ix ∈ serviceIndexes)
    (hname : db'.find ix.name = none) (hindex : db'.hasIndex ix.name = false) {t : Sql.Relation}
    (ht : db'.find ix.table = some t) (hcolumns : ∀ c ∈ ix.columns, c ∈ Sql.names t.columns) :
    Between db { db' with indexes := db'.indexes ++ [ix] } where
  absent := h.absent
  present := h.present
  events := h.events
  others := h.others
  kept := h.kept.trans (List.prefix_append _ _)
  added ix' hix' := by
    rcases List.mem_append.1 hix' with hold | hnew
    · exact h.added ix' hold
    · rw [List.mem_singleton.1 hnew]
      obtain ⟨hcalls, hevents⟩ := serviceIndexes_name hix
      refine .inr ⟨hix, ?_, h.hasIndex_of hindex, fun t₀ ht₀ c hc =>
        h.names_table hix ht₀ ht (hcolumns c hc)⟩
      rw [← h.others _ hcalls hevents]
      exact hname

/-- Every statement of `init_db` stays on the way. -/
theorem between_exec {s : Sql.Statement} (hs : AtStart s) (h : Between db db')
    (hexec : s.exec db' = .ok (r, db'')) : Between db db'' := by
  cases hs with
  | calls =>
    rcases Sql.exec_createTable_ok hexec with ⟨-, rfl⟩ | ⟨hnone, hindex, rfl⟩
    · exact h
    · exact h.put_calls hnone hindex
  | events =>
    rcases Sql.exec_createTable_ok hexec with ⟨-, rfl⟩ | ⟨hnone, hindex, rfl⟩
    · exact h
    · exact h.put_events hnone hindex
  | info =>
    cases hexec
    exact h
  | alter hx =>
    obtain ⟨t, t', ht, hadd, rfl⟩ := Sql.exec_addColumn_ok hexec
    exact h.put_altered hx ht hadd
  | index hix =>
    obtain ⟨-, hname, t, ht, ⟨-, rfl⟩ | ⟨hindex, hcolumns, rfl⟩⟩ :=
      Sql.exec_createIndex_ok_iff.1 hexec
    · exact h
    · exact h.add_index hix hname hindex ht hcolumns

end Exec

/-! ## Every start -/

/-- A command of `init_db`. -/
def DbCmd.AtStart : DbCmd → Prop
  | .execute s => OtpVoice.AtStart s
  | _ => True

section Uses

open Opening

/-- A command without a statement, before the rest. -/
theorem uses_atStart_issue {α : Type} {c : DbCmd} {f : c.Resp → DbProg α} (hc : c.AtStart)
    (hf : ∀ a, Coro.Uses DbCmd.AtStart (f a)) :
    Coro.Uses DbCmd.AtStart (Opening.issue c >>= f) :=
  Coro.Uses.bind (Coro.Uses.perform hc) hf

theorem uses_executescript {statements : List Sql.Statement} (h : ∀ s ∈ statements, AtStart s) :
    Coro.Uses DbCmd.AtStart (executescript statements) := by
  induction statements with
  | nil => trivial
  | cons s rest ih =>
    apply uses_atStart_issue (c := .execute s) (h s List.mem_cons_self)
    intro _
    exact ih fun s' hs' => h s' (List.mem_cons_of_mem _ hs')

theorem uses_alterAll {add : List (Sql.Column × String)} (h : ∀ x ∈ add, x ∈ newerColumns) :
    Coro.Uses DbCmd.AtStart (alterAll add) := by
  induction add with
  | nil => trivial
  | cons x rest ih =>
    refine Coro.Uses.bind (p := alter x) (Coro.Uses.tryCatch ?_ ?_) fun _ => ?_
    · exact uses_atStart_issue (c := .execute _) (.alter (h x List.mem_cons_self)) fun _ => trivial
    · intro e
      exact Coro.Uses.perform trivial
    · exact ih fun x' hx' => h x' (List.mem_cons_of_mem _ hx')

theorem uses_migrateSchema : Coro.Uses DbCmd.AtStart migrateSchema := by
  have hend : ∀ b : Bool, Coro.Uses DbCmd.AtStart
      (if b then pure () else Opening.issue .commit : DbProg Unit) := by
    intro b
    cases b with
    | false => exact Coro.Uses.perform trivial
    | true => trivial
  apply uses_atStart_issue (c := .getConn) trivial
  intro _
  apply uses_atStart_issue (c := .execute _) .info
  intro info
  exact Coro.Uses.bind (uses_alterAll fun x hx => (List.mem_filter.1 hx).1) fun _ => hend _

theorem uses_initDb (path : String) : Coro.Uses DbCmd.AtStart (initDb path) := by
  have htables : Coro.Uses DbCmd.AtStart createTables := by
    apply uses_atStart_issue (c := .getConn) trivial
    intro _
    refine Coro.Uses.bind (uses_executescript ?_) fun _ => Coro.Uses.perform trivial
    rintro s (_ | ⟨_, _ | ⟨_, ⟨⟩⟩⟩)
    · exact .calls
    · exact .events
  have hindexes : Coro.Uses DbCmd.AtStart createIndexes := by
    apply uses_atStart_issue (c := .getConn) trivial
    intro _
    refine Coro.Uses.bind (uses_executescript ?_) fun _ => Coro.Uses.perform trivial
    intro s hs
    obtain ⟨ix, hix, rfl⟩ := List.mem_map.1 hs
    exact .index hix
  apply uses_atStart_issue (c := .makedirs path) trivial
  intro _
  apply uses_atStart_issue (c := .connect path) trivial
  intro _
  apply uses_atStart_issue (c := .pragma _) trivial
  intro _
  apply uses_atStart_issue (c := .pragma _) trivial
  intro _
  exact htables.bind fun _ => uses_migrateSchema.bind fun _ => hindexes.bind fun _ =>
    Coro.Uses.perform trivial

end Uses

/-- An answer with or without an exception of its own. -/
theorem DbWorld.respond_cases (fault : ℕ → Option String) (n : ℕ) (w : DbWorld) (c : DbCmd) :
    DbWorld.respond fault n w c = w.answer c ∨
      ∃ x, DbWorld.respond fault n w c = (.error x, w) := by
  simp only [DbWorld.respond]
  split
  · split
    · exact .inr ⟨_, rfl⟩
    · exact .inl rfl
  · exact .inl rfl

theorem between_answer {db : Sql.Database} {w : DbWorld} {c : DbCmd} (hc : c.AtStart)
    (h : Between db w.db) : Between db (w.answer c).2.db := by
  cases c with
  | execute s =>
    simp only [DbWorld.answer]
    split
    · rename_i r db' hexec
      exact between_exec hc h hexec
    · exact h
  | getConn =>
    simp only [DbWorld.answer]
    split <;> exact h
  | _ => exact h

/-- A start stays on the way to the schema, whatever raises. -/
theorem start_between {db : Sql.Database} (path : String) (fault : ℕ → Option String)
    {w : DbWorld} (h : Between db w.db) : Between db (start path fault w).2.2.db := by
  have hsat : Coro.Sat
      (fun (w : DbWorld) c r w' => (r, w') = w.answer c ∨ ((∃ x, r = .error x) ∧ w' = w))
      (fun _ _ _ _ => True) (fun _ w' => Between db w'.db) (Opening.initDb path) w := by
    refine Coro.Sat.of_uses (I := fun w' : DbWorld => Between db w'.db) ?_ (uses_initDb path) h
    rintro w c r w' hc hw (hanswer | ⟨-, rfl⟩)
    · have hkeep := between_answer hc hw
      rw [← hanswer] at hkeep
      exact ⟨trivial, hkeep⟩
    · exact ⟨trivial, hw⟩
  refine Coro.Sat.complete (fun n w c => ?_) hsat 0
  rcases DbWorld.respond_cases fault n w c with heq | ⟨x, heq⟩
  · exact .inl (by rw [heq])
  · rw [heq]
    exact .inr ⟨⟨x, rfl⟩, rfl⟩

end OtpVoice
