import OtpVoice.Library.SqlTables
import Mathlib.Data.List.AList
import Mathlib.Data.List.Sort

/-!
# SQL statements

A `Database` holds tables and indexes. A `Statement` is one SQL statement with its bound values;
`Statement.exec` gives its result and the database after it, or the error that leaves the database
as it was. An index is a name with the columns of a table: it changes no result, and keeps its name
and its columns from being taken or missing.
-/

set_option autoImplicit false

namespace Sql

/-- A sequence of two parts succeeds when both do. -/
theorem bind_eq_ok {ε α β : Type} {x : Except ε α} {f : α → Except ε β} {b : β} :
    (x >>= f) = .ok b ↔ ∃ a, x = .ok a ∧ f a = .ok b := by
  cases x with
  | error e => exact ⟨fun h => (by cases h), fun ⟨a, h, _⟩ => (by cases h)⟩
  | ok a => exact ⟨fun h => ⟨a, rfl, h⟩, fun ⟨a', h, h'⟩ => (by cases h; exact h')⟩

/-! ## Expressions and conditions -/

/-- The right side of an assignment of `UPDATE`. -/
inductive Expr where
  | value (v : Value)
  | plus (column : String) (n : ℤ)

/-- The sum of NULL and a number is NULL. -/
def Expr.eval (row : Row) : Expr → Value
  | .value v => v
  | .plus column n =>
    match row.get column with
    | .integer m => .integer (m + n)
    | .real x => .real (x + n)
    | _ => .null

/-- The condition of `WHERE`. -/
inductive Cond where
  | equal (column : String) (v : Value)
  | below (column : String) (v : Value)
  | notIn (column table inner : String)

/-- `v NOT IN (...)` is true: NULL on either side makes it unknown, unless the list is empty. -/
def Value.notIn (v : Value) (vs : List Value) : Bool :=
  vs.isEmpty || (v ≠ .null && .null ∉ vs && !vs.any v.equal)

/-! ## Databases -/

/-- An index: a table and its columns. -/
structure Index where
  name : String
  table : String
  columns : List String
  deriving DecidableEq

/-- Relations and indexes, by their names. -/
structure Database where
  tables : AList fun _ : String => Relation
  indexes : List Index

namespace Database

/-- The table of a name. -/
def find (db : Database) (name : String) : Option Relation := db.tables.lookup name

/-- Some index has the name. -/
def hasIndex (db : Database) (name : String) : Bool := db.indexes.any fun ix => ix.name = name

/-- The database with another table under a name. -/
def put (db : Database) (name : String) (t : Relation) : Database :=
  { db with tables := db.tables.insert name t }

@[simp] theorem find_put_self (db : Database) (name : String) (t : Relation) :
    (db.put name t).find name = some t := AList.lookup_insert _

theorem find_put_ne (db : Database) {name other : String} (h : other ≠ name) (t : Relation) :
    (db.put name t).find other = db.find other := AList.lookup_insert_ne h

theorem find_put (db : Database) (name other : String) (t : Relation) :
    (db.put name t).find other = if other = name then some t else db.find other := by
  split
  · rename_i h
    rw [h, find_put_self]
  · rename_i h
    exact db.find_put_ne h t

@[simp] theorem indexes_put (db : Database) (name : String) (t : Relation) :
    (db.put name t).indexes = db.indexes := rfl

@[simp] theorem hasIndex_put (db : Database) (name other : String) (t : Relation) :
    (db.put name t).hasIndex other = db.hasIndex other := rfl

/-- The table of a name, or the error that there is none. -/
def require (db : Database) (name : String) : Except String Relation :=
  match db.find name with
  | some t => .ok t
  | none => .error ("no such table: " ++ name)

theorem require_eq_ok_iff {db : Database} {name : String} {t : Relation} :
    db.require name = .ok t ↔ db.find name = some t := by
  rw [require]
  cases db.find name with
  | none => exact ⟨fun h => (by cases h), fun h => (by cases h)⟩
  | some u => simp

end Database

/-- Every column is one of the table. -/
def Relation.check (t : Relation) (columns : List String) : Except String Unit :=
  match columns.find? fun c => c ∉ names t.columns with
  | some c => .error ("no such column: " ++ c)
  | none => .ok ()

theorem Relation.check_eq_ok_iff {t : Relation} {columns : List String} :
    t.check columns = .ok () ↔ ∀ c ∈ columns, c ∈ names t.columns := by
  simp only [Relation.check]
  cases h : columns.find? fun c => c ∉ names t.columns with
  | none => simpa using h
  | some c =>
    have hc := List.find?_some h
    have hmem := List.mem_of_find?_eq_some h
    refine ⟨fun h => (by cases h), fun h => ?_⟩
    simp [h c hmem] at hc

/-- The rows for which a condition holds. -/
def Cond.test (db : Database) (t : Relation) : Cond → Except String (Row → Bool)
  | .equal column v => do
    t.check [column]
    return fun row => (row.get column).equal v
  | .below column v => do
    t.check [column]
    return fun row => (row.get column).below v
  | .notIn column table inner => do
    t.check [column]
    let other ← db.require table
    other.check [inner]
    return fun row => (row.get column).notIn (other.rows.map fun r => Row.get r inner)

/-! ## Statements -/

/-- The statements of SQL that are modelled. -/
inductive Statement where
  /-- `CREATE TABLE IF NOT EXISTS`. -/
  | createTable (name : String) (t : Relation)
  /-- `CREATE INDEX IF NOT EXISTS`. -/
  | createIndex (ix : Index)
  | addColumn (table : String) (c : Column)
  /-- `PRAGMA table_info`. -/
  | tableInfo (table : String)
  | insert (table : String) (given : Row)
  | update (table : String) (set : List (String × Expr)) (cond : Cond)
  | delete (table : String) (cond : Cond)
  /-- No column list stands for `*`; the flag of the order stands for `DESC`. -/
  | select (table : String) (columns : Option (List String)) (cond : Cond)
    (order : Option (String × Bool)) (limit : Option ℕ)

/-- The rows of a cursor, and the number of rows that the statement has changed. -/
structure Result where
  rows : List Row := []
  rowcount : ℕ := 0

/-- `ORDER BY`; rows with the same value keep their order. -/
def orderRows (rows : List Row) : Option (String × Bool) → List Row
  | none => rows
  | some (column, descending) =>
    rows.insertionSort fun a b =>
      if descending then (Row.get b column).le (a.get column)
      else (Row.get a column).le (b.get column)

/-- The selected columns of a row. -/
def project (columns : Option (List String)) (row : Row) : Row :=
  match columns with
  | none => row
  | some columns => columns.map fun c => (c, row.get c)

/-- All columns. -/
theorem map_project_none (rows : List Row) : rows.map (project none) = rows := List.map_id rows

/-- The rows of `t` as `PRAGMA table_info` lists its columns. -/
def Relation.info (t : Relation) : List Row :=
  t.columns.zipIdx.map fun (c, i) => [("cid", .integer i), ("name", .text c.name)]

/-- The new values that `SET` gives to a row. -/
def evalSet (set : List (String × Expr)) (row : Row) : Row := set.map fun x => (x.1, x.2.eval row)

/-- The check of `NOT NULL` on the changed columns, and of the key where it is changed. -/
def Relation.admits (t : Relation) (name : String) (set : List (String × Expr)) (p : Row → Bool) :
    Except String Unit :=
  match t.columns.find? fun c => t.rows.any fun row =>
    p row && ((evalSet set row).lookup c.name).any fun v => !c.accepts v with
  | some c => .error ("NOT NULL constraint failed: " ++ name ++ "." ++ c.name)
  | none =>
    if t.key ∈ set.map Prod.fst ∧
        ¬ (t.change p (evalSet set)).rows.Pairwise
          fun a b => !(a.get t.key).equal (b.get t.key) then
      .error ("UNIQUE constraint failed: " ++ name ++ "." ++ t.key)
    else .ok ()

/-- The columns that the expressions of `SET` read. -/
def Expr.columns : Expr → List String
  | .value _ => []
  | .plus column _ => [column]

/-- The effect of a statement; an error leaves the database as it was. -/
def Statement.exec (db : Database) : Statement → Except String (Result × Database)
  | .createTable name t =>
    if (db.find name).isSome then .ok ({}, db)
    else if db.hasIndex name then .error ("there is already an index named " ++ name)
    else .ok ({}, db.put name t)
  | .createIndex ix => do
    let t ← db.require ix.table
    if (db.find ix.name).isSome then .error ("there is already a table named " ++ ix.name)
    else if db.hasIndex ix.name then .ok ({}, db)
    else do
      t.check ix.columns
      return ({}, { db with indexes := db.indexes ++ [ix] })
  | .addColumn table c => do
    let t ← db.require table
    let t' ← t.addColumn c
    return ({}, db.put table t')
  | .tableInfo table => .ok ({ rows := ((db.find table).map Relation.info).getD [] }, db)
  | .insert table given => do
    let t ← db.require table
    let t' ← t.insert table given
    return ({ rowcount := 1 }, db.put table t')
  | .update table set cond => do
    let t ← db.require table
    t.check (set.map Prod.fst ++ set.flatMap fun x => x.2.columns)
    let p ← cond.test db t
    t.admits table set p
    return ({ rowcount := t.rows.countP p }, db.put table (t.change p (evalSet set)))
  | .delete table cond => do
    let t ← db.require table
    let p ← cond.test db t
    return ({ rowcount := t.rows.countP p }, db.put table (t.delete p))
  | .select table columns cond order limit => do
    let t ← db.require table
    t.check (columns.getD [] ++ order.toList.map Prod.fst)
    let p ← cond.test db t
    let rows := orderRows (t.rows.filter p) order
    return ({ rows := ((rows.take (limit.getD rows.length)).map (project columns)) }, db)

/-- A script: the statements in order, up to the first error. -/
def runAll (db : Database) : List Statement → Except String Database
  | [] => .ok db
  | s :: rest =>
    match s.exec db with
    | .ok x => runAll x.2 rest
    | .error text => .error text

/-! ## Statements on rows -/

section Rows

variable {db : Database} {table : String} {t : Relation}

theorem test_equal {column : String} (h : column ∈ names t.columns) (v : Value) :
    (Cond.equal column v).test db t = .ok fun row => (row.get column).equal v :=
  bind_eq_ok.2 ⟨(), Relation.check_eq_ok_iff.2 (by simpa using h), rfl⟩

theorem test_below {column : String} (h : column ∈ names t.columns) (v : Value) :
    (Cond.below column v).test db t = .ok fun row => (row.get column).below v :=
  bind_eq_ok.2 ⟨(), Relation.check_eq_ok_iff.2 (by simpa using h), rfl⟩

theorem test_notIn {column table inner : String} {other : Relation}
    (h : column ∈ names t.columns) (hother : db.find table = some other)
    (hinner : inner ∈ names other.columns) :
    (Cond.notIn column table inner).test db t =
      .ok fun row => (row.get column).notIn (other.rows.map fun r => Row.get r inner) :=
  bind_eq_ok.2 ⟨(), Relation.check_eq_ok_iff.2 (by simpa using h),
    bind_eq_ok.2 ⟨other, Database.require_eq_ok_iff.2 hother,
      bind_eq_ok.2 ⟨(), Relation.check_eq_ok_iff.2 (by simpa using hinner), rfl⟩⟩⟩

/-- An `INSERT` does what the insertion into its table does. -/
theorem exec_insert (ht : db.find table = some t) (given : Row) :
    (Statement.insert table given).exec db =
      match t.insert table given with
      | .ok t' => .ok ({ rowcount := 1 }, db.put table t')
      | .error text => .error text := by
  simp only [Statement.exec, Database.require_eq_ok_iff.2 ht]
  cases h : t.insert table given with
  | ok t' => exact bind_eq_ok.2 ⟨t, rfl, bind_eq_ok.2 ⟨t', h, rfl⟩⟩
  | error text =>
    show (t.insert table given >>= _) = _
    rw [h]
    rfl

/-- An `UPDATE` that sets columns of its table other than the key, and sets none to NULL. -/
theorem exec_update (ht : db.find table = some t) {set : List (String × Expr)} {cond : Cond}
    {p : Row → Bool} (hp : cond.test db t = .ok p)
    (hcolumns : ∀ x ∈ set, x.1 ∈ names t.columns ∧ ∀ c ∈ x.2.columns, c ∈ names t.columns)
    (hkey : t.key ∉ set.map Prod.fst)
    (hnull : ∀ row ∈ t.rows, p row = true → ∀ x ∈ set, x.2.eval row ≠ .null) :
    (Statement.update table set cond).exec db =
      .ok ({ rowcount := t.rows.countP p }, db.put table (t.change p (evalSet set))) := by
  have hcheck : t.check (set.map Prod.fst ++ set.flatMap fun x => x.2.columns) = .ok () := by
    rw [Relation.check_eq_ok_iff]
    intro c hc
    rcases List.mem_append.1 hc with hc | hc
    · obtain ⟨x, hx, rfl⟩ := List.mem_map.1 hc
      exact (hcolumns x hx).1
    · obtain ⟨x, hx, hc⟩ := List.mem_flatMap.1 hc
      exact (hcolumns x hx).2 c hc
  have hfound : (t.columns.find? fun c => t.rows.any fun row =>
      p row && ((evalSet set row).lookup c.name).any fun v => !c.accepts v) = none := by
    rw [List.find?_eq_none]
    intro c hc hany
    obtain ⟨row, hrow, hboth⟩ := List.any_eq_true.1 hany
    obtain ⟨hprow, hrefused⟩ := Bool.and_eq_true_iff.1 hboth
    obtain ⟨v, hv, hnot⟩ := (Option.any_eq_true _ _).1 hrefused
    -- the refused value is one of the new values, and none of them is NULL
    obtain ⟨l₁, l₂, hl, -⟩ := List.lookup_eq_some_iff.1 hv
    have hmem : (c.name, v) ∈ evalSet set row := by
      rw [hl]
      simp
    obtain ⟨x, hx, heq⟩ := List.mem_map.1 hmem
    have hvalue : x.2.eval row = v := congrArg Prod.snd heq
    rw [Column.accepts_of_ne (hvalue ▸ hnull row hrow hprow x hx)] at hnot
    cases hnot
  have hadmits : t.admits table set p = .ok () := by
    simp only [Relation.admits, hfound, hkey, false_and, if_false]
  exact bind_eq_ok.2 ⟨t, Database.require_eq_ok_iff.2 ht, bind_eq_ok.2 ⟨(), hcheck,
    bind_eq_ok.2 ⟨p, hp, bind_eq_ok.2 ⟨(), hadmits, rfl⟩⟩⟩⟩

theorem exec_delete (ht : db.find table = some t) {cond : Cond} {p : Row → Bool}
    (hp : cond.test db t = .ok p) :
    (Statement.delete table cond).exec db =
      .ok ({ rowcount := t.rows.countP p }, db.put table (t.delete p)) :=
  bind_eq_ok.2 ⟨t, Database.require_eq_ok_iff.2 ht, bind_eq_ok.2 ⟨p, hp, rfl⟩⟩

theorem exec_select (ht : db.find table = some t) (columns : Option (List String)) {cond : Cond}
    (order : Option (String × Bool)) (limit : Option ℕ) {p : Row → Bool}
    (hp : cond.test db t = .ok p)
    (hcolumns : ∀ c ∈ columns.getD [] ++ order.toList.map Prod.fst, c ∈ names t.columns) :
    (Statement.select table columns cond order limit).exec db =
      .ok ({ rows := (((orderRows (t.rows.filter p) order).take
        (limit.getD (orderRows (t.rows.filter p) order).length)).map (project columns)) }, db) :=
  bind_eq_ok.2 ⟨t, Database.require_eq_ok_iff.2 ht,
    bind_eq_ok.2 ⟨(), Relation.check_eq_ok_iff.2 hcolumns, bind_eq_ok.2 ⟨p, hp, rfl⟩⟩⟩

end Rows

/-! ## What a statement of the schema can do -/

variable {db db' : Database} {r : Result}

/-- `CREATE TABLE IF NOT EXISTS` finds the table, or puts the new one there. -/
theorem exec_createTable_ok {name : String} {t : Relation}
    (h : (Statement.createTable name t).exec db = .ok (r, db')) :
    ((db.find name).isSome = true ∧ db' = db) ∨
      (db.find name = none ∧ db.hasIndex name = false ∧ db' = db.put name t) := by
  simp only [Statement.exec] at h
  split at h
  · rename_i hfound
    cases h
    exact .inl ⟨hfound, rfl⟩
  · rename_i hnone
    split at h
    · cases h
    · rename_i hindex
      cases h
      exact .inr ⟨by simpa using hnone, by simpa using hindex, rfl⟩

/-- `ALTER TABLE ... ADD COLUMN` changes one table. -/
theorem exec_addColumn_ok {table : String} {c : Column}
    (h : (Statement.addColumn table c).exec db = .ok (r, db')) :
    ∃ t t', db.find table = some t ∧ t.addColumn c = .ok t' ∧ db' = db.put table t' := by
  simp only [Statement.exec, bind_eq_ok, Database.require_eq_ok_iff] at h
  obtain ⟨t, ht, t', ht', h⟩ := h
  cases h
  exact ⟨t, t', ht, ht', rfl⟩

/-- `CREATE INDEX IF NOT EXISTS` succeeds on a table that is there, under a name that no table has:
it finds the index, or creates it on columns that are there. -/
theorem exec_createIndex_ok_iff {ix : Index} :
    (Statement.createIndex ix).exec db = .ok (r, db') ↔
      r = {} ∧ db.find ix.name = none ∧ ∃ t, db.find ix.table = some t ∧
        ((db.hasIndex ix.name = true ∧ db' = db) ∨
          (db.hasIndex ix.name = false ∧ (∀ c ∈ ix.columns, c ∈ names t.columns) ∧
            db' = { db with indexes := db.indexes ++ [ix] })) := by
  simp only [Statement.exec, bind_eq_ok, Database.require_eq_ok_iff]
  constructor
  · rintro ⟨t, ht, h⟩
    split at h
    · cases h
    · rename_i hname
      have hname : db.find ix.name = none := by simpa using hname
      split at h
      · rename_i hindex
        cases h
        exact ⟨rfl, hname, t, ht, .inl ⟨hindex, rfl⟩⟩
      · rename_i hindex
        obtain ⟨⟨⟩, hcheck, h⟩ := bind_eq_ok.1 h
        cases h
        exact ⟨rfl, hname, t, ht,
          .inr ⟨by simpa using hindex, Relation.check_eq_ok_iff.1 hcheck, rfl⟩⟩
  · rintro ⟨rfl, hname, t, ht, ⟨hindex, rfl⟩ | ⟨hindex, hcolumns, rfl⟩⟩
    · exact ⟨t, ht, by simp [hname, hindex]⟩
    · refine ⟨t, ht, ?_⟩
      simp only [hname, hindex, Option.isSome_none, Bool.false_eq_true, if_false]
      exact bind_eq_ok.2 ⟨(), Relation.check_eq_ok_iff.2 hcolumns, rfl⟩

/-- The result of `CREATE TABLE IF NOT EXISTS`: only a new table needs a name that no index has. -/
theorem exec_createTable (db : Database) (name : String) (t : Relation) :
    (∃ text, (Statement.createTable name t).exec db = .error text) ∧
        db.find name = none ∧ db.hasIndex name = true ∨
      ∃ db', (Statement.createTable name t).exec db = .ok ({}, db') ∧
        (db.find name = none → db.hasIndex name = false) ∧ db'.indexes = db.indexes ∧
        ∀ other, db'.find other = if other = name then some ((db.find name).getD t)
          else db.find other := by
  simp only [Statement.exec]
  cases hfind : db.find name with
  | some u =>
    refine .inr ⟨db, rfl, fun h => (by cases h), rfl, fun other => ?_⟩
    split
    · rename_i h
      rw [h, hfind]
      rfl
    · rfl
  | none =>
    cases hindex : db.hasIndex name with
    | true => exact .inl ⟨⟨_, rfl⟩, rfl, rfl⟩
    | false => exact .inr ⟨_, rfl, fun _ => rfl, rfl, fun other => db.find_put name other t⟩

/-- An index can be created, or is there. -/
def Database.Admits (db : Database) (ix : Index) : Prop :=
  db.find ix.name = none ∧ ∃ t, db.find ix.table = some t ∧
    (db.hasIndex ix.name = true ∨ ∀ c ∈ ix.columns, c ∈ names t.columns)

/-- A script of `CREATE INDEX IF NOT EXISTS` under distinct names succeeds if and only if the
database admits each of them; it creates those that are not there. The induction is on the script:
an index that it has created changes nothing for the later ones. -/
theorem runAll_createIndex (ixs : List Index) (hdistinct : (ixs.map Index.name).Nodup)
    (db : Database) :
    (∃ text, runAll db (ixs.map .createIndex) = .error text) ∧ (¬ ∀ ix ∈ ixs, db.Admits ix) ∨
      runAll db (ixs.map .createIndex) = .ok
          { db with indexes := db.indexes ++ ixs.filter fun ix => !db.hasIndex ix.name } ∧
        ∀ ix ∈ ixs, db.Admits ix := by
  induction ixs generalizing db with
  | nil => exact .inr ⟨by simp [runAll], fun ix h => absurd h List.not_mem_nil⟩
  | cons ix rest ih =>
    rw [List.map_cons, List.nodup_cons] at hdistinct
    simp only [List.map_cons, runAll]
    cases hexec : (Statement.createIndex ix).exec db with
    | error text =>
      refine .inl ⟨⟨text, rfl⟩, fun h => ?_⟩
      obtain ⟨hname, t, ht, hready⟩ := h ix List.mem_cons_self
      -- the statement would have succeeded
      have hok : ∃ db', (Statement.createIndex ix).exec db = .ok ({}, db') := by
        cases hindex : db.hasIndex ix.name with
        | true => exact ⟨db, exec_createIndex_ok_iff.2 ⟨rfl, hname, t, ht, .inl ⟨hindex, rfl⟩⟩⟩
        | false =>
          rw [hindex] at hready
          exact ⟨_, exec_createIndex_ok_iff.2 ⟨rfl, hname, t, ht,
            .inr ⟨hindex, hready.resolve_left Bool.false_ne_true, rfl⟩⟩⟩
      obtain ⟨db', hok⟩ := hok
      cases hexec.symm.trans hok
    | ok x =>
      obtain ⟨-, hname, t, ht, ⟨hindex, hdb⟩ | ⟨hindex, hcolumns, hdb⟩⟩ :=
        exec_createIndex_ok_iff.1 hexec
      · have hhead : db.Admits ix := ⟨hname, t, ht, .inl hindex⟩
        simp only [hdb, List.filter_cons, hindex, Bool.not_true, Bool.false_eq_true, if_false]
        rcases ih hdistinct.2 db with ⟨herror, hnot⟩ | ⟨hok, hall⟩
        · exact .inl ⟨herror, fun h => hnot fun y hy => h y (List.mem_cons_of_mem _ hy)⟩
        · exact .inr ⟨hok, List.forall_mem_cons.2 ⟨hhead, hall⟩⟩
      · have hhead : db.Admits ix := ⟨hname, t, ht, .inr hcolumns⟩
        -- the new name is none of the later ones
        have hlater : ∀ y ∈ rest, x.2.hasIndex y.name = db.hasIndex y.name := by
          intro y hy
          have hne : ix.name ≠ y.name := fun h => hdistinct.1 (h ▸ List.mem_map_of_mem hy)
          rw [hdb, Database.hasIndex, Database.hasIndex, List.any_append]
          simp [hne]
        have hadmits : (∀ y ∈ rest, x.2.Admits y) ↔ ∀ y ∈ rest, db.Admits y := by
          refine forall₂_congr fun y hy => ?_
          rw [Database.Admits, Database.Admits, hlater y hy, hdb]
          rfl
        have hfilter : rest.filter (fun y => !x.2.hasIndex y.name) =
            rest.filter fun y => !db.hasIndex y.name :=
          List.filter_congr fun y hy => by rw [hlater y hy]
        rcases ih hdistinct.2 x.2 with ⟨herror, hnot⟩ | ⟨hok, hall⟩
        · exact .inl ⟨herror, fun h => hnot (hadmits.2 fun y hy => h y (List.mem_cons_of_mem _ hy))⟩
        · refine .inr ⟨hok.trans ?_, List.forall_mem_cons.2 ⟨hhead, hadmits.1 hall⟩⟩
          rw [hfilter, hdb, List.filter_cons]
          simp [hindex]

/-! ## The frame of a statement on rows -/

/-- The statement reads or changes the rows of this table. -/
def Statement.On (table : String) : Statement → Prop
  | .insert name _ | .update name _ _ | .delete name _ | .select name _ _ _ _ => name = table
  | _ => False

/-- A statement on rows changes its table at most. -/
theorem Statement.On.exec {table : String} {s : Statement} (h : s.On table) {db db' : Database}
    {r : Result} (hs : s.exec db = .ok (r, db')) : db' = db ∨ ∃ t, db' = db.put table t := by
  cases s with
  | insert name given =>
    obtain rfl : name = table := h
    obtain ⟨t, -, hs⟩ := bind_eq_ok.1 hs
    obtain ⟨t', -, hs⟩ := bind_eq_ok.1 hs
    cases hs
    exact .inr ⟨t', rfl⟩
  | update name set cond =>
    obtain rfl : name = table := h
    obtain ⟨t, -, hs⟩ := bind_eq_ok.1 hs
    obtain ⟨⟨⟩, -, hs⟩ := bind_eq_ok.1 hs
    obtain ⟨p, -, hs⟩ := bind_eq_ok.1 hs
    obtain ⟨⟨⟩, -, hs⟩ := bind_eq_ok.1 hs
    cases hs
    exact .inr ⟨_, rfl⟩
  | delete name cond =>
    obtain rfl : name = table := h
    obtain ⟨t, -, hs⟩ := bind_eq_ok.1 hs
    obtain ⟨p, -, hs⟩ := bind_eq_ok.1 hs
    cases hs
    exact .inr ⟨_, rfl⟩
  | select name columns cond order limit =>
    obtain ⟨t, -, hs⟩ := bind_eq_ok.1 hs
    obtain ⟨⟨⟩, -, hs⟩ := bind_eq_ok.1 hs
    obtain ⟨p, -, hs⟩ := bind_eq_ok.1 hs
    cases hs
    exact .inl rfl
  | _ => exact h.elim

end Sql
