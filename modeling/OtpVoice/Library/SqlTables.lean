import Mathlib.Algebra.Order.Ring.Rat
import Mathlib.Data.List.Nodup

/-!
# SQL tables

A `Relation` is a table with its columns, its primary key and its rows; a row gives each column its
value by name. The fields `distinct` and `shaped` say that column names are distinct and that every
row has one value for each column, so that a table with a malformed row cannot be built.

`addColumn`, `insert`, `update` and `delete` are the changes of a table, with the errors of the
constraints that they check. What a row reads afterwards: `lookup_defaults` (a new column has its
default), `lookup_fill` (a column that is given has the given value, every other one its default)
and `lookup_assign` (a column that is set has the new value, every other one its old value).
-/

set_option autoImplicit false

namespace Sql

/-! ## Values -/

/-- A value of a column or of a bound parameter. -/
inductive Value where
  | null
  | text (s : String)
  | integer (n : ℤ)
  | real (x : ℚ)
  deriving DecidableEq

namespace Value

/-- The number that a numeric value stands for. -/
def number : Value → Option ℚ
  | .integer n => some n
  | .real x => some x
  | _ => none

/-- `a = b` is true; NULL is equal to nothing. -/
def equal : Value → Value → Bool
  | .text s, .text s' => s = s'
  | a, b => a.number.isSome && a.number = b.number

/-- The order of `ORDER BY`: NULL, then numbers, then texts. -/
def le : Value → Value → Bool
  | .null, _ => true
  | .text s, .text s' => s ≤ s'
  | .text _, _ => false
  | a, .text _ => a.number.isSome
  | a, b =>
    match a.number, b.number with
    | some x, some y => x ≤ y
    | _, _ => false

/-- `a < b` is true; NULL is below nothing. -/
def below (a b : Value) : Bool := a ≠ .null && b ≠ .null && !b.le a

@[simp] theorem equal_text (s s' : String) : equal (.text s) (.text s') = decide (s = s') := rfl

@[simp] theorem le_real (x y : ℚ) : le (.real x) (.real y) = decide (x ≤ y) := rfl

@[simp] theorem below_real (x y : ℚ) : below (.real x) (.real y) = decide (x < y) := by
  simp [below, ← not_le]

end Value

/-! ## Rows -/

/-- The values of a row by the names of their columns. -/
abbrev Row : Type := List (String × Value)

/-- A column: whether it refuses NULL, and its default. -/
structure Column where
  name : String
  notNull : Bool := false
  dflt : Value := .null
  deriving DecidableEq

/-- The column of a name. -/
def column? (columns : List Column) (name : String) : Option Column :=
  columns.find? fun c => c.name = name

/-- The names of the columns. -/
def names (columns : List Column) : List String := columns.map Column.name

/-- `NOT NULL` does not refuse the value. -/
def Column.accepts (c : Column) (v : Value) : Bool := !(c.notNull && v = .null)

/-- The value of a column; a row that has no such column gives NULL. -/
def Row.get (row : Row) (name : String) : Value := (row.lookup name).getD .null

/-- A row for the columns: the given values, and defaults elsewhere. -/
def Row.fill (columns : List Column) (given : Row) : Row :=
  columns.map fun c => (c.name, (given.lookup c.name).getD c.dflt)

/-- The row with new values for some columns. -/
def Row.assign (row changes : Row) : Row :=
  row.map fun x => (x.1, (changes.lookup x.1).getD x.2)

/-- The row with one more column. -/
def Row.extend (row : Row) (c : Column) : Row := row ++ [(c.name, c.dflt)]

theorem lookup_cons_ne {name key : String} (h : name ≠ key) (v : Value) (row : Row) :
    ((key, v) :: row).lookup name = row.lookup name := by
  rw [List.lookup_cons, beq_false_of_ne h]

/-- A row has a value for the names of its columns and for no other. -/
theorem lookup_isSome_iff {row : Row} {name : String} :
    (row.lookup name).isSome = true ↔ name ∈ row.map Prod.fst := by
  induction row with
  | nil => simp
  | cons x row ih =>
    obtain ⟨key, v⟩ := x
    rw [List.map_cons, List.mem_cons, ← ih]
    by_cases h : name = key
    · subst h
      simp
    · rw [lookup_cons_ne h, or_iff_right h]

/-- The defaults at the end of a row are found by their names. -/
theorem lookup_defaults {cs : List Column} {c : Column} (hdistinct : (names cs).Nodup)
    (hc : c ∈ cs) : (cs.map fun c => (c.name, c.dflt)).lookup c.name = some c.dflt := by
  induction cs with
  | nil => exact absurd hc List.not_mem_nil
  | cons d cs ih =>
    rw [names, List.map_cons, List.nodup_cons] at hdistinct
    rw [List.map_cons]
    rcases List.mem_cons.1 hc with rfl | hc
    · exact List.lookup_cons_self
    · have hne : c.name ≠ d.name := fun heq =>
        hdistinct.1 (heq ▸ List.mem_map_of_mem (f := Column.name) hc)
      rw [lookup_cons_ne hne]
      exact ih hdistinct.2 hc

/-- A column that is given has the given value, every other one its default. -/
theorem lookup_fill (columns : List Column) (given : Row) (name : String) :
    (Row.fill columns given).lookup name =
      (column? columns name).map fun c => (given.lookup name).getD c.dflt := by
  simp only [Row.fill, column?]
  induction columns with
  | nil => rfl
  | cons c columns ih =>
    rw [List.map_cons, List.find?_cons]
    by_cases h : c.name = name
    · subst h
      simp
    · rw [lookup_cons_ne (Ne.symm h), ih, decide_eq_false h]

/-- A column that is set has the new value, every other one its old value. -/
theorem lookup_assign (row changes : Row) (name : String) :
    (row.assign changes).lookup name =
      (row.lookup name).map fun v => (changes.lookup name).getD v := by
  simp only [Row.assign]
  induction row with
  | nil => rfl
  | cons x row ih =>
    obtain ⟨key, v⟩ := x
    rw [List.map_cons]
    by_cases h : name = key
    · subst h
      simp
    · rw [lookup_cons_ne h, lookup_cons_ne h, ih]

/-- What a row stores among other values it stores after the same assignments. -/
theorem assign_agrees {row cells : Row} (h : ∀ x ∈ cells, row.lookup x.1 = some x.2)
    (changes : Row) : ∀ x ∈ cells.assign changes, (row.assign changes).lookup x.1 = some x.2 := by
  intro x hx
  obtain ⟨y, hy, rfl⟩ := List.mem_map.1 hx
  rw [lookup_assign, h y hy]
  rfl

theorem get_of_lookup {row : Row} {name : String} {v : Value} (h : row.lookup name = some v) :
    row.get name = v := by
  rw [Row.get, h]
  rfl

/-- `NOT NULL` refuses nothing but NULL. -/
theorem Column.accepts_of_ne {c : Column} {v : Value} (h : v ≠ .null) : c.accepts v = true := by
  simp [Column.accepts, h]

theorem fill_names (columns : List Column) (given : Row) :
    (Row.fill columns given).map Prod.fst = names columns := by
  simp [Row.fill, names]

theorem assign_names (row changes : Row) :
    (row.assign changes).map Prod.fst = row.map Prod.fst := by
  simp [Row.assign]

/-! ## Tables -/

/-- A table. `sequence` is the largest key given so far, where the primary key counts by itself. -/
structure Relation where
  columns : List Column
  key : String
  sequence : Option ℕ
  rows : List Row
  distinct : (names columns).Nodup
  shaped : ∀ row ∈ rows, row.map Prod.fst = names columns

namespace Relation

/-- A table without rows. -/
def new (columns : List Column) (key : String) (sequence : Option ℕ)
    (distinct : (names columns).Nodup) : Relation :=
  ⟨columns, key, sequence, [], distinct, fun _ h => absurd h (List.not_mem_nil)⟩

/-- `ALTER TABLE ... ADD COLUMN ...`. -/
def addColumn (t : Relation) (c : Column) : Except String Relation :=
  if h : c.name ∈ names t.columns then .error ("duplicate column name: " ++ c.name)
  else .ok
    { t with
      columns := t.columns ++ [c]
      rows := t.rows.map fun row => row.extend c
      distinct := by
        rw [names, List.map_append, List.nodup_append]
        refine ⟨t.distinct, List.nodup_singleton _, ?_⟩
        rintro a ha b hb rfl
        rw [List.map_singleton, List.mem_singleton] at hb
        exact h (hb ▸ ha)
      shaped := by
        intro row hrow
        obtain ⟨old, hold, rfl⟩ := List.mem_map.1 hrow
        rw [Row.extend, List.map_append, t.shaped old hold, names, names, List.map_append]
        rfl }

/-- The values of an inserted row and the next largest key: a key that counts by itself is given
when the statement gives none. -/
def number (t : Relation) (given : Row) : Row × Option ℕ :=
  match t.sequence, given.lookup t.key with
  | none, _ => (given, none)
  | some n, some (.integer k) => (given, some (max n k.toNat))
  | some n, _ => ((t.key, .integer (n + 1)) :: given, some (n + 1))

/-- A row at the end of the table. -/
def append (t : Relation) (given : Row) (sequence : Option ℕ) : Relation :=
  { t with
    sequence
    rows := t.rows ++ [Row.fill t.columns given]
    shaped := by
      intro row hrow
      rcases List.mem_append.1 hrow with hrow | hrow
      · exact t.shaped row hrow
      · rw [List.mem_singleton.1 hrow, fill_names] }

/-- `INSERT INTO name (...) VALUES (...)`. -/
def insert (t : Relation) (name : String) (given : Row) : Except String Relation :=
  match given.find? fun x => x.1 ∉ names t.columns with
  | some x => .error ("table " ++ name ++ " has no column named " ++ x.1)
  | none =>
    let numbered := t.number given
    let row := Row.fill t.columns numbered.1
    match t.columns.find? fun c => !c.accepts (row.get c.name) with
    | some c => .error ("NOT NULL constraint failed: " ++ name ++ "." ++ c.name)
    | none =>
      if t.rows.any fun old => (old.get t.key).equal (row.get t.key) then
        .error ("UNIQUE constraint failed: " ++ name ++ "." ++ t.key)
      else .ok (t.append numbered.1 numbered.2)

/-- The rows that satisfy `p`, changed. -/
def change (t : Relation) (p : Row → Bool) (changes : Row → Row) : Relation :=
  { t with
    rows := t.rows.map fun row => if p row then row.assign (changes row) else row
    shaped := by
      intro row hrow
      obtain ⟨old, hold, rfl⟩ := List.mem_map.1 hrow
      split
      · rw [assign_names, t.shaped old hold]
      · exact t.shaped old hold }

/-- `DELETE FROM ... WHERE p`. -/
def delete (t : Relation) (p : Row → Bool) : Relation :=
  { t with
    rows := t.rows.filter fun row => !p row
    shaped := fun row hrow => t.shaped row (List.mem_filter.1 hrow).1 }

/-- `t'` is `t` with the columns `cs` at the end, filled with their defaults. -/
structure Extended (t t' : Relation) (cs : List Column) : Prop where
  columns : t'.columns = t.columns ++ cs
  key : t'.key = t.key
  sequence : t'.sequence = t.sequence
  rows : t'.rows = t.rows.map fun row => row ++ cs.map fun c => (c.name, c.dflt)

theorem extended_refl (t : Relation) : t.Extended t [] where
  columns := (List.append_nil _).symm
  key := rfl
  sequence := rfl
  rows := by simp

/-- No new column is no change. -/
theorem Extended.eq_of_nil {t t' : Relation} (h : t.Extended t' []) : t' = t := by
  obtain ⟨hcolumns, hkey, hsequence, hrows⟩ := h
  simp only [List.append_nil, List.map_nil, List.map_id'] at hcolumns hrows
  cases t
  cases t'
  simp_all

theorem addColumn_ok {t : Relation} {c : Column} (h : c.name ∉ names t.columns) :
    ∃ t', t.addColumn c = .ok t' ∧ t.Extended t' [c] := by
  refine ⟨_, dif_neg h, ⟨rfl, rfl, rfl, rfl⟩⟩

theorem addColumn_error {t : Relation} {c : Column} (h : c.name ∈ names t.columns) :
    t.addColumn c = .error ("duplicate column name: " ++ c.name) := dif_pos h

theorem Extended.trans {t t' t'' : Relation} {cs cs' : List Column} (h : t.Extended t' cs)
    (h' : t'.Extended t'' cs') : t.Extended t'' (cs ++ cs') where
  columns := by rw [h'.columns, h.columns, List.append_assoc]
  key := h'.key.trans h.key
  sequence := h'.sequence.trans h.sequence
  rows := by
    rw [h'.rows, h.rows, List.map_map]
    apply List.map_congr_left
    intro row _
    simp

/-- The new names are none of the old ones, and distinct. -/
theorem Extended.disjoint {t t' : Relation} {cs : List Column} (h : t.Extended t' cs) :
    (names cs).Nodup ∧ ∀ c ∈ cs, c.name ∉ names t.columns := by
  have hnodup := t'.distinct
  rw [h.columns, names, List.map_append, List.nodup_append] at hnodup
  refine ⟨hnodup.2.1, fun c hc hold => ?_⟩
  exact hnodup.2.2 _ hold _ (List.mem_map_of_mem hc) rfl

/-- A table has one column of each name. -/
theorem column?_eq_some_iff {t : Relation} {name : String} {c : Column} :
    column? t.columns name = some c ↔ c ∈ t.columns ∧ c.name = name := by
  constructor
  · intro h
    exact ⟨List.mem_of_find?_eq_some h, by simpa using List.find?_some h⟩
  · rintro ⟨hc, rfl⟩
    cases h : column? t.columns c.name with
    | none =>
      rw [column?, List.find?_eq_none] at h
      simpa using h c hc
    | some d =>
      have hname : d.name = c.name := by simpa using List.find?_some h
      rw [List.inj_on_of_nodup_map t.distinct (List.mem_of_find?_eq_some h) hc hname]

theorem number_of_none {t : Relation} (h : t.sequence = none) (given : Row) :
    t.number given = (given, none) := by
  rw [number, h]

/-- A key that counts by itself is one more than the largest so far. -/
theorem number_of_some {t : Relation} {n : ℕ} (h : t.sequence = some n) (given : Row)
    (hkey : given.lookup t.key = none) :
    t.number given = ((t.key, .integer (n + 1)) :: given, some (n + 1)) := by
  rw [number, h, hkey]

/-- The errors of an insertion are a violated `NOT NULL`, which is excluded here, and a violated
key. -/
theorem insert_eq {t : Relation} (name : String) (given : Row)
    (hnames : ∀ x ∈ given, x.1 ∈ names t.columns)
    (haccepts : ∀ c ∈ t.columns,
      c.accepts (((t.number given).1.lookup c.name).getD c.dflt) = true) :
    t.insert name given =
      if t.rows.any fun old =>
          (old.get t.key).equal ((Row.fill t.columns (t.number given).1).get t.key) then
        .error ("UNIQUE constraint failed: " ++ name ++ "." ++ t.key)
      else .ok (t.append (t.number given).1 (t.number given).2) := by
  have hfound : (given.find? fun x => x.1 ∉ names t.columns) = none := by
    rw [List.find?_eq_none]
    intro x hx
    simp [hnames x hx]
  have hfilled : (t.columns.find? fun c =>
      !c.accepts ((Row.fill t.columns (t.number given).1).get c.name)) = none := by
    rw [List.find?_eq_none]
    intro c hc
    have hlookup : (Row.fill t.columns (t.number given).1).lookup c.name =
        some (((t.number given).1.lookup c.name).getD c.dflt) := by
      rw [lookup_fill, column?_eq_some_iff.2 ⟨hc, rfl⟩]
      rfl
    rw [get_of_lookup hlookup, haccepts c hc]
    exact Bool.false_ne_true
  simp only [insert, hfound, hfilled]

end Relation

end Sql
