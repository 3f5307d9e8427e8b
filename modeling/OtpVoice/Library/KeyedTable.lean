import Mathlib.Data.List.Forall2
import Mathlib.Data.List.Nodup
import Mathlib.Data.List.Basic
import Mathlib.Data.Nat.Init

/-!
# Tables with a primary key

A `Table` is a list of rows in insertion order whose keys are pairwise distinct; the field `nodup`
is the primary key constraint. `find` reads the row of a key, `insert` refuses a key that is
present, `modify` changes the row of a key, `delete` drops rows. Each operation has one lemma for
membership and one for `find`.

`RowWise P` relates two tables row by row. Where related rows have the same key, every operation
keeps this.

`row_induction` is the rule of a row that stays while its table changes.
-/

set_option autoImplicit false

/-- Rows in insertion order with pairwise distinct keys. -/
@[ext] structure Table (K V : Type) (key : V → K) where
  rows : List V
  nodup : (rows.map key).Nodup

namespace Table

variable {K V : Type} [DecidableEq K] {key : V → K}

/-- The table without rows. -/
def empty : Table K V key := ⟨[], List.nodup_nil⟩

/-- The row of a key. -/
def find (t : Table K V key) (k : K) : Option V := t.rows.find? fun v => key v = k

/-- Add a row at the end; `none` when its key is present. -/
def insert (t : Table K V key) (v : V) : Option (Table K V key) :=
  if h : key v ∈ t.rows.map key then none
  else some ⟨t.rows ++ [v], by
    rw [List.map_append, List.nodup_append]
    refine ⟨t.nodup, by simp, ?_⟩
    rintro a ha b hb rfl
    simp only [List.map_cons, List.map_nil, List.mem_singleton] at hb
    exact h (hb ▸ ha)⟩

/-- Change the row of a key by a function that keeps keys. -/
def modify (t : Table K V key) (k : K) (f : V → V) (hf : ∀ v, key (f v) = key v) :
    Table K V key :=
  ⟨t.rows.map fun v => if key v = k then f v else v, by
    have h : (key ∘ fun v => if key v = k then f v else v) = key := by
      funext v
      simp only [Function.comp_apply]
      split
      · exact hf v
      · rfl
    rw [List.map_map, h]
    exact t.nodup⟩

/-- Drop the rows that satisfy `p`. -/
def delete (t : Table K V key) (p : V → Bool) : Table K V key :=
  ⟨t.rows.filter fun v => !p v, t.nodup.sublist (List.Sublist.map key List.filter_sublist)⟩

variable {t : Table K V key}

theorem find_eq_none_iff {k : K} : t.find k = none ↔ ∀ v ∈ t.rows, key v ≠ k := by
  simp [find]

theorem find_eq_some_iff {k : K} {v : V} : t.find k = some v ↔ v ∈ t.rows ∧ key v = k := by
  have key_unique : ∀ w, t.find k = some w → w ∈ t.rows ∧ key w = k := fun w hw =>
    ⟨List.mem_of_find?_eq_some hw, by simpa using List.find?_some hw⟩
  refine ⟨key_unique v, fun ⟨hv, hk⟩ => ?_⟩
  cases h : t.find k with
  | none => exact absurd hk (find_eq_none_iff.1 h v hv)
  | some w =>
    obtain ⟨hw, hkw⟩ := key_unique w h
    rw [List.inj_on_of_nodup_map t.nodup hw hv (hkw.trans hk.symm)]

theorem find_mem {v : V} (h : v ∈ t.rows) : t.find (key v) = some v :=
  find_eq_some_iff.2 ⟨h, rfl⟩

theorem insert_eq_some_iff {v : V} {t' : Table K V key} :
    t.insert v = some t' ↔ t.find (key v) = none ∧ t'.rows = t.rows ++ [v] := by
  have hkey : key v ∈ t.rows.map key ↔ t.find (key v) ≠ none := by
    simp [find_eq_none_iff]
  unfold insert
  split
  · rename_i h
    simp [hkey.1 h]
  · rename_i h
    rw [hkey, not_not] at h
    simp only [Option.some.injEq, h, true_and]
    constructor
    · rintro rfl
      rfl
    · intro hr
      exact Table.ext hr.symm

theorem find_isSome_of_insert_eq_none {v : V} (h : t.insert v = none) :
    (t.find (key v)).isSome = true := by
  unfold insert at h
  split at h
  · rename_i hmem
    obtain ⟨u, hu, hkey⟩ := List.mem_map.1 hmem
    rw [find_eq_some_iff.2 ⟨hu, hkey⟩]
    rfl
  · cases h

/-- An insertion keeps the other rows. -/
theorem find_of_insert {v u : V} {k : K} {t' : Table K V key} (h : t.insert v = some t')
    (hfind : t'.find k = some u) : t.find k = some u ∨ (u = v ∧ t.find k = none) := by
  obtain ⟨hnew, hrows⟩ := insert_eq_some_iff.1 h
  obtain ⟨hmem, hkey⟩ := find_eq_some_iff.1 hfind
  rw [hrows, List.mem_append, List.mem_singleton] at hmem
  rcases hmem with hmem | rfl
  · exact .inl (find_eq_some_iff.2 ⟨hmem, hkey⟩)
  · exact .inr ⟨rfl, hkey ▸ hnew⟩

theorem find_insert {v : V} {t' : Table K V key} (h : t.insert v = some t') (k : K) :
    t'.find k = if key v = k then some v else t.find k := by
  obtain ⟨hnew, hrows⟩ := insert_eq_some_iff.1 h
  have hfind : t'.find k = ((t.rows ++ [v]).find? fun v => key v = k) := by rw [find, hrows]
  rw [hfind, List.find?_append]
  split
  · rename_i hk
    subst hk
    rw [show (t.rows.find? fun u => key u = key v) = none from hnew]
    simp
  · rename_i hk
    simp [hk, find]

theorem mem_modify {k : K} {f : V → V} {hf : ∀ v, key (f v) = key v} {v : V} :
    v ∈ (t.modify k f hf).rows ↔
      (v ∈ t.rows ∧ key v ≠ k) ∨ ∃ u ∈ t.rows, key u = k ∧ v = f u := by
  simp only [modify, List.mem_map]
  constructor
  · rintro ⟨u, hu, rfl⟩
    split
    · exact .inr ⟨u, hu, ‹_›, rfl⟩
    · exact .inl ⟨hu, ‹_›⟩
  · rintro (⟨hv, hk⟩ | ⟨u, hu, hk, rfl⟩)
    · exact ⟨v, hv, if_neg hk⟩
    · exact ⟨u, hu, if_pos hk⟩

theorem find_modify (t : Table K V key) (k : K) (f : V → V) (hf : ∀ v, key (f v) = key v) (j : K) :
    (t.modify k f hf).find j = if j = k then (t.find j).map f else t.find j := by
  split
  · rename_i hjk
    subst hjk
    cases h : t.find j with
    | none =>
      rw [find_eq_none_iff] at h
      rw [Option.map_none, find_eq_none_iff]
      intro v hv
      rcases mem_modify.1 hv with ⟨-, hk⟩ | ⟨u, hu, hk, -⟩
      · exact hk
      · exact absurd hk (h u hu)
    | some v =>
      obtain ⟨hv, hk⟩ := find_eq_some_iff.1 h
      rw [Option.map_some, find_eq_some_iff]
      exact ⟨mem_modify.2 (.inr ⟨v, hv, hk, rfl⟩), by rw [hf, hk]⟩
  · rename_i hjk
    cases h : t.find j with
    | none =>
      rw [find_eq_none_iff] at h ⊢
      intro v hv
      rcases mem_modify.1 hv with ⟨hv, -⟩ | ⟨u, hu, hk, rfl⟩
      · exact h v hv
      · rw [hf, hk]
        exact fun e => hjk e.symm
    | some v =>
      obtain ⟨hv, hk⟩ := find_eq_some_iff.1 h
      exact find_eq_some_iff.2 ⟨mem_modify.2 (.inl ⟨hv, hk ▸ hjk⟩), hk⟩

/-- Only the row that is found has the key, so a change at the key is a change of this row. -/
theorem map_at_key {k : K} {v : V} (h : t.find k = some v) (f : V → V) :
    (t.rows.map fun u => if key u = k then f u else u) =
      t.rows.map fun u => if key u = k then f v else u := by
  apply List.map_congr_left
  intro u hu
  split
  · rename_i hk
    rw [Option.some.inj ((find_eq_some_iff.2 ⟨hu, hk⟩).symm.trans h)]
  · rfl

/-- Writing back the row that is found changes nothing. -/
theorem map_at_key_self {k : K} {v : V} (h : t.find k = some v) :
    (t.rows.map fun u => if key u = k then v else u) = t.rows := by
  rw [← map_at_key h fun u => u]
  simp only [ite_self, List.map_id']

omit [DecidableEq K] in
theorem mem_delete {p : V → Bool} {v : V} :
    v ∈ (t.delete p).rows ↔ v ∈ t.rows ∧ p v = false := by
  simp [delete, List.mem_filter]

theorem find_delete (t : Table K V key) (p : V → Bool) (k : K) :
    (t.delete p).find k = (t.find k).filter fun v => !p v := by
  cases h : t.find k with
  | none =>
    rw [Option.filter_none, find_eq_none_iff]
    rw [find_eq_none_iff] at h
    exact fun v hv => h v (mem_delete.1 hv).1
  | some v =>
    obtain ⟨hv, hk⟩ := find_eq_some_iff.1 h
    cases hp : p v with
    | false => simpa [Option.filter, hp, find_eq_some_iff, mem_delete] using ⟨hv, hk⟩
    | true =>
      simp only [Option.filter_some, hp, Bool.not_true, Bool.false_eq_true, if_false]
      rw [find_eq_none_iff]
      intro u hu hku
      obtain ⟨hu, hpu⟩ := mem_delete.1 hu
      rw [List.inj_on_of_nodup_map t.nodup hu hv (hku.trans hk.symm), hp] at hpu
      exact Bool.noConfusion hpu

/-! ## Tables row by row -/

omit [DecidableEq K] in
/-- The rows of the two tables are in `P`, one after the other. -/
def RowWise (P : V → V → Prop) (t t' : Table K V key) : Prop := List.Forall₂ P t.rows t'.rows

section RowWise

variable {P : V → V → Prop} {t' : Table K V key}

omit [DecidableEq K] in
theorem RowWise.refl (hP : ∀ v, P v v) (t : Table K V key) : RowWise P t t :=
  List.forall₂_same.2 fun v _ => hP v

variable (hkey : ∀ v v', P v v' → key v = key v')

include hkey

theorem RowWise.find (h : RowWise P t t') (k : K) : Option.Rel P (t.find k) (t'.find k) := by
  unfold RowWise at h
  simp only [Table.find]
  generalize t.rows = l, t'.rows = l' at h
  induction h with
  | nil => exact .none
  | cons hv _ ih =>
    rw [List.find?_cons, List.find?_cons, ← hkey _ _ hv]
    split
    · exact .some hv
    · exact ih

omit [DecidableEq K] in
theorem RowWise.keys (h : RowWise P t t') : t.rows.map key = t'.rows.map key := by
  rw [← List.forall₂_eq_eq_eq]
  exact List.rel_map (R := P) hkey h

theorem RowWise.insert (h : RowWise P t t') {v v' : V} (hv : P v v') :
    Option.Rel (RowWise P) (t.insert v) (t'.insert v') := by
  have hmem : key v ∈ t.rows.map key ↔ key v' ∈ t'.rows.map key := by
    rw [h.keys hkey, hkey v v' hv]
  unfold Table.insert
  by_cases hfound : key v ∈ t.rows.map key
  · rw [dif_pos hfound, dif_pos (hmem.1 hfound)]
    exact .none
  · rw [dif_neg hfound, dif_neg fun h' => hfound (hmem.2 h')]
    exact .some (List.rel_append h (.cons hv .nil))

theorem RowWise.modify (h : RowWise P t t') (k : K) {f f' : V → V}
    (hf : ∀ v, key (f v) = key v) (hf' : ∀ v, key (f' v) = key v)
    (hff : ∀ v v', P v v' → P (f v) (f' v')) :
    RowWise P (t.modify k f hf) (t'.modify k f' hf') := by
  refine List.rel_map (R := P) (fun v v' hv => ?_) h
  simp only [← hkey v v' hv]
  split
  · exact hff v v' hv
  · exact hv

omit [DecidableEq K] hkey in
theorem RowWise.delete (h : RowWise P t t') {p : V → Bool} (hp : ∀ v v', P v v' → p v = p v') :
    RowWise P (t.delete p) (t'.delete p) := by
  refine List.rel_filter (R := P) (fun v v' hv => ?_) h
  simp only [hp v v' hv]

end RowWise

/-! ## A row over time -/

/-- The rule of a row that is there from `m` to `n`: what holds of it at `m` and is kept by each
step holds of it at `n`. -/
theorem row_induction {t : ℕ → Table K V key} {k : K} {m n : ℕ} (hmn : m ≤ n)
    (hthere : ∀ i, m ≤ i → i ≤ n → ((t i).find k).isSome = true) {P : V → Prop}
    (hstart : ∀ v, (t m).find k = some v → P v)
    (hstep : ∀ i u v, m ≤ i → i < n → (t i).find k = some u → (t (i + 1)).find k = some v →
      P u → P v) {v : V} (hv : (t n).find k = some v) : P v := by
  induction n, hmn using Nat.le_induction generalizing v with
  | base => exact hstart v hv
  | succ n hmn ih =>
    obtain ⟨u, hu⟩ := Option.isSome_iff_exists.1 (hthere n hmn (Nat.le_succ n))
    have hbefore : P u := by
      apply ih _ _ hu
      · intro i hmi hin
        exact hthere i hmi (Nat.le_succ_of_le hin)
      · intro i u v hmi hin
        exact hstep i u v hmi (Nat.lt_succ_of_lt hin)
    exact hstep n u v hmn (Nat.lt_succ_self n) hu hv hbefore

end Table
