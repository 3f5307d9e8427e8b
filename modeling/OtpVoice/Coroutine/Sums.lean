import OtpVoice.Coroutine.Notes
import Mathlib.Algebra.BigOperators.Fin
import Mathlib.Algebra.BigOperators.Group.Finset.Piecewise
import Mathlib.Algebra.Order.BigOperators.Group.Finset

/-!
# Sums over the threads of a run

`countP_trace` counts the events of a trace thread by thread. `run_scheduled` bounds the number of
threads with a given kind of operation by what the results of the ended threads have scheduled.
-/

set_option autoImplicit false

namespace Coroutine

namespace Service

variable {C : Type} {R : C → Type} {E Env σ In Op Out : Type}
variable (S : Service C R E Env σ In Op Out)

/-! ## Counting events -/

/-- What is counted in a trace is the sum of what is counted in its threads. -/
theorem countP_trace (p : Event C R E Env → Bool) {n : ℕ} {tr : List (ℕ × Event C R E Env)}
    (h : ∀ x ∈ tr, x.1 < n) :
    tr.countP (fun x => p x.2) = ∑ i ∈ Finset.range n, (ownEvents i tr).countP p := by
  induction tr using List.reverseRecOn with
  | nil => simp [ownEvents]
  | append_singleton tr x ih =>
    obtain ⟨i, ev⟩ := x
    have hi : i < n := h (i, ev) (by simp)
    -- the last event counts in its own thread only
    have hown : ∀ j, (ownEvents j (tr ++ [(i, ev)])).countP p =
        (ownEvents j tr).countP p + if j = i then [ev].countP p else 0 := by
      intro j
      by_cases hji : j = i
      · subst hji
        simp [ownEvents_concat_self]
      · simp [ownEvents_concat_ne (Ne.symm hji), hji]
    simp only [hown, Finset.sum_add_distrib, Finset.sum_ite_eq', Finset.mem_range, hi, if_true]
    rw [List.countP_append, ih fun x hx => h x (List.mem_append_left _ hx)]
    simp

/-! ## Counting threads -/

/-- 1 for a thread whose operation has `q`. -/
def counted (q : Op → Bool) (t : Thread C R E Op Out) : ℕ := if q t.op then 1 else 0

/-- The number of operations with `q` that the result of a thread has scheduled. -/
def scheduled (q : Op → Bool) : Thread C R E Op Out → ℕ
  | ⟨_, .done (.ok out)⟩ => (S.spawns out).countP q
  | _ => 0

/-- The sum of a quantity over all threads. -/
def total (f : Thread C R E Op Out → ℕ) (s : Config C R E Env σ Op Out) : ℕ :=
  (s.threads.map f).sum

theorem total_eq_sum_range (f : Thread C R E Op Out → ℕ) (s : Config C R E Env σ Op Out) :
    total f s = ∑ i ∈ Finset.range s.threads.length, (s.threads[i]?.map f).getD 0 := by
  rw [Finset.sum_range, total, ← Fin.sum_univ_fun_getElem]
  simp

theorem sum_map_set {f : Thread C R E Op Out → ℕ} {l : List (Thread C R E Op Out)} {i : ℕ}
    {t : Thread C R E Op Out} (hi : l[i]? = some t) (t' : Thread C R E Op Out) :
    ((l.set i t').map f).sum + f t = (l.map f).sum + f t' := by
  induction l generalizing i with
  | nil => simp at hi
  | cons u l ih =>
    cases i with
    | zero =>
      obtain rfl : u = t := by simpa using hi
      simp only [List.set_cons_zero, List.map_cons, List.sum_cons]
      omega
    | succ i =>
      have hrest := ih (i := i) (by simpa using hi)
      simp only [List.set_cons_succ, List.map_cons, List.sum_cons]
      omega

variable {q : Op → Bool}

theorem counted_of_opOf {s : Config C R E Env σ Op Out} {i : ℕ} {op : Op}
    (hop : s.opOf i = some op) (hq : q op = true) :
    i ∈ Finset.range s.threads.length ∧ (s.threads[i]?.map (counted q)).getD 0 = 1 := by
  obtain ⟨p, hi⟩ := Config.opOf_eq_some_iff.1 hop
  refine ⟨Finset.mem_range.2 (List.getElem?_eq_some_iff.1 hi).1, ?_⟩
  rw [hi]
  exact if_pos hq

theorem exists_of_total_pos {s : Config C R E Env σ Op Out} (h : 0 < total (counted q) s) :
    ∃ i op, s.opOf i = some op ∧ q op = true := by
  rw [total_eq_sum_range] at h
  obtain ⟨i, hi, hne⟩ := Finset.exists_ne_zero_of_sum_ne_zero h.ne'
  have hlt := Finset.mem_range.1 hi
  rw [List.getElem?_eq_getElem hlt] at hne
  refine ⟨i, _, Config.opOf_eq_some_iff.2 ⟨_, List.getElem?_eq_getElem hlt⟩, ?_⟩
  by_contra hnot
  exact hne (if_neg hnot)

/-- Where at most one thread is counted, no two threads are of its kind. -/
theorem eq_of_total_le_one {s : Config C R E Env σ Op Out} (h : total (counted q) s ≤ 1)
    {i j : ℕ} {op op' : Op} (hop : s.opOf i = some op) (hq : q op = true)
    (hop' : s.opOf j = some op') (hq' : q op' = true) : i = j := by
  by_contra hij
  obtain ⟨hi, hone⟩ := counted_of_opOf hop hq
  obtain ⟨hj, hone'⟩ := counted_of_opOf hop' hq'
  have hpair := Finset.sum_le_sum_of_subset (f := fun k => (s.threads[k]?.map (counted q)).getD 0)
    (Finset.insert_subset hi (Finset.singleton_subset_iff.2 hj))
  rw [Finset.sum_pair hij, hone, hone', ← total_eq_sum_range] at hpair
  omega

theorem sum_counted_start (ops : List Op) :
    ((ops.map S.start).map (counted q)).sum = ops.countP q := by
  induction ops with
  | nil => rfl
  | cons op ops ih =>
    simp only [List.map_cons, List.sum_cons, ih, List.countP_cons, counted, start]
    omega

/-- A turn schedules what the result of its thread says. The induction follows the coroutine; before
its end the thread has scheduled nothing. -/
theorem advance_scheduled (i : ℕ) (op : Op) (e : Env) (p : Coro C R E Out) (n : ℕ)
    (s : Config C R E Env σ Op Out) (hi : s.threads[i]? = some ⟨op, p⟩)
    (h : total (counted q) s + S.scheduled q ⟨op, p⟩ ≤ total (S.scheduled q) s) :
    total (counted q) (S.advance i op e p n s) ≤
      total (S.scheduled q) (S.advance i op e p n s) := by
  induction p generalizing n s with
  | done r =>
    cases r with
    | error x => exact (Nat.le_add_right _ _).trans h
    | ok out =>
      simp only [total, advance, finish, List.map_append, List.sum_append, sum_counted_start] at h ⊢
      exact h.trans (Nat.le_add_right _ _)
  | call c k ih =>
    have hlt : i < s.threads.length := (List.getElem?_eq_some_iff.1 hi).1
    set r := (S.respond e n s.world c).1 with hr
    have hself : (S.issue s i op e n c k).threads[i]? = some ⟨op, k r⟩ :=
      List.getElem?_set_self hlt
    -- a command changes the coroutine of its thread, not its operation
    have hcounted : total (counted q) (S.issue s i op e n c k) = total (counted q) s :=
      Nat.add_right_cancel (sum_map_set (f := counted q) hi ⟨op, k r⟩)
    have hscheduled : total (S.scheduled q) (S.issue s i op e n c k) =
        total (S.scheduled q) s + S.scheduled q ⟨op, k r⟩ :=
      sum_map_set (f := S.scheduled q) hi ⟨op, k r⟩
    have hkeep : total (counted q) (S.issue s i op e n c k) + S.scheduled q ⟨op, k r⟩ ≤
        total (S.scheduled q) (S.issue s i op e n c k) := by
      rw [hcounted, hscheduled]
      exact Nat.add_le_add_right ((Nat.le_add_right _ _).trans h) _
    simp only [advance]
    split
    · exact (Nat.le_add_right _ _).trans hkeep
    · exact ih r (n + 1) _ hself hkeep

/-- Operations that no input starts are started only as results schedule them. -/
theorem run_scheduled (hentry : ∀ x, q (S.entry x) = false) (w₀ : σ) (acts : List (Act Env In)) :
    total (counted q) (S.run (Config.initial w₀) acts) ≤
      total (S.scheduled q) (S.run (Config.initial w₀) acts) := by
  induction acts using List.reverseRecOn with
  | nil => exact le_rfl
  | append_singleton as a ih =>
    rw [run_concat]
    generalize S.run (Config.initial w₀) as = s at ih ⊢
    cases a with
    | arrive x =>
      -- the new thread does not count, since no input starts a counted operation
      simp only [total, step, List.map_append, List.sum_append, List.map_cons, List.map_nil,
        List.sum_singleton, counted, start, hentry] at ih ⊢
      exact ih.trans (Nat.le_add_right _ _)
    | turn i e =>
      simp only [step]
      split
      · rename_i op c k hi
        exact S.advance_scheduled i op e _ 0 s hi ih
      · exact ih

/-! ## Every scheduled operation is started -/

section Started

variable (hrest : ∀ op out, S.body op = .done (.ok out) → (S.spawns out).countP q = 0)

include hrest

theorem sum_scheduled_start (ops : List Op) : ((ops.map S.start).map (S.scheduled q)).sum = 0 := by
  have hzero : ∀ op, S.scheduled q (S.start op) = 0 := by
    intro op
    rcases hbody : S.body op with (x | out) | ⟨c, k⟩
    · simp only [start, hbody, scheduled]
    · simp only [start, hbody, scheduled, hrest op out hbody]
    · simp only [start, hbody, scheduled]
  induction ops with
  | nil => rfl
  | cons op ops ih => rw [List.map_cons, List.map_cons, List.sum_cons, hzero, ih]

/-- A turn starts what the result of its thread schedules. -/
theorem advance_started (i : ℕ) (op : Op) (e : Env) (p : Coro C R E Out) (n : ℕ)
    (s : Config C R E Env σ Op Out) (hi : s.threads[i]? = some ⟨op, p⟩)
    (h : total (S.scheduled q) s ≤ total (counted q) s + S.scheduled q ⟨op, p⟩) :
    total (S.scheduled q) (S.advance i op e p n s) ≤
      total (counted q) (S.advance i op e p n s) := by
  induction p generalizing n s with
  | done r =>
    cases r with
    | error x => exact h
    | ok out =>
      simp only [total, advance, finish, List.map_append, List.sum_append, sum_counted_start,
        S.sum_scheduled_start hrest, Nat.add_zero] at h ⊢
      exact h
  | call c k ih =>
    set r := (S.respond e n s.world c).1 with hr
    have hlt : i < s.threads.length := (List.getElem?_eq_some_iff.1 hi).1
    have hself : (S.issue s i op e n c k).threads[i]? = some ⟨op, k r⟩ :=
      List.getElem?_set_self hlt
    have hcounted : total (counted q) (S.issue s i op e n c k) = total (counted q) s :=
      Nat.add_right_cancel (sum_map_set (f := counted q) hi ⟨op, k r⟩)
    have hscheduled : total (S.scheduled q) (S.issue s i op e n c k) =
        total (S.scheduled q) s + S.scheduled q ⟨op, k r⟩ :=
      sum_map_set (f := S.scheduled q) hi ⟨op, k r⟩
    have hkeep : total (S.scheduled q) (S.issue s i op e n c k) ≤
        total (counted q) (S.issue s i op e n c k) + S.scheduled q ⟨op, k r⟩ := by
      rw [hcounted, hscheduled]
      exact Nat.add_le_add_right h _
    simp only [advance]
    split
    · -- a thread that goes on has scheduled nothing yet
      rename_i hgoes
      have hnotDone : (k r).isDone = false := by simpa using (Bool.and_eq_true_iff.1 hgoes).2
      have hzero : S.scheduled q ⟨op, k r⟩ = 0 := by
        rcases hkr : k r with r' | ⟨c', k'⟩
        · rw [hkr] at hnotDone
          cases hnotDone
        · rfl
      rw [hzero] at hkeep
      exact hkeep
    · exact ih r (n + 1) _ hself hkeep

/-- Where a coroutine that has nothing to do schedules nothing, at least as many operations are
started as the results of the threads schedule. -/
theorem run_started (w₀ : σ) (acts : List (Act Env In)) :
    total (S.scheduled q) (S.run (Config.initial w₀) acts) ≤
      total (counted q) (S.run (Config.initial w₀) acts) := by
  induction acts using List.reverseRecOn with
  | nil => exact le_rfl
  | append_singleton as a ih =>
    rw [run_concat]
    generalize S.run (Config.initial w₀) as = s at ih ⊢
    cases a with
    | arrive x =>
      have hzero := S.sum_scheduled_start hrest [S.entry x]
      simp only [total, step, List.map_append, List.sum_append, List.map_cons, List.map_nil]
        at ih hzero ⊢
      rw [hzero]
      exact ih.trans (Nat.le_add_right _ _)
    | turn i e =>
      simp only [step]
      split
      · rename_i op c k hi
        exact S.advance_started hrest i op e _ 0 s hi (ih.trans (Nat.le_add_right _ _))
      · exact ih

end Started

/-- An operation that the result of a thread has scheduled has a thread. -/
theorem started_of_scheduled (hrest : ∀ op out, S.body op = .done (.ok out) → S.spawns out = [])
    (w₀ : σ) (acts : List (Act Env In)) {i : ℕ} {op op' : Op} {out : Out}
    (hi : (S.run (Config.initial w₀) acts).outcome i = some (op, .ok out))
    (hop' : op' ∈ S.spawns out) : ∃ j, (S.run (Config.initial w₀) acts).opOf j = some op' := by
  classical
  have hstarted := S.run_started (q := fun op => decide (op = op'))
    (fun op out h => by rw [hrest op out h]; rfl) w₀ acts
  generalize S.run (Config.initial w₀) acts = s at hi hstarted
  have hpos : 0 < S.scheduled (fun op => decide (op = op')) ⟨op, .done (.ok out)⟩ :=
    List.countP_pos_iff.2 ⟨op', hop', decide_eq_true rfl⟩
  have hle : S.scheduled (fun op => decide (op = op')) ⟨op, .done (.ok out)⟩ ≤
      total (S.scheduled fun op => decide (op = op')) s :=
    List.le_sum_of_mem (List.mem_map_of_mem (List.mem_of_getElem?
      (Config.outcome_eq_some_iff.1 hi)))
  obtain ⟨j, op'', hop'', heq⟩ := exists_of_total_pos (hpos.trans_le (hle.trans hstarted))
  exact ⟨j, of_decide_eq_true heq ▸ hop''⟩

end Service

end Coroutine
