import OtpVoice.Coroutine.Notes
import Mathlib.Data.Nat.Init

/-!
# Turns

`confAt` is the configuration before a scheduling decision. A turn appends the commands of its
thread to the trace and leaves the other threads as they are. What each command of a turn keeps
holds at every position of the turn (`turn_induction`). A coroutine that never yields runs to its
end in its first turn, as it would alone (`step_atomic`), so that such a thread has either not begun
or ended (`run_atomic`).
-/

set_option autoImplicit false

namespace Coroutine

namespace Service

variable {C : Type} {R : C → Type} {E Env σ In Op Out : Type}
variable (S : Service C R E Env σ In Op Out)

/-! ## The trace and the threads -/

theorem advance_trace (i : ℕ) (op : Op) (e : Env) (p : Coro C R E Out) (n : ℕ)
    (s : Config C R E Env σ Op Out) :
    ∃ evs : List (Event C R E Env),
      (S.advance i op e p n s).trace = s.trace ++ evs.map (Prod.mk i) := by
  induction p generalizing n s with
  | done r => exact ⟨[], by cases r <;> simp [advance, finish]⟩
  | call c k ih =>
    simp only [advance]
    split
    · exact ⟨[_], rfl⟩
    · obtain ⟨evs, hevs⟩ := ih _ (n + 1) (S.issue s i op e n c k)
      exact ⟨_ :: evs, hevs.trans (List.append_assoc _ _ _)⟩

/-- A turn appends commands of its thread to the trace. -/
theorem step_trace (s : Config C R E Env σ Op Out) (i : ℕ) (e : Env) :
    ∃ evs : List (Event C R E Env),
      (S.step s (.turn i e)).trace = s.trace ++ evs.map (Prod.mk i) := by
  simp only [step]
  split
  · exact S.advance_trace _ _ _ _ _ _
  · exact ⟨[], by simp⟩

/-- A turn leaves the other threads as they are. -/
theorem advance_other {i j : ℕ} (hji : j ≠ i) (op : Op) (e : Env) (p : Coro C R E Out) (n : ℕ)
    (s : Config C R E Env σ Op Out) (hj : j < s.threads.length) :
    (S.advance i op e p n s).threads[j]? = s.threads[j]? := by
  induction p generalizing n s with
  | done r =>
    cases r with
    | ok out => exact List.getElem?_append_left hj
    | error x => rfl
  | call c k ih =>
    have hissue : (S.issue s i op e n c k).threads[j]? = s.threads[j]? :=
      List.getElem?_set_ne (Ne.symm hji)
    simp only [advance]
    split
    · exact hissue
    · exact (ih _ (n + 1) _ (by simpa [issue] using hj)).trans hissue

/-- The threads that a turn adds have not begun. -/
theorem advance_new {i j : ℕ} (op : Op) (e : Env) (p : Coro C R E Out) (n : ℕ)
    (s : Config C R E Env σ Op Out) (hi : i < s.threads.length) (hj : s.threads.length ≤ j)
    {t : Thread C R E Op Out} (ht : (S.advance i op e p n s).threads[j]? = some t) :
    t.prog = S.body t.op := by
  induction p generalizing n s with
  | done r =>
    cases r with
    | ok out =>
      have ht : (s.threads ++ (S.spawns out).map S.start)[j]? = some t := ht
      rw [List.getElem?_append_right hj, List.getElem?_map, Option.map_eq_some_iff] at ht
      obtain ⟨op', -, rfl⟩ := ht
      rfl
    | error x => simp [advance, finish, List.getElem?_eq_none hj] at ht
  | call c k ih =>
    have hlength : (S.issue s i op e n c k).threads.length = s.threads.length := List.length_set
    simp only [advance] at ht
    split at ht
    · rw [List.getElem?_eq_none (hlength ▸ hj)] at ht
      cases ht
    · exact ih _ (n + 1) _ (hlength ▸ hi) (hlength ▸ hj) ht

/-- A thread that has ended stays as it is. -/
theorem step_outcome {s : Config C R E Env σ Op Out} {i : ℕ} {x : Op × Except E Out}
    (h : s.outcome i = some x) (a : Act Env In) : (S.step s a).outcome i = some x := by
  obtain ⟨op, r⟩ := x
  rw [Config.outcome_eq_some_iff] at h ⊢
  have hlt : i < s.threads.length := (List.getElem?_eq_some_iff.1 h).1
  cases a with
  | arrive y => exact (List.getElem?_append_left hlt).trans h
  | turn j e =>
    simp only [step]
    split
    · rename_i op' c k hj
      -- the turn is not one of the ended thread
      have hji : i ≠ j := by
        rintro rfl
        cases h.symm.trans hj
      exact (S.advance_other hji _ _ _ _ _ hlt).trans h
    · exact h

theorem run_outcome {s : Config C R E Env σ Op Out} {i : ℕ} {x : Op × Except E Out}
    (h : s.outcome i = some x) (acts : List (Act Env In)) : (S.run s acts).outcome i = some x := by
  induction acts generalizing s with
  | nil => exact h
  | cons a as ih => exact ih (S.step_outcome h a)

/-- What holds of the operations of all inputs that arrive, and of all operations that results
schedule, holds of the operation of every thread. -/
theorem run_ops {P : Op → Prop} {acts : List (Act Env In)}
    (harrive : ∀ x, Act.arrive x ∈ acts → P (S.entry x)) (hspawn : ∀ out, ∀ op ∈ S.spawns out, P op)
    (w : σ) : ∀ t ∈ (S.run (Config.initial w) acts).threads, P t.op := by
  induction acts using List.reverseRecOn with
  | nil =>
    intro t ht
    cases ht
  | append_singleton as a ih =>
    have ih' := ih fun x hx => harrive x (List.mem_append_left _ hx)
    rw [run_concat]
    generalize S.run (Config.initial w) as = s at ih' ⊢
    -- arrivals and scheduled operations extend the threads in the same way
    have hstart : ∀ (l : List (Thread C R E Op Out)) (ops : List Op), (∀ t ∈ l, P t.op) →
        (∀ op ∈ ops, P op) → ∀ t ∈ l ++ ops.map S.start, P t.op := by
      intro l ops hl hops t ht
      rcases List.mem_append.1 ht with ht | ht
      · exact hl t ht
      · obtain ⟨op, hop, rfl⟩ := List.mem_map.1 ht
        exact hops op hop
    cases a with
    | arrive x =>
      apply hstart s.threads [S.entry x] ih'
      intro op hop
      rw [List.mem_singleton.1 hop]
      exact harrive x (List.mem_append_right _ (List.mem_singleton_self _))
    | turn i e =>
      simp only [step]
      split
      · rename_i op c k hi
        have hop : P op := ih' _ (List.mem_of_getElem? hi)
        refine S.advance_induction (P := fun s => ∀ t ∈ s.threads, P t.op) i op e ?_ ?_ _ 0 s hi ih'
        · intro s n c k _ hs t ht
          rcases List.mem_or_eq_of_mem_set ht with ht | rfl
          · exact hs t ht
          · exact hop
        · rintro s (x | out) _ hs
          · exact hs
          · exact hstart s.threads _ hs (hspawn out)
      · exact ih'

/-- Every executed command has the environment of a turn of its thread. -/
theorem run_env (w : σ) (acts : List (Act Env In)) :
    ∀ x ∈ (S.run (Config.initial w) acts).trace, Act.turn x.1 x.2.env ∈ acts := by
  induction acts using List.reverseRecOn with
  | nil =>
    intro x hx
    cases hx
  | append_singleton as a ih =>
    have ih' : ∀ x ∈ (S.run (Config.initial w) as).trace, Act.turn x.1 x.2.env ∈ as ++ [a] := by
      intro x hx
      exact List.mem_append_left _ (ih x hx)
    rw [run_concat]
    generalize S.run (Config.initial w) as = s at ih'
    cases a with
    | arrive y => exact ih'
    | turn i e =>
      simp only [step]
      split
      · rename_i op c k hi
        refine S.advance_induction
          (P := fun s => ∀ x ∈ s.trace, Act.turn x.1 x.2.env ∈ as ++ [Act.turn i e]) i op e ?_ ?_ _
          0 s hi ih'
        · intro s n c k _ hs x hx
          rcases List.mem_append.1 hx with hx | hx
          · exact hs x hx
          · obtain rfl := List.mem_singleton.1 hx
            exact List.mem_append_right _ (List.mem_singleton_self _)
        · intro s r _ hs
          cases r with
          | ok out => exact hs
          | error x => exact hs
      · exact ih'

/-! ## The configurations of a run -/

/-- The configuration before the `k`-th decision of a run. -/
def confAt (w : σ) (acts : List (Act Env In)) (k : ℕ) : Config C R E Env σ Op Out :=
  S.run (Config.initial w) (acts.take k)

variable {w : σ} {acts : List (Act Env In)} {k : ℕ}

theorem confAt_succ {a : Act Env In} (h : acts[k]? = some a) :
    S.confAt w acts (k + 1) = S.step (S.confAt w acts k) a := by
  rw [confAt, List.take_add_one, h]
  exact S.run_concat _ _ _

theorem confAt_succ_of_none (h : acts[k]? = none) :
    S.confAt w acts (k + 1) = S.confAt w acts k := by
  rw [confAt, List.take_add_one, h, Option.toList_none, List.append_nil]
  rfl

/-- A thread that has ended before a decision has ended so at the end of the run. -/
theorem confAt_outcome {i : ℕ} {x : Op × Except E Out}
    (h : (S.confAt w acts k).outcome i = some x) :
    (S.run (Config.initial w) acts).outcome i = some x := by
  rw [← List.take_append_drop k acts, run_append]
  exact S.run_outcome h _

theorem worldAfter_start {i : ℕ} {e : Env} (hact : acts[k]? = some (.turn i e)) :
    S.worldAfter w (S.confAt w acts (k + 1)).trace (S.confAt w acts k).trace.length =
      (S.confAt w acts k).world := by
  obtain ⟨evs, hevs⟩ := S.step_trace (S.confAt w acts k) i e
  rw [← S.confAt_succ hact] at hevs
  rw [worldAfter, hevs, List.take_left' rfl]
  exact (S.run_world w _).symm

theorem worldAfter_end :
    S.worldAfter w (S.confAt w acts k).trace (S.confAt w acts k).trace.length =
      (S.confAt w acts k).world :=
  S.worldAfter_length w _

/-- The commands of a turn are those of its thread. -/
theorem turn_owner {i : ℕ} {e : Env} (hact : acts[k]? = some (.turn i e)) {n : ℕ}
    {x : ℕ × Event C R E Env} (hn : (S.confAt w acts k).trace.length ≤ n)
    (hx : (S.confAt w acts (k + 1)).trace[n]? = some x) : ∃ ev, x = (i, ev) := by
  obtain ⟨evs, hevs⟩ := S.step_trace (S.confAt w acts k) i e
  rw [← S.confAt_succ hact] at hevs
  rw [hevs, List.getElem?_append_right hn, List.getElem?_map, Option.map_eq_some_iff] at hx
  obtain ⟨ev, -, rfl⟩ := hx
  exact ⟨ev, rfl⟩

/-- The invariant rule of turns: what holds before a turn and is kept by each of its commands holds
at every position of the turn. -/
theorem turn_induction {P : ℕ → Prop} {i : ℕ} {e : Env} (hact : acts[k]? = some (.turn i e))
    (hstart : P (S.confAt w acts k).trace.length)
    (hstep : ∀ n ev, (S.confAt w acts k).trace.length ≤ n →
      (S.confAt w acts (k + 1)).trace[n]? = some (i, ev) → P n → P (n + 1))
    {n : ℕ} (hn : (S.confAt w acts k).trace.length ≤ n)
    (hend : n ≤ (S.confAt w acts (k + 1)).trace.length) : P n := by
  induction n, hn using Nat.le_induction with
  | base => exact hstart
  | succ n hn ih =>
    have hx := List.getElem?_eq_getElem (Nat.lt_of_succ_le hend)
    obtain ⟨ev, hev⟩ := S.turn_owner hact hn hx
    rw [hev] at hx
    exact hstep n ev hn hx (ih (Nat.le_of_succ_le hend))

theorem turn_length {i : ℕ} {e : Env} (hact : acts[k]? = some (.turn i e)) :
    (S.confAt w acts k).trace.length ≤ (S.confAt w acts (k + 1)).trace.length := by
  obtain ⟨evs, hevs⟩ := S.step_trace (S.confAt w acts k) i e
  rw [S.confAt_succ hact, hevs, List.length_append]
  exact Nat.le_add_right _ _

/-! ## One turn of a coroutine -/

/-- A coroutine until it gives up the event loop or ends: what is left of it, and the state. -/
def suspend (yields : C → Bool) (respond : ℕ → σ → (c : C) → Except E (R c) × σ) :
    Coro C R E Out → ℕ → σ → Coro C R E Out × σ
  | .done r, _, s => (.done r, s)
  | .call c k, n, s =>
    let rest := k (respond n s c).1
    if yields c && !rest.isDone then (rest, (respond n s c).2)
    else suspend yields respond rest (n + 1) (respond n s c).2

/-- A turn runs the coroutine of its thread until it gives up the event loop. -/
theorem advance_suspend {i : ℕ} {op : Op} {e : Env} (p : Coro C R E Out) (n : ℕ)
    (s : Config C R E Env σ Op Out) (hi : s.threads[i]? = some ⟨op, p⟩) :
    (S.advance i op e p n s).world = (suspend S.yields (S.respond e) p n s.world).2 ∧
      (S.advance i op e p n s).threads[i]? =
        some ⟨op, (suspend S.yields (S.respond e) p n s.world).1⟩ := by
  induction p generalizing n s with
  | done r =>
    cases r with
    | ok out =>
      exact ⟨rfl, (List.getElem?_append_left (List.getElem?_eq_some_iff.1 hi).1).trans hi⟩
    | error x => exact ⟨rfl, hi⟩
  -- `advance` and `suspend` test the same condition
  | call c k ih =>
    have hself : (S.issue s i op e n c k).threads[i]? = some ⟨op, k (S.respond e n s.world c).1⟩ :=
      List.getElem?_set_self (List.getElem?_eq_some_iff.1 hi).1
    simp only [advance, suspend]
    split
    · exact ⟨rfl, hself⟩
    · exact ih _ (n + 1) _ hself

/-- A turn of a thread that exists runs its coroutine until it gives up the event loop. -/
theorem step_suspend {s : Config C R E Env σ Op Out} {i : ℕ} {t : Thread C R E Op Out}
    (hi : s.threads[i]? = some t) (e : Env) :
    (S.step s (.turn i e)).world = (suspend S.yields (S.respond e) t.prog 0 s.world).2 ∧
      (S.step s (.turn i e)).threads[i]? =
        some ⟨t.op, (suspend S.yields (S.respond e) t.prog 0 s.world).1⟩ := by
  obtain ⟨op, p⟩ := t
  cases p with
  | done r =>
    simp only [step, hi, suspend]
    exact ⟨trivial, trivial⟩
  | call c k =>
    simp only [step, hi]
    exact S.advance_suspend (Coro.call c k) 0 s hi

/-- A thread keeps its operation. -/
theorem step_opOf {s : Config C R E Env σ Op Out} {i : ℕ} {op : Op} (h : s.opOf i = some op)
    (a : Act Env In) : (S.step s a).opOf i = some op := by
  obtain ⟨p, hi⟩ := Config.opOf_eq_some_iff.1 h
  have hlt : i < s.threads.length := (List.getElem?_eq_some_iff.1 hi).1
  cases a with
  | arrive x => exact Config.opOf_eq_some_iff.2 ⟨p, (List.getElem?_append_left hlt).trans hi⟩
  | turn j e =>
    by_cases hji : i = j
    · subst hji
      exact Config.opOf_eq_some_iff.2 ⟨_, (S.step_suspend hi e).2⟩
    · refine Config.opOf_eq_some_iff.2 ⟨p, ?_⟩
      simp only [step]
      split
      · exact (S.advance_other hji _ _ _ _ _ hlt).trans hi
      · exact hi

/-- A decision about another thread, or about one that has ended, adds nothing to the commands of a
thread. -/
theorem step_ownEvents {s : Config C R E Env σ Op Out} {i : ℕ} {a : Act Env In}
    (h : ∀ e, a = .turn i e → ∃ x, s.outcome i = some x) :
    ownEvents i (S.step s a).trace = ownEvents i s.trace := by
  cases a with
  | arrive x => rfl
  | turn j e =>
    by_cases hji : j = i
    · subst hji
      obtain ⟨⟨op, r⟩, hx⟩ := h e rfl
      simp only [step, Config.outcome_eq_some_iff.1 hx]
    · obtain ⟨evs, hevs⟩ := S.step_trace s j e
      rw [hevs, ownEvents_append]
      simp [ownEvents, hji]

/-! ## Coroutines that never yield -/

/-- The coroutine never gives up the event loop. -/
def Atomic (p : Coro C R E Out) : Prop := Coro.Uses (fun c => S.yields c = false) p

/-- A coroutine that never yields runs to its end. -/
theorem suspend_complete {yields : C → Bool} {respond : ℕ → σ → (c : C) → Except E (R c) × σ}
    {p : Coro C R E Out} (hp : Coro.Uses (fun c => yields c = false) p) (n : ℕ) (s : σ) :
    suspend yields respond p n s =
      (.done (p.complete respond n s).1, (p.complete respond n s).2.2) := by
  induction p generalizing n s with
  | done r => rfl
  | call c k ih =>
    simp only [suspend, hp.1, Bool.false_and, Bool.false_eq_true, if_false]
    exact ih _ (hp.2 _) (n + 1) _

/-- A coroutine that never yields runs to its end in its first turn, as it would alone. -/
theorem step_atomic {s : Config C R E Env σ Op Out} {i : ℕ} {op : Op} (hop : S.Atomic (S.body op))
    (hi : s.threads[i]? = some ⟨op, S.body op⟩) (e : Env) :
    (S.step s (.turn i e)).world = ((S.body op).complete (S.respond e) 0 s.world).2.2 ∧
      (S.step s (.turn i e)).outcome i =
        some (op, ((S.body op).complete (S.respond e) 0 s.world).1) := by
  have hstep := S.step_suspend hi e
  rw [suspend_complete hop] at hstep
  exact ⟨hstep.1, Config.outcome_eq_some_iff.2 hstep.2⟩

/-- In every run, a coroutine that never yields has not begun or has ended. -/
theorem run_atomic {q : Op → Prop} (hq : ∀ op, q op → S.Atomic (S.body op)) (w : σ)
    (acts : List (Act Env In)) {i : ℕ} {t : Thread C R E Op Out}
    (hi : (S.run (Config.initial w) acts).threads[i]? = some t) (ht : q t.op) :
    t.prog = S.body t.op ∨ ∃ r, t.prog = .done r := by
  induction acts using List.reverseRecOn generalizing i t with
  | nil => simp [run, Config.initial] at hi
  | append_singleton as a ih =>
    rw [run_concat] at hi
    generalize S.run (Config.initial w) as = s at ih hi
    cases a with
    | arrive x =>
      simp only [step] at hi
      by_cases hlt : i < s.threads.length
      · rw [List.getElem?_append_left hlt] at hi
        exact ih hi ht
      · -- the new thread
        rw [List.getElem?_append_right (Nat.not_lt.1 hlt)] at hi
        rw [List.mem_singleton.1 (List.mem_of_getElem? hi)]
        exact .inl rfl
    | turn j e =>
      cases hj : s.threads[j]? with
      | none =>
        have hstep : S.step s (.turn j e) = s := by simp only [step, hj]
        rw [hstep] at hi
        exact ih hi ht
      | some u =>
        by_cases hij : i = j
        · subst hij
          have hself := (S.step_suspend hj e).2
          cases hself.symm.trans hi
          rcases ih hj ht with hfresh | ⟨r, hdone⟩
          · -- the thread had not begun, and never yields
            rw [hfresh, suspend_complete (hq _ ht)]
            exact .inr ⟨_, rfl⟩
          · refine .inr ⟨r, ?_⟩
            rw [hdone]
            rfl
        · obtain ⟨op, p⟩ := u
          cases p with
          | done r =>
            have hstep : S.step s (.turn j e) = s := by simp only [step, hj]
            rw [hstep] at hi
            exact ih hi ht
          | call c k =>
            simp only [step, hj] at hi
            have hjlt : j < s.threads.length := (List.getElem?_eq_some_iff.1 hj).1
            by_cases hlt : i < s.threads.length
            · rw [S.advance_other hij _ _ _ _ _ hlt] at hi
              exact ih hi ht
            · exact .inl (S.advance_new _ _ _ _ _ hjlt (Nat.not_lt.1 hlt) hi)

end Service

end Coroutine
