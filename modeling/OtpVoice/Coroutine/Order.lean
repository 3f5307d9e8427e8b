import OtpVoice.Coroutine.Turns
import Mathlib.Data.Nat.Find

/-!
# The order of the commands of a run

Every command of a run belongs to one of its turns (`exists_turn`). A thread that has not given up
the event loop goes on with its next command, so that no other command comes in between
(`run_adjacent`). The operation of a thread is that of an input that has arrived, or has been
scheduled by the result of a thread that has ended (`run_spawned`).
-/

set_option autoImplicit false

namespace Coroutine

namespace Service

variable {C : Type} {R : C → Type} {E Env σ In Op Out : Type}
variable (S : Service C R E Env σ In Op Out) {w : σ} {acts : List (Act Env In)}

/-! ## Positions and turns -/

/-- A decision keeps the trace and adds to it. -/
theorem step_prefix (s : Config C R E Env σ Op Out) (a : Act Env In) :
    s.trace <+: (S.step s a).trace := by
  cases a with
  | arrive x => exact List.prefix_refl _
  | turn i e =>
    obtain ⟨evs, hevs⟩ := S.step_trace s i e
    rw [hevs]
    exact List.prefix_append _ _

theorem run_prefix (s : Config C R E Env σ Op Out) (acts : List (Act Env In)) :
    s.trace <+: (S.run s acts).trace := by
  induction acts generalizing s with
  | nil => exact List.prefix_refl _
  | cons a as ih => exact (S.step_prefix s a).trans (ih (S.step s a))

/-- A run that goes on keeps the commands that it has executed. -/
theorem getElem?_run_append {later : List (Act Env In)} {n : ℕ} {x : ℕ × Event C R E Env}
    (h : (S.run (Config.initial w) acts).trace[n]? = some x) :
    (S.run (Config.initial w) (acts ++ later)).trace[n]? = some x := by
  obtain ⟨rest, hrest⟩ := S.run_prefix (S.run (Config.initial w) acts) later
  rw [run_append, ← hrest, List.getElem?_append_left (List.getElem?_eq_some_iff.1 h).1]
  exact h

/-- A thread that comes later has no command before. -/
theorem length_le_of_later {later : List (Act Env In)} {n i : ℕ} {ev : Event C R E Env}
    (hnew : (S.run (Config.initial w) acts).threads.length ≤ i)
    (h : (S.run (Config.initial w) (acts ++ later)).trace[n]? = some (i, ev)) :
    (S.run (Config.initial w) acts).trace.length ≤ n := by
  by_contra hlt
  have hbefore := List.getElem?_eq_getElem (Nat.not_le.1 hlt)
  have howner := S.run_owners w acts _ (List.mem_of_getElem? hbefore)
  rw [Option.some.inj ((S.getElem?_run_append hbefore).symm.trans h)] at howner
  exact absurd hnew (Nat.not_le.2 howner)

/-- The trace before a decision is a first part of the trace of the run. -/
theorem confAt_prefix (k : ℕ) :
    (S.confAt w acts k).trace <+: (S.run (Config.initial w) acts).trace := by
  conv_rhs => rw [← List.take_append_drop k acts, run_append]
  exact S.run_prefix _ _

theorem getElem?_confAt {k n : ℕ} (hn : n < (S.confAt w acts k).trace.length) :
    (S.confAt w acts k).trace[n]? = (S.run (Config.initial w) acts).trace[n]? := by
  obtain ⟨rest, hrest⟩ := S.confAt_prefix  k
  rw [← hrest, List.getElem?_append_left hn]

theorem take_confAt {k n : ℕ} (hn : n ≤ (S.confAt w acts k).trace.length) :
    (S.run (Config.initial w) acts).trace.take n = (S.confAt w acts k).trace.take n := by
  obtain ⟨rest, hrest⟩ := S.confAt_prefix  k
  rw [← hrest, List.take_append_of_le_length hn]

/-- The replay of the whole trace meets the world before each decision. -/
theorem worldAfter_confAt (k : ℕ) :
    S.worldAfter w (S.run (Config.initial w) acts).trace (S.confAt w acts k).trace.length =
      (S.confAt w acts k).world := by
  rw [worldAfter, S.take_confAt le_rfl]
  exact S.worldAfter_end

theorem confAt_length {j k : ℕ} (hjk : j ≤ k) :
    (S.confAt w acts j).trace.length ≤ (S.confAt w acts k).trace.length := by
  have hprefix : (S.confAt w (acts.take k) j).trace <+: (S.confAt w acts k).trace :=
    S.confAt_prefix j
  rw [confAt, List.take_take, Nat.min_eq_left hjk] at hprefix
  exact hprefix.length_le

/-- A thread has the same operation at the end of the run. -/
theorem confAt_opOf {i k : ℕ} {op : Op} (h : (S.confAt w acts k).opOf i = some op) :
    (S.run (Config.initial w) acts).opOf i = some op := by
  rw [← List.take_append_drop k acts, run_append]
  change (S.run (Config.initial w) (acts.take k)).opOf i = some op at h
  generalize S.run (Config.initial w) (acts.take k) = s at h
  induction acts.drop k generalizing s with
  | nil => exact h
  | cons a as ih => exact ih _ (S.step_opOf h a)

/-- Every command of a run belongs to a turn of its thread. -/
theorem exists_turn {n i : ℕ} {ev : Event C R E Env}
    (hx : (S.run (Config.initial w) acts).trace[n]? = some (i, ev)) :
    ∃ k e, acts[k]? = some (.turn i e) ∧ (S.confAt w acts k).trace.length ≤ n ∧
      n < (S.confAt w acts (k + 1)).trace.length := by
  have hend : ∃ k, n < (S.confAt w acts k).trace.length := by
    refine ⟨acts.length, ?_⟩
    rw [confAt, List.take_length]
    exact (List.getElem?_eq_some_iff.1 hx).1
  -- the first decision that reaches the position
  obtain ⟨k, hk⟩ : ∃ k, Nat.find hend = k + 1 := by
    apply Nat.exists_eq_succ_of_ne_zero
    intro hzero
    have hlt := Nat.find_spec hend
    rw [hzero] at hlt
    exact absurd hlt (Nat.not_lt_zero n)
  have hbefore : (S.confAt w acts k).trace.length ≤ n := by
    apply Nat.not_lt.1
    apply Nat.find_min hend
    omega
  have hafter : n < (S.confAt w acts (k + 1)).trace.length := hk ▸ Nat.find_spec hend
  cases hact : acts[k]? with
  | none =>
    rw [S.confAt_succ_of_none hact] at hafter
    exact absurd hbefore (Nat.not_le.2 hafter)
  | some a =>
    cases a with
    | arrive x =>
      rw [S.confAt_succ hact] at hafter
      exact absurd hbefore (Nat.not_le.2 hafter)
    | turn j e =>
      have hx' := (S.getElem?_confAt hafter).trans hx
      obtain ⟨ev', hev'⟩ := S.turn_owner hact hbefore hx'
      cases hev'
      exact ⟨k, e, hact, hbefore, hafter⟩

/-- A turn that executes a command finds its thread, which has not ended. -/
theorem turn_thread {k i : ℕ} {e : Env} (hact : acts[k]? = some (.turn i e))
    (hgrows : (S.confAt w acts k).trace.length < (S.confAt w acts (k + 1)).trace.length) :
    ∃ op c f, (S.confAt w acts k).threads[i]? = some ⟨op, .call c f⟩ := by
  rw [S.confAt_succ hact] at hgrows
  cases hi : (S.confAt w acts k).threads[i]? with
  | none => simp [step, hi] at hgrows
  | some t =>
    obtain ⟨op, p⟩ := t
    cases p with
    | done r => simp [step, hi] at hgrows
    | call c f => exact ⟨op, c, f, rfl⟩

/-! ## Commands next to each other -/

/-- A turn ends with a command that gives up the event loop, or with the end of the thread. -/
theorem advance_last (i : ℕ) (op : Op) (e : Env) (p : Coro C R E Out) (n : ℕ)
    (s : Config C R E Env σ Op Out) (hi : s.threads[i]? = some ⟨op, p⟩) :
    (∃ r, (S.advance i op e p n s).outcome i = some (op, r)) ∨
      ∃ pre ev, (S.advance i op e p n s).trace = pre ++ [(i, ev)] ∧ S.yields ev.cmd = true := by
  induction p generalizing n s with
  | done r =>
    left
    refine ⟨r, Config.outcome_eq_some_iff.2 ?_⟩
    cases r with
    | ok out => exact (List.getElem?_append_left (List.getElem?_eq_some_iff.1 hi).1).trans hi
    | error x => exact hi
  | call c f ih =>
    simp only [advance]
    split
    · rename_i hyield
      exact .inr ⟨_, _, rfl, (Bool.and_eq_true_iff.1 hyield).1⟩
    · apply ih
      exact List.getElem?_set_self (List.getElem?_eq_some_iff.1 hi).1

/-- Between the turns of a run, a thread that has not ended has given up the event loop. -/
theorem run_resting (w : σ) (acts : List (Act Env In)) {i : ℕ} {ev : Event C R E Env}
    (hlast : (ownEvents i (S.run (Config.initial w) acts).trace).getLast? = some ev)
    (hyield : S.yields ev.cmd = false) :
    ∃ x, (S.run (Config.initial w) acts).outcome i = some x := by
  induction acts using List.reverseRecOn generalizing ev with
  | nil => cases hlast
  | append_singleton as a ih =>
    rw [run_concat] at hlast ⊢
    generalize S.run (Config.initial w) as = s at ih hlast ⊢
    by_cases hended : ∃ x, s.outcome i = some x
    · obtain ⟨x, hx⟩ := hended
      exact ⟨x, S.step_outcome hx a⟩
    · by_cases hown : ∃ e, a = .turn i e
      · obtain ⟨e, rfl⟩ := hown
        cases hi : s.threads[i]? with
        | none =>
          simp only [step, hi] at hlast
          exact absurd (ih hlast hyield) hended
        | some t =>
          obtain ⟨op, p⟩ := t
          cases p with
          | done r => exact absurd ⟨_, Config.outcome_eq_some_iff.2 hi⟩ hended
          | call c f =>
            simp only [step, hi] at hlast ⊢
            rcases S.advance_last i op e (.call c f) 0 s hi with ⟨r, hr⟩ | ⟨pre, ev', htr, hev'⟩
            · exact ⟨_, hr⟩
            · rw [htr, ownEvents_concat_self, List.getLast?_concat] at hlast
              cases hlast
              cases hyield.symm.trans hev'
      · rw [S.step_ownEvents fun e h => absurd ⟨e, h⟩ hown] at hlast
        exact absurd (ih hlast hyield) hended

/-- A thread that has kept the event loop after a command goes on right after it. -/
theorem run_adjacent {n i : ℕ} {ev ev' : Event C R E Env}
    (hx : (S.run (Config.initial w) acts).trace[n]? = some (i, ev))
    (hlast : (ownEvents i ((S.run (Config.initial w) acts).trace.take n)).getLast? = some ev')
    (hyield : S.yields ev'.cmd = false) :
    ∃ m, n = m + 1 ∧ (S.run (Config.initial w) acts).trace[m]? = some (i, ev') := by
  obtain ⟨k, e, hact, hstart, hend⟩ := S.exists_turn hx
  rcases Nat.eq_or_lt_of_le hstart with heq | hlt
  · -- the first command of a turn follows one that gave up the event loop
    rw [S.take_confAt (Nat.le_of_eq heq.symm), List.take_of_length_le (Nat.le_of_eq heq)] at hlast
    obtain ⟨⟨op, r⟩, hended⟩ := S.run_resting w (acts.take k) hlast hyield
    obtain ⟨op', c, f, hi⟩ := S.turn_thread hact (Nat.lt_of_le_of_lt hstart hend)
    rw [Config.outcome_eq_some_iff] at hended
    cases hended.symm.trans hi
  · -- the command before belongs to the same turn
    obtain ⟨m, rfl⟩ : ∃ m, n = m + 1 := ⟨n - 1, by omega⟩
    have hm : m < (S.confAt w acts (k + 1)).trace.length := by omega
    obtain ⟨evm, hevm⟩ := S.turn_owner hact (Nat.le_of_lt_succ hlt) (List.getElem?_eq_getElem hm)
    have hxm : (S.run (Config.initial w) acts).trace[m]? = some (i, evm) := by
      rw [← S.getElem?_confAt hm, List.getElem?_eq_getElem hm, hevm]
    rw [List.take_add_one, hxm, Option.toList_some, ownEvents_concat_self,
      List.getLast?_concat] at hlast
    cases hlast
    exact ⟨m, rfl, hxm⟩

/-! ## Where threads come from -/

/-- The threads after a turn have the operations of the threads before it, or those that the result
of its thread schedules. -/
theorem advance_spawned (i : ℕ) (op : Op) (e : Env) (p : Coro C R E Out) (n : ℕ)
    (s : Config C R E Env σ Op Out) (hi : s.threads[i]? = some ⟨op, p⟩)
    {t : Thread C R E Op Out} (ht : t ∈ (S.advance i op e p n s).threads) :
    (∃ t' ∈ s.threads, t'.op = t.op) ∨
      ∃ out, (S.advance i op e p n s).outcome i = some (op, .ok out) ∧ t.op ∈ S.spawns out := by
  induction p generalizing n s with
  | done r =>
    cases r with
    | ok out =>
      rcases List.mem_append.1 ht with ht | ht
      · exact .inl ⟨t, ht, rfl⟩
      · obtain ⟨op', hop', rfl⟩ := List.mem_map.1 ht
        refine .inr ⟨out, Config.outcome_eq_some_iff.2 ?_, hop'⟩
        exact (List.getElem?_append_left (List.getElem?_eq_some_iff.1 hi).1).trans hi
    | error x => exact .inl ⟨t, ht, rfl⟩
  | call c f ih =>
    have hissue : ∀ u ∈ (S.issue s i op e n c f).threads, ∃ t' ∈ s.threads, t'.op = u.op := by
      intro u hu
      rcases List.mem_or_eq_of_mem_set hu with hu | rfl
      · exact ⟨u, hu, rfl⟩
      · exact ⟨_, List.mem_of_getElem? hi, rfl⟩
    simp only [advance] at ht ⊢
    split at ht
    · exact .inl (hissue t ht)
    · rename_i hgoes
      rw [if_neg hgoes]
      have hself := List.getElem?_set_self (a := (⟨op, f (S.respond e n s.world c).1⟩ :
        Thread C R E Op Out)) (List.getElem?_eq_some_iff.1 hi).1
      rcases ih _ (n + 1) _ hself ht with ⟨u, hu, hop⟩ | hspawned
      · obtain ⟨t', ht', hop'⟩ := hissue u hu
        exact .inl ⟨t', ht', hop'.trans hop⟩
      · exact .inr hspawned

/-- The operation of a thread is that of an input that has arrived, or a thread that has ended has
scheduled it. -/
theorem run_spawned (w : σ) (acts : List (Act Env In)) :
    ∀ t ∈ (S.run (Config.initial w) acts).threads, (∃ x, Act.arrive x ∈ acts ∧ t.op = S.entry x) ∨
      ∃ (j : ℕ) (op : Op) (out : Out),
        (S.run (Config.initial w) acts).outcome j = some (op, .ok out) ∧ t.op ∈ S.spawns out := by
  induction acts using List.reverseRecOn with
  | nil =>
    intro t ht
    cases ht
  | append_singleton as a ih =>
    rw [run_concat]
    generalize S.run (Config.initial w) as = s at ih
    -- what holds of a thread before the decision holds after it
    have hold : ∀ t' ∈ s.threads, ∀ op', t'.op = op' →
        (∃ x, Act.arrive x ∈ as ++ [a] ∧ op' = S.entry x) ∨ ∃ (j : ℕ) (op : Op) (out : Out),
          (S.step s a).outcome j = some (op, .ok out) ∧ op' ∈ S.spawns out := by
      rintro t' ht' op' rfl
      rcases ih t' ht' with ⟨x, hx, hop⟩ | ⟨j, op, out, hended, hop⟩
      · exact .inl ⟨x, List.mem_append_left _ hx, hop⟩
      · exact .inr ⟨j, op, out, S.step_outcome hended a, hop⟩
    intro t ht
    cases a with
    | arrive x =>
      rcases List.mem_append.1 ht with ht | ht
      · exact hold t ht t.op rfl
      · rw [List.mem_singleton.1 ht]
        exact .inl ⟨x, List.mem_append_right _ (List.mem_singleton_self _), rfl⟩
    | turn i e =>
      rcases hi : s.threads[i]? with _ | ⟨op, r | ⟨c, f⟩⟩
      · simp only [step, hi] at ht hold ⊢
        exact hold t ht t.op rfl
      · simp only [step, hi] at ht hold ⊢
        exact hold t ht t.op rfl
      · simp only [step, hi] at ht hold ⊢
        rcases S.advance_spawned i op e _ 0 s hi ht with ⟨t', ht', hop⟩ | ⟨out, hended, hop⟩
        · exact hold t' ht' t.op hop
        · exact .inr ⟨i, op, out, hended, hop⟩

end Service

end Coroutine
