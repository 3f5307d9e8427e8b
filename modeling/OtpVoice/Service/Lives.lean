import OtpVoice.Coroutine.Sums
import OtpVoice.Service.Placed
import Mathlib.Data.List.Perm.Subperm

/-!
# One process after the other

The tasks of a killed process are lost, and the next one starts on the durable tables without
threads. `lives` runs the processes. The actions of a process are those of distinct tasks, and each
task has an id of its own that the process has drawn; so as long as no id is drawn twice, no call is
placed twice, whenever the processes are killed (`calls_placed_at_most_once`).
-/

set_option autoImplicit false

namespace OtpVoice

open Coroutine

/-- A start of the service: its settings, its rate limiter, and what happens until it is killed. -/
structure Start where
  originator : CallOriginator
  limiter : RateLimiter
  acts : List Turn

/-- Each process with its settings, as it is killed; the next one opens the tables of the last
commit. -/
def lives (yields : Cmd → Bool) : Store → List Start → List (CallOriginator × Conf)
  | _, [] => []
  | st, start :: rest =>
    let s := durableRun start.originator yields
      { store := st, committed := st, limiter := start.limiter } start.acts
    (start.originator, s) :: lives yields s.world.committed rest

/-- The ids that have been drawn. -/
def drawn (tr : List (ℕ × Ev)) : List String := tr.filterMap fun x => drawnId x.2

/-- The tasks that the result of a thread has scheduled. -/
def threadTasks : Thread Cmd Cmd.Resp Exc Op Answer → List CallTask
  | ⟨_, .done (.ok answer)⟩ => answer.tasks
  | _ => []

/-- The tasks of the requests that have been accepted. -/
def scheduledTasks {σ : Type} (s : Config Cmd Cmd.Resp Exc Env σ Op Answer) : List CallTask :=
  s.threads.flatMap threadTasks

theorem mem_lives {yields : Cmd → Bool} {st : Store} {starts : List Start}
    {x : CallOriginator × Conf} (hx : x ∈ lives yields st starts) :
    ∃ w acts, x.2 = (otpService x.1 yields).run (Config.initial w) acts := by
  induction starts generalizing st with
  | nil => cases hx
  | cons start rest ih =>
    rcases List.mem_cons.1 hx with rfl | hx
    · exact ⟨_, _, rfl⟩
    · exact ih hx

/-! ## Actions and tasks -/

section Runs

variable {o : CallOriginator} {yields : Cmd → Bool} {w₀ : World} {acts : List Turn} {s : Conf}

/-- The operation runs a task with this action. -/
def Op.dials (o : CallOriginator) (a : Action) : Op → Bool
  | .execute task => task.action o = a
  | .input _ => false

theorem scheduled_eq_countP (p : CallTask → Bool) (t : Thread Cmd Cmd.Resp Exc Op Answer)
    {q : Op → Bool} (hq : ∀ task, q (.execute task) = p task) :
    (otpService o yields).scheduled q t = (threadTasks t).countP p := by
  obtain ⟨op, (_ | answer) | _⟩ := t
  · rfl
  · show (answer.tasks.map Op.execute).countP q = answer.tasks.countP p
    rw [List.countP_map]
    exact List.countP_congr fun task _ => by rw [Function.comp_apply, hq]
  · rfl

theorem countP_scheduledTasks (p : CallTask → Bool) {q : Op → Bool}
    (hq : ∀ task, q (.execute task) = p task) :
    (scheduledTasks s).countP p = Service.total ((otpService o yields).scheduled q) s := by
  rw [scheduledTasks, List.countP_flatMap, Service.total]
  congr 1
  exact List.map_congr_left fun t _ => (scheduled_eq_countP p t hq).symm

variable (hs : s = (otpService o yields).run (Config.initial w₀) acts)

include hs

/-- A thread submits an action at most once, and only if it runs its task. -/
theorem placed_by_thread (a : Action) {i : ℕ} {t : Thread Cmd Cmd.Resp Exc Op Answer}
    (ht : s.threads[i]? = some t) :
    (ownEvents i s.trace).countP (fun ev => submitNote ev = some a) ≤
      Service.counted (Op.dials o a) t := by
  subst hs
  have hop : ((otpService o yields).run (Config.initial w₀) acts).opOf i = some t.op :=
    Config.opOf_eq_some_iff.2 ⟨t.prog, ht⟩
  have hnote : ∀ ev ∈ ownEvents i ((otpService o yields).run (Config.initial w₀) acts).trace,
      submitNote ev = some a → Op.dials o a t.op = true := by
    intro ev hev hsubmit
    obtain ⟨op, hop', hsub⟩ := (otpService o yields).run_uses (Op.uses_submits o) w₀ acts
      (mem_ownEvents.1 hev)
    obtain rfl := Option.some.inj (hop.symm.trans hop')
    have hcmd := cmd_of_submitNote hsubmit
    rw [hcmd] at hsub
    cases hkind : t.op with
    | input x =>
      rw [hkind] at hsub
      exact hsub.elim
    | execute task =>
      rw [hkind] at hsub
      exact decide_eq_true hsub.symm
  rw [Service.counted]
  split
  · -- at most one action of this thread
    have honce := submits_run w₀ acts hop
    have hle : t.op.submissions ≤ 1 := by
      cases t.op <;> simp [Op.submissions]
    refine le_trans ?_ (honce.trans hle)
    rw [List.length_filterMap_eq_countP]
    exact List.countP_mono_left fun ev _ h => by
      rw [of_decide_eq_true h]
      rfl
  · rename_i hother
    rw [Nat.le_zero, List.countP_eq_zero]
    intro ev hev h
    exact hother (hnote ev hev (of_decide_eq_true h))

/-- The actions that have been handed over are those of distinct scheduled tasks. -/
theorem placed_subperm :
    (placed s.trace).Subperm ((scheduledTasks s).map (·.action o)) := by
  rw [List.subperm_ext_iff]
  intro a _
  have howners : ∀ x ∈ s.trace, x.1 < s.threads.length := by
    subst hs
    exact Service.run_owners _ w₀ acts
  have htasks : ((scheduledTasks s).map (·.action o)).count a =
      Service.total ((otpService o yields).scheduled (Op.dials o a)) s := by
    rw [List.count, List.countP_map]
    exact countP_scheduledTasks _ fun task => (beq_eq_decide _ _).symm
  have hplaced : (placed s.trace).count a = ∑ i ∈ Finset.range s.threads.length,
      (ownEvents i s.trace).countP (fun ev => submitNote ev = some a) := by
    rw [← Service.countP_trace _ howners, List.count, placed, List.countP_filterMap]
    refine List.countP_congr fun x _ => ?_
    cases submitNote x.2 <;> simp
  have hscheduled : Service.total (Service.counted (Op.dials o a)) s ≤
      Service.total ((otpService o yields).scheduled (Op.dials o a)) s := by
    subst hs
    exact Service.run_scheduled _ (fun _ => rfl) w₀ acts
  rw [htasks, hplaced]
  refine le_trans ?_ hscheduled
  rw [Service.total_eq_sum_range]
  refine Finset.sum_le_sum fun i hi => ?_
  have hlt : i < s.threads.length := Finset.mem_range.1 hi
  have ht : s.threads[i]? = some s.threads[i] := List.getElem?_eq_getElem hlt
  rw [ht]
  exact placed_by_thread hs a ht

/-- The id of a scheduled task has been drawn by the thread that has scheduled it. -/
theorem scheduled_by_thread (requestId : String) {i : ℕ}
    {t : Thread Cmd Cmd.Resp Exc Op Answer} (ht : s.threads[i]? = some t) :
    (threadTasks t).countP (fun task => task.requestId = requestId) ≤
      (ownEvents i s.trace).countP (fun ev => drawnId ev = some requestId) := by
  rcases Nat.eq_zero_or_pos ((threadTasks t).countP fun task => task.requestId = requestId) with
    hzero | hpos
  · rw [hzero]
    exact Nat.zero_le _
  obtain ⟨task, htask, hid⟩ := List.countP_pos_iff.1 hpos
  obtain ⟨op, (_ | answer) | _⟩ := t
  · cases htask
  · have hended : s.outcome i = some (op, .ok answer) := Config.outcome_eq_some_iff.2 ht
    rw [hs] at hended
    obtain ⟨x, -, -, htasks, m, ev, row, repeatCount, rfl, hm, hcreated⟩ :=
      scheduled_origin hended htask
    rw [← hs] at hm
    -- the record has been inserted under an id drawn before
    obtain ⟨hinserted, -⟩ := stored_of_created hs hm hcreated
    obtain ⟨op', -, hdrawn, -⟩ := follows_at hs hm hinserted
    obtain ⟨k, ev', -, hk, hnote⟩ := Service.exists_lt_of_mem_notes hdrawn
    have hdraws : drawnId ev' = some requestId := by
      simp only [drawnId, hnote]
      exact congrArg some (of_decide_eq_true hid)
    have hlength : (threadTasks ⟨op, .done (.ok answer)⟩).length = 1 := congrArg List.length htasks
    refine (List.countP_le_length.trans hlength.le).trans (List.countP_pos_iff.2 ?_)
    exact ⟨ev', mem_ownEvents.2 (List.mem_of_getElem? hk), decide_eq_true hdraws⟩
  · cases htask

/-- The ids of the scheduled tasks have been drawn, each for one of them. -/
theorem scheduled_subperm :
    ((scheduledTasks s).map CallTask.requestId).Subperm (drawn s.trace) := by
  rw [List.subperm_ext_iff]
  intro requestId _
  have howners : ∀ x ∈ s.trace, x.1 < s.threads.length := by
    subst hs
    exact Service.run_owners _ w₀ acts
  have htasks : ((scheduledTasks s).map CallTask.requestId).count requestId = Service.total
      (fun t => (threadTasks t).countP fun task => task.requestId = requestId) s := by
    rw [List.count, List.countP_map, scheduledTasks, List.countP_flatMap, Service.total]
    congr 1
  have hdrawn : (drawn s.trace).count requestId = ∑ i ∈ Finset.range s.threads.length,
      (ownEvents i s.trace).countP (fun ev => drawnId ev = some requestId) := by
    rw [← Service.countP_trace _ howners, List.count, drawn, List.countP_filterMap]
    refine List.countP_congr fun x _ => ?_
    cases drawnId x.2 <;> simp
  rw [htasks, hdrawn, Service.total_eq_sum_range]
  refine Finset.sum_le_sum fun i hi => ?_
  have hlt : i < s.threads.length := Finset.mem_range.1 hi
  have ht : s.threads[i]? = some s.threads[i] := List.getElem?_eq_getElem hlt
  rw [ht]
  exact scheduled_by_thread hs requestId ht

end Runs

/-! ## All processes -/

theorem subperm_flatMap {α β : Type} {f g : α → List β} {l : List α}
    (h : ∀ a ∈ l, (f a).Subperm (g a)) : (l.flatMap f).Subperm (l.flatMap g) := by
  induction l with
  | nil => exact List.Subperm.refl _
  | cons a l ih =>
    simp only [List.flatMap_cons]
    exact (h a List.mem_cons_self).append (ih fun b hb => h b (List.mem_cons_of_mem a hb))

theorem subperm_map {α β : Type} {l l' : List α} (f : α → β) (h : l.Subperm l') :
    (l.map f).Subperm (l'.map f) := by
  obtain ⟨l₁, hperm, hsub⟩ := h
  exact ⟨l₁.map f, hperm.map f, hsub.map f⟩

theorem nodup_of_subperm {α : Type} {l l' : List α} (h : l.Subperm l') (hl' : l'.Nodup) :
    l.Nodup := by
  obtain ⟨l₁, hperm, hsub⟩ := h
  exact hperm.nodup_iff.1 (hl'.sublist hsub)

/-- Whenever the processes are killed, and with whatever settings the next ones start: the actions
that a process hands over are those of distinct tasks of accepted requests, whose ids it has drawn,
each for one of them. So if no id is drawn twice, no two actions have the same `ActionID`. -/
theorem calls_placed_at_most_once (yields : Cmd → Bool) (st : Store) (starts : List Start) :
    (∀ x ∈ lives yields st starts,
      (placed x.2.trace).Subperm ((scheduledTasks x.2).map (·.action x.1)) ∧
        ((scheduledTasks x.2).map CallTask.requestId).Subperm (drawn x.2.trace)) ∧
    (((lives yields st starts).flatMap (drawn ·.2.trace)).Nodup →
      (((lives yields st starts).flatMap (placed ·.2.trace)).map
        (List.lookup "ActionID")).Nodup) := by
  have hlives : ∀ x ∈ lives yields st starts,
      (placed x.2.trace).Subperm ((scheduledTasks x.2).map (·.action x.1)) ∧
        ((scheduledTasks x.2).map CallTask.requestId).Subperm (drawn x.2.trace) := by
    intro x hx
    obtain ⟨w, acts, hrun⟩ := mem_lives hx
    exact ⟨placed_subperm hrun, scheduled_subperm hrun⟩
  refine ⟨hlives, fun hdraws => ?_⟩
  have hids : ((lives yields st starts).flatMap fun x =>
      (scheduledTasks x.2).map CallTask.requestId).Nodup :=
    nodup_of_subperm (subperm_flatMap fun x hx => (hlives x hx).2) hdraws
  have hactions := subperm_map (List.lookup "ActionID")
    (subperm_flatMap fun x hx => (hlives x hx).1)
  -- the `ActionID` of a task is the prefix and its id
  have hlookup : ((lives yields st starts).flatMap fun x =>
      (scheduledTasks x.2).map (·.action x.1)).map (List.lookup "ActionID") =
      ((lives yields st starts).flatMap fun x => (scheduledTasks x.2).map CallTask.requestId).map
        fun requestId => some (actionIdPrefix ++ requestId) := by
    simp only [List.map_flatMap, List.map_map]
    rfl
  rw [hlookup] at hactions
  refine nodup_of_subperm hactions (hids.map ?_)
  intro a b hab
  exact (String.append_right_inj _).1 (Option.some.inj hab)

/-- Two processes, each killed when it has handed over the action of a call. -/
def twoStarts : List Start := [firstId, secondId].map fun uuid =>
  ⟨sampleOriginator, .init 3 10 20 500,
    [.arrive (.otpCall sampleRequest), .turn 0 (.calm 0 uuid []), .turn 1 (.calm 1 uuid [])]⟩

theorem calls_placed_at_most_once_twoStarts :
    let processes := lives Cmd.waitsForAsterisk .empty twoStarts
    (processes.flatMap (placed ·.2.trace)).length = 2 ∧
      ((processes.flatMap (placed ·.2.trace)).map (List.lookup "ActionID")).Nodup :=
  ⟨by decide +kernel,
    (calls_placed_at_most_once Cmd.waitsForAsterisk .empty twoStarts).2 (by decide +kernel)⟩

end OtpVoice
