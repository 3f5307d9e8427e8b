import OtpVoice.Ami.Submission
import OtpVoice.Api.Admission
import OtpVoice.Core.Quota
import Mathlib.Algebra.Order.BigOperators.Group.Finset
import Mathlib.Data.Finset.Order

/-!
# Quotas over runs of the service

The history of the passed checks is read off the trace of a run, and the limiter is `Audited` with
respect to it at every point (`audited_run`). Each created record has passed both checks in its own
request, so the windows of created records are bounded by the limits (`created_within_quota`).
-/

set_option autoImplicit false

namespace OtpVoice

open Coroutine SlidingWindow

/-- The time of a passed hourly limit. -/
def RequestNote.hourlyTime? : RequestNote → Option Time
  | .hourly t => some t
  | _ => none

/-- The time of a passed limit of a number. -/
def RequestNote.numberTime? (mobile : String) : RequestNote → Option Time
  | .number m t => if m = mobile then some t else none
  | _ => none

/-- The notes of all threads, in the order of their execution. -/
def traceNotes (tr : List (ℕ × Ev)) : List RequestNote := tr.filterMap fun x => requestNote x.2

/-- The times of the passed hourly checks. -/
def hourlyTimes (notes : List RequestNote) : List Time := notes.filterMap RequestNote.hourlyTime?

/-- The times of the passed checks for a number. -/
def numberTimes (mobile : String) (notes : List RequestNote) : List Time :=
  notes.filterMap (RequestNote.numberTime? mobile)

/-! ## The limiter along a run -/

/-- The settings of a limiter. -/
def RateLimiter.settings (rl : RateLimiter) : ℕ × ℤ × ℕ × ℕ :=
  (rl.perNumberCalls, rl.perNumberWindow, rl.maxConcurrent, rl.hourlyLimit)

theorem RateLimiter.settings_checkNumberLimit (rl : RateLimiter) (mobile : String) (now : Time) :
    (rl.checkNumberLimit mobile now).2.settings = rl.settings := by
  simp only [checkNumberLimit]
  split
  · split <;> rfl
  · rfl

theorem RateLimiter.settings_checkHourlyLimit (rl : RateLimiter) (now : Time) :
    (rl.checkHourlyLimit now).2.settings = rl.settings := by
  simp only [checkHourlyLimit]
  split <;> rfl

theorem RateLimiter.settings_releaseSlot (rl : RateLimiter) :
    rl.releaseSlot.settings = rl.settings := by
  simp only [releaseSlot]
  split <;> rfl

/-- No command changes the settings. -/
theorem settings_respond (e : Env) (n : ℕ) (w : World) (c : Cmd) :
    (World.respond e n w c).2.limiter.settings = w.limiter.settings := by
  rw [World.respond_limiter]
  cases c with
  | checkHourlyLimit => exact w.limiter.settings_checkHourlyLimit _
  | checkNumberLimit mobile => exact w.limiter.settings_checkNumberLimit mobile _
  | releaseSlot => exact w.limiter.settings_releaseSlot
  | _ => rfl

theorem hourlyTimes_append (notes notes' : List RequestNote) :
    hourlyTimes (notes ++ notes') = hourlyTimes notes ++ hourlyTimes notes' := List.filterMap_append

theorem numberTimes_append (mobile : String) (notes notes' : List RequestNote) :
    numberTimes mobile (notes ++ notes') = numberTimes mobile notes ++ numberTimes mobile notes' :=
  List.filterMap_append

theorem times_hourly (t : Time) :
    hourlyTimes [.hourly t] = [t] ∧ ∀ mobile, numberTimes mobile [.hourly t] = [] :=
  ⟨rfl, fun _ => rfl⟩

theorem times_number (mobile : String) (t : Time) :
    hourlyTimes [.number mobile t] = [] ∧
      ∀ m, numberTimes m [.number mobile t] = if m = mobile then [t] else [] := by
  refine ⟨rfl, fun m => ?_⟩
  by_cases hm : m = mobile
  · simp [numberTimes, RequestNote.numberTime?, hm]
  · simp [numberTimes, RequestNote.numberTime?, hm, Ne.symm hm]

/-- A command other than the two checks notes no passed check. -/
theorem times_of_other {c : Cmd} (hhourly : c.kind ≠ .hourly) (hnumber : c.kind ≠ .number) (e : Env)
    (n : ℕ) (r : Except Exc c.Resp) :
    hourlyTimes (RequestNote.of e n c r).toList = [] ∧
      ∀ mobile, numberTimes mobile (RequestNote.of e n c r).toList = [] := by
  unfold RequestNote.of
  split <;> first | exact ⟨rfl, fun _ => rfl⟩ | exact absurd rfl hhourly | exact absurd rfl hnumber

theorem note_checkHourlyLimit (e : Env) (n : ℕ) (w : World) :
    RequestNote.of e n .checkHourlyLimit (World.respond e n w .checkHourlyLimit).1 =
      if (w.limiter.checkHourlyLimit (e.now n)).1.1 then some (.hourly (e.now n)) else none := by
  rw [World.respond_of_not_mayRaise rfl]
  simp only [World.answer]
  rcases (w.limiter.checkHourlyLimit (e.now n)).1 with ⟨_ | _, msg⟩ <;> rfl

theorem note_checkNumberLimit (e : Env) (n : ℕ) (w : World) (mobile : String) :
    RequestNote.of e n (.checkNumberLimit mobile)
        (World.respond e n w (.checkNumberLimit mobile)).1 =
      if RateLimiter.passes (w.limiter.checkNumberLimit mobile (e.now n)).1 then
        some (.number mobile (e.now n)) else none := by
  rw [World.respond_of_not_mayRaise rfl]
  simp only [World.answer]
  rcases w.limiter.checkNumberLimit mobile (e.now n) with ⟨text | ⟨_ | _, msg⟩, rl⟩ <;> rfl

/-- One command keeps the limiter audited, with the note that is made of it. -/
theorem audited_respond {e : Env} {n : ℕ} {w : World} {c : Cmd} {notes : List RequestNote}
    (h : w.limiter.Audited (e.now n) (hourlyTimes notes) fun mobile => numberTimes mobile notes) :
    (World.respond e n w c).2.limiter.Audited (e.now n)
      (hourlyTimes (notes ++ (RequestNote.of e n c (World.respond e n w c).1).toList))
      fun mobile => numberTimes mobile
        (notes ++ (RequestNote.of e n c (World.respond e n w c).1).toList) := by
  simp only [World.respond_limiter, hourlyTimes_append, numberTimes_append]
  -- the commands other than the two checks add nothing to the histories
  by_cases hchecks : c.kind ≠ .hourly ∧ c.kind ≠ .number
  · obtain ⟨hhourly, hnumber⟩ :=
      times_of_other hchecks.1 hchecks.2 e n (World.respond e n w c).1
    simp only [hhourly, hnumber, List.append_nil]
    cases c with
    | cleanupLimits => exact h.cleanup
    | acquireSlot => exact ⟨h.hourly, h.hourly_bounded, h.number, h.number_bounded⟩
    | releaseSlot =>
      simp only [Cmd.onLimiter, RateLimiter.releaseSlot]
      split
      · exact ⟨h.hourly, h.hourly_bounded, h.number, h.number_bounded⟩
      · exact h
    | checkHourlyLimit => exact absurd rfl hchecks.1
    | checkNumberLimit mobile => exact absurd rfl hchecks.2
    | _ => exact h
  · cases c with
    | checkHourlyLimit =>
      have hcheck := h.checkHourlyLimit
      rw [note_checkHourlyLimit]
      simp only [Cmd.onLimiter]
      split at hcheck
      · rename_i hpass
        simpa [hpass, times_hourly] using hcheck
      · rename_i hfail
        simpa [hfail, hourlyTimes, numberTimes] using hcheck
    | checkNumberLimit mobile =>
      have hcheck := h.checkNumberLimit mobile
      rw [note_checkNumberLimit]
      simp only [Cmd.onLimiter]
      split at hcheck
      · rename_i hpass
        simp only [hpass, if_true, Option.toList_some, times_number, List.append_nil]
        -- the history of one number grows, those of the others stay
        convert hcheck using 2 with m
        by_cases hm : m = mobile
        · subst hm
          simp
        · simp [hm]
      · rename_i hfail
        simpa [hfail, hourlyTimes, numberTimes] using hcheck
    | execute s => cases s <;> exact absurd ⟨by rintro ⟨⟩, by rintro ⟨⟩⟩ hchecks
    | _ => exact absurd ⟨by rintro ⟨⟩, by rintro ⟨⟩⟩ hchecks

/-- The clock reading of an executed command. -/
def clockOf (x : ℕ × Ev) : Time := x.2.env.now x.2.index

/-- The limiter is audited after every first part of a run whose clock never goes back. -/
theorem audited_run {o : CallOriginator} {yields : Cmd → Bool} {w₀ : World} {acts : List Turn}
    (hw₀ : ∀ now, w₀.limiter.Audited now [] fun _ => [])
    (hclock : (((otpService o yields).run (Config.initial w₀) acts).trace.map clockOf).Pairwise
      (· ≤ ·)) {pre suf : List (ℕ × Ev)}
    (h : ((otpService o yields).run (Config.initial w₀) acts).trace = pre ++ suf) (now : Time)
    (hnow : ∀ x ∈ pre, clockOf x ≤ now) :
    ((otpService o yields).replay w₀ pre).limiter.Audited now (hourlyTimes (traceNotes pre))
      fun mobile => numberTimes mobile (traceNotes pre) := by
  refine (otpService o yields).run_prefix_induction (P := fun pre w =>
    ∀ now, (∀ x ∈ pre, clockOf x ≤ now) → w.limiter.Audited now (hourlyTimes (traceNotes pre))
      fun mobile => numberTimes mobile (traceNotes pre)) (fun now _ => hw₀ now) ?_ h now hnow
  -- each check reads a clock that is not before any earlier reading
  intro pre i ev suf hsplit hres ih now hnow
  rw [hsplit, List.map_append, List.map_cons, List.pairwise_append] at hclock
  have hbefore : ∀ x ∈ pre, clockOf x ≤ ev.env.now ev.index := fun x hx =>
    hclock.2.2 _ (List.mem_map_of_mem hx) _ List.mem_cons_self
  have hnotes : traceNotes (pre ++ [(i, ev)]) =
      traceNotes pre ++ (RequestNote.of ev.env ev.index ev.cmd ev.res).toList := by
    simp only [traceNotes, List.filterMap_append]
    congr 1
  rw [hnotes, hres]
  exact (audited_respond (ih _ hbefore)).later (hnow (i, ev) (by simp))

theorem settings_replay (o : CallOriginator) (yields : Cmd → Bool) (w₀ : World)
    (tr : List (ℕ × Ev)) :
    ((otpService o yields).replay w₀ tr).limiter.settings = w₀.limiter.settings := by
  induction tr using List.reverseRecOn with
  | nil => rfl
  | append_singleton tr x ih =>
    rw [Service.replay_concat]
    exact (settings_respond _ _ _ _).trans ih

/-! ## Created records -/

/-- A created record and the times at which its request passed the two checks. -/
structure Creation where
  hourlyAt : Time
  numberAt : Time
  mobile : String
  row : CallRecord

/-- The created records in the notes of one request, each right after its two checks. -/
def creations : List RequestNote → List Creation
  | .hourly t :: .number mobile t' :: .created row :: rest => ⟨t, t', mobile, row⟩ :: creations rest
  | _ :: rest => creations rest
  | [] => []

/-- The created records of a thread. -/
def createdBy (tr : List (ℕ × Ev)) (i : ℕ) : List Creation :=
  creations ((ownEvents i tr).filterMap requestNote)

/-- The notes of a request that has created `row`, or none. -/
def CreatesOnce (l : List RequestNote) : Prop :=
  (creations l = [] ∧ ∀ row, .created row ∉ l) ∨ ∃ t t' row,
    creations l = [⟨t, t', row.mobile, row⟩] ∧ (∀ row', .created row' ∈ l → row' = row) ∧
      hourlyTimes l = [t] ∧ numberTimes row.mobile l = [t']

theorem createsOnce_checked {mobile : String} {l : List RequestNote} (h : Checked mobile l) :
    CreatesOnce l := by
  cases h with
  | nothing => exact .inl ⟨rfl, by simp⟩
  | hourly t => exact .inl ⟨rfl, by simp⟩
  | number t t' => exact .inl ⟨rfl, by simp⟩
  | created t t' row hrow =>
    subst hrow
    exact .inr ⟨t, t', row, rfl, by simp, rfl,
      by simp [numberTimes, List.filterMap_cons, RequestNote.numberTime?]⟩

/-- Reads before and after the other notes do not matter. -/
theorem createsOnce_read {l : List RequestNote} (record : Option CallRecord) (h : CreatesOnce l) :
    CreatesOnce (.read record :: l) := by
  rcases h with ⟨hnil, hno⟩ | ⟨t, t', row, hone, hrow, hhourly, hnumber⟩
  · exact .inl ⟨hnil, by simpa using hno⟩
  · exact .inr ⟨t, t', row, hone, by simpa using hrow, hhourly, hnumber⟩

theorem createsOnce_reads {l : List RequestNote} (h : ∀ x ∈ l, ∃ record, x = .read record) :
    CreatesOnce l := by
  induction l with
  | nil => exact .inl ⟨rfl, by simp⟩
  | cons x l ih =>
    obtain ⟨record, rfl⟩ := h x List.mem_cons_self
    exact createsOnce_read record (ih fun y hy => h y (List.mem_cons_of_mem _ hy))

/-- A request creates at most one record, after it has passed both checks for its number once. -/
theorem createsOnce_notes {op : Op} {l : List RequestNote} (h : op.Notes l) : CreatesOnce l := by
  cases op with
  | execute task => exact createsOnce_reads h
  | input x =>
    cases x with
    | otpCall request => exact createsOnce_checked h
    | retry requestId body =>
      cases h with
      | start => exact .inl ⟨rfl, by simp⟩
      | missing => exact .inl ⟨rfl, by simp⟩
      | checked parent h => exact createsOnce_read _ (createsOnce_checked h)
      -- the two reads of a retry stand around the checks
      | counted parent t t' row record hrow =>
        refine createsOnce_read _ (.inr ⟨t, t', row, ?_, by simp, rfl, ?_⟩)
        · rw [hrow]
          rfl
        · simp [numberTimes, List.filterMap_cons, RequestNote.numberTime?, hrow]
    | _ => exact createsOnce_reads h

/-- The notes of every thread of a run. -/
theorem createsOnce_run (o : CallOriginator) (yields : Cmd → Bool) (w₀ : World) (acts : List Turn)
    (i : ℕ) : CreatesOnce ((ownEvents i
      ((otpService o yields).run (Config.initial w₀) acts).trace).filterMap requestNote) := by
  cases hop : ((otpService o yields).run (Config.initial w₀) acts).opOf i with
  | some op => exact createsOnce_notes (Service.run_noting_prefix admission_notes w₀ acts
      Op.notes_nil hop (List.append_nil _).symm)
  | none =>
    -- no such thread
    have hnil : ownEvents i ((otpService o yields).run (Config.initial w₀) acts).trace = [] := by
      apply ownEvents_eq_nil
      intro x hx
      apply lt_of_lt_of_le ((otpService o yields).run_owners w₀ acts x hx)
      simpa [Config.opOf] using hop
    rw [hnil]
    exact .inl ⟨rfl, by simp⟩

/-! ## The quotas of created records -/

/-- An event that `f` gives a time in the window `(t - width, t]`. -/
def inWindow (f : RequestNote → Option Time) (width t : Time) (ev : Ev) : Bool :=
  (((requestNote ev).bind f).map fun τ => decide (t - width < τ ∧ τ ≤ t)).getD false

theorem countP_inWindow (f : RequestNote → Option Time) (width t : Time) (l : List Ev) :
    l.countP (inWindow f width t) = count width t ((l.filterMap requestNote).filterMap f) := by
  rw [count, List.filterMap_filterMap, List.countP_filterMap]
  rfl

theorem countP_trace_inWindow (f : RequestNote → Option Time) (width t : Time)
    (tr : List (ℕ × Ev)) :
    tr.countP (fun x => inWindow f width t x.2) = count width t ((traceNotes tr).filterMap f) := by
  rw [traceNotes, count, List.filterMap_filterMap, List.countP_filterMap]
  rfl

/-- The records created in a run passed the check at times that `f` picks from the notes; if each
request contributes at most as many records as times, no window holds more records than the history
of passed checks. -/
theorem sum_createdBy_le {n : ℕ} {tr : List (ℕ × Ev)} (hown : ∀ x ∈ tr, x.1 < n)
    (f : RequestNote → Option Time) (width t : Time) (q : Creation → Bool)
    (hone : ∀ i, (createdBy tr i).countP q ≤
      count width t (((ownEvents i tr).filterMap requestNote).filterMap f)) :
    ∑ i ∈ Finset.range n, (createdBy tr i).countP q ≤
      count width t ((traceNotes tr).filterMap f) := by
  rw [← countP_trace_inWindow, Service.countP_trace (inWindow f width t) hown]
  apply Finset.sum_le_sum
  intro i _
  rw [countP_inWindow]
  exact hone i

/-! ## Actions of created records -/

/-- The operation is a background task. -/
def Op.isExecute : Op → Bool
  | .execute _ => true
  | .input _ => false

/-- An accepted request has created one record and schedules one task. -/
theorem length_tasks_of_accepts {op : Op} {answer : Answer} {l : List RequestNote}
    (h : op.Accepts (.ok answer) l) : answer.tasks.length ≤ (creations l).length := by
  obtain hnone | ⟨x, task, t, mobile, t', row, -, -, htask, hl⟩ := h.tasks
  · rw [hnone]
    exact Nat.zero_le _
  · rw [htask]
    obtain rfl | ⟨parent, record, rfl⟩ := hl
    · exact Nat.le_refl 1
    · exact Nat.le_refl 1

/-- A run submits at most one action for each created record. -/
theorem submitted_le_created (o : CallOriginator) (yields : Cmd → Bool) (w₀ : World)
    (acts : List Turn) :
    let s := (otpService o yields).run (Config.initial w₀) acts
    s.trace.countP (fun x => (submitNote x.2).isSome) ≤
      ∑ i ∈ Finset.range s.threads.length, (createdBy s.trace i).length := by
  intro s
  have hown : ∀ x ∈ s.trace, x.1 < s.threads.length :=
    (otpService o yields).run_owners w₀ acts
  have hsubmits : s.trace.countP (fun x => (submitNote x.2).isSome) ≤
      Service.total (Service.counted Op.isExecute) s := by
    rw [Service.countP_trace (fun ev => (submitNote ev).isSome) hown, Service.total_eq_sum_range]
    apply Finset.sum_le_sum
    intro i hi
    obtain ⟨⟨op, p⟩, ht⟩ : ∃ t, s.threads[i]? = some t :=
      ⟨_, List.getElem?_eq_getElem (Finset.mem_range.1 hi)⟩
    have honce := submits_run w₀ acts (Config.opOf_eq_some_iff.2 ⟨p, ht⟩)
    rw [List.length_filterMap_eq_countP] at honce
    rw [ht, Option.map_some, Option.getD_some]
    refine honce.trans ?_
    cases op <;> exact le_rfl
  have hscheduled : Service.total (Service.counted Op.isExecute) s ≤
      Service.total ((otpService o yields).scheduled Op.isExecute) s :=
    (otpService o yields).run_scheduled (fun _ => rfl) w₀ acts
  refine (hsubmits.trans hscheduled).trans ?_
  rw [Service.total_eq_sum_range]
  apply Finset.sum_le_sum
  intro i hi
  obtain ⟨⟨op, p⟩, ht⟩ : ∃ t, s.threads[i]? = some t :=
    ⟨_, List.getElem?_eq_getElem (Finset.mem_range.1 hi)⟩
  rw [ht, Option.map_some, Option.getD_some]
  cases p with
  | call c k => exact Nat.zero_le _
  | done r =>
    cases r with
    | error x => exact Nat.zero_le _
    | ok answer =>
      have haccepts := Service.run_noting_ended admission_notes w₀ acts
        (Config.outcome_eq_some_iff.2 ht)
      refine le_trans ?_ (length_tasks_of_accepts haccepts)
      exact List.countP_le_length.trans_eq (List.length_map _)

/-- Quotas of created records: in every interleaving of the service with a clock that never goes
back, every created record has passed both checks in its own request, at most `perNumberCalls` of
the records of a number passed the check for it in any window of the configured width, at most
`hourlyLimit` of all records passed the hourly check in any hour, and there are no more actions than
records. -/
theorem created_within_quota (o : CallOriginator) (perNumberCalls : ℕ) (minutes : ℤ)
    (maxConcurrent hourlyLimit : ℕ) (store committed : Store) (acts : List Turn)
    (hclock : (((interleaved o).run (Config.initial
      ⟨store, committed, .init perNumberCalls minutes maxConcurrent hourlyLimit, [], []⟩)
        acts).trace.map clockOf).Pairwise (· ≤ ·)) :
    let s := (interleaved o).run (Config.initial
      ⟨store, committed, .init perNumberCalls minutes maxConcurrent hourlyLimit, [], []⟩) acts
    let window : Time := (minutes * 60 : ℤ)
    (∀ i row, .created row ∈ (ownEvents i s.trace).filterMap requestNote →
      ∃ t t', createdBy s.trace i = [⟨t, t', row.mobile, row⟩]) ∧
    (∀ mobile t, ∑ i ∈ Finset.range s.threads.length, (createdBy s.trace i).countP
      (fun c => c.row.mobile = mobile ∧ t - window < c.numberAt ∧ c.numberAt ≤ t) ≤
        perNumberCalls) ∧
    (∀ t, ∑ i ∈ Finset.range s.threads.length, (createdBy s.trace i).countP
      (fun c => t - 3600 < c.hourlyAt ∧ c.hourlyAt ≤ t) ≤ hourlyLimit) ∧
    s.trace.countP (fun x => (submitNote x.2).isSome) ≤
      ∑ i ∈ Finset.range s.threads.length, (createdBy s.trace i).length := by
  intro s window
  set w₀ : World :=
    ⟨store, committed, .init perNumberCalls minutes maxConcurrent hourlyLimit, [], []⟩ with hw₀
  have hown : ∀ x ∈ s.trace, x.1 < s.threads.length :=
    (interleaved o).run_owners w₀ acts
  have honce : ∀ i, CreatesOnce ((ownEvents i s.trace).filterMap requestNote) :=
    createsOnce_run o Cmd.awaited w₀ acts
  obtain ⟨now, hnow⟩ : ∃ now, ∀ x ∈ s.trace, clockOf x ≤ now := by
    obtain ⟨now, hnow⟩ := (s.trace.map clockOf).toFinset.exists_le
    exact ⟨now, fun x hx => hnow _ (List.mem_toFinset.2 (List.mem_map_of_mem hx))⟩
  have haudited : ((otpService o Cmd.awaited).replay w₀ s.trace).limiter.Audited now
      (hourlyTimes (traceNotes s.trace)) fun mobile => numberTimes mobile (traceNotes s.trace) :=
    audited_run (fun now => RateLimiter.audited_init _ _ _ _ now) hclock
      (List.append_nil _).symm now hnow
  have hsettings := settings_replay o Cmd.awaited w₀ s.trace
  simp only [RateLimiter.settings, Prod.mk.injEq] at hsettings
  obtain ⟨hcalls, hwindow, -, hlimit⟩ := hsettings
  refine ⟨fun i row hrow => ?_, fun mobile t => ?_, fun t => ?_,
    submitted_le_created o Cmd.awaited w₀ acts⟩
  · rcases honce i with ⟨-, hno⟩ | ⟨t, t', row', hone, hrow', -, -⟩
    · exact absurd hrow (hno row)
    · obtain rfl := hrow' row hrow
      exact ⟨t, t', hone⟩
  · have hbound := haudited.number_bounded mobile t
    rw [hcalls, hwindow] at hbound
    refine le_trans (sum_createdBy_le hown (RequestNote.numberTime? mobile) window t _ fun i => ?_)
      hbound
    rcases honce i with ⟨hnil, -⟩ | ⟨t₁, t₂, row, hone, -, -, hnumber⟩
    · rw [createdBy, hnil]
      exact Nat.zero_le _
    · rw [createdBy, hone, List.countP_singleton]
      split
      · rename_i hq
        obtain ⟨rfl, hin⟩ := of_decide_eq_true hq
        rw [numberTimes] at hnumber
        rw [hnumber, count, List.countP_singleton, if_pos (decide_eq_true hin)]
      · exact Nat.zero_le _
  · have hbound := haudited.hourly_bounded t
    rw [hlimit] at hbound
    refine le_trans (sum_createdBy_le hown RequestNote.hourlyTime? 3600 t _ fun i => ?_) hbound
    rcases honce i with ⟨hnil, -⟩ | ⟨t₁, t₂, row, hone, -, hhourly, -⟩
    · rw [createdBy, hnil]
      exact Nat.zero_le _
    · rw [hourlyTimes] at hhourly
      rw [createdBy, hone, hhourly, count, List.countP_singleton, List.countP_singleton]

/-- One call, in seven turns of the event loop. -/
def oneCallRun : List Turn :=
  .arrive (.otpCall sampleRequest) ::
    ([0, 1, 2, 3, 4, 5, 6] : List ℕ).map fun now => .turn 0 (.calm now firstId [])

theorem created_within_quota_oneCall :
    let s := (interleaved sampleOriginator).run (Config.initial sampleWorld) oneCallRun
    (s.trace.map clockOf).Pairwise (· ≤ ·) ∧
      ((createdBy s.trace 0).map fun c => (c.hourlyAt, c.numberAt)) = [(0, 1)] ∧
      (∀ t, ∑ i ∈ Finset.range s.threads.length, (createdBy s.trace i).countP
        (fun c => t - 3600 < c.hourlyAt ∧ c.hourlyAt ≤ t) ≤ 500) :=
  ⟨by decide +kernel, by decide +kernel,
    (created_within_quota sampleOriginator 3 10 20 500 .empty .empty oneCallRun
      (by decide +kernel)).2.2.1⟩

end OtpVoice
