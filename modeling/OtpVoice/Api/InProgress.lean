import OtpVoice.Api.Slots
import OtpVoice.Service.Channels
import OtpVoice.Service.LiveCall

/-!
# Calls in progress and active calls

A call is in progress from its `OTPCallStart` until its channel is hung up or its playback is
complete. The slot of a call is held by its background task, until the action of the task is
acknowledged; the bound on active calls is a bound on the calls in progress only where the two
lifetimes agree.

- `in_progress_within_active`: in every run in which each call starts while its task holds a slot,
  and no task goes on while its call is in progress, there are never more calls in progress than
  active calls.
- `call_in_progress_without_slot`: an acknowledged call is in progress while no call is active.
-/

set_option autoImplicit false

namespace OtpVoice

open Coroutine

section Runs

variable (o : CallOriginator) (w₀ : World) (acts : List Turn)

/-- The `k`-th decision of a run handles a `Hangup` of the channel of a record, or the
`OTPPlaybackComplete` of the record. -/
def Ends (k : ℕ) (requestId : String) : Prop :=
  ∃ message e,
    (Handles o w₀ acts k (.amiEvent .userEvent message) e ∧
      dialplanEvent message = some .playbackComplete ∧
        userEventRequestId message = some requestId) ∨
    (Handles o w₀ acts k (.amiEvent .hangup message) e ∧
      ((orText (message.get .channel) none).bind
        (newestOfChannel (storeAt o w₀ acts k).calls)).map CallRecord.requestId = some requestId)

/-- The `k`-th decision of a run handles an `OTPCallStart` of a record that is there and has not
ended; if it carries a channel, neither the `SELECT` nor the `UPDATE` that binds the channel
raises. -/
def Starts (k : ℕ) (requestId : String) : Prop :=
  ∃ message e, Handles o w₀ acts k (.amiEvent .userEvent message) e ∧
    dialplanEvent message = some .callStart ∧ userEventRequestId message = some requestId ∧
      (orText (message.get .channel) none ≠ none → e.fault 0 = none ∧ e.fault 2 = none) ∧
        ∃ row, rowAt o w₀ acts k requestId = some row ∧ row.status.terminal = false

/-- Before the `k`-th decision of a run the call of a record is in progress. -/
def InProgress (k : ℕ) (requestId : String) : Prop :=
  ∃ j < k, Starts o w₀ acts j requestId ∧
    (∀ l, j < l → l ≤ k → (rowAt o w₀ acts l requestId).isSome = true) ∧
    ∀ l, j < l → l < k → ¬ Ends o w₀ acts l requestId

/-- Before the `k`-th decision of a run the thread has taken a slot and has not given it back. -/
def HoldsSlot (k i : ℕ) : Prop :=
  .acquired ∈ slotNotes i ((sequential o).confAt w₀ acts k).trace ∧
    .released ∉ slotNotes i ((sequential o).confAt w₀ acts k).trace

instance (k i : ℕ) : Decidable (HoldsSlot o w₀ acts k i) := inferInstanceAs (Decidable (_ ∧ _))

/-- The slot of a call covers the time in which it is in progress: the call starts while its task
holds a slot, and the task does not go on while the call is in progress. -/
structure SlotsCover : Prop where
  starts : ∀ k requestId, Starts o w₀ acts k requestId → ∃ i task,
    ((sequential o).confAt w₀ acts k).opOf i = some (.execute task) ∧ task.requestId = requestId ∧
      HoldsSlot o w₀ acts k i
  continues : ∀ k i e task, acts[k]? = some (.turn i e) →
    ((sequential o).confAt w₀ acts k).opOf i = some (.execute task) →
      ((sequential o).confAt w₀ acts k).outcome i = none → HoldsSlot o w₀ acts k i →
        ¬ InProgress o w₀ acts k task.requestId

variable {o w₀ acts} {k : ℕ}

/-- A slot is held until the next turn of its thread. -/
theorem HoldsSlot.succ {i : ℕ} (h : HoldsSlot o w₀ acts k i)
    (hother : ∀ e, acts[k]? = some (.turn i e) →
      ∃ x, ((sequential o).confAt w₀ acts k).outcome i = some x) :
    HoldsSlot o w₀ acts (k + 1) i := by
  have hown : ownEvents i ((sequential o).confAt w₀ acts (k + 1)).trace =
      ownEvents i ((sequential o).confAt w₀ acts k).trace := by
    cases hact : acts[k]? with
    | none => rw [Service.confAt_succ_of_none _ hact]
    | some a =>
      rw [Service.confAt_succ _ hact]
      apply (sequential o).step_ownEvents
      rintro e rfl
      exact hother e hact
  unfold HoldsSlot slotNotes at h ⊢
  rw [hown]
  exact h

theorem opOf_kept {i : ℕ} {op : Op} (h : ((sequential o).confAt w₀ acts k).opOf i = some op) :
    ((sequential o).confAt w₀ acts (k + 1)).opOf i = some op := by
  cases hact : acts[k]? with
  | none => rwa [Service.confAt_succ_of_none _ hact]
  | some a =>
    rw [Service.confAt_succ _ hact]
    exact (sequential o).step_opOf h a

/-- The task of each call in progress holds a slot. The induction is on the decisions of the run. -/
theorem holds_of_inProgress (h : SlotsCover o w₀ acts) {requestId : String}
    (hprogress : InProgress o w₀ acts k requestId) : ∃ i task,
      ((sequential o).confAt w₀ acts k).opOf i = some (.execute task) ∧
        task.requestId = requestId ∧ HoldsSlot o w₀ acts k i := by
  induction k with
  | zero =>
    obtain ⟨j, hj, -⟩ := hprogress
    cases hj
  | succ k ih =>
    obtain ⟨j, hj, hstarts, hexists, hends⟩ := hprogress
    rcases Nat.lt_succ_iff_lt_or_eq.1 hj with hjk | rfl
    · -- the call has been in progress before
      have hbefore : InProgress o w₀ acts k requestId :=
        ⟨j, hjk, hstarts, fun l hjl hl => hexists l hjl (hl.trans (Nat.le_succ k)),
          fun l hjl hl => hends l hjl (hl.trans (Nat.lt_succ_self k))⟩
      obtain ⟨i, task, hop, rfl, hholds⟩ := ih hbefore
      refine ⟨i, task, opOf_kept hop, rfl, hholds.succ ?_⟩
      intro e hact
      cases houtcome : ((sequential o).confAt w₀ acts k).outcome i with
      | some x => exact ⟨x, rfl⟩
      | none => exact absurd hbefore (h.continues k i e task hact hop houtcome hholds)
    · -- the call starts, in a turn of another thread
      obtain ⟨i, task, hop, rfl, hholds⟩ := h.starts j _ hstarts
      refine ⟨i, task, opOf_kept hop, rfl, hholds.succ ?_⟩
      intro e hact
      obtain ⟨message, e', hx, -⟩ := hstarts
      have hturn := hx.turnOp
      simp only [turnOp, hact, hop] at hturn
      cases hturn

/-- The threads that hold a slot are counted as active calls. -/
theorem card_holds_le (hw₀ : w₀.limiter.activeCount = 0) {s : Finset ℕ}
    (hs : ∀ i ∈ s, HoldsSlot o w₀ acts k i) :
    s.card ≤ ((sequential o).confAt w₀ acts k).world.limiter.activeCalls := by
  set tr := ((sequential o).confAt w₀ acts k).trace with htr
  set n := ((sequential o).confAt w₀ acts k).threads.length with hn
  have hsplit : ((sequential o).run (Config.initial w₀) (acts.take k)).trace = tr ++ [] :=
    (List.append_nil _).symm
  have hactive : ((sequential o).replay w₀ tr).limiter.activeCount + tally .released tr =
      tally .acquired tr :=
    active_add_released o Cmd.waitsForAsterisk w₀ (acts.take k) hw₀ hsplit
  have hworld : ((sequential o).confAt w₀ acts k).world = (sequential o).replay w₀ tr :=
    (sequential o).run_world w₀ (acts.take k)
  have hown : ∀ y ∈ tr, y.1 < n := (sequential o).run_owners w₀ (acts.take k)
  -- a thread that holds a slot has run
  have hrange : s ⊆ Finset.range n := by
    intro i hi
    obtain ⟨ev, hev, -⟩ := List.mem_filterMap.1 (hs i hi).1
    exact Finset.mem_range.2 (hown _ (mem_ownEvents.1 hev))
  -- each thread has taken what it has given back, and one more if it holds a slot
  have hthread : ∀ i ∈ Finset.range n,
      (slotNotes i tr).count .released + (if i ∈ s then 1 else 0) ≤
        (slotNotes i tr).count .acquired := by
    intro i hi
    split
    · rename_i his
      obtain ⟨hacquired, hreleased⟩ := hs i his
      rw [List.count_eq_zero_of_not_mem hreleased]
      exact List.one_le_count_iff.2 hacquired
    · exact count_released_le o hsplit (Finset.mem_range.1 hi)
  have hcard : ∑ i ∈ Finset.range n, (if i ∈ s then 1 else 0) = s.card := by
    rw [Finset.sum_ite_mem, Finset.inter_eq_right.2 hrange, Finset.card_eq_sum_ones]
  have hsum := Finset.sum_le_sum hthread
  rw [Finset.sum_add_distrib, hcard, ← tally_eq_sum hown, ← tally_eq_sum hown] at hsum
  rw [hworld, RateLimiter.activeCalls]
  omega

/-- In a run in which the slot of each call covers the time in which the call is in progress, there
are never more calls in progress than active calls. -/
theorem in_progress_within_active (o : CallOriginator) (w₀ : World) (acts : List Turn)
    (hw₀ : w₀.limiter.activeCount = 0) (h : SlotsCover o w₀ acts) {k : ℕ} {ids : List String}
    (hids : ids.Nodup) (hprogress : ∀ requestId ∈ ids, InProgress o w₀ acts k requestId) :
    ids.length ≤ ((sequential o).confAt w₀ acts k).world.limiter.activeCalls := by
  have hthread : ∀ requestId, ∃ i, requestId ∈ ids → HoldsSlot o w₀ acts k i ∧ ∃ task,
      ((sequential o).confAt w₀ acts k).opOf i = some (.execute task) ∧
        task.requestId = requestId := by
    intro requestId
    by_cases hmem : requestId ∈ ids
    · obtain ⟨i, task, hop, hid, hholds⟩ := holds_of_inProgress h (hprogress requestId hmem)
      exact ⟨i, fun _ => ⟨hholds, task, hop, hid⟩⟩
    · exact ⟨0, fun h => absurd h hmem⟩
  -- different calls have different tasks, so the threads can be counted
  choose thread hthread using hthread
  have hinjective : Set.InjOn thread ids.toFinset := by
    intro a ha b hb hab
    obtain ⟨-, task, hop, rfl⟩ := hthread a (List.mem_toFinset.1 ha)
    obtain ⟨-, task', hop', rfl⟩ := hthread b (List.mem_toFinset.1 hb)
    rw [hab, hop'] at hop
    cases hop
    rfl
  calc ids.length = (ids.toFinset.image thread).card := by
        rw [Finset.card_image_of_injOn hinjective, List.toFinset_card_of_nodup hids]
    _ ≤ ((sequential o).confAt w₀ acts k).world.limiter.activeCalls := by
        apply card_holds_le hw₀
        intro i hi
        obtain ⟨requestId, hmem, rfl⟩ := Finset.mem_image.1 hi
        exact (hthread requestId (List.mem_toFinset.1 hmem)).1

end Runs

/-- The only turn of `startedRun` that handles a `UserEvent` is its last one. -/
theorem turnOp_startedRun : ∀ k < 4,
    turnOp sampleOriginator sampleWorld startedRun k ≠
      some (.input (.amiEvent .userEvent (callStart firstId.text sampleChannel))) := by
  decide +kernel

theorem in_progress_within_active_started :
    [firstId.text].length ≤ ((sequential sampleOriginator).confAt
      sampleWorld startedRun 5).world.limiter.activeCalls := by
  have hstarts : ∀ k requestId, Starts sampleOriginator sampleWorld startedRun k requestId →
      k = 4 ∧ requestId = firstId.text := by
    rintro k requestId ⟨message, e, hx, -, hid, -⟩
    have hmem := hx.arrived
    simp only [startedRun, waitingRun, List.cons_append, List.nil_append, List.mem_cons,
      List.not_mem_nil, or_false, reduceCtorEq, false_or, Act.arrive.injEq, Input.amiEvent.injEq,
      true_and] at hmem
    subst hmem
    cases hid
    obtain ⟨i, hact, -⟩ := id hx
    have hlength : k < 5 := (List.getElem?_eq_some_iff.1 hact).1
    rcases Nat.lt_succ_iff_lt_or_eq.1 hlength with hk | rfl
    · exact absurd hx.turnOp (turnOp_startedRun k hk)
    · exact ⟨rfl, rfl⟩
  refine in_progress_within_active sampleOriginator sampleWorld startedRun rfl ⟨?_, ?_⟩ (k := 5)
    (List.nodup_singleton _) ?_
  · intro k requestId h
    obtain ⟨rfl, rfl⟩ := hstarts k requestId h
    exact ⟨1, ⟨firstId.text, "09120000000", "1234", 2⟩, rfl, rfl, by decide +kernel⟩
  · -- no decision comes after the start of the call
    rintro k i e task hact - - - ⟨j, hj, hstart, -⟩
    obtain ⟨rfl, -⟩ := hstarts j _ hstart
    have hlength : k < 5 := (List.getElem?_eq_some_iff.1 hact).1
    omega
  · intro requestId hmem
    obtain rfl := List.mem_singleton.1 hmem
    refine ⟨4, by decide, ?_, ?_, ?_⟩
    · exact ⟨callStart firstId.text sampleChannel, .calm 2 firstId [], ⟨2, rfl, rfl⟩, rfl, rfl,
        fun _ => ⟨rfl, rfl⟩, by decide +kernel⟩
    · intro l hjl hl
      obtain rfl : l = 5 := by omega
      decide +kernel
    · intro l hjl hl
      omega

/-- The call has started, is neither hung up nor played, and no call is active. -/
theorem call_in_progress_without_slot :
    InProgress sampleOriginator sampleWorld liveRun 6 firstId.text ∧
      ((sequential sampleOriginator).confAt
        sampleWorld liveRun 6).world.limiter.activeCalls = 0 := by
  refine ⟨⟨4, by decide, ?_, ?_, ?_⟩, by decide +kernel⟩
  · exact ⟨callStart firstId.text sampleChannel, .calm 2 firstId [], ⟨2, rfl, rfl⟩, rfl, rfl,
      fun _ => ⟨rfl, rfl⟩, by decide +kernel⟩
  · intro l hjl hl
    obtain rfl | rfl : l = 5 ∨ l = 6 := by omega
    · decide +kernel
    · decide +kernel
  · -- the only decision in between is the turn of the task
    intro l hjl hl h
    obtain rfl : l = 5 := by omega
    have hop : turnOp sampleOriginator sampleWorld liveRun 5 =
        some (.execute ⟨firstId.text, "09120000000", "1234", 2⟩) := rfl
    obtain ⟨message, e, ⟨hx, -⟩ | ⟨hx, -⟩⟩ := h
    · cases hop.symm.trans hx.turnOp
    · cases hop.symm.trans hx.turnOp

end OtpVoice
