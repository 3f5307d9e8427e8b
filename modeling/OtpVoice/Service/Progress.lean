import OtpVoice.Service.Terminal

/-!
# The order of the statuses

A call goes from `queued` over `originating`, `ringing`, `answered` and `playing` to a terminal
status. `update_call_status` guards the terminal statuses only, so that a message which comes late
takes a record back to an earlier status.

- `progress_never_decreases`: a run in which no operation asks for an earlier status takes no record
  back, and a hangup with a cause outside the table completes every call that has been answered.
- `late_ringing_fails_answered_call`: a late `Ringing`, and what the next hangup makes of it.
-/

set_option autoImplicit false

namespace OtpVoice

open Coroutine

/-- The place of a status in the course of a call; the terminal statuses share the last one. -/
def Status.rank : Status → ℕ
  | .queued => 0
  | .originating => 1
  | .ringing => 2
  | .answered => 3
  | .playing => 4
  | _ => 5

theorem Status.rank_le (s : Status) : s.rank ≤ 5 := by cases s <;> decide

theorem Status.rank_of_terminal {s : Status} (h : s.terminal = true) : s.rank = 5 := by
  cases s <;> first | rfl | cases h

/-- A call that has been answered and is still in progress is `answered` or `playing`. -/
theorem Status.answered_or_playing {s : Status} (hrank : Status.answered.rank ≤ s.rank)
    (h : s.terminal = false) : s = .answered ∨ s = .playing := by
  cases s <;> first
    | exact .inl rfl
    | exact .inr rfl
    | exact absurd hrank (by decide)
    | cases h

/-- The operation asks for an earlier status of a record that is in progress: a `Newstate`, an
`OTPCallStart` or `OTPPlaybackStart`, a background task that starts, or a failed `OriginateResponse`
whose reason says `answered`. -/
def Regresses (op : Op) (v : Sight) : Prop :=
  ∃ x ∈ op.progress v ++ op.failures v.memory v.env, ∃ row ∈ v.world.store.calls.find x.1,
    row.status.terminal = false ∧ x.2.rank < row.status.rank

instance (op : Op) (v : Sight) : Decidable (Regresses op v) :=
  inferInstanceAs (Decidable (∃ x ∈ _, _))

/-- No operation of the run ever asks for an earlier status of a record. -/
def NeverRegresses (o : CallOriginator) (w₀ : World) (s : Conf) : Prop :=
  ∀ n, ∀ h : n < s.trace.length, ∀ op ∈ s.opOf s.trace[n].1,
    ¬ Regresses op (sightBefore o w₀ s n s.trace[n])

instance (o : CallOriginator) (w₀ : World) (s : Conf) : Decidable (NeverRegresses o w₀ s) :=
  inferInstanceAs (Decidable (∀ n, ∀ _ : n < _, _))

/-- An `UPDATE` takes a record back only if its operation asks for it. -/
theorem Reason.rank_le {op : Op} {v : Sight} {row : CallRecord} {status : Status}
    (h : Reason op v row status) (hno : ¬ Regresses op v)
    (hrow : v.world.store.calls.find row.requestId = some row)
    (hguard : row.status.goesBack status = false) : row.status.rank ≤ status.rank := by
  by_cases hterminal : row.status.terminal = true
  · -- the guard lets only another terminal status through
    have hstatus : status.terminal = true := by simpa [Status.goesBack, hterminal] using hguard
    rw [Status.rank_of_terminal hstatus]
    exact row.status.rank_le
  · have hasked : ∀ x ∈ op.progress v ++ op.failures v.memory v.env, x = (row.requestId, status) →
        row.status.rank ≤ status.rank := by
      rintro x hx rfl
      by_contra hlt
      exact hno ⟨_, hx, row, hrow, by simpa using hterminal, Nat.lt_of_not_le hlt⟩
    cases h with
    | progress h => exact hasked _ (List.mem_append_left _ h) rfl
    | failure h => exact hasked _ (List.mem_append_right _ h) rfl
    | played h => exact row.status.rank_le
    | hangup message hop hchannel hstatus hevents =>
      rw [Status.rank_of_terminal (hangupStatus_terminal _ _)]
      exact row.status.rank_le

section Runs

variable {o : CallOriginator} {w₀ : World} {acts : List Turn}

/-- One command takes no record back. -/
theorem rank_step (hkeeps : NoRollbacks acts) {n : ℕ}
    (h : NeverRegresses o w₀ ((sequential o).run (Config.initial w₀) acts)) {requestId : String}
    {row row' : CallRecord}
    (hbefore : ((sequential o).worldAfter w₀ ((sequential o).run (Config.initial w₀) acts).trace
      n).store.calls.find requestId = some row)
    (hafter : ((sequential o).worldAfter w₀ ((sequential o).run (Config.initial w₀) acts).trace
      (n + 1)).store.calls.find requestId = some row') : row.status.rank ≤ row'.status.rank := by
  cases hx : ((sequential o).run (Config.initial w₀) acts).trace[n]? with
  | none =>
    rw [Service.worldAfter_succ_of_none _ _ hx, hbefore] at hafter
    cases hafter
    exact le_rfl
  | some x =>
    rcases row_step hkeeps hx hbefore hafter
      with hkeep | ⟨op, status, now, u, hop, -, rfl, hguard, hreason⟩
    · rw [hkeep.1]
    · obtain ⟨hn, rfl⟩ := List.getElem?_eq_some_iff.1 hx
      obtain ⟨-, hid⟩ := Table.find_eq_some_iff.1 hbefore
      exact hreason.rank_le (h n hn op hop) (hid ▸ hbefore) hguard

/-- In every run in which nothing rolls back and no operation asks for an earlier status, the rank
of a record never decreases as long as the record exists. So a call that has been answered stays
`answered` or `playing` until it ends, and a hangup with a cause outside the table completes it. -/
theorem progress_never_decreases (o : CallOriginator) (w₀ : World) (acts : List Turn)
    (hkeeps : NoRollbacks acts)
    (h : NeverRegresses o w₀ ((sequential o).run (Config.initial w₀) acts)) {m n : ℕ} (hmn : m ≤ n)
    {requestId : String} {row row' : CallRecord} :
    let w := (sequential o).worldAfter w₀ ((sequential o).run (Config.initial w₀) acts).trace
    (w m).store.calls.find requestId = some row →
      (∀ k, m ≤ k → k ≤ n → ((w k).store.calls.find requestId).isSome = true) →
      (w n).store.calls.find requestId = some row' →
      row.status.rank ≤ row'.status.rank ∧
        (row.status = .answered ∨ row.status = .playing → row'.status.terminal = false →
          ∀ cause, causeToStatus.lookup cause = none →
            hangupStatus cause row'.status = .completed) := by
  intro w hrow hexists hrow'
  have hrank : row.status.rank ≤ row'.status.rank := by
    apply Table.row_induction (t := fun k => (w k).store.calls) hmn hexists _ _ hrow'
    · intro r hr
      rw [Option.some.inj (hr.symm.trans hrow)]
    · intro k r r' _ _ hr hr' hbefore
      exact hbefore.trans (rank_step hkeeps h hr hr')
  refine ⟨hrank, ?_⟩
  intro hanswered hprogress cause hcause
  have hreached : Status.answered.rank ≤ row.status.rank := by
    rcases hanswered with h | h
    · rw [h]
    · rw [h]
      decide
  have hstill := Status.answered_or_playing (hreached.trans hrank) hprogress
  simp [hangupStatus, hcause, hstill]

end Runs

/-- A call that is hung up with no cause while its OTP is playing. -/
def interruptedRun : List Turn :=
  startedRun ++ [.arrive (.amiEvent .userEvent (playbackStart firstId.text)),
    .turn 3 (.calm 3 firstId []), .arrive (.amiEvent .hangup (hangup sampleChannel "0")),
    .turn 4 (.calm 4 firstId [])]

theorem progress_never_decreases_interrupted :
    let s := (sequential sampleOriginator).run (Config.initial sampleWorld) interruptedRun
    let w := (sequential sampleOriginator).worldAfter sampleWorld s.trace
    ∃ row row', (w 28).store.calls.find firstId.text = some row ∧
      (w 35).store.calls.find firstId.text = some row' ∧ row.status.rank ≤ row'.status.rank ∧
        hangupStatus 0 row'.status = .completed := by
  intro s w
  have hexists : ∀ k ∈ List.range 36, 28 ≤ k →
      ((w k).store.calls.find firstId.text).isSome = true := by decide +kernel
  have hstart : ((w 28).store.calls.find firstId.text).map CallRecord.status = some .answered := by
    decide +kernel
  have hplaying : ((w 35).store.calls.find firstId.text).map CallRecord.status = some .playing := by
    decide +kernel
  obtain ⟨row, hrow, hanswered⟩ := Option.map_eq_some_iff.1 hstart
  obtain ⟨row', hrow', hstatus⟩ := Option.map_eq_some_iff.1 hplaying
  have h := progress_never_decreases sampleOriginator sampleWorld interruptedRun
    (by simp [interruptedRun, startedRun, waitingRun]) (by decide +kernel) (m := 28) (n := 35)
    (by decide) hrow (fun k hk hkn => hexists k (by simp; omega) hk) hrow'
  exact ⟨row, row', hrow, hrow', h.1, h.2 (.inl hanswered) (by rw [hstatus]; rfl) 0 (by decide)⟩

/-- The dialplan has started before the service handles that the channel rings. -/
def lateRingingRun : List Turn :=
  startedRun ++ [.arrive (.amiEvent .newstate (ringing sampleChannel)),
    .turn 3 (.calm 3 firstId [])]

/-- The late report takes an answered call back to `ringing`, and the hangup without a cause, which
would have completed the answered call, makes it a failed one. -/
theorem late_ringing_fails_answered_call :
    statusAfter startedRun = some .answered ∧ statusAfter lateRingingRun = some .ringing ∧
      Status.ringing.rank < Status.answered.rank ∧
      statusAfter (startedRun ++ [.arrive (.amiEvent .hangup (hangup sampleChannel "0")),
        .turn 3 (.calm 4 firstId [])]) = some .completed ∧
      statusAfter (lateRingingRun ++ [.arrive (.amiEvent .hangup (hangup sampleChannel "0")),
        .turn 4 (.calm 4 firstId [])]) = some .failed := by
  decide +kernel

end OtpVoice
