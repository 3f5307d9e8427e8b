import OtpVoice.Service.Channels

/-!
# The stored hangup cause

`_on_hangup` writes the cause of a hangup into the timeline in any case, and into the record only
when the status that it has read is not terminal. `hangup_cause_stored_iff`: in every run, the
record of the channel shows the cause of a handled `Hangup` if and only if it was not terminal, or
has shown the same text before. After a complete playback the record is terminal
(`completed_without_cause`).
-/

set_option autoImplicit false

namespace OtpVoice

open Coroutine

/-- The record shows the hangup cause `text`. -/
def Store.ShowsCause (st : Store) (requestId text : String) : Prop :=
  ∃ row, st.calls.find requestId = some row ∧ row.hangupCause = some text

/-- A numeric cause is read as its number. -/
theorem causeInt_of_parseInt {message : Message} {c : ℤ}
    (h : (message.get .cause).bind parseInt = some c) : causeInt message = c := by
  obtain ⟨text, htext, hc⟩ := Option.bind_eq_some_iff.1 h
  have hne : text ≠ "" := by
    rintro rfl
    cases hc
  rw [causeInt, htext]
  simp only [orText, if_neg hne, Option.getD_some, hc]

/-- A `Hangup` on a record that is not terminal stores its cause. -/
theorem CallRecord.guarded_hangupCause {row : CallRecord} (h : row.status.terminal = false)
    (status : Status) (now : Time) (text : String) :
    (row.guarded status now { hangupCause := some text }).hangupCause = some text := by
  have hguard : row.status.goesBack status = false := by
    rw [Status.goesBack, h]
    rfl
  rw [CallRecord.guarded, hguard]
  rfl

section Runs

variable {o : CallOriginator} {w₀ : World} {acts : List Turn} {k : ℕ} {e : Env}
  {message : Message} {channel : String} {row : CallRecord}

/-- The record after a handled `Hangup`: a terminal one is left as it is, another one shows the
cause. -/
theorem rowAt_of_hangup (h : Handles o w₀ acts k (.amiEvent .hangup message) e)
    (he : e.Calm) (hchannel : orText (message.get .channel) none = some channel)
    (hrow : newestOfChannel (storeAt o w₀ acts k).calls channel = some row) :
    (row.status.terminal = true ∧ rowAt o w₀ acts (k + 1) row.requestId = some row) ∨
      (row.status.terminal = false ∧ ∃ row', rowAt o w₀ acts (k + 1) row.requestId = some row' ∧
        row'.hangupCause = some (hangupText message)) := by
  have hfind : (storeAt o w₀ acts k).calls.find row.requestId = some row :=
    (mem_of_newestOfChannel hrow).1
  obtain ⟨m, detail, now, t, cm, hrun⟩ := complete_onHangup e he hchannel hrow
  have hafter : storeAt o w₀ acts (k + 1) = _ := congrArg World.store (h.dispatch hrun)
  -- the line of the hangup is written in both cases and changes no record
  have hline : ((storeAt o w₀ acts k).withEvent ⟨row.requestId, .hangup, detail, now⟩).calls.find
      row.requestId = some row := hfind
  cases hterminal : row.status.terminal with
  | true =>
    left
    simp only [hterminal, if_true] at hafter
    refine ⟨rfl, ?_⟩
    rw [rowAt, hafter]
    exact hline
  | false =>
    right
    simp only [hterminal, Bool.false_eq_true, if_false] at hafter
    refine ⟨rfl, row.guarded (hangupStatus (causeInt message) row.status) t
      { hangupCause := some (hangupText message) }, ?_,
      CallRecord.guarded_hangupCause hterminal _ _ _⟩
    rw [rowAt, hafter, Store.find_updateStatus, if_pos rfl]
    exact congrArg (Option.map _) hline

/-- In every run, after a `Hangup` with a numeric cause has been handled without a database
exception, the record of its channel shows the text of this cause if and only if the record was not
terminal, or has shown this text before. -/
theorem hangup_cause_stored_iff (h : Handles o w₀ acts k (.amiEvent .hangup message) e)
    (he : e.Calm) (hchannel : orText (message.get .channel) none = some channel)
    (hrow : newestOfChannel (storeAt o w₀ acts k).calls channel = some row) {c : ℤ} {x : String}
    (hcause : (message.get .cause).bind parseInt = some c) (hx : causeTxt message = x) :
    (storeAt o w₀ acts (k + 1)).ShowsCause row.requestId (strip (toString c ++ " " ++ x)) ↔
      row.status.terminal = false ∨ row.hangupCause = some (strip (toString c ++ " " ++ x)) := by
  have htext : hangupText message = strip (toString c ++ " " ++ x) := by
    rw [hangupText, causeInt_of_parseInt hcause, hx]
  rcases rowAt_of_hangup h he hchannel hrow with ⟨hterminal, hafter⟩ | ⟨hopen, row', hafter, hshown⟩
  · -- the record has not been touched
    constructor
    · rintro ⟨row', hrow', hshown⟩
      cases hafter.symm.trans hrow'
      exact .inr hshown
    · rintro (hopen | hshown)
      · cases hterminal.symm.trans hopen
      · exact ⟨row, hafter, hshown⟩
  · rw [← htext]
    exact iff_of_true ⟨row', hafter, hshown⟩ (.inl hopen)

end Runs

/-- The hangup at the end of a call. -/
def normalHangup : Message :=
  ⟨[(.channel, sampleChannel), (.cause, "16"), (.causeDashTxt, "Normal Clearing")]⟩

/-- A call that is hung up while it is answered. -/
def answeredHangupRun : List Turn :=
  startedRun ++ [.arrive (.amiEvent .hangup normalHangup), .turn 3 (.calm 3 firstId [])]

theorem hangup_cause_stored_iff_answered :
    (storeAt sampleOriginator sampleWorld answeredHangupRun 7).ShowsCause firstId.text
      "16 Normal Clearing" := by
  have hstart : (newestOfChannel (storeAt sampleOriginator sampleWorld answeredHangupRun 6).calls
      sampleChannel).map (fun row => (row.requestId, row.status)) =
        some (firstId.text, .answered) := by decide +kernel
  obtain ⟨row, hrow, heq⟩ := Option.map_eq_some_iff.1 hstart
  obtain ⟨hid, hstatus⟩ := Prod.mk.inj heq
  rw [← hid]
  have hhandled : Handles sampleOriginator sampleWorld answeredHangupRun 6
      (.amiEvent .hangup normalHangup) (.calm 3 firstId []) := ⟨3, rfl, rfl⟩
  have hcause : (normalHangup.get .cause).bind parseInt = some 16 := by decide
  exact (hangup_cause_stored_iff hhandled (Env.calm_calm _ _ _) rfl hrow hcause rfl).2
    (.inl (by rw [hstatus]; rfl))

/-- A call that is played to its end and hung up after it. -/
def normalRun : List Turn :=
  startedRun ++ [.turn 1 (.calm 3 firstId [success]),
    .arrive (.amiEvent .userEvent (playbackStart firstId.text)), .turn 3 (.calm 4 firstId []),
    .arrive (.amiEvent .userEvent (playbackComplete firstId.text)), .turn 4 (.calm 5 firstId []),
    .arrive (.amiEvent .hangup normalHangup), .turn 5 (.calm 6 firstId [])]

/-- The call is completed, its channel is hung up with cause 16, and its record shows no cause. -/
theorem completed_without_cause :
    Handles sampleOriginator sampleWorld normalRun 11 (.amiEvent .hangup normalHangup)
        (.calm 6 firstId []) ∧
      (newestOfChannel (storeAt sampleOriginator sampleWorld normalRun 11).calls sampleChannel).map
          (fun row => (row.requestId, row.status)) = some (firstId.text, .completed) ∧
      hangupText normalHangup = "16 Normal Clearing" ∧
      ((storeAt sampleOriginator sampleWorld normalRun 12).calls.find firstId.text).map
          (fun row => (row.status, row.hangupCause)) = some (.completed, none) ∧
      ¬ (storeAt sampleOriginator sampleWorld normalRun 12).ShowsCause firstId.text
        "16 Normal Clearing" := by
  have hafter : ((storeAt sampleOriginator sampleWorld normalRun 12).calls.find firstId.text).map
      (fun row => (row.status, row.hangupCause)) = some (.completed, none) := by decide +kernel
  refine ⟨⟨5, rfl, rfl⟩, by decide +kernel, by decide +kernel, hafter, ?_⟩
  rintro ⟨row, hrow, hshown⟩
  rw [hrow, Option.map_some, hshown] at hafter
  cases (Prod.mk.inj (Option.some.inj hafter)).2

end OtpVoice
