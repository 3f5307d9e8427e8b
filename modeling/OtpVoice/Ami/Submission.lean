import OtpVoice.Service.Footprint

/-!
# Submitted actions

Only a background task submits an action to Asterisk, its own (`Op.uses_submits`), and at most once
(`submits_run`).
-/

set_option autoImplicit false

namespace OtpVoice

open Coroutine

/-! ## Which action -/

/-- The action of a task. -/
def CallTask.action (o : CallOriginator) (task : CallTask) : Action :=
  o.action task.requestId (sanitizeAmiValue task.mobile) (sanitizeAmiValue task.code)
    (CallOriginator.clampRepeat task.repeatCount) originateTimeout

/-- The commands of an operation, as far as they submit actions: a task submits its own action. -/
def Op.Submits (o : CallOriginator) : Op → Cmd → Prop
  | .execute task, .submitAction a => a = task.action o
  | .input _, .submitAction _ => False
  | _, _ => True

theorem Op.submits_of_kind {o : CallOriginator} {op : Op} {c : Cmd} (h : c.kind ≠ .submit) :
    op.Submits o c := by
  cases op <;> cases c <;> trivial

section Originate

variable {P : Cmd → Prop}

/-- A part that submits nothing keeps a bound on the other commands. -/
theorem uses_of_touches (hP : ∀ c : Cmd, c.kind ≠ .submit → P c) {α : Type} {ks : List Kind}
    {p : Prog α} (hp : Touches ks p) (hks : ks.elem .submit = false) : Coro.Uses P p := by
  refine Coro.Uses.mono ?_ hp
  intro c hc
  apply hP
  intro h
  rw [List.elem_iff.2 (h ▸ hc)] at hks
  cases hks

/-- The only action that `originate` submits is the one that it builds. -/
theorem uses_originate (hP : ∀ c : Cmd, c.kind ≠ .submit → P c) (o : CallOriginator)
    (requestId mobile code : String) (repeatCount timeout : ℤ)
    (hsubmit : P (.submitAction (o.action requestId (sanitizeAmiValue mobile)
      (sanitizeAmiValue code) (CallOriginator.clampRepeat repeatCount) timeout))) :
    Coro.Uses P (o.originate requestId mobile code repeatCount timeout) := by
  apply (uses_of_touches hP (touches_log _ _) rfl).bind
  intro _
  apply (uses_of_touches hP touches_getAmiClient rfl).bind
  intro _
  apply (uses_of_touches hP touches_isConnected rfl).bind
  intro connected
  split
  -- the `try` around `send_action`, then the five ways in which it ends
  · refine Coro.Uses.bind (Coro.Uses.tryCatch (Coro.Uses.bind ?_ fun _ => trivial)
      fun _ => trivial) fun result => ?_
    · apply (uses_of_touches hP touches_isConnected rfl).bind
      intro connected
      apply (uses_of_touches hP (touches_nothing_raiseUnless _ _) rfl).bind
      intro _
      refine Coro.Uses.tryCatch (Coro.Uses.bind (Coro.Uses.perform hsubmit) fun _ =>
        uses_of_touches hP touches_awaitReply rfl) fun e => ?_
      split
      · trivial
      · exact (uses_of_touches hP (touches_log _ _) rfl).bind fun _ => trivial
    · match result with
      | .error .timeoutError =>
        exact (uses_of_touches hP (touches_log _ _) rfl).bind fun _ => trivial
      | .error (.connectionError _) =>
        exact (uses_of_touches hP (touches_log _ _) rfl).bind fun _ => trivial
      | .error (.http _ _) =>
        exact (uses_of_touches hP (touches_log _ _) rfl).bind fun _ => trivial
      | .error (.other _) =>
        exact (uses_of_touches hP (touches_log _ _) rfl).bind fun _ => trivial
      | .ok reply => exact uses_of_touches hP (touches_judge _ _) rfl
  · trivial

end Originate

theorem uses_submits {α : Type} {o : CallOriginator} {op : Op} {ks : List Kind} {p : Prog α}
    (hp : Touches ks p) (hks : ks.elem .submit = false) : Coro.Uses (op.Submits o) p :=
  uses_of_touches (fun _ => Op.submits_of_kind) hp hks

theorem uses_submits_originate (o : CallOriginator) (task : CallTask) :
    Coro.Uses ((Op.execute task).Submits o)
      (o.originate task.requestId task.mobile task.code task.repeatCount originateTimeout) :=
  uses_originate (fun _ => Op.submits_of_kind) o _ _ _ _ _ rfl

theorem uses_submits_executeCall (o : CallOriginator) (task : CallTask) :
    Coro.Uses ((Op.execute task).Submits o) (executeCall o task) := by
  refine Coro.Uses.bind ?_ fun _ => Coro.Uses.tryFinally (Coro.Uses.tryCatch ?_ fun e => ?_)
    (uses_submits touches_releaseSlot rfl)
  · apply (uses_submits touches_acquireSlot rfl).bind
    intro _
    exact (uses_submits (touches_updateCallStatus _ _ _) rfl).bind fun _ =>
      uses_submits (touches_addEvent _ _ _) rfl
  · refine (uses_submits_originate o task).bind fun ⟨accepted, error⟩ => ?_
    dsimp only
    split
    · trivial
    · exact (uses_submits (touches_updateCallStatus _ _ _) rfl).bind fun _ =>
        (uses_submits (touches_addEvent _ _ _) rfl).bind fun _ => uses_submits (touches_log _ _) rfl
  · exact uses_submits (touches_executeHandler task e) rfl

theorem Op.uses_submits (o : CallOriginator) (op : Op) : Coro.Uses (op.Submits o) (op.body o) := by
  cases op with
  | input x => exact OtpVoice.uses_submits (touches_input x) rfl
  | execute task => exact (uses_submits_executeCall o task).bind fun _ => trivial

/-! ## How often -/

/-- The action that an event hands over. -/
def submitNote (ev : Ev) : Option Action :=
  match ev.cmd with
  | .submitAction a => some a
  | _ => none

theorem submitNote_eq_none {ev : Ev} (h : ev.cmd.kind ≠ .submit) : submitNote ev = none := by
  unfold submitNote
  split
  · rename_i hcmd
    exact absurd (congrArg Cmd.kind hcmd) h
  · rfl

section Noting

variable {α β : Type} {o : CallOriginator} {yields : Cmd → Bool} {l : List Action}

/-- At most one action, noted while a coroutine runs and when it has ended. -/
abbrev SubmitsOnce (o : CallOriginator) (yields : Cmd → Bool) (p : Prog α) (l : List Action) :
    Prop :=
  (otpService o yields).Noting submitNote (fun l => l.length ≤ 1) (fun _ l => l.length ≤ 1) p l

/-- A part that submits nothing, before the rest. -/
theorem submitsOnce_bind {ks : List Kind} {p : Prog β} {f : β → Prog α} (hp : Touches ks p)
    (hks : ks.elem .submit = false) (hl : l.length ≤ 1) (hf : ∀ a, SubmitsOnce o yields (f a) l) :
    SubmitsOnce o yields (p >>= f) l := by
  refine (Service.noting_of_uses hp (fun c hc e n r => submitNote_eq_none fun h => ?_) hl).bind
    (fun a l' hl' => hl' ▸ hf a) fun x l' hl' => hl' ▸ hl
  rw [List.elem_iff.2 (h ▸ hc)] at hks
  cases hks

theorem submitsOnce_of_touches {ks : List Kind} {p : Prog α} (hp : Touches ks p)
    (hks : ks.elem .submit = false) (hl : l.length ≤ 1) : SubmitsOnce o yields p l := by
  refine (Service.noting_of_uses hp (fun c hc e n r => submitNote_eq_none fun h => ?_) hl).mono
    fun r l' hl' => hl' ▸ hl
  rw [List.elem_iff.2 (h ▸ hc)] at hks
  cases hks

theorem submitsOnce_sendAction (a : Action) : SubmitsOnce o yields (sendAction a) [] := by
  apply submitsOnce_bind touches_isConnected rfl (by simp)
  intro connected
  apply submitsOnce_bind (touches_nothing_raiseUnless _ _) rfl (by simp)
  intro _
  have hsubmit : SubmitsOnce o yields (submitAction a) [] :=
    Service.noting_perform fun e n w => ⟨by simp [submitNote], by simp [submitNote]⟩
  refine Service.Noting.tryCatch (hsubmit.bind (fun _ l hl => submitsOnce_of_touches
    touches_awaitReply rfl hl) fun x l hl => hl) (fun r l hl => hl) fun e l hl => ?_
  split
  · exact hl
  · exact submitsOnce_bind (touches_log _ _) rfl hl fun _ => hl

theorem submitsOnce_attempt {p : Prog α} (hp : SubmitsOnce o yields p l) :
    SubmitsOnce o yields (attempt p) l :=
  Service.Noting.tryCatch (Q := fun _ l => l.length ≤ 1)
    (hp.bind (fun _ _ hl => hl) fun _ _ hl => hl) (fun _ _ hl => hl) fun _ _ hl => hl

theorem submitsOnce_originate (task : CallTask) :
    SubmitsOnce o yields
      (o.originate task.requestId task.mobile task.code task.repeatCount originateTimeout) [] := by
  apply submitsOnce_bind (touches_log _ _) rfl (by simp)
  intro _
  apply submitsOnce_bind touches_getAmiClient rfl (by simp)
  intro _
  apply submitsOnce_bind touches_isConnected rfl (by simp)
  intro connected
  split
  · refine (submitsOnce_attempt (submitsOnce_sendAction _)).bind (fun result l hl => ?_)
      fun x l hl => hl
    match result with
    | .error .timeoutError => exact submitsOnce_bind (touches_log _ _) rfl hl fun _ => hl
    | .error (.connectionError _) => exact submitsOnce_bind (touches_log _ _) rfl hl fun _ => hl
    | .error (.http _ _) => exact submitsOnce_bind (touches_log _ _) rfl hl fun _ => hl
    | .error (.other _) => exact submitsOnce_bind (touches_log _ _) rfl hl fun _ => hl
    | .ok reply => exact submitsOnce_of_touches (touches_judge _ _) rfl hl
  · exact Nat.zero_le 1

theorem submitsOnce_executeCall (task : CallTask) :
    SubmitsOnce o yields (executeCall o task) [] := by
  apply submitsOnce_bind (touches_executePrologue task) rfl (by simp)
  intro _
  refine Service.Noting.tryFinally (Service.Noting.tryCatch (Q := fun _ l => l.length ≤ 1) ?_
    (fun a l hl => hl) fun e l hl => submitsOnce_of_touches (touches_executeHandler task e) rfl hl)
    fun r l hl => submitsOnce_bind touches_releaseSlot rfl hl fun _ => hl
  refine (submitsOnce_originate task).bind (fun ⟨accepted, error⟩ l hl => ?_) fun x l hl => hl
  dsimp only
  split
  · exact hl
  · exact submitsOnce_bind (touches_updateCallStatus _ _ _) rfl hl fun _ =>
      submitsOnce_bind (touches_addEvent _ _ _) rfl hl fun _ =>
        submitsOnce_of_touches (touches_log _ _) rfl hl

/-- The number of actions that an operation may submit. -/
def Op.submissions : Op → ℕ
  | .execute _ => 1
  | .input _ => 0

theorem noting_submits (o : CallOriginator) (yields : Cmd → Bool) (op : Op) :
    (otpService o yields).Noting submitNote (fun l => l.length ≤ op.submissions) (fun _ _ => True)
      (op.body o) [] := by
  cases op with
  | execute task =>
    exact ((submitsOnce_executeCall task).bind (fun _ _ _ => trivial) fun _ _ _ => trivial)
  | input x =>
    refine (Service.noting_of_uses (touches_input x) (fun c hc e n r => submitNote_eq_none ?_)
      (Nat.le_refl _)).mono fun _ _ _ => trivial
    exact fun h => absurd (h ▸ hc) (by decide)

/-- A thread submits at most one action, and only if it runs a background task. -/
theorem submits_run (w₀ : World) (acts : List Turn) {i : ℕ} {op : Op}
    (hop : ((otpService o yields).run (Config.initial w₀) acts).opOf i = some op) :
    ((ownEvents i ((otpService o yields).run (Config.initial w₀) acts).trace).filterMap
      submitNote).length ≤ op.submissions :=
  Service.run_noting_prefix (J := fun op l => l.length ≤ op.submissions) (noting_submits o yields)
    w₀ acts (fun _ => Nat.zero_le _) hop (List.append_nil _).symm

end Noting

end OtpVoice
