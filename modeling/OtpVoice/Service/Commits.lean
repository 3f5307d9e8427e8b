import OtpVoice.Service.Footprint
import OtpVoice.Service.System

/-!
# Every write is committed

A coroutine that writes to the tables commits before it ends, unless a statement or a commit of its
own raises an exception after the write. `Cmd.settle` follows this through its commands.
`Op.tidy`: no operation of the service ends with a write that waits.
-/

set_option autoImplicit false

namespace OtpVoice

open Coroutine

/-- A command that changes the tables. -/
def Cmd.writes : Cmd → Bool
  | .execute s => s.writes
  | _ => false

/-- A statement or a commit that raises an exception. -/
def Cmd.raises (c : Cmd) (r : Except Exc c.Resp) : Bool := c.mayRaise && !r.isOk

/-- A commit that raises nothing. -/
def Cmd.commits : (c : Cmd) → Except Exc c.Resp → Bool
  | .commit, .ok _ => true
  | _, _ => false

/-- Whether a write waits for a commit, and nothing has been raised since. -/
def Cmd.settle (waiting : Bool) (c : Cmd) (r : Except Exc c.Resp) : Bool :=
  if c.raises r then false
  else if c.writes then true
  else waiting && !c.commits r

/-- The coroutine ends without a write that waits. -/
def TidyFrom {α : Type} (waiting : Bool) (p : Prog α) : Prop :=
  Coro.Sat (fun waiting c r waiting' => waiting' = c.settle waiting r) (fun _ _ _ _ => True)
    (fun _ waiting => waiting = false) p waiting

/-- The program ends with no write that waits. -/
abbrev Tidy {α : Type} (p : Prog α) : Prop := TidyFrom false p

section Rules

variable {α β : Type} {waiting : Bool}

theorem TidyFrom.bind {p : Prog β} {f : β → Prog α} (hp : TidyFrom waiting p)
    (hf : ∀ b, Tidy (f b)) : TidyFrom waiting (p >>= f) := by
  refine (Coro.sat_bind _ f p waiting).2 (Coro.Sat.mono ?_ hp)
  rintro r s rfl
  cases r with
  | ok b => exact hf b
  | error x => rfl

theorem Tidy.tryCatch {p : Prog α} {h : Exc → Prog α} (hp : Tidy p) (hh : ∀ x, Tidy (h x)) :
    Tidy (tryCatch p h) := by
  refine (Coro.sat_tryCatch _ h p false).2 (Coro.Sat.mono ?_ hp)
  rintro r s rfl
  cases r with
  | ok a => rfl
  | error x => exact hh x

theorem Tidy.tryFinally {p : Prog α} {q : Prog Unit} (hp : Tidy p) (hq : Tidy q) :
    Tidy (p.tryFinally q) := by
  refine (Coro.sat_tryFinally _ q p false).2 (Coro.Sat.mono ?_ hp)
  rintro r s rfl
  exact TidyFrom.bind hq fun _ => rfl

theorem tidy_pure (a : α) : Tidy (pure a : Prog α) := rfl

theorem tidy_throw (x : Exc) : Tidy (throw x : Prog α) := rfl

/-- The kinds of the statements that change the tables. -/
def writeKinds : List Kind := [.insertCall, .updateCall, .countRetry, .insertEvent, .delete]

theorem writes_of_kind {c : Cmd} (hc : c.kind ∉ writeKinds) : c.writes = false := by
  cases c with
  | execute s =>
    cases s with
    | selectCall requestId => rfl
    | selectByChannel channel => rfl
    | selectEvents requestId => rfl
    | _ => exact absurd (by simp [Cmd.kind, Stmt.kind, writeKinds]) hc
  | _ => rfl

theorem settle_of_not_writes {c : Cmd} (hc : c.writes = false) (r : Except Exc c.Resp) :
    c.settle false r = false := by
  simp only [Cmd.settle, hc, Bool.false_eq_true, if_false, Bool.false_and, ite_self]

/-- A part without writes. -/
theorem tidy_of_touches {ks : List Kind} {p : Prog α} (hp : Touches ks p)
    (hks : ks.all (fun k => k ∉ writeKinds) = true) : Tidy p := by
  refine Coro.Sat.of_uses (I := (· = false)) ?_ hp rfl
  rintro s c r s' hc rfl rfl
  exact ⟨trivial, settle_of_not_writes
    (writes_of_kind (of_decide_eq_true (List.all_eq_true.1 hks _ hc))) r⟩

/-- A write, before a part that commits. -/
theorem tidyFrom_write {s : Stmt} {f : s.Result → Prog α} (hs : s.writes = true)
    (hf : ∀ r, TidyFrom true (f r)) : TidyFrom waiting (execute s >>= f) := by
  rintro r _ rfl
  refine ⟨trivial, ?_⟩
  cases r with
  | ok r =>
    have hsettle : Cmd.settle waiting (.execute s) (.ok r) = true := by
      simp only [Cmd.settle, Cmd.writes, hs]
      rfl
    rw [hsettle]
    exact hf r
  | error x => rfl

/-- The commit, and what comes after it. -/
theorem tidyFrom_commit {f : Unit → Prog α} (hf : Tidy (f ())) :
    TidyFrom waiting (commit >>= f) := by
  rintro r _ rfl
  refine ⟨trivial, ?_⟩
  cases r with
  | ok r =>
    have hsettle : Cmd.settle waiting .commit (.ok r) = false := Bool.and_false waiting
    rw [hsettle]
    exact hf
  | error x => rfl

theorem tidyFrom_commit_last : TidyFrom waiting commit := by
  rintro r _ rfl
  refine ⟨trivial, ?_⟩
  cases r with
  | ok r => exact Bool.and_false waiting
  | error x => rfl

end Rules

/-! ## The functions of the database -/

theorem tidy_addEvent (requestId : String) (event : EventName) (detail : Option String) :
    Tidy (addEvent requestId event detail) :=
  TidyFrom.bind (tidy_of_touches touches_time (by decide)) fun _ =>
    tidyFrom_write rfl fun _ => tidyFrom_commit_last

theorem tidy_updateCallStatus (requestId : String) (status : Status) (u : StatusFields) :
    Tidy (updateCallStatus requestId status u) := by
  apply TidyFrom.bind (tidy_of_touches (touches_getCallRecord requestId) (by decide))
  intro record
  cases record with
  | none => exact tidy_pure _
  | some record =>
    dsimp only
    split
    · exact tidy_pure _
    · exact TidyFrom.bind (tidy_of_touches touches_time (by decide)) fun _ =>
        tidyFrom_write rfl fun _ => tidyFrom_commit (tidy_pure _)

theorem tidy_createCallRecord (mobile code codeMasked : String) (parent : Option String) :
    Tidy (createCallRecord mobile code codeMasked parent) :=
  TidyFrom.bind (tidy_of_touches touches_uuid4 (by decide)) fun _ =>
    TidyFrom.bind (tidy_of_touches touches_time (by decide)) fun _ =>
      tidyFrom_write rfl fun _ => tidyFrom_commit
        (TidyFrom.bind (tidy_addEvent _ _ _) fun _ => tidy_pure _)

theorem tidy_incrementRetry (requestId : String) : Tidy (incrementRetry requestId) := by
  refine TidyFrom.bind (tidy_of_touches touches_time (by decide)) fun _ =>
    tidyFrom_write rfl fun _ => tidyFrom_commit ?_
  apply TidyFrom.bind (tidy_of_touches (touches_getCallRecord requestId) (by decide))
  intro record
  cases record <;> exact tidy_pure _

theorem tidy_cleanupExpired : Tidy cleanupExpired := by
  refine TidyFrom.bind (tidy_of_touches touches_time (by decide)) fun _ =>
    tidyFrom_write rfl fun _ => tidyFrom_write rfl fun _ => tidyFrom_commit ?_
  dsimp only
  split
  · exact TidyFrom.bind (tidy_of_touches (touches_log _ _) (by decide)) fun _ => tidy_pure _
  · exact tidy_pure _

/-! ## The event handlers -/

/-- An update of the status whose result nobody reads. -/
theorem tidy_update_pure (requestId : String) (status : Status) (u : StatusFields) :
    Tidy (updateCallStatus requestId status u >>= fun _ => pure ()) :=
  TidyFrom.bind (tidy_updateCallStatus requestId status u) fun _ => tidy_pure _

/-- An update of the status and its line. -/
theorem tidy_update_event (requestId : String) (status : Status) (u : StatusFields)
    (event : EventName) (detail : Option String) :
    Tidy (updateCallStatus requestId status u >>= fun _ => addEvent requestId event detail) :=
  TidyFrom.bind (tidy_updateCallStatus requestId status u) fun _ => tidy_addEvent _ _ _

theorem tidy_onOriginateResponse (message : Message) : Tidy (onOriginateResponse message) := by
  simp only [onOriginateResponse]
  split
  · exact tidy_pure _
  · apply TidyFrom.bind (tidy_addEvent _ _ _)
    intro _
    split
    · exact tidy_update_pure _ _ _
    · exact tidy_pure _

theorem tidy_onNewState (message : Message) : Tidy (onNewState message) := by
  simp only [onNewState]
  split
  · exact tidy_pure _
  · apply TidyFrom.bind (tidy_of_touches (touches_getCallByChannel _) (by decide))
    intro record
    cases record with
    | none => exact tidy_pure _
    | some record =>
      dsimp only
      split
      · exact tidy_pure _
      · exact tidy_update_event _ _ _ _ _

theorem tidy_onHangup (message : Message) : Tidy (onHangup message) := by
  simp only [onHangup]
  split
  · exact tidy_pure _
  · apply TidyFrom.bind (tidy_of_touches (touches_getCallByChannel _) (by decide))
    intro record
    cases record with
    | none => exact tidy_pure _
    | some record =>
      apply TidyFrom.bind (tidy_addEvent _ _ _)
      intro _
      split
      · exact tidy_pure _
      · exact tidy_update_pure _ _ _

theorem tidy_onUserEvent (message : Message) : Tidy (onUserEvent message) := by
  simp only [onUserEvent]
  split
  · exact tidy_pure _
  · split
    · split
      · exact tidy_update_event _ _ _ _ _
      · exact tidy_addEvent _ _ _
    · exact tidy_update_event _ _ _ _ _
    · exact tidy_update_event _ _ _ _ _
    · exact tidy_pure _

theorem tidy_dispatch (kind : EventKind) (message : Message) : Tidy (dispatch kind message) := by
  cases kind with
  | originateResponse => exact tidy_onOriginateResponse message
  | newchannel => exact tidy_pure _
  | newstate => exact tidy_onNewState message
  | hangup => exact tidy_onHangup message
  | userEvent => exact tidy_onUserEvent message

/-! ## The background task -/

theorem tidy_forward (messages : List (Option Message)) :
    Tidy (CallOriginator.forward messages) := by
  induction messages with
  | nil => exact tidy_pure _
  | cons message rest ih =>
    cases message with
    | none => exact ih
    | some message =>
      simp only [CallOriginator.forward]
      split
      · refine TidyFrom.bind (Tidy.tryCatch ?_ fun e => ?_) fun _ => ih
        · have hready : Touches [.handler] (issue .hasEventHandler) := touches_issue rfl
          apply TidyFrom.bind (tidy_of_touches hready (by decide))
          intro ready
          split
          · exact tidy_onOriginateResponse message
          · exact tidy_pure _
        · exact tidy_of_touches (touches_log _ _) (by decide)
      · exact ih

theorem tidy_log_pure {α : Type} (level : Level) (line : String) (a : α) :
    Tidy (log level line >>= fun _ => pure a) :=
  TidyFrom.bind (tidy_of_touches (touches_log _ _) (by decide)) fun _ => tidy_pure _

theorem tidy_judge (mobile : String) (messages : List (Option Message)) :
    Tidy (CallOriginator.judge mobile messages) := by
  cases messages with
  | nil => exact tidy_pure _
  | cons ack later =>
    simp only [CallOriginator.judge]
    split
    · exact TidyFrom.bind (tidy_forward later) fun _ => tidy_pure _
    · exact tidy_log_pure _ _ _

theorem tidy_originate (o : CallOriginator) (requestId mobile code : String)
    (repeatCount timeout : ℤ) : Tidy (o.originate requestId mobile code repeatCount timeout) := by
  apply TidyFrom.bind (tidy_of_touches (touches_log _ _) (by decide))
  intro _
  apply TidyFrom.bind (tidy_of_touches touches_getAmiClient (by decide))
  intro _
  apply TidyFrom.bind (tidy_of_touches touches_isConnected (by decide))
  intro connected
  split
  · refine TidyFrom.bind ?_ fun result => ?_
    · refine Tidy.tryCatch (TidyFrom.bind ?_ fun _ => tidy_pure _) fun _ => tidy_pure _
      exact tidy_of_touches (touches_sendAction _) (by decide)
    · cases result with
      | ok reply => exact tidy_judge _ _
      | error x => cases x <;> exact tidy_log_pure _ _ _
  · exact tidy_pure _

theorem tidy_executeCall (o : CallOriginator) (task : CallTask) : Tidy (executeCall o task) := by
  have hprologue : Tidy (executePrologue task) :=
    TidyFrom.bind (tidy_of_touches touches_acquireSlot (by decide)) fun _ =>
      tidy_update_event _ _ _ _ _
  refine TidyFrom.bind hprologue fun _ => Tidy.tryFinally (Tidy.tryCatch ?_ fun e => ?_) ?_
  · apply TidyFrom.bind (tidy_originate _ _ _ _ _ _)
    rintro ⟨accepted, error⟩
    dsimp only
    split
    · exact tidy_pure _
    · exact TidyFrom.bind (tidy_updateCallStatus _ _ _) fun _ =>
        TidyFrom.bind (tidy_addEvent _ _ _) fun _ => tidy_of_touches (touches_log _ _) (by decide)
  · exact TidyFrom.bind (tidy_of_touches (touches_log _ _) (by decide)) fun _ =>
      tidy_update_event _ _ _ _ _
  · exact tidy_of_touches touches_releaseSlot (by decide)

/-! ## The operations -/

theorem tidy_sendOtpCall (request : OTPCallRequest) : Tidy (sendOtpCall request) :=
  TidyFrom.bind (tidy_of_touches (touches_checkLimits _) (by decide)) fun _ =>
    TidyFrom.bind (tidy_createCallRecord _ _ _ _) fun _ => tidy_log_pure _ _ _

theorem tidy_retryCall (requestId : String) (body : RetryRequest) :
    Tidy (retryCall requestId body) := by
  apply TidyFrom.bind (tidy_of_touches (touches_getCallRecord requestId) (by decide))
  intro record
  cases record with
  | none => exact tidy_throw _
  | some record =>
    have hraise (ok : Bool) (x : Exc) : Tidy (raiseUnless ok x) :=
      tidy_of_touches (touches_nothing_raiseUnless ok x) (by decide)
    exact TidyFrom.bind (hraise _ _) fun _ => TidyFrom.bind (hraise _ _) fun _ =>
      TidyFrom.bind (tidy_of_touches (touches_checkLimits _) (by decide)) fun _ =>
        TidyFrom.bind (tidy_createCallRecord _ _ _ _) fun _ =>
          TidyFrom.bind (tidy_incrementRetry _) fun _ => tidy_log_pure _ _ _

theorem tidy_periodicCleanup : Tidy periodicCleanup := by
  have hlimits : Touches [.cleanup] cleanupLimits := touches_issue rfl
  refine Tidy.tryCatch (TidyFrom.bind tidy_cleanupExpired fun _ => ?_) fun _ => ?_
  · exact TidyFrom.bind (tidy_of_touches hlimits (by decide)) fun _ =>
      tidy_of_touches (touches_log _ _) (by decide)
  · exact tidy_of_touches (touches_log _ _) (by decide)

/-- No operation ends with a write that waits for a commit. -/
theorem Op.tidy (o : CallOriginator) (op : Op) : Tidy (op.body o) := by
  cases op with
  | execute task => exact TidyFrom.bind (tidy_executeCall o task) fun _ => tidy_pure _
  | input x =>
    cases x with
    | otpCall request => exact tidy_sendOtpCall request
    | retry requestId body => exact tidy_retryCall requestId body
    | status requestId => exact tidy_of_touches (touches_getCallStatus requestId) (by decide)
    | health => exact tidy_of_touches touches_healthCheck (by decide)
    | amiEvent kind message =>
      exact TidyFrom.bind (tidy_dispatch kind message) fun _ => tidy_pure _
    | cleanup => exact TidyFrom.bind tidy_periodicCleanup fun _ => tidy_pure _

end OtpVoice
