import OtpVoice.Service.Footprint
import OtpVoice.Service.Statements

/-!
# Request ids

Only `create_call_record` inserts a record, under an id that `uuid4` has drawn; so every record of a
run has the text of a UUID as its id (`rows_uuid`), if the records found at startup have.
-/

set_option autoImplicit false

namespace OtpVoice

open Coroutine

/-- An inserted record has the text of a UUID as its id. -/
def Cmd.InsertsUuid (c : Cmd) : Prop :=
  ∀ row, c = .execute (.insertCall row) → isUuid4 row.requestId = true

theorem insertsUuid_of_touches {α : Type} {ks : List Kind} {p : Prog α} (hp : Touches ks p)
    (hks : ks.elem .insertCall = false) : Coro.Uses Cmd.InsertsUuid p := by
  refine Coro.Uses.mono ?_ hp
  rintro c hc row rfl
  have hmem : .insertCall ∈ ks := hc
  rw [List.elem_iff.2 hmem] at hks
  cases hks

theorem insertsUuid_createCallRecord (mobile code codeMasked : String) (parent : Option String) :
    Coro.Uses Cmd.InsertsUuid (createCallRecord mobile code codeMasked parent) := by
  apply (insertsUuid_of_touches touches_uuid4 rfl).bind
  intro id
  apply (insertsUuid_of_touches touches_time rfl).bind
  intro now
  refine Coro.Uses.bind (Coro.Uses.perform ?_) fun _ => ?_
  · -- the drawn id is the id of the new record
    intro row hrow
    have hinsert := Cmd.execute.inj hrow
    rw [← Stmt.insertCall.inj hinsert]
    exact id.wf
  · apply (insertsUuid_of_touches touches_commit rfl).bind
    intro _
    exact (insertsUuid_of_touches (touches_addEvent _ _ _) rfl).bind fun _ => trivial

theorem insertsUuid_sendOtpCall (request : OTPCallRequest) :
    Coro.Uses Cmd.InsertsUuid (sendOtpCall request) := by
  apply (insertsUuid_of_touches (touches_checkLimits _) rfl).bind
  intro _
  apply (insertsUuid_createCallRecord _ _ _ _).bind
  intro _
  exact (insertsUuid_of_touches (touches_log _ _) rfl).bind fun _ => trivial

theorem insertsUuid_retryCall (requestId : String) (body : RetryRequest) :
    Coro.Uses Cmd.InsertsUuid (retryCall requestId body) := by
  apply (insertsUuid_of_touches (touches_getCallRecord _) rfl).bind
  intro record
  cases record with
  | none => trivial
  | some record =>
    apply (insertsUuid_of_touches (touches_nothing_raiseUnless _ _) rfl).bind
    intro _
    apply (insertsUuid_of_touches (touches_nothing_raiseUnless _ _) rfl).bind
    intro _
    apply (insertsUuid_of_touches (touches_checkLimits _) rfl).bind
    intro _
    apply (insertsUuid_createCallRecord _ _ _ _).bind
    intro _
    apply (insertsUuid_of_touches (touches_incrementRetry _) rfl).bind
    intro _
    exact (insertsUuid_of_touches (touches_log _ _) rfl).bind fun _ => trivial

theorem Op.insertsUuid (o : CallOriginator) (op : Op) : Coro.Uses Cmd.InsertsUuid (op.body o) := by
  cases op with
  | execute task =>
    exact (insertsUuid_of_touches (touches_executeCall o task) rfl).bind fun _ => trivial
  | input x =>
    cases x with
    | otpCall request => exact insertsUuid_sendOtpCall request
    | retry requestId body => exact insertsUuid_retryCall requestId body
    | status requestId => exact insertsUuid_of_touches (touches_getCallStatus requestId) rfl
    | health => exact insertsUuid_of_touches touches_healthCheck rfl
    | amiEvent kind message =>
      exact (insertsUuid_of_touches (touches_dispatch kind message) rfl).bind fun _ => trivial
    | cleanup => exact (insertsUuid_of_touches touches_periodicCleanup rfl).bind fun _ => trivial

/-- Every record has the text of a UUID as its id. -/
def Store.UuidRows (st : Store) : Prop :=
  ∀ requestId row, st.calls.find requestId = some row → isUuid4 requestId = true

theorem uuidRows_empty : Store.empty.UuidRows := by
  intro requestId row h
  cases h

/-- A statement keeps this, if the record that it inserts has such an id. -/
theorem Store.UuidRows.exec {st : Store} (h : st.UuidRows) {s : Stmt}
    (hs : ∀ row, s = .insertCall row → isUuid4 row.requestId = true) : (s.exec st).2.UuidRows := by
  intro requestId row hafter
  -- a record that was there keeps its id; a new one is the inserted row
  cases hbefore : st.calls.find requestId with
  | some old => exact h requestId old hbefore
  | none =>
    rw [← (Table.find_eq_some_iff.1 hafter).2]
    exact hs row (find_exec_new hbefore hafter)

/-- At every command of every run, each record has the text of a UUID as its id. -/
theorem rows_uuid (o : CallOriginator) (yields : Cmd → Bool) {w₀ : World}
    (h₀ : w₀.store.UuidRows ∧ w₀.committed.UuidRows) (acts : List Turn) (n : ℕ) :
    ((otpService o yields).worldAfter w₀
      ((otpService o yields).run (Config.initial w₀) acts).trace n).store.UuidRows := by
  refine (store_keeps (S := otpService o yields) rfl w₀ (I := fun _ st => st.UuidRows) h₀
    (fun _ _ h => h) ?_ n).1
  intro m i s hran ih
  apply ih.exec
  rintro row rfl
  obtain ⟨ev, hx, hcmd, -⟩ := hran
  obtain ⟨op, -, hinserts⟩ := (otpService o yields).run_uses (Op.insertsUuid o) w₀ acts
    (List.mem_of_getElem? hx)
  exact hinserts row hcmd

end OtpVoice
