import OtpVoice.Ami.Handling
import OtpVoice.Library.Latch
import OtpVoice.Service.System

/-!
# Calls of `update_call_status` on one record

`updateCallStatuses` calls `update_call_status` on one request, one call after the other. The status
of the record is a register that latches at the terminal statuses, and each optional column keeps
the last value given to it by a call that returned `True`:

- `complete_updateCallStatus_of_find` : one call on an existing record.
- `complete_updateCallStatuses` : the induction over the calls.
- `update_call_status_sequence` : what the calls return, and the tables after them.
-/

set_option autoImplicit false

namespace OtpVoice

open Coroutine

/-- The status and the optional arguments of one call. -/
structure StatusCall where
  status : Status
  fields : StatusFields

/-- Calls on one request, one after the other, and what they return. -/
def updateCallStatuses (requestId : String) : List StatusCall → Prog (List Bool)
  | [] => return []
  | call :: calls => do
    let changed ← updateCallStatus requestId call.status call.fields
    let rest ← updateCallStatuses requestId calls
    return changed :: rest

/-- The calls that returned `True`. -/
def acceptedCalls (calls : List StatusCall) (returned : List Bool) : List StatusCall :=
  ((calls.zip returned).filter fun x => x.2).map fun x => x.1

/-- The last terminal status among the initial one and the given ones, or the last of them when none
is terminal. -/
def lastTerminal (initial : Status) (statuses : List Status) : Status :=
  (((initial :: statuses).filter Status.terminal).getLast?).getD
    ((initial :: statuses).getLast (List.cons_ne_nil _ _))

/-- The row after the calls of which the given ones returned `True`. -/
def CallRecord.afterCalls (row : CallRecord) (status : Status) (accepted : List StatusCall)
    (updatedAt : Time) : CallRecord :=
  { row with
    status := status
    updatedAt := updatedAt
    hangupCause := Latch.lastGiven row.hangupCause (accepted.map fun c => c.fields.hangupCause)
    asteriskReason :=
      Latch.lastGiven row.asteriskReason (accepted.map fun c => c.fields.asteriskReason)
    duration := Latch.lastGiven row.duration (accepted.map fun c => c.fields.duration)
    channel := Latch.lastGiven row.channel (accepted.map fun c => c.fields.channel) }

/-- The first accepted call, and then the others. -/
theorem CallRecord.afterCalls_cons (row : CallRecord) (status : Status) (now t : Time)
    (call : StatusCall) (accepted : List StatusCall) :
    (row.updated call.status now call.fields).afterCalls status accepted t =
      row.afterCalls status (call :: accepted) t := by
  simp only [CallRecord.afterCalls, CallRecord.updated, List.map_cons, Latch.lastGiven_cons]

/-! ## One call -/

section Alone

variable {e : Env} {w : World} {requestId : String} {row : CallRecord}

/-- The guard is that of a register which latches at the terminal statuses. -/
theorem refuses_terminal (old new : Status) :
    Latch.refuses Status.terminal old new = old.goesBack new := rfl

/-- A call that is refused leaves the row as it is; the others add their fields. -/
theorem CallRecord.afterCalls_guarded (row : CallRecord) (status : Status) (now t : Time)
    (call : StatusCall) (calls : List StatusCall) (returned : List Bool) :
    (row.guarded call.status now call.fields).afterCalls status (acceptedCalls calls returned) t =
      row.afterCalls status (acceptedCalls (call :: calls)
        ((!Latch.refuses Status.terminal row.status call.status) :: returned)) t := by
  rw [CallRecord.guarded, refuses_terminal]
  cases row.status.goesBack call.status with
  | true => rfl
  | false => exact row.afterCalls_cons status now t call _

/-- A call on an existing record: when it returns, it returns `False` if and only if the guard
refuses it. Without exceptions of the database it returns. -/
theorem complete_updateCallStatus_of_find (hrow : w.store.calls.find requestId = some row)
    (status : Status) (u : StatusFields) (n : ℕ) :
    ∃ r m st cm, (updateCallStatus requestId status u).complete (World.respond e) n w =
        (r, m, { w with store := st, committed := cm }) ∧
      (∀ b, r = .ok b → b = !Latch.refuses Status.terminal row.status status ∧
        st = w.store.updateStatus requestId status (e.now (n + 1)) u) ∧
      (e.Calm → ∃ b, r = .ok b) := by
  obtain ⟨r, m, st, cm, hrun, -, hok, hcalm⟩ := complete_updateCallStatus e requestId status u n w
  refine ⟨r, m, st, cm, hrun, ?_, hcalm⟩
  rintro b rfl
  refine ⟨?_, hok b rfl⟩
  rw [refuses_terminal]
  have hselect : (updateCallStatus requestId status u).complete (World.respond e) n w = _ :=
    complete_execute_bind (s := .selectCall requestId) rfl _
  rw [hselect] at hrun
  simp only [hrow] at hrun
  -- each exception contradicts the return
  split at hrun
  · cases hrun
  · cases hguard : row.status.goesBack status with
    | true =>
      rw [if_pos hguard] at hrun
      cases hrun
      rfl
    | false =>
      rw [if_neg (Bool.eq_false_iff.1 hguard), complete_time_bind,
        complete_execute_bind rfl] at hrun
      split at hrun
      · cases hrun
      · rw [complete_commit_bind] at hrun
        split at hrun
        · cases hrun
        · cases hrun
          rfl

/-- The calls, one after the other. The induction follows them: the record of a call is the row that
the calls before it have left. -/
theorem complete_updateCallStatuses (hrow : w.store.calls.find requestId = some row)
    (calls : List StatusCall) (n : ℕ) :
    let returned := Latch.accepted Status.terminal row.status (calls.map fun c => c.status)
    let status := Latch.run Status.terminal row.status (calls.map fun c => c.status)
    ∃ r m t st cm, (updateCallStatuses requestId calls).complete (World.respond e) n w =
        (r, m, { w with store := st, committed := cm }) ∧
      (∀ l, r = .ok l → l = returned ∧ st.events = w.store.events ∧
        st.calls.rows = w.store.calls.rows.map fun r =>
          if r.requestId = requestId then row.afterCalls status (acceptedCalls calls returned) t
          else r) ∧
      (e.Calm → ∃ l, r = .ok l) := by
  induction calls generalizing n w row with
  | nil =>
    refine ⟨.ok [], n, row.updatedAt, w.store, w.committed, rfl, ?_, fun _ => ⟨_, rfl⟩⟩
    rintro l ⟨⟩
    exact ⟨rfl, rfl, (Table.map_at_key_self hrow).symm⟩
  | cons call calls ih =>
    obtain ⟨r, m, st₁, cm₁, hcall, hok, hcalm⟩ :=
      complete_updateCallStatus_of_find (e := e) hrow call.status call.fields n
    rw [updateCallStatuses, Coro.complete_bind, hcall]
    cases r with
    | error x =>
      refine ⟨.error x, m, 0, st₁, cm₁, rfl, ?_, ?_⟩
      · rintro l ⟨⟩
      · intro he
        obtain ⟨b, hb⟩ := hcalm he
        cases hb
    | ok b =>
      obtain ⟨rfl, hst₁⟩ := hok b rfl
      have hnext : st₁.calls.find requestId =
          some (row.guarded call.status (e.now (n + 1)) call.fields) := by
        rw [hst₁, Store.find_updateStatus, if_pos rfl, hrow, Option.map_some]
      have hstatus : (row.guarded call.status (e.now (n + 1)) call.fields).status =
          Latch.write Status.terminal row.status call.status := by
        rw [Latch.write, refuses_terminal, CallRecord.guarded]
        split <;> rfl
      obtain ⟨r', m', t, st, cm, hrest, hok', hcalm'⟩ :=
        ih (w := { w with store := st₁, committed := cm₁ }) hnext m
      rw [hstatus] at hok'
      dsimp only
      rw [Coro.complete_bind, hrest]
      cases r' with
      | error x =>
        refine ⟨.error x, m', 0, st, cm, rfl, ?_, ?_⟩
        · rintro l ⟨⟩
        · intro he
          obtain ⟨l, hl⟩ := hcalm' he
          cases hl
      | ok l =>
        refine ⟨.ok _, m', t, st, cm, rfl, ?_, fun _ => ⟨_, rfl⟩⟩
        rintro _ ⟨⟩
        obtain ⟨rfl, hevents, hrows⟩ := hok' l rfl
        refine ⟨rfl, ?_, ?_⟩
        · rw [hevents, hst₁, Store.events_updateStatus]
        · -- an update of an updated row, and the update of the row that is found
          rw [hrows, hst₁, Store.rows_updateStatus, Table.map_at_key hrow, List.map_map]
          apply List.map_congr_left
          intro r _
          have hkey : (row.guarded call.status (e.now (n + 1)) call.fields).requestId =
              requestId := by
            rw [← (Table.find_eq_some_iff.1 hnext).2]
          by_cases hr : r.requestId = requestId
          · simp only [Function.comp_apply, if_pos hr, if_pos hkey]
            exact row.afterCalls_guarded _ _ t call calls _
          · simp only [Function.comp_apply, if_neg hr]

end Alone

/-! ## Any sequence of calls -/

/-- For every existing record and every sequence of calls on it, one after the other, which return
unless the database raises an exception:

- a call returns `True` if and only if it does not ask for a non-terminal status after a terminal
  one, the initial status included;
- the final status is the last terminal one among the initial status and those of the calls, or the
  last of them when none is terminal;
- each optional column has the last value given by a call that returned `True`, or its initial
  value;
- nothing else changes, apart from `updated_at` of the record. -/
theorem update_call_status_sequence (e : Env) (w : World) (requestId : String) (row : CallRecord)
    (hrow : w.store.calls.find requestId = some row) (calls : List StatusCall) (n : ℕ) :
    (e.Calm → ∃ returned m w',
      (updateCallStatuses requestId calls).complete (World.respond e) n w =
        (.ok returned, m, w')) ∧
    ∀ returned m w', (updateCallStatuses requestId calls).complete (World.respond e) n w =
        (.ok returned, m, w') →
      returned.length = calls.length ∧
      (∀ i call, calls[i]? = some call →
        (returned[i]? = some true ↔ ¬ (call.status.terminal = false ∧
          ∃ status ∈ row.status :: (calls.take i).map (fun c => c.status),
            status.terminal = true))) ∧
      (∃ row', row' = row.afterCalls (lastTerminal row.status (calls.map fun c => c.status))
          (acceptedCalls calls returned) row'.updatedAt ∧
        w'.store.calls.rows = w.store.calls.rows.map fun r =>
          if r.requestId = requestId then row' else r) ∧
      w'.store.events = w.store.events ∧ w'.limiter = w.limiter ∧ w'.sent = w.sent ∧
        w'.logged = w.logged := by
  obtain ⟨r, m, t, st, cm, hrun, hok, hcalm⟩ := complete_updateCallStatuses (e := e) hrow calls n
  constructor
  · intro he
    obtain ⟨returned, rfl⟩ := hcalm he
    exact ⟨returned, m, _, hrun⟩
  · intro returned m' w' hreturns
    cases hrun.symm.trans hreturns
    obtain ⟨rfl, hevents, hrows⟩ := hok returned rfl
    rw [Latch.run_eq] at hrows
    refine ⟨?_, ?_, ⟨_, rfl, hrows⟩, hevents, rfl, rfl, rfl⟩
    · rw [Latch.length_accepted, List.length_map]
    · intro i call hcall
      have hstatus : (calls.map fun c => c.status)[i]? = some call.status := by
        rw [List.getElem?_map, hcall]
        rfl
      rw [Latch.accepted_iff row.status _ hstatus, List.map_take]

/-- An answered call that is played to its end; a late channel is refused, and the cause of the
hangup is still accepted. -/
def sampleCalls : List StatusCall :=
  [⟨.playing, {}⟩, ⟨.completed, { duration := some 30 }⟩, ⟨.ringing, { channel := some "late" }⟩,
    ⟨.failed, { hangupCause := some "16" }⟩]

theorem update_call_status_sequence_sample :
    ∃ returned m row' w', (updateCallStatuses firstId.text sampleCalls).complete
        (World.respond (.calm 7 firstId [])) 0 answeredWorld = (.ok returned, m, w') ∧
      returned[2]? ≠ some true ∧ returned[3]? = some true ∧ row'.status = .failed ∧
      w'.store.calls.rows = [row'] := by
  obtain ⟨hreturns, hall⟩ := update_call_status_sequence (.calm 7 firstId []) answeredWorld
    firstId.text answeredRecord rfl sampleCalls 0
  obtain ⟨returned, m, w', hrun⟩ := hreturns ⟨fun _ => rfl, fun _ => rfl⟩
  obtain ⟨-, hreturned, ⟨row', hrow, hrows⟩, -⟩ := hall returned m w' hrun
  refine ⟨returned, m, row', w', hrun, ?_, ?_, ?_, hrows⟩
  · rw [ne_eq, hreturned 2 _ rfl]
    decide
  · rw [hreturned 3 _ rfl]
    decide
  · rw [hrow]
    rfl

end OtpVoice
