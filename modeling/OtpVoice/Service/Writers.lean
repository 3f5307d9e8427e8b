import OtpVoice.Service.Footprint
import OtpVoice.Storage.Rows

/-!
# Who writes a status

Six places of the service call `update_call_status`. When each message is handled to completion,
nothing runs between the read and the write of that function, so that each executed `UPDATE` has a
reason (`Reason`): progress of the call, a failure that Asterisk reports or that the background task
meets (`Op.failures`), the end of the playback (`Op.completes`), or a hangup of the channel of the
record (`Op.hangsUp`). `updates_run` says this of every executed command of every run.
-/

set_option autoImplicit false

namespace OtpVoice

open Coroutine

/-! ## The reasons -/

/-- The record and the status for which a failed `OriginateResponse` asks. -/
def Message.failures (message : Message) : List (String × Status) :=
  match extractRequestId (message.get .actionID), originateFailure message with
  | some requestId, some status => [(requestId, status)]
  | _, _ => []

/-- The same for a message of a reply, which `originate` forwards if it is an
`OriginateResponse`. -/
def forwardedFailures : Option Message → List (String × Status)
  | some message => if message.get .event = some "OriginateResponse" then message.failures else []
  | none => []

/-- The failures that the outcome of the Originate action of a record leads to. -/
def replyFailures (requestId : String) (handler : Bool) :
    Except Exc Reply → List (String × Status)
  | .error _ => [(requestId, .failed)]
  | .ok reply =>
    match reply.messages with
    | [] => [(requestId, .failed)]
    | ack :: later =>
      if msgGet ack .response = some "Success" then
        if handler then later.flatMap forwardedFailures else []
      else [(requestId, .failed)]

/-- The failures that an operation writes in a turn with environment `e`; a background task waits
for its reply once it has submitted its action. -/
def Op.failures (submitted : Bool) (e : Env) : Op → List (String × Status)
  | .input (.amiEvent .originateResponse message) => message.failures
  | .execute task =>
    if submitted then replyFailures task.requestId e.handler e.reply
    else if e.client.isSome || !e.connected then [(task.requestId, .failed)] else []
  | _ => []

/-- The operation handles an `OTPPlaybackComplete` of the record. -/
def Op.completes (requestId : String) : Op → Bool
  | .input (.amiEvent .userEvent message) =>
    dialplanEvent message = some .playbackComplete && userEventRequestId message = some requestId
  | _ => false

/-- The operation handles a `Hangup` on the channel of the record. -/
def Op.hangsUp (row : CallRecord) : Op → Bool
  | .input (.amiEvent .hangup message) =>
    match orText (message.get .channel) none with
    | some channel => row.channel = some channel
    | none => false
  | _ => false

/-- Why an operation gives a record a status; the timeline has noted a hangup before. -/
inductive Asks (op : Op) (submitted : Bool) (e : Env) (events : List EventRow) (row : CallRecord) :
    Status → Prop
  | progress {status : Status} (h : status.terminal = false) : Asks op submitted e events row status
  | failure {status : Status} (h : (row.requestId, status) ∈ op.failures submitted e) :
    Asks op submitted e events row status
  | played (h : op.completes row.requestId = true) : Asks op submitted e events row .completed
  | hangup (message : Message) (hop : op = .input (.amiEvent .hangup message))
    (hchannel : op.hangsUp row = true) (hstatus : row.status.terminal = false)
    (hevents : ∃ ev ∈ events, ev.requestId = row.requestId ∧ ev.event = .hangup) :
    Asks op submitted e events row (hangupStatus (causeInt message) row.status)

/-- What an operation sees: the world, the environment of its turn, and whether it has submitted an
action. -/
abbrev Sight : Type := Service.View World Env Bool

/-- The records and the statuses for which an operation asks as its call makes progress. -/
def Op.progress (v : Sight) : Op → List (String × Status)
  | .input (.amiEvent .newstate message) =>
    match (orText (message.get .channel) none).bind (newestOfChannel v.world.store.calls),
        stateStatus message with
    | some row, some (status, _) => [(row.requestId, status)]
    | _, _ => []
  | .input (.amiEvent .userEvent message) =>
    match userEventRequestId message, dialplanEvent message with
    | some requestId, some .callStart =>
      if (orText (message.get .channel) none).isSome then [(requestId, .answered)] else []
    | some requestId, some .playbackStart => [(requestId, .playing)]
    | _, _ => []
  | .execute task => if v.memory then [] else [(task.requestId, .originating)]
  | _ => []

/-- The reason of an executed `UPDATE`. -/
inductive Reason (op : Op) (v : Sight) (row : CallRecord) : Status → Prop
  | progress {status : Status} (h : (row.requestId, status) ∈ op.progress v) :
    Reason op v row status
  | failure {status : Status} (h : (row.requestId, status) ∈ op.failures v.memory v.env) :
    Reason op v row status
  | played (h : op.completes row.requestId = true) : Reason op v row .completed
  | hangup (message : Message) (hop : op = .input (.amiEvent .hangup message))
    (hchannel : op.hangsUp row = true) (hstatus : row.status.terminal = false)
    (hevents : ∃ ev ∈ v.world.store.events, ev.requestId = row.requestId ∧ ev.event = .hangup) :
    Reason op v row (hangupStatus (causeInt message) row.status)

theorem Op.progress_terminal {op : Op} {v : Sight} {x : String × Status} (h : x ∈ op.progress v) :
    x.2.terminal = false := by
  unfold Op.progress at h
  split at h
  · split at h
    · rename_i hstatus
      rw [List.mem_singleton] at h
      subst h
      exact stateStatus_terminal hstatus
    · cases h
  · split at h
    · split at h
      · rw [List.mem_singleton] at h
        subst h
        rfl
      · cases h
    · rw [List.mem_singleton] at h
      subst h
      rfl
    · cases h
  · split at h
    · cases h
    · rw [List.mem_singleton] at h
      subst h
      rfl
  · cases h

theorem Reason.asks {op : Op} {v : Sight} {row : CallRecord} {status : Status}
    (h : Reason op v row status) :
    Asks op v.memory v.env v.world.store.events row status := by
  cases h with
  | progress h => exact .progress (Op.progress_terminal h)
  | failure h => exact .failure h
  | played h => exact .played h
  | hangup message hop hchannel hstatus hevents =>
    exact .hangup message hop hchannel hstatus hevents

/-- Each `UPDATE` has a reason and does not go back from a terminal status, and each created record
is queued. -/
def Updates (op : Op) (v : Sight) : Cmd → Prop
  | .execute (.updateCall fields values requestId) => ∃ row status now u,
    fields = updateFields u ∧ values = updateValues status now u ∧
      v.world.store.calls.find requestId = some row ∧ row.status.goesBack status = false ∧
        Reason op v row status
  | .execute (.insertCall row) => row.status = .queued
  | _ => True

/-- The monitor of the submitted action. -/
def submits (submitted : Bool) (ev : Ev) : Bool := submitted || ev.cmd.waitsForAsterisk

/-- From `v` on, the coroutine `p` of `op` writes only with a reason, and ends in `post`. -/
def Does {α : Type} (o : CallOriginator) (op : Op) (post : Except Exc α → Sight → Prop)
    (p : Prog α) (v : Sight) : Prop :=
  Coro.Sat ((sequential o).moves submits) (fun v c _ _ => Updates op v c) post p v

section Rules

variable {α β : Type} {o : CallOriginator} {op : Op} {post : Except Exc α → Sight → Prop}
variable {v : Sight}

theorem Does.bind {Q : Except Exc β → Sight → Prop} {p : Prog β} {f : β → Prog α}
    (hp : Does o op Q p v) (hok : ∀ a v', Q (.ok a) v' → Does o op post (f a) v')
    (herror : ∀ x v', Q (.error x) v' → post (.error x) v') : Does o op post (p >>= f) v := by
  refine (Coro.sat_bind post f p v).2 (Coro.Sat.mono (fun r v' hQ => ?_) hp)
  cases r with
  | ok a => exact hok a v' hQ
  | error x => exact herror x v' hQ

theorem Does.tryCatch {Q : Except Exc α → Sight → Prop} {p : Prog α} {h : Exc → Prog α}
    (hp : Does o op Q p v) (hok : ∀ a v', Q (.ok a) v' → post (.ok a) v')
    (herror : ∀ x v', Q (.error x) v' → Does o op post (h x) v') :
    Does o op post (tryCatch p h) v := by
  refine (Coro.sat_tryCatch post h p v).2 (Coro.Sat.mono (fun r v' hQ => ?_) hp)
  cases r with
  | ok a => exact hok a v' hQ
  | error x => exact herror x v' hQ

theorem Does.mono {post' : Except Exc α → Sight → Prop} {p : Prog α} (h : Does o op post p v)
    (hpost : ∀ r v', post r v' → post' r v') : Does o op post' p v :=
  Coro.Sat.mono hpost h

/-- One command that does not wait for Asterisk. -/
theorem does_issue {c : Cmd} {post : Except Exc c.Resp → Sight → Prop}
    (hc : c.waitsForAsterisk = false) (hupdates : Updates op v c)
    (hpost : ∀ n, post (World.respond v.env n v.world c).1
      ⟨(World.respond v.env n v.world c).2, v.env, v.memory⟩) :
    Does o op post (issue c) v := by
  rintro r ⟨w', e', m'⟩ ⟨n, rfl, hm, hkeep⟩
  obtain ⟨rfl, rfl⟩ := hkeep hc
  obtain rfl : m' = v.memory := hm.trans (by simp [submits, hc])
  exact ⟨hupdates, hpost n⟩

/-! ## Parts that change no record -/

/-- The commands that change the table of calls, those that may roll back included, or wait. -/
def loudKinds : List Kind :=
  [.insertCall, .updateCall, .countRetry, .insertEvent, .delete, .commit, .submit]

/-- A later view in the same turn with the same calls. -/
def Same (v v' : Sight) : Prop :=
  v'.world.store.calls = v.world.store.calls ∧ v'.env = v.env ∧ v'.memory = v.memory

/-- A later view in the same turn. -/
def Steady (v v' : Sight) : Prop := v'.env = v.env ∧ v'.memory = v.memory

theorem same_refl (v : Sight) : Same v v := ⟨rfl, rfl, rfl⟩

theorem Same.trans {v v' v'' : Sight} (h : Same v v') (h' : Same v' v'') : Same v v'' :=
  ⟨h'.1.trans h.1, h'.2.1.trans h.2.1, h'.2.2.trans h.2.2⟩

theorem Same.steady {v v' : Sight} (h : Same v v') : Steady v v' := h.2

theorem Steady.trans {v v' v'' : Sight} (h : Steady v v') (h' : Steady v' v'') : Steady v v'' :=
  ⟨h'.1.trans h.1, h'.2.trans h.2⟩

theorem calls_exec {s : Stmt} (hs : s.kind ∉ loudKinds) (st : Store) :
    (s.exec st).2.calls = st.calls := by
  cases s <;> first
    | rfl
    | exact absurd (by simp [Stmt.kind, loudKinds]) hs

theorem loud_of_rollsBack {c : Cmd} {e : Env} {n : ℕ} (h : e.rollsBack n c = true) :
    c.kind ∈ loudKinds := by
  cases c with
  | execute s =>
    obtain ⟨-, hundoes⟩ := Bool.and_eq_true_iff.1 h
    cases s <;> first
      | simp [Cmd.kind, Stmt.kind, loudKinds]; done
      | cases hundoes
  | commit => simp [Cmd.kind, loudKinds]
  | _ => cases h

theorem calls_respond {c : Cmd} (hc : c.kind ∉ loudKinds) (e : Env) (n : ℕ) (w : World) :
    (World.respond e n w c).2.store.calls = w.store.calls := by
  rcases World.respond_store e n w c with h | ⟨s, rfl, -, h⟩ | ⟨hundone, -⟩
  · rw [h]
  · rw [h]
    exact calls_exec hc w.store
  · exact absurd (loud_of_rollsBack hundone) hc

theorem updates_of_quiet {c : Cmd} (hc : c.kind ∉ loudKinds) : Updates op v c := by
  unfold Updates
  split
  · exact absurd (by simp [Cmd.kind, Stmt.kind, loudKinds]) hc
  · exact absurd (by simp [Cmd.kind, Stmt.kind, loudKinds]) hc
  · trivial

theorem waits_of_quiet {c : Cmd} (hc : c.kind ∉ loudKinds) : c.waitsForAsterisk = false := by
  cases c <;> first
    | rfl
    | exact absurd (by simp [Cmd.kind, loudKinds]) hc

theorem does_quiet {ks : List Kind} {p : Prog α} (hp : Touches ks p)
    (hks : ks.all (fun k => k ∉ loudKinds) = true) :
    Does o op (fun _ v' => Same v v') p v := by
  refine Coro.Sat.of_uses (I := Same v) ?_ hp (same_refl v)
  rintro u c r u' hc hu ⟨n, rfl, hm, hkeep⟩
  have hc' : c.kind ∉ loudKinds := of_decide_eq_true (List.all_eq_true.1 hks _ hc)
  obtain ⟨hw, he⟩ := hkeep (waits_of_quiet hc')
  refine ⟨updates_of_quiet hc', hu.trans ⟨?_, he, ?_⟩⟩
  · rw [hw]
    exact calls_respond hc' _ _ _
  · rw [hm]
    simp [submits, waits_of_quiet hc']

/-- A part that changes no record, before the rest. -/
theorem does_quiet_bind {ks : List Kind} {p : Prog β} {f : β → Prog α} (hp : Touches ks p)
    (hks : ks.all (fun k => k ∉ loudKinds) = true)
    (hok : ∀ a v', Same v v' → Does o op post (f a) v')
    (herror : ∀ x v', Same v v' → post (.error x) v') : Does o op post (p >>= f) v :=
  (does_quiet hp hks).bind hok herror

/-! ## Reads and writes of records -/

/-- A read gives what its statement selects, and changes nothing. -/
theorem does_read {s : Stmt} {a : s.Result} (hs : Updates op v (.execute s))
    (hreads : s.writes = false) (hread : s.exec v.world.store = (.ok a, v.world.store)) :
    Does o op (fun r v' => v' = v ∧ ∀ b, r = .ok b → a = b) (execute s) v := by
  apply does_issue rfl hs
  intro n
  cases hfault : v.env.fault n with
  | none =>
    have hanswer : World.respond v.env n v.world (.execute s) = (.ok a, v.world) := by
      rw [World.respond_execute hfault]
      simp only [World.answer, hread]
    rw [hanswer]
    exact ⟨rfl, fun b hb => Except.ok.inj hb⟩
  | some text =>
    rw [World.respond_fault hfault, World.undo_read _ _ hreads]
    exact ⟨rfl, fun b hb => by cases hb⟩

theorem does_getCallRecord (requestId : String) :
    Does o op (fun r v' => v' = v ∧ ∀ record, r = .ok record →
      v.world.store.calls.find requestId = record) (getCallRecord requestId) v :=
  does_read trivial rfl rfl

theorem does_getCallByChannel (channel : String) :
    Does o op (fun r v' => v' = v ∧ ∀ record, r = .ok record →
      newestOfChannel v.world.store.calls channel = record) (getCallByChannel channel) v :=
  does_read trivial rfl rfl

theorem does_time : Does o op (fun _ v' => v' = v) time v := by
  refine does_issue rfl trivial fun n => ?_
  rw [World.respond_of_not_mayRaise rfl]
  rfl

theorem does_commit : Does o op (fun _ v' => Steady v v') commit v :=
  does_issue rfl trivial fun _ => ⟨rfl, rfl⟩

/-- The spec of `update_call_status`: it needs a reason for the row that it reads. -/
theorem does_updateCallStatus {requestId : String} {status : Status} {u : StatusFields}
    (h : ∀ row, v.world.store.calls.find requestId = some row → Reason op v row status) :
    Does o op (fun _ v' => Steady v v') (updateCallStatus requestId status u) v := by
  refine (does_getCallRecord requestId).bind ?_ ?_
  · rintro record v' ⟨hv, hrow⟩
    obtain rfl := hv.symm
    replace hrow := hrow record rfl
    match record with
    -- an unknown id, and a status that may not go back, leave everything as it is
    | none => exact ⟨rfl, rfl⟩
    | some record =>
      dsimp only
      split
      · exact ⟨rfl, rfl⟩
      · rename_i hguard
        have hupdate : ∀ now, Does o op (fun _ v' => Steady v v')
            (execute (.updateCall (updateFields u) (updateValues status now u) requestId)) v :=
          fun now => does_issue rfl
            ⟨record, status, now, u, rfl, rfl, hrow, by simpa using hguard, h record hrow⟩
            fun n => ⟨rfl, rfl⟩
        -- the row read is still the row of the `UPDATE`: nothing waits for Asterisk in between
        refine does_time.bind ?_ fun x v' hv' => by rw [hv']; exact ⟨rfl, rfl⟩
        rintro now v' hv'
        obtain rfl := hv'.symm
        refine (hupdate now).bind ?_ fun x v' hv' => hv'
        intro k v' hv'
        exact does_commit.bind (fun _ v'' h => hv'.trans h) fun x v'' h => hv'.trans h
  · rintro x v' ⟨rfl, -⟩
    exact ⟨rfl, rfl⟩

theorem does_progress {requestId : String} {status : Status} {u : StatusFields}
    (h : (requestId, status) ∈ op.progress v) :
    Does o op (fun _ v' => Steady v v') (updateCallStatus requestId status u) v := by
  refine does_updateCallStatus fun row hrow => .progress ?_
  rw [(Table.find_eq_some_iff.1 hrow).2]
  exact h

/-- `add_event`, when it returns, has put a row into the timeline and changed no record. -/
theorem does_addEvent (requestId : String) (event : EventName) (detail : Option String) :
    Does o op (fun r v' => Steady v v' ∧ ((∃ u, r = .ok u) →
      v'.world.store.calls = v.world.store.calls ∧ ∃ ev ∈ v'.world.store.events,
        ev.requestId = requestId ∧ ev.event = event)) (addEvent requestId event detail) v := by
  refine does_quiet_bind touches_time (by decide) (fun now v₁ h₁ => ?_)
    fun x v' h => ⟨h.steady, by rintro ⟨_, hr⟩; cases hr⟩
  refine Does.bind (Q := fun r v' => Steady v v' ∧ ∀ k, r = .ok k →
    v'.world.store.calls = v.world.store.calls ∧
      ⟨requestId, event, detail, now⟩ ∈ v'.world.store.events) ?_ ?_
    fun x v' h => ⟨h.1, by rintro ⟨_, hr⟩; cases hr⟩
  · refine does_issue rfl trivial fun n => ⟨h₁.steady, fun k hreturns => ?_⟩
    cases hfault : v₁.env.fault n with
    | none =>
      rw [World.respond_execute hfault]
      exact ⟨h₁.1, List.mem_append_right _ (List.mem_singleton_self _)⟩
    | some text =>
      rw [World.respond_fault hfault] at hreturns
      cases hreturns
  · rintro k v₂ ⟨h₂, hev⟩
    refine does_issue rfl trivial fun n => ⟨h₂, fun hreturns => ?_⟩
    cases hfault : v₂.env.commitFault n with
    | none =>
      rw [World.respond_commit hfault]
      exact ⟨(hev k rfl).1, ⟨requestId, event, detail, now⟩, (hev k rfl).2, rfl, rfl⟩
    | some text =>
      rw [World.respond_commitFault hfault] at hreturns
      obtain ⟨_, h⟩ := hreturns
      cases h

end Rules

/-! ## The event handlers -/

section Handlers

variable {o : CallOriginator} {op : Op} {v : Sight}

theorem does_onOriginateResponse {message : Message}
    (h : ∀ x ∈ message.failures, x ∈ op.failures v.memory v.env) :
    Does o op (fun _ v' => Steady v v') (onOriginateResponse message) v := by
  unfold onOriginateResponse
  cases hid : extractRequestId (message.get .actionID) with
  | none => exact ⟨rfl, rfl⟩
  | some requestId =>
    refine (does_addEvent _ _ _).bind (fun _ v' hv' => ?_) fun x v' hv' => hv'.1
    replace hv' := hv'.1
    cases hstatus : originateFailure message with
    | none => exact hv'
    | some status =>
      refine (does_updateCallStatus fun row hrow => ?_).bind (fun _ v'' h => hv'.trans h)
        fun x v'' h => hv'.trans h
      obtain ⟨-, rfl⟩ := Table.find_eq_some_iff.1 hrow
      refine .failure ?_
      rw [hv'.1, hv'.2]
      exact h _ (by simp [Message.failures, hid, hstatus])

theorem does_onNewState {message : Message} (hop : op = .input (.amiEvent .newstate message)) :
    Does o op (fun _ _ => True) (onNewState message) v := by
  unfold onNewState
  cases hchannel : orText (message.get .channel) none with
  | none => trivial
  | some channel =>
    refine (does_getCallByChannel _).bind (fun record v' hv' => ?_) fun _ _ _ => trivial
    obtain ⟨rfl, hrecord⟩ := hv'
    cases record with
    | none => trivial
    | some record =>
      cases hstatus : stateStatus message with
      | none => trivial
      | some x =>
        obtain ⟨status, event⟩ := x
        have hprogress : (record.requestId, status) ∈ op.progress v' := by
          simp [hop, Op.progress, hchannel, hstatus, hrecord _ rfl]
        refine (does_progress hprogress).bind (fun _ v'' _ => ?_) fun _ _ _ => trivial
        exact (does_addEvent _ _ _).mono fun _ _ _ => trivial

theorem does_onHangup {message : Message} (hop : op = .input (.amiEvent .hangup message)) :
    Does o op (fun _ _ => True) (onHangup message) v := by
  unfold onHangup
  cases hchannel : orText (message.get .channel) none with
  | none => trivial
  | some channel =>
    refine (does_getCallByChannel channel).bind (fun record v' hv' => ?_) fun _ _ _ => trivial
    obtain ⟨rfl, hrecord⟩ := hv'
    cases record with
    | none => trivial
    | some record =>
      obtain ⟨hfind, hrow⟩ := mem_of_newestOfChannel (hrecord _ rfl)
      refine (does_addEvent _ _ _).bind (fun _ v' hv' => ?_) fun _ _ _ => trivial
      obtain ⟨hsame, hevents⟩ := hv'.2 ⟨_, rfl⟩
      split
      · trivial
      · rename_i hstatus
        refine (does_updateCallStatus fun row hread => ?_).bind (fun _ _ _ => trivial)
          fun _ _ _ => trivial
        -- `add_event` has not changed the record found by its channel
        rw [hsame, hfind] at hread
        cases hread
        exact .hangup message hop (by simp [hop, Op.hangsUp, hchannel, hrow])
          (by simpa using hstatus) hevents

theorem does_onUserEvent {message : Message} (hop : op = .input (.amiEvent .userEvent message)) :
    Does o op (fun _ _ => True) (onUserEvent message) v := by
  unfold onUserEvent
  cases hid : userEventRequestId message with
  | none => trivial
  | some requestId =>
    have hevent : ∀ v' event detail,
        Does o op (fun _ _ => True) (addEvent requestId event detail) v' :=
      fun v' event detail => (does_addEvent _ _ _).mono fun _ _ _ => trivial
    dsimp only
    split
    · rename_i hstart
      cases hchannel : orText (message.get .channel) none with
      | none => exact hevent _ _ _
      | some channel =>
        refine (does_progress ?_).bind (fun _ _ _ => hevent _ _ _) fun _ _ _ => trivial
        simp [hop, Op.progress, hid, hstart, hchannel]
    · rename_i hplayback
      refine (does_progress ?_).bind (fun _ _ _ => hevent _ _ _) fun _ _ _ => trivial
      simp [hop, Op.progress, hid, hplayback]
    · rename_i hcomplete
      refine (does_updateCallStatus fun row hrow => ?_).bind (fun _ _ _ => hevent _ _ _)
        fun _ _ _ => trivial
      obtain ⟨-, rfl⟩ := Table.find_eq_some_iff.1 hrow
      exact .played (by simp [hop, Op.completes, hcomplete, hid])
    · trivial

theorem does_dispatch {kind : EventKind} {message : Message}
    (hop : op = .input (.amiEvent kind message)) :
    Does o op (fun _ _ => True) (dispatch kind message) v := by
  cases kind with
  | originateResponse =>
    refine (does_onOriginateResponse fun x hx => ?_).mono fun _ _ _ => trivial
    rw [hop]
    exact hx
  | newchannel => trivial
  | newstate => exact does_onNewState hop
  | hangup => exact does_onHangup hop
  | userEvent => exact does_onUserEvent hop

end Handlers

/-! ## The background task -/

section Execute

variable {α : Type} {o : CallOriginator} {task : CallTask} {v : Sight}

/-- The task may mark its record as failed. -/
def MayFail (task : CallTask) (v : Sight) : Prop :=
  (task.requestId, Status.failed) ∈ (Op.execute task).failures v.memory v.env

theorem MayFail.steady {v' : Sight} (h : MayFail task v) (hv' : Steady v v') : MayFail task v' := by
  rw [MayFail, hv'.1, hv'.2]
  exact h

/-- How `originate` ends: a call that is not accepted may be marked as failed. -/
def Originated (task : CallTask) (r : Except Exc (Bool × Option String)) (v : Sight) : Prop :=
  (∀ error, r ≠ .ok (true, error)) → MayFail task v

theorem does_log {op : Op} (level : Level) (line : String) :
    Does o op (fun r v' => Steady v v' ∧ r = .ok ()) (log level line) v := by
  refine does_issue rfl trivial fun n => ?_
  rw [World.respond_of_not_mayRaise rfl]
  exact ⟨⟨rfl, rfl⟩, rfl⟩

theorem does_fail {u : StatusFields} (h : MayFail task v) :
    Does o (.execute task) (fun _ v' => MayFail task v')
      (updateCallStatus task.requestId .failed u) v := by
  refine (does_updateCallStatus fun row hrow => ?_).mono fun _ v' hv' => h.steady hv'
  obtain ⟨-, hid⟩ := Table.find_eq_some_iff.1 hrow
  exact .failure (hid ▸ h)

/-- Each forwarded message asks only for failures of the reply, and no exception of its handling
gets through. -/
theorem does_forward {messages : List (Option Message)}
    (h : ∀ x ∈ (if v.env.handler then messages.flatMap forwardedFailures else []),
      x ∈ (Op.execute task).failures v.memory v.env) :
    Does o (.execute task) (fun r _ => r = .ok ()) (CallOriginator.forward messages) v := by
  -- the memory and the environment stay what they are in this turn, and with them the bound `h`
  induction messages generalizing v with
  | nil => exact rfl
  | cons message rest ih =>
    have hrest : ∀ v', Steady v v' →
        Does o (.execute task) (fun r _ => r = .ok ()) (CallOriginator.forward rest) v' := by
      refine fun v' hv' => ih fun x hx => ?_
      rw [hv'.1] at hx ⊢
      rw [hv'.2]
      apply h x
      split at hx
      · rename_i hhandler
        rw [if_pos hhandler, List.flatMap_cons]
        exact List.mem_append_right _ hx
      · cases hx
    cases message with
    | none => exact hrest v ⟨rfl, rfl⟩
    | some message =>
      unfold CallOriginator.forward
      split
      · rename_i hevent
        refine Does.bind (Q := fun r v' => Steady v v' ∧ r = .ok ()) (Does.tryCatch
          (Q := fun _ v' => Steady v v') ?_ (fun _ _ h => ⟨h, rfl⟩) fun x v' hv' => ?_)
          (fun _ v' hv' => hrest v' hv'.1) fun _ _ h => by cases h.2
        · have hready : Does o (.execute task) (fun r v' => v' = v ∧ r = .ok v.env.handler)
              hasEventHandler v := by
            refine does_issue rfl trivial fun n => ?_
            rw [World.respond_of_not_mayRaise rfl]
            exact ⟨rfl, rfl⟩
          refine hready.bind ?_ fun x v' hv' => by cases hv'.2
          rintro ready v' ⟨rfl, hreply⟩
          cases hreply
          split
          · rename_i hhandler
            refine does_onOriginateResponse fun x hx => h x ?_
            rw [if_pos hhandler, List.flatMap_cons]
            exact List.mem_append_left _ (by simpa [forwardedFailures, hevent] using hx)
          · exact ⟨rfl, rfl⟩
        · exact (does_log _ _).mono fun _ v'' h => ⟨hv'.trans h.1, h.2⟩
      · exact hrest v ⟨rfl, rfl⟩

/-- The judgement on a reply for which the task has waited. -/
theorem does_judge {reply : Reply} (mobile : String) (hsubmitted : v.memory = true)
    (hreply : v.env.reply = .ok reply) :
    Does o (.execute task) (Originated task) (CallOriginator.judge mobile reply.messages) v := by
  have hfailures : (Op.execute task).failures v.memory v.env =
      replyFailures task.requestId v.env.handler (.ok reply) := by
    rw [hsubmitted, ← hreply]
    rfl
  cases hmessages : reply.messages with
  | nil => exact fun _ => by simp [MayFail, hfailures, replyFailures, hmessages]
  | cons ack later =>
    simp only [CallOriginator.judge]
    split
    · rename_i hsuccess
      refine (does_forward fun x hx => ?_).bind (fun _ _ _ hno => absurd rfl (hno none))
        fun _ _ h => by cases h
      simpa [hfailures, replyFailures, hmessages, hsuccess] using hx
    · rename_i hfail
      have hmay : MayFail task v := by
        simp [MayFail, hfailures, replyFailures, hmessages, hfail]
      exact (does_log _ _).bind (fun _ v' h _ => hmay.steady h.1) fun _ v' h => by cases h.2

/-- The outcome of a submitted action is the reply of the environment. -/
def Replied (r : Except Exc Reply) (v : Sight) : Prop :=
  v.memory = true ∧ match r with
    | .ok reply => v.env.reply = .ok reply
    | .error _ => ∃ x, v.env.reply = .error x

theorem does_sendAction {op : Op} (action : Action) (hconnected : v.env.connected = true) :
    Does o op Replied (sendAction action) v := by
  have hlink : Does o op (fun r v' => Steady v v' ∧ r = .ok true) isConnected v := by
    refine does_issue rfl trivial fun n => ?_
    rw [World.respond_of_not_mayRaise rfl]
    exact ⟨⟨rfl, rfl⟩, congrArg Except.ok hconnected⟩
  refine hlink.bind ?_ fun _ _ h => by cases h.2
  rintro connected v₁ ⟨-, hok⟩
  cases hok
  -- the wait ends in a later turn: of the view only the submission is kept, and the reply is that
  -- of the new environment
  have hwait : ∀ v₂ : Sight, v₂.memory = true →
      Does o op (fun r v' => v'.memory = true ∧ r = v'.env.reply) awaitReply v₂ := by
    refine fun v₂ hv₂ => does_issue rfl trivial fun n => ?_
    rw [World.respond_of_not_mayRaise rfl]
    exact ⟨hv₂, rfl⟩
  have hsubmit :
      Does o op (fun r v' => v'.memory = true ∧ r = .ok ()) (submitAction action) v₁ := by
    rintro r v₂ ⟨n, rfl, hm, -⟩
    refine ⟨trivial, hm.trans (by simp [submits, Cmd.waitsForAsterisk]), ?_⟩
    rfl
  refine Does.bind (Q := fun r v' => v' = v₁ ∧ r = .ok ()) ⟨rfl, rfl⟩ ?_ fun _ _ h => by cases h.2
  rintro _ v₂ ⟨rfl, -⟩
  refine Does.tryCatch (Q := fun r v' => v'.memory = true ∧ r = v'.env.reply)
    (hsubmit.bind (fun _ v' h => hwait v' h.1) fun _ _ h => by cases h.2) ?_ ?_
  · exact fun reply v' h => ⟨h.1, h.2.symm⟩
  · intro e v' h
    have herror : Replied (.error e) v' := ⟨h.1, e, h.2.symm⟩
    split
    · exact herror
    · refine (does_log _ _).bind (fun _ v'' h' => ?_) fun _ _ h' => by cases h'.2
      exact ⟨h'.1.2.trans h.1, e, h'.1.1 ▸ h.2.symm⟩

theorem does_attempt {p : Prog α} {op : Op} {Q : Except Exc α → Sight → Prop}
    (hp : Does o op Q p v) :
    Does o op (fun r v' => ∃ result, r = .ok result ∧ Q result v') (attempt p) v :=
  Does.tryCatch (Q := fun r v' => (∃ a, r = .ok (.ok a) ∧ Q (.ok a) v') ∨
      ∃ x, r = .error x ∧ Q (.error x) v')
    (hp.bind (fun a v' h => .inl ⟨a, rfl, h⟩) fun x v' h => .inr ⟨x, rfl, h⟩)
    (fun a v' h => by
      obtain ⟨a', ha, hQ⟩ | ⟨x, hx, -⟩ := h
      · exact ⟨.ok a', ha, hQ⟩
      · cases hx)
    fun x v' h => by
      obtain ⟨a', ha, -⟩ | ⟨x', hx, hQ⟩ := h
      · cases ha
      · cases hx
        exact ⟨.error x, rfl, hQ⟩

theorem mayFail_of_replied {x : Exc} (h : Replied (.error x) v) : MayFail task v := by
  obtain ⟨hsubmitted, y, hreply⟩ := h
  simp [MayFail, Op.failures, hsubmitted, hreply, replyFailures]

/-- `originate` before it has submitted the action: the task may fail if the AMI client is missing
or not connected. -/
theorem does_originate (hsubmitted : v.memory = false) :
    Does o (.execute task) (Originated task)
      (o.originate task.requestId task.mobile task.code task.repeatCount originateTimeout) v := by
  have hfailures : (Op.execute task).failures v.memory v.env =
      if v.env.client.isSome || !v.env.connected then [(task.requestId, .failed)] else [] := by
    rw [hsubmitted]
    rfl
  refine (does_log _ _).bind ?_ fun _ _ h => by cases h.2
  rintro _ v₁ ⟨h₁, -⟩
  have hclient : Does o (.execute task) (fun r v' => Steady v v' ∧
      ∀ x, r = .error x → v.env.client.isSome = true) getAmiClient v₁ := by
    refine does_issue rfl trivial fun n => ⟨h₁, fun x hx => ?_⟩
    rw [World.respond_of_not_mayRaise rfl, h₁.1] at hx
    simp only [World.answer] at hx
    split at hx
    · cases hx
    · simp [*]
  -- an exception of `get_ami_client` leaves `originate`; the task then marks its record
  refine hclient.bind ?_ fun x v' h _ => ?_
  swap
  · refine MayFail.steady (v := v) ?_ h.1
    simp [MayFail, hfailures, h.2 x rfl]
  rintro _ v₂ ⟨h₂, -⟩
  have hlink : Does o (.execute task) (fun r v' => Steady v v' ∧ r = .ok v.env.connected)
      isConnected v₂ := by
    refine does_issue rfl trivial fun n => ⟨h₂, ?_⟩
    rw [World.respond_of_not_mayRaise rfl, h₂.1]
    rfl
  refine hlink.bind ?_ fun _ _ h => by cases h.2
  rintro connected v₃ ⟨h₃, hok⟩
  cases hok
  split
  · rename_i hconnected
    refine (does_attempt (does_sendAction _ (by rw [h₃.1]; exact hconnected))).bind ?_ ?_
    · rintro result v₄ ⟨_, hok, hreplied⟩
      cases hok
      have hlog : ∀ level line error, MayFail task v₄ → Does o (.execute task) (Originated task)
          (log level line >>= fun _ => pure (false, error)) v₄ := fun level line error h =>
        (does_log _ _).bind (fun _ v' h' _ => h.steady h'.1) fun _ _ h' => by cases h'.2
      -- a timeout, a lost connection and any other exception of the action all end in `failed`
      cases result with
      | ok reply => exact does_judge _ hreplied.1 hreplied.2
      | error x => cases x <;> exact hlog _ _ _ (mayFail_of_replied hreplied)
    · rintro x v₄ ⟨_, hok, -⟩
      cases hok
  · rename_i hconnected
    refine fun _ => MayFail.steady (v := v) ?_ h₃
    simp [MayFail, hfailures, hconnected]

theorem does_executeBody (hsubmitted : v.memory = false) :
    Does o (.execute task) (fun r v' => ∀ x, r = .error x → MayFail task v') (executeBody o task)
      v := by
  refine (does_originate hsubmitted).bind ?_ fun x v' h x' hx' => h fun error h' => by cases h'
  rintro ⟨accepted, error⟩ v' h
  dsimp only
  split
  · exact fun _ h => by cases h
  · rename_i haccepted
    have hmay : MayFail task v' := h fun error' h' => by
      cases h'
      exact haccepted rfl
    refine (does_fail hmay).bind (fun _ v₁ h₁ => ?_) fun _ _ h₁ _ _ => h₁
    refine (does_addEvent _ _ _).bind (fun _ v₂ h₂ => ?_) fun _ v₂ h₂ _ _ => h₁.steady h₂.1
    exact (does_log _ _).mono fun r v₃ h₃ x hx => by cases h₃.2.symm.trans hx

theorem does_executeHandler {e : Exc} (h : MayFail task v) :
    Does o (.execute task) (fun _ _ => True) (executeHandler task e) v :=
  (does_log _ _).bind (fun _ _ h' => (does_fail (h.steady h'.1)).bind
    (fun _ _ _ => (does_addEvent _ _ _).mono fun _ _ _ => trivial) fun _ _ _ => trivial)
    fun _ _ _ => trivial

theorem does_executeCall (hsubmitted : v.memory = false) :
    Does o (.execute task) (fun _ _ => True) (executeCall o task) v := by
  -- the prologue only makes progress, so it keeps the view for the `try`
  have hprologue : Does o (.execute task) (fun _ v' => Steady v v') (executePrologue task) v := by
    refine does_quiet_bind touches_acquireSlot (by decide) (fun _ v₁ h₁ => ?_)
      fun _ v₁ h₁ => h₁.steady
    have hprogress : (task.requestId, Status.originating) ∈ (Op.execute task).progress v₁ := by
      simp [Op.progress, h₁.2.2, hsubmitted]
    exact (does_progress hprogress).bind (fun _ v₂ h₂ => (does_addEvent _ _ _).mono fun _ v₃ h₃ =>
      (h₁.steady.trans h₂).trans h₃.1) fun _ v₂ h₂ => h₁.steady.trans h₂
  refine hprologue.bind (fun _ v₁ h₁ => ?_) fun _ _ _ => trivial
  have htry : Does o (.execute task) (fun _ _ => True)
      (tryCatch (executeBody o task) (executeHandler task)) v₁ :=
    (does_executeBody (h₁.2.trans hsubmitted)).tryCatch (fun _ _ _ => trivial)
      fun x v₂ h₂ => does_executeHandler (h₂ x rfl)
  refine (Coro.sat_tryFinally _ _ _ _).2 (Coro.Sat.mono (fun r v₂ _ => ?_) htry)
  exact does_quiet_bind touches_releaseSlot (by decide) (fun _ _ _ => trivial)
    fun _ _ _ => trivial

end Execute

/-! ## All operations -/

/-- A command that updates no status, and creates only queued records. -/
def Cmd.Fresh : Cmd → Prop
  | .execute (.updateCall _ _ _) => False
  | .execute (.insertCall row) => row.status = .queued
  | _ => True

theorem Cmd.fresh_of_kind {c : Cmd} (hc : c.kind ∉ [Kind.updateCall, .insertCall]) :
    c.Fresh := by
  unfold Fresh
  split
  · exact absurd (by simp [Cmd.kind, Stmt.kind]) hc
  · exact absurd (by simp [Cmd.kind, Stmt.kind]) hc
  · trivial

section Requests

variable {α : Type} {o : CallOriginator} {op : Op} {v : Sight}

theorem uses_fresh {ks : List Kind} {p : Prog α} (hp : Touches ks p)
    (hks : ks.all (fun k => k ∉ [Kind.updateCall, .insertCall]) = true) : Coro.Uses Cmd.Fresh p :=
  Coro.Uses.mono (fun _ hc =>
    Cmd.fresh_of_kind (of_decide_eq_true (List.all_eq_true.1 hks _ hc))) hp

theorem does_fresh {p : Prog α} (hp : Coro.Uses Cmd.Fresh p) :
    Does o op (fun _ _ => True) p v := by
  refine Coro.Sat.of_uses (I := fun _ => True) (fun v c _ _ hc _ _ => ⟨?_, trivial⟩) hp trivial
  cases c with
  | execute s =>
    cases s with
    | updateCall fields values requestId => exact hc.elim
    | insertCall row => exact hc
    | _ => trivial
  | _ => trivial

theorem uses_fresh_createCallRecord (mobile code codeMasked : String) (parent : Option String) :
    Coro.Uses Cmd.Fresh (createCallRecord mobile code codeMasked parent) :=
  (uses_fresh touches_uuid4 (by decide)).bind fun _ => (uses_fresh touches_time (by decide)).bind
    fun _ => Coro.Uses.bind (Coro.Uses.perform rfl) fun _ =>
      (uses_fresh touches_commit (by decide)).bind fun _ =>
        (uses_fresh (touches_addEvent _ _ _) (by decide)).bind fun _ => trivial

theorem uses_fresh_input {x : Input} (hx : x.passive = false) : Coro.Uses Cmd.Fresh x.body := by
  have hlimits : ∀ mobile, Coro.Uses Cmd.Fresh (checkLimits mobile) :=
    fun mobile => uses_fresh (touches_checkLimits mobile) (by decide)
  have hend : ∀ level line answer, Coro.Uses Cmd.Fresh
      (log level line >>= fun _ => (pure answer : Prog Answer)) := fun level line answer =>
    (uses_fresh (touches_log level line) (by decide)).bind fun _ => trivial
  cases x with
  | otpCall request =>
    exact (hlimits _).bind fun _ => (uses_fresh_createCallRecord _ _ _ _).bind fun _ => hend _ _ _
  | retry requestId body =>
    apply (uses_fresh (touches_getCallRecord requestId) (by decide)).bind
    intro record
    cases record with
    | none => trivial
    | some record =>
      refine (uses_fresh (touches_nothing_raiseUnless _ _) (by decide)).bind fun _ =>
        (uses_fresh (touches_nothing_raiseUnless _ _) (by decide)).bind fun _ => ?_
      exact (hlimits _).bind fun _ => (uses_fresh_createCallRecord _ _ _ _).bind fun _ =>
        (uses_fresh (touches_incrementRetry _) (by decide)).bind fun _ => hend _ _ _
  | _ => cases hx

/-- Every operation writes only with a reason. -/
theorem does_body (hv : v.memory = false) : Does o op (fun _ _ => True) (op.body o) v := by
  cases op with
  | execute task => exact (does_executeCall hv).bind (fun _ _ _ => trivial) fun _ _ _ => trivial
  | input x =>
    cases x with
    | otpCall request => exact does_fresh (uses_fresh_input (x := .otpCall request) rfl)
    | retry requestId body =>
      exact does_fresh (uses_fresh_input (x := .retry requestId body) rfl)
    | status requestId => exact does_fresh (uses_fresh (touches_getCallStatus _) (by decide))
    | health => exact does_fresh (uses_fresh touches_healthCheck (by decide))
    | amiEvent kind message =>
      exact (does_dispatch rfl).bind (fun _ _ _ => trivial) fun _ _ _ => trivial
    | cleanup =>
      exact does_fresh ((uses_fresh touches_periodicCleanup (by decide)).bind fun _ => trivial)

end Requests

/-- The thread has submitted its action in the given trace. -/
def submitted (i : ℕ) (tr : List (ℕ × Ev)) : Bool := Service.monitored submits false i tr

/-- What the thread of the `n`-th event `x` of a run sees before it. -/
def sightBefore (o : CallOriginator) (w₀ : World) (s : Conf) (n : ℕ) (x : ℕ × Ev) : Sight :=
  ⟨(sequential o).worldAfter w₀ s.trace n, x.2.env, submitted x.1 (s.trace.take n)⟩

/-- Every executed command of a run writes only with a reason. -/
theorem updates_run (o : CallOriginator) (w₀ : World) (acts : List Turn) {n : ℕ} {x : ℕ × Ev}
    (h : ((sequential o).run (Config.initial w₀) acts).trace[n]? = some x) :
    ∃ op, ((sequential o).run (Config.initial w₀) acts).opOf x.1 = some op ∧
      Updates op (sightBefore o w₀ ((sequential o).run (Config.initial w₀) acts) n x) x.2.cmd := by
  -- the rule of runs, at the monitor that notes the submission
  have hkeeps : ∀ op w e, (sequential o).Keeps submits (fun op v c _ _ => Updates op v c)
      (fun _ _ _ => True) op (op.body o) ⟨w, e, false⟩ := fun op w e => does_body rfl
  have hrun := (sequential o).run_spec hkeeps w₀ acts
  obtain ⟨hn, hx⟩ := List.getElem?_eq_some_iff.1 h
  have hsplit := (List.take_append_drop n
    ((sequential o).run (Config.initial w₀) acts).trace).symm
  rw [List.drop_eq_getElem_cons hn, hx] at hsplit
  obtain ⟨t, ht, hupdates⟩ := hrun.events _ _ _ _ hsplit
  exact ⟨t.op, Config.opOf_eq_some_iff.2 ⟨t.prog, ht⟩, hupdates⟩

end OtpVoice
