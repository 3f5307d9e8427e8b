import OtpVoice.Ami.Handling
import OtpVoice.Service.Confined
import OtpVoice.Service.System
import Mathlib.Logic.Function.Basic

/-!
# Independence of calls

The steps of any number of calls: records are created, executions run until they wait for Asterisk
and go on with its reply, retries are counted, expired records are dropped, messages are handled.
The steps of one request are those that name it, the messages on its channels, and the cleanups.

- `step_own`: a step of the request does the same in two runs that agree on the request.
- `step_other`: every other step keeps what the request sees.
- `calls_independent`: the record and the timeline of a request are the same after a run and after
  the run of its own steps alone.
-/

set_option autoImplicit false

namespace OtpVoice

open Coroutine

/-! ## Steps -/

/-- One step of the service, in its environment. A waiting execution is named by its request and its
place among the executions of the request. -/
inductive Step where
  | create (mobile code codeMasked : String) (parent : Option String) (e : Env)
  | execute (task : CallTask) (e : Env)
  | resume (requestId : String) (place : ℕ) (e : Env)
  | count (requestId : String) (e : Env)
  | cleanup (e : Env)
  | ami (kind : EventKind) (message : Message) (e : Env)

/-- The environment of a step. -/
def Step.env : Step → Env
  | .create _ _ _ _ e | .execute _ e | .resume _ _ e | .count _ e | .cleanup e | .ami _ _ e => e

/-- The world, and the executions of each request in the order in which they began: what is left of
them. -/
structure Calls where
  world : World
  waiting : String → List (Prog Unit)

/-- Nothing is being executed. -/
def Calls.initial (w : World) : Calls := ⟨w, fun _ => []⟩

/-- A coroutine that does not wait for Asterisk. -/
def Calls.turn {α : Type} (s : Calls) (e : Env) (p : Prog α) : Calls :=
  { s with world := (runTurn e p s.world).2 }

/-- One step, handled until it ends or waits for Asterisk. -/
def Step.run (o : CallOriginator) (s : Calls) : Step → Calls
  | .create mobile code codeMasked parent e =>
    s.turn e (createCallRecord mobile code codeMasked parent)
  | .execute task e =>
    let (rest, w) := runTurn e (executeCall o task) s.world
    ⟨w, Function.update s.waiting task.requestId (s.waiting task.requestId ++ [rest])⟩
  | .resume requestId place e =>
    match (s.waiting requestId)[place]? with
    | none => s
    | some p =>
      let (rest, w) := runTurn e p s.world
      ⟨w, Function.update s.waiting requestId ((s.waiting requestId).set place rest)⟩
  | .count requestId e => s.turn e (incrementRetry requestId)
  | .cleanup e => s.turn e periodicCleanup
  | .ami kind message e => s.turn e (dispatch kind message)

/-- A run of steps, from the first. -/
def runSteps (o : CallOriginator) (s : Calls) (steps : List Step) : Calls :=
  steps.foldl (Step.run o) s

/-- A turn of a thread of the service is a turn of its coroutine. -/
theorem sequential_turn (o : CallOriginator) {s : Conf} {i : ℕ}
    {t : Thread Cmd Cmd.Resp Exc Op Answer} (hi : s.threads[i]? = some t) (e : Env) :
    ((sequential o).step s (.turn i e)).world = (runTurn e t.prog s.world).2 :=
  ((sequential o).step_suspend hi e).1

/-- The request id and the channel of an `OTPCallStart`. -/
def Step.callStart : Step → Option (String × String)
  | .ami .userEvent message _ => callStartOf message
  | _ => none

/-- The channels that the `OTPCallStart` messages of a request carry. -/
def channelsOf (requestId : String) (steps : List Step) : List String :=
  (steps.filterMap Step.callStart).filterMap fun x => if x.1 = requestId then some x.2 else none

/-- The step is one of the request: it names it, it is a message on one of its channels, or it is a
cleanup. -/
def Step.names (requestId : String) (channels : List String) : Step → Bool
  | .create _ _ _ _ e => e.uuid.text = requestId
  | .execute task _ => task.requestId = requestId
  | .resume key _ _ => key = requestId
  | .count key _ => key = requestId
  | .cleanup _ => true
  | .ami .originateResponse message _ =>
    extractRequestId (message.get .actionID) = some requestId
  | .ami .newchannel _ _ => false
  | .ami .newstate message _ => (orText (message.get .channel) none).any (· ∈ channels)
  | .ami .hangup message _ => (orText (message.get .channel) none).any (· ∈ channels)
  | .ami .userEvent message _ => userEventRequestId message = some requestId

/-- An `OriginateResponse` in the reply to the action of a request names no other request: the AMI
library collects the messages that carry the `ActionID` of the action. -/
def Step.ReplyMatches : Step → Prop
  | .resume requestId _ e => ∀ reply message, e.reply = .ok reply →
    some message ∈ reply.messages.tail → message.get .event = some "OriginateResponse" →
      ∀ key, extractRequestId (message.get .actionID) = some key → key = requestId
  | _ => True

/-- No two requests' `OTPCallStart` messages carry the same channel. -/
def ChannelsDistinct (steps : List Step) : Prop :=
  ∀ x ∈ steps, ∀ y ∈ steps, ∀ key key' channel, x.callStart = some (key, channel) →
    y.callStart = some (key', channel) → key = key'

theorem mem_channelsOf {requestId channel : String} {steps : List Step} :
    channel ∈ channelsOf requestId steps ↔
      ∃ x ∈ steps, x.callStart = some (requestId, channel) := by
  simp only [channelsOf, List.mem_filterMap]
  constructor
  · rintro ⟨⟨key, channel'⟩, ⟨x, hx, hstart⟩, h⟩
    split at h
    · rename_i hkey
      obtain rfl := Option.some.inj h
      obtain rfl : key = requestId := hkey
      exact ⟨x, hx, hstart⟩
    · cases h
  · rintro ⟨x, hx, hstart⟩
    exact ⟨_, ⟨x, hx, hstart⟩, if_pos rfl⟩

/-! ## The coroutines of the steps -/

section Coroutines

variable {P C D : String → Prop} {b : Bool}

theorem confined_createCallRecord {mobile code codeMasked : String} {parent : Option String} :
    Confined P C P (createCallRecord mobile code codeMasked parent) b := by
  have hcovers : ∀ requestId, P requestId → (Scope.within P C P).Covers requestId [.queued] := by
    intro requestId h
    exact within_covers h _
  have hinsert : ∀ row : CallRecord, P row.requestId → row.channel = none →
      (Scope.within P C P).stmt (.insertCall row) := by
    intro row hdrawn hchannel
    exact ⟨hdrawn, hchannel⟩
  exact confined_of_stays (stays_createCallRecord (by decide) hinsert hcovers)
    (touches_createCallRecord _ _ _ _) (by decide)

theorem confined_incrementRetry {requestId : String} (h : P requestId) :
    Confined P C D (incrementRetry requestId) b :=
  confined_of_stays (stays_incrementRetry h fun _ => h) (touches_incrementRetry _) (by decide)

theorem confined_executeCall {o : CallOriginator} {task : CallTask} (h : P task.requestId) :
    Confined P C D (executeCall o task) b := by
  have hcovers : ∀ requestId, P requestId →
      (Scope.within P C D).Covers requestId [.originating, .failed, .originateResponse] := by
    intro requestId h
    exact within_covers h _
  have hreply : ∀ message, (Scope.within P C D).reply message → ∀ requestId,
      extractRequestId (message.get .actionID) = some requestId →
        (Scope.within P C D).Covers requestId [.originating, .failed, .originateResponse] := by
    intro message hmessage requestId hid
    exact hcovers requestId (hmessage requestId hid)
  exact confined_of_stays (stays_executeCall (List.Subset.refl _) (hcovers _ h) hreply)
    (touches_executeCall o task) (by decide)

/-- The message is about the requests in `P`, or on a channel in `C`. -/
def MessageWithin (P C : String → Prop) : EventKind → Message → Prop
  | .originateResponse, message =>
    ∀ key, extractRequestId (message.get .actionID) = some key → P key
  | .newchannel, _ => True
  | .newstate, message => ∀ channel, orText (message.get .channel) none = some channel → C channel
  | .hangup, message => ∀ channel, orText (message.get .channel) none = some channel → C channel
  | .userEvent, message => (∀ key, userEventRequestId message = some key → P key) ∧
    ∀ key channel, callStartOf message = some (key, channel) → C channel

theorem confined_dispatch {kind : EventKind} {message : Message}
    (h : MessageWithin P C kind message) :
    Confined P C D (dispatch kind message) b := by
  apply confined_of_stays _ (touches_dispatch kind message) (by decide)
  have hcovers : ∀ requestId, P requestId → (Scope.within P C D).Covers requestId
      [.originateResponse, .ringing, .answered, .hangup, .dialplanStart, .playing,
        .playbackComplete] := by
    intro requestId h
    exact within_covers h _
  have hfound : ∀ row, (Scope.within P C D).found row → (Scope.within P C D).Covers row.requestId
      [.originateResponse, .ringing, .answered, .hangup, .dialplanStart, .playing,
        .playbackComplete] := by
    intro row hrow
    exact hcovers row.requestId hrow
  cases kind with
  | originateResponse =>
    exact stays_onOriginateResponse (by decide) fun requestId hid =>
      hcovers requestId (h requestId hid)
  | newchannel => exact stays_pure _
  | newstate => exact stays_onNewState (by decide) (by decide) h hfound
  | hangup => exact stays_onHangup (by decide) h hfound
  | userEvent =>
    have hlines : ∀ d : DialplanEvent, d.line ∈ [EventName.originateResponse, .ringing, .answered,
        .hangup, .dialplanStart, .playing, .playbackComplete] := by
      intro d
      cases d <;> decide
    apply stays_onUserEvent hlines
    · intro requestId hid
      exact hcovers requestId (h.1 requestId hid)
    · intro requestId channel hid hstart hchannel now
      apply within_bind (h.1 requestId hid)
      apply h.2 requestId channel
      simp only [callStartOf, hstart, hid, hchannel]

end Coroutines

/-! ## The cleanup -/

section Cleanup

variable {α β : Type} {e : Env} {n : ℕ} {w : World}

/-- The commands that change the tables. -/
def tableKinds : List Kind := [.insertCall, .updateCall, .countRetry, .insertEvent, .delete]

/-- A part without statements that write keeps the tables, if nothing rolls back. -/
theorem store_of_touches (hkeeps : e.NoRollback) {ks : List Kind} {p : Prog α}
    (hp : Touches ks p)
    (hks : ks.all (fun k => k ∉ tableKinds) = true) :
    (p.complete (World.respond e) n w).2.2.store = w.store := by
  have hkeep : Coro.Sat (fun (w : World) c r w' => ∃ n, World.respond e n w c = (r, w'))
      (fun _ _ _ _ => True) (fun _ w' => w'.store = w.store) p w := by
    refine Coro.Sat.of_uses (I := fun (w' : World) => w'.store = w.store) ?_ hp rfl
    rintro v c r v' hc hv ⟨n, hrespond⟩
    have hkind := of_decide_eq_true (List.all_eq_true.1 hks _ hc)
    have hstore := World.respond_store e n v c
    rw [hrespond] at hstore
    refine ⟨trivial, ?_⟩
    rcases hstore with hstore | ⟨s, rfl, -, hstore⟩ | ⟨hundone, -⟩
    · exact hstore.trans hv
    · rw [hstore]
      cases s <;> first
        | exact hv
        | exact absurd (by simp [Cmd.kind, Stmt.kind, tableKinds]) hkind
    · cases (hkeeps.rollsBack n c).symm.trans hundone
  exact Coro.Sat.complete (fun n v c => ⟨n, rfl⟩) hkeep n

theorem store_bind_of_touches (hkeeps : e.NoRollback) {ks : List Kind}
    {p : Prog β} {f : β → Prog α} (hf : ∀ a, Touches ks (f a))
    (hks : ks.all (fun k => k ∉ tableKinds) = true) :
    ((p >>= f).complete (World.respond e) n w).2.2.store =
      (p.complete (World.respond e) n w).2.2.store := by
  rw [Coro.complete_bind]
  split
  · rename_i a m v hp
    rw [store_of_touches hkeeps (hf a) hks, hp]
  · rename_i x m v hp
    rw [hp]

theorem store_tryCatch_of_touches (hkeeps : e.NoRollback) {ks : List Kind}
    {p : Prog α} {h : Exc → Prog α} (hh : ∀ x, Touches ks (h x))
    (hks : ks.all (fun k => k ∉ tableKinds) = true) :
    ((tryCatch p h).complete (World.respond e) n w).2.2.store =
      (p.complete (World.respond e) n w).2.2.store := by
  rw [show (tryCatch p h).complete (World.respond e) n w = _ from Coro.complete_tryCatch _ h p n w]
  split
  · rename_i a m v hp
    rw [hp]
  · rename_i x m v hp
    rw [store_of_touches hkeeps (hh x) hks, hp]

/-- The tables after a cleanup in which nothing rolls back. -/
theorem store_periodicCleanup (hkeeps : e.NoRollback) (w : World) :
    (runTurn e periodicCleanup w).2.store =
      if e.fault 1 = none then
        if e.fault 2 = none then
          ((Stmt.deleteOrphanEvents).exec ((Stmt.deleteExpired (e.now 0)).exec w.store).2).2
        else ((Stmt.deleteExpired (e.now 0)).exec w.store).2
      else w.store := by
  rw [runTurn, Service.suspend_complete (touches_periodicCleanup.not_waits rfl)]
  show (periodicCleanup.complete (World.respond e) 0 w).2.2.store = _
  have hlimits : ∀ count : ℕ, Touches [.cleanup, .log]
      (cleanupLimits >>= fun line => log .debug line) := fun _ =>
    touches_issue_bind rfl fun _ => touches_issue rfl
  have hend : ∀ cursor : ℕ, Touches [.commit, .log] (commit >>= fun _ =>
      if 0 < cursor then
        (log .debug ("Cleaned up " ++ toString cursor ++ " expired call records") >>= fun _ =>
          (pure cursor : Prog ℕ))
      else pure cursor) := by
    intro cursor
    apply touches_issue_bind rfl
    intro _
    split
    · exact touches_issue_bind rfl fun _ => touches_pure _
    · exact touches_pure _
  unfold periodicCleanup
  rw [store_tryCatch_of_touches hkeeps (fun x => touches_log _ _) (by decide),
    store_bind_of_touches hkeeps hlimits (by decide)]
  have htime : cleanupExpired.complete (World.respond e) 0 w = _ := complete_time_bind _
  rw [htime, complete_execute_bind rfl]
  cases hfault : e.fault 1 with
  | some text => exact congrArg World.store (hkeeps.undo hfault w _)
  | none =>
    dsimp only
    rw [complete_execute_bind rfl]
    cases hfault' : e.fault 2 with
    | some text => exact congrArg World.store (hkeeps.undo hfault' _ _)
    | none => exact store_of_touches hkeeps (hend _) (by decide)

end Cleanup

/-! ## Two runs that agree on a request -/

section Related

variable {α : Type} {o : CallOriginator} {requestId : String} {C D : String → Prop} {e : Env}
variable {s s' : Calls}

/-- Two states that agree on a request: on what it sees of the tables, and on its executions. -/
structure Related (requestId : String) (C : String → Prop) (s s' : Calls) : Prop where
  agree : Agree requestId C s.world.store s'.world.store
  same : s'.waiting requestId = s.waiting requestId
  own : ∀ p ∈ s.waiting requestId, Confined (· = requestId) C (fun _ => True) p true
  others : ∀ key, key ≠ requestId → ∀ p ∈ s.waiting key,
    Confined (· ≠ requestId) (fun channel => ¬ C channel) (fun _ => True) p true

theorem Related.turn_own {p : Prog α} (h : Related requestId C s s')
    (hkeeps : e.NoRollback) (hp : Confined (· = requestId) C D p false)
    (hdrawn : D e.uuid.text) : Related requestId C (s.turn e p) (s'.turn e p) := by
  obtain ⟨-, -, hagree⟩ := turn_lockstep hkeeps hp h.agree hdrawn (by rintro ⟨⟩)
  exact ⟨hagree, h.same, h.own, h.others⟩

theorem Related.turn_other {p : Prog α} (h : Related requestId C s s')
    (hkeeps : e.NoRollback)
    (hp : Confined (· ≠ requestId) (fun channel => ¬ C channel) D p false)
    (hdrawn : D e.uuid.text) : Related requestId C (s.turn e p) s' := by
  obtain ⟨-, hagree⟩ := turn_spares hkeeps hp h.agree hdrawn (by rintro ⟨⟩)
  exact ⟨hagree, h.same, h.own, h.others⟩

theorem Related.turn_cleanup (h : Related requestId C s s')
    (hkeeps : e.NoRollback) :
    Related requestId C (s.turn e periodicCleanup) (s'.turn e periodicCleanup) := by
  have hagree : Agree requestId C (runTurn e periodicCleanup s.world).2.store
      (runTurn e periodicCleanup s'.world).2.store := by
    -- the clock of the cleanup is the same in both runs, and so is the statement that raises
    obtain ⟨hview, hseparate, hseparate'⟩ := h.agree
    rw [store_periodicCleanup hkeeps, store_periodicCleanup hkeeps]
    have hexpired : Agree requestId C ((Stmt.deleteExpired (e.now 0)).exec s.world.store).2
        ((Stmt.deleteExpired (e.now 0)).exec s'.world.store).2 :=
      ⟨view_deleteExpired _ hview, hseparate.exec trivial, hseparate'.exec trivial⟩
    split
    · split
      · exact ⟨view_deleteOrphanEvents hexpired.view, hexpired.separate.exec trivial,
          hexpired.separate'.exec trivial⟩
      · exact hexpired
    · exact ⟨hview, hseparate, hseparate'⟩
  exact ⟨hagree, h.same, h.own, h.others⟩

/-- The executions of a request after one of them has run. -/
theorem forall_mem_update {Q : Prog Unit → Prop} {l l' : List (Prog Unit)} {rest : Prog Unit}
    (h : ∀ p ∈ l, Q p) (hrest : Q rest) (hl' : ∀ p ∈ l', p ∈ l ∨ p = rest) : ∀ p ∈ l', Q p := by
  intro p hp
  rcases hl' p hp with hold | rfl
  · exact h p hold
  · exact hrest

/-- An execution of the request runs in both states. -/
theorem Related.run_own {p : Prog Unit} {b : Bool} (h : Related requestId C s s')
    (hkeeps : e.NoRollback) (hp : Confined (· = requestId) C (fun _ => True) p b)
    (hreply : b = true → ∀ reply, e.reply = .ok reply →
      (Scope.within (· = requestId) C (fun _ => True)).Honest reply)
    {f : Prog Unit → List (Prog Unit)}
    (hf : ∀ rest, ∀ q ∈ f rest, q ∈ s.waiting requestId ∨ q = rest) :
    Related requestId C
      ⟨(runTurn e p s.world).2,
        Function.update s.waiting requestId (f (runTurn e p s.world).1)⟩
      ⟨(runTurn e p s'.world).2,
        Function.update s'.waiting requestId (f (runTurn e p s'.world).1)⟩ := by
  -- the answers are the same, so both runs go on with the same rest
  obtain ⟨hsame, hconfined, hagree⟩ := turn_lockstep hkeeps hp h.agree trivial hreply
  refine ⟨hagree, ?_, ?_, ?_⟩
  · simp only [Function.update_self, hsame]
  · simp only [Function.update_self]
    exact forall_mem_update h.own hconfined (hf _)
  · intro key hkey
    simp only [Function.update_of_ne hkey]
    exact h.others key hkey

/-- An execution of another request runs in one of the states. -/
theorem Related.run_other {p : Prog Unit} {b : Bool} {key : String} (h : Related requestId C s s')
    (hkeeps : e.NoRollback) (hkey : key ≠ requestId)
    (hp : Confined (· ≠ requestId) (fun channel => ¬ C channel) (fun _ => True) p b)
    (hreply : b = true → ∀ reply, e.reply = .ok reply →
      (Scope.within (· ≠ requestId) (fun channel => ¬ C channel) (fun _ => True)).Honest reply)
    {f : Prog Unit → List (Prog Unit)} (hf : ∀ rest, ∀ q ∈ f rest, q ∈ s.waiting key ∨ q = rest) :
    Related requestId C
      ⟨(runTurn e p s.world).2, Function.update s.waiting key (f (runTurn e p s.world).1)⟩ s' := by
  obtain ⟨hconfined, hagree⟩ := turn_spares hkeeps hp h.agree trivial hreply
  refine ⟨hagree, ?_, ?_, ?_⟩
  · simp only [Function.update_of_ne (Ne.symm hkey)]
    exact h.same
  · simp only [Function.update_of_ne (Ne.symm hkey)]
    exact h.own
  · -- the other request keeps its other executions and gets what is left of this one
    intro key' hkey'
    by_cases heq : key' = key
    · subst heq
      simp only [Function.update_self]
      exact forall_mem_update (h.others key' hkey') hconfined (hf _)
    · simp only [Function.update_of_ne heq]
      exact h.others key' hkey'

/-! ## One step -/

variable {x : Step} {channels : List String}

/-- A message that names the request or is on one of its channels is about nothing else. -/
theorem messageWithin_own {kind : EventKind} {message : Message}
    (hnames : (Step.ami kind message e).names requestId channels = true)
    (hbind : ∀ key channel, (Step.ami kind message e).callStart = some (key, channel) →
      (channel ∈ channels ↔ key = requestId)) :
    MessageWithin (· = requestId) (· ∈ channels) kind message := by
  have hchannel : (orText (message.get .channel) none).any (· ∈ channels) = true →
      ∀ channel, orText (message.get .channel) none = some channel → channel ∈ channels := by
    intro hany channel hchannel
    rw [hchannel] at hany
    exact of_decide_eq_true hany
  cases kind with
  | originateResponse =>
    intro key hkey
    exact Option.some.inj (hkey.symm.trans (of_decide_eq_true hnames))
  | newchannel => trivial
  | newstate => exact hchannel hnames
  | hangup => exact hchannel hnames
  | userEvent =>
    have hid : userEventRequestId message = some requestId := of_decide_eq_true hnames
    constructor
    · intro key hkey
      exact Option.some.inj (hkey.symm.trans hid)
    · intro key channel hstart
      apply (hbind key channel hstart).2
      exact Option.some.inj ((callStartOf_eq_some_iff.1 hstart).2.1.symm.trans hid)

/-- Every other message is about other requests and other channels. -/
theorem messageWithin_other {kind : EventKind} {message : Message}
    (hnames : (Step.ami kind message e).names requestId channels = false)
    (hbind : ∀ key channel, (Step.ami kind message e).callStart = some (key, channel) →
      (channel ∈ channels ↔ key = requestId)) :
    MessageWithin (· ≠ requestId) (fun channel => ¬ channel ∈ channels) kind message := by
  have hchannel : (orText (message.get .channel) none).any (· ∈ channels) = false →
      ∀ channel, orText (message.get .channel) none = some channel → ¬ channel ∈ channels := by
    intro hany channel hchannel
    rw [hchannel] at hany
    exact of_decide_eq_false hany
  cases kind with
  | originateResponse =>
    rintro key hkey rfl
    exact of_decide_eq_false hnames hkey
  | newchannel => trivial
  | newstate => exact hchannel hnames
  | hangup => exact hchannel hnames
  | userEvent =>
    constructor
    · rintro key hkey rfl
      exact of_decide_eq_false hnames hkey
    · intro key channel hstart hmem
      -- a channel of the request is bound by its own messages only
      obtain rfl := (hbind key channel hstart).1 hmem
      exact of_decide_eq_false hnames (callStartOf_eq_some_iff.1 hstart).2.1

/-- A step of the request does the same in two states that agree on it. -/
theorem step_own (o : CallOriginator) (hkeeps : x.env.NoRollback)
    (hnames : x.names requestId channels = true)
    (hbind : ∀ key channel, x.callStart = some (key, channel) →
      (channel ∈ channels ↔ key = requestId))
    (hreply : x.ReplyMatches) (h : Related requestId (· ∈ channels) s s') :
    Related requestId (· ∈ channels) (x.run o s) (x.run o s') := by
  cases x with
  | create mobile code codeMasked parent e =>
    exact h.turn_own hkeeps confined_createCallRecord (of_decide_eq_true hnames)
  | execute task e =>
    obtain rfl : task.requestId = requestId := of_decide_eq_true hnames
    simp only [Step.run, h.same]
    apply h.run_own hkeeps (b := false) (confined_executeCall rfl) (by rintro ⟨⟩)
      (f := fun rest => s.waiting task.requestId ++ [rest])
    intro rest q hq
    rcases List.mem_append.1 hq with hq | hq
    · exact .inl hq
    · exact .inr (List.mem_singleton.1 hq)
  | resume key place e =>
    obtain rfl : key = requestId := of_decide_eq_true hnames
    simp only [Step.run, h.same]
    cases hplace : (s.waiting key)[place]? with
    | none => exact h
    | some p =>
      apply h.run_own hkeeps (h.own p (List.mem_of_getElem? hplace)) _
        (f := fun rest => (s.waiting key).set place rest)
      · intro rest q hq
        exact List.mem_or_eq_of_mem_set hq
      · intro _ reply hr message hmem hevent key' hkey'
        exact hreply reply message hr hmem hevent key' hkey'
  | count key e =>
    obtain rfl : key = requestId := of_decide_eq_true hnames
    exact h.turn_own hkeeps (D := fun _ => True) (confined_incrementRetry rfl) trivial
  | cleanup e => exact h.turn_cleanup hkeeps
  | ami kind message e =>
    exact h.turn_own hkeeps (D := fun _ => True)
      (confined_dispatch (messageWithin_own hnames hbind)) trivial

/-- Every other step keeps what the request sees. -/
theorem step_other (o : CallOriginator) (hkeeps : x.env.NoRollback)
    (hnames : x.names requestId channels = false)
    (hbind : ∀ key channel, x.callStart = some (key, channel) →
      (channel ∈ channels ↔ key = requestId))
    (hreply : x.ReplyMatches) (h : Related requestId (· ∈ channels) s s') :
    Related requestId (· ∈ channels) (x.run o s) s' := by
  cases x with
  | create mobile code codeMasked parent e =>
    exact h.turn_other hkeeps confined_createCallRecord (of_decide_eq_false hnames)
  | execute task e =>
    -- the task is another request's, and so is what is left of it
    have hkey : task.requestId ≠ requestId := of_decide_eq_false hnames
    apply h.run_other hkeeps (b := false) hkey (confined_executeCall hkey) (by rintro ⟨⟩)
      (f := fun rest => s.waiting task.requestId ++ [rest])
    intro rest q hq
    rcases List.mem_append.1 hq with hq | hq
    · exact .inl hq
    · exact .inr (List.mem_singleton.1 hq)
  | resume key place e =>
    have hkey : key ≠ requestId := of_decide_eq_false hnames
    simp only [Step.run]
    cases hplace : (s.waiting key)[place]? with
    | none => exact h
    | some p =>
      apply h.run_other hkeeps hkey (h.others key hkey p (List.mem_of_getElem? hplace)) _
        (f := fun rest => (s.waiting key).set place rest)
      · intro rest q hq
        exact List.mem_or_eq_of_mem_set hq
      · rintro _ reply hr message hmem hevent key' hkey'
        rw [hreply reply message hr hmem hevent key' hkey']
        exact hkey
  | count key e =>
    exact h.turn_other hkeeps (D := fun _ => True)
      (confined_incrementRetry (of_decide_eq_false hnames)) trivial
  | cleanup e => cases hnames
  | ami kind message e =>
    exact h.turn_other hkeeps (D := fun _ => True)
      (confined_dispatch (messageWithin_other hnames hbind)) trivial

end Related

/-! ## Whole runs -/

/-- A run and the run of the own steps of a request agree on the request. The induction is on the
steps. -/
theorem run_related (o : CallOriginator) {requestId : String} {channels : List String}
    (steps : List Step) (hkeeps : ∀ x ∈ steps, x.env.NoRollback)
    (hbind : ∀ x ∈ steps, ∀ key channel, x.callStart = some (key, channel) →
      (channel ∈ channels ↔ key = requestId))
    (hreply : ∀ x ∈ steps, x.ReplyMatches) {s s' : Calls}
    (h : Related requestId (· ∈ channels) s s') :
    Related requestId (· ∈ channels) (runSteps o s steps)
      (runSteps o s' (steps.filter (Step.names requestId channels))) := by
  induction steps generalizing s s' with
  | nil => exact h
  | cons x xs ih =>
    replace ih := @ih (fun y hy => hkeeps y (List.mem_cons_of_mem _ hy))
      (fun y hy => hbind y (List.mem_cons_of_mem _ hy))
      fun y hy => hreply y (List.mem_cons_of_mem _ hy)
    have hkeeps' := hkeeps x List.mem_cons_self
    have hbind' := hbind x List.mem_cons_self
    have hreply' := hreply x List.mem_cons_self
    cases hnames : x.names requestId channels with
    | true =>
      rw [List.filter_cons_of_pos hnames]
      exact ih (step_own o hkeeps' hnames hbind' hreply' h)
    | false =>
      rw [List.filter_cons_of_neg (by rw [hnames]; rintro ⟨⟩)]
      exact ih (step_other o hkeeps' hnames hbind' hreply' h)

/-- In every run in which nothing rolls back and no two requests' `OTPCallStart` messages carry the
same channel, the record and the timeline of a request are those after the run of its own steps. -/
theorem calls_independent (o : CallOriginator) (w₀ : World) (steps : List Step) (requestId : String)
    (hkeeps : ∀ x ∈ steps, x.env.NoRollback)
    (hw₀ : ∀ row ∈ w₀.store.calls.rows, row.channel = none) (hchannels : ChannelsDistinct steps)
    (hreplies : ∀ x ∈ steps, x.ReplyMatches) :
    let own := steps.filter (Step.names requestId (channelsOf requestId steps))
    let st := (runSteps o (.initial w₀) steps).world.store
    let st' := (runSteps o (.initial w₀) own).world.store
    st'.calls.find requestId = st.calls.find requestId ∧
      (st'.events.filter fun ev => ev.requestId = requestId) =
        st.events.filter fun ev => ev.requestId = requestId := by
  -- no record of the first tables has a channel
  have hseparate : Separate requestId (· ∈ channelsOf requestId steps) w₀.store := by
    intro key row hrow channel hchannel
    have hnone := hw₀ row (Table.find_eq_some_iff.1 hrow).1
    cases hnone.symm.trans hchannel
  have hstart : Related requestId (· ∈ channelsOf requestId steps) (.initial w₀) (.initial w₀) := by
    refine ⟨⟨rfl, hseparate, hseparate⟩, rfl, ?_, ?_⟩
    · intro p hp
      cases hp
    · intro key _ p hp
      cases hp
  have hbind : ∀ x ∈ steps, ∀ key channel, x.callStart = some (key, channel) →
      (channel ∈ channelsOf requestId steps ↔ key = requestId) := by
    intro x hx key channel hcall
    rw [mem_channelsOf]
    constructor
    · rintro ⟨y, hy, hcall'⟩
      exact hchannels x hx y hy key requestId channel hcall hcall'
    · rintro rfl
      exact ⟨x, hx, hcall⟩
  exact view_eq_iff.1 (run_related o steps hkeeps hbind hreplies hstart).agree.view

/-- Two calls at the same time, on two channels. -/
def twoCalls : List Step :=
  [.create "09120000000" "1234" "****" none (.calm 0 firstId []),
    .create "09130000000" "5678" "****" none (.calm 1 secondId []),
    .execute ⟨firstId.text, "09120000000", "1234", 2⟩ (.calm 2 firstId []),
    .execute ⟨secondId.text, "09130000000", "5678", 2⟩ (.calm 3 firstId []),
    .ami .userEvent (callStart firstId.text sampleChannel) (.calm 4 firstId []),
    .ami .userEvent (callStart secondId.text "SIP/trunk-00000002") (.calm 5 firstId []),
    .resume secondId.text 0 (.calm 6 firstId [success]),
    .ami .hangup (hangup "SIP/trunk-00000002" "17") (.calm 7 firstId []),
    .resume firstId.text 0 (.calm 8 firstId [success]),
    .ami .hangup (hangup sampleChannel "16") (.calm 9 firstId []),
    .cleanup (.calm 10 firstId [])]

theorem calls_independent_two :
    let own := twoCalls.filter (Step.names firstId.text (channelsOf firstId.text twoCalls))
    let st := (runSteps sampleOriginator (.initial sampleWorld) twoCalls).world.store
    let st' := (runSteps sampleOriginator (.initial sampleWorld) own).world.store
    own.length = 6 ∧ (st.calls.find firstId.text).map CallRecord.status = some .completed ∧
      st'.calls.find firstId.text = st.calls.find firstId.text ∧
        (st'.events.filter fun ev => ev.requestId = firstId.text) =
          st.events.filter fun ev => ev.requestId = firstId.text := by
  have hstarts : ∀ x ∈ twoCalls, ∀ y ∈ x.callStart, y = (firstId.text, sampleChannel) ∨
      y = (secondId.text, "SIP/trunk-00000002") := by
    decide +kernel
  have hchannels : ChannelsDistinct twoCalls := by
    intro x hx y hy key key' channel hstart hstart'
    have hne : sampleChannel ≠ "SIP/trunk-00000002" := by decide
    rcases hstarts x hx _ hstart with h | h
    · obtain ⟨rfl, rfl⟩ := Prod.mk.inj h
      rcases hstarts y hy _ hstart' with h' | h'
      · exact (Prod.mk.inj h').1.symm
      · exact absurd (Prod.mk.inj h').2 hne
    · obtain ⟨rfl, rfl⟩ := Prod.mk.inj h
      rcases hstarts y hy _ hstart' with h' | h'
      · exact absurd (Prod.mk.inj h').2.symm hne
      · exact (Prod.mk.inj h').1.symm
  have hreplies : ∀ x ∈ twoCalls, x.ReplyMatches := by
    intro x hx
    cases x with
    | resume requestId place e =>
      have hreply : e.reply = .ok (.many [some success]) := by
        simp only [twoCalls, List.mem_cons, List.not_mem_nil, or_false, reduceCtorEq, false_or,
          Step.resume.injEq] at hx
        rcases hx with ⟨-, -, rfl⟩ | ⟨-, -, rfl⟩ <;> rfl
      intro reply message hr hmem
      rw [hreply] at hr
      cases hr
      cases hmem
    | _ => trivial
  refine ⟨by decide +kernel, by decide +kernel, ?_⟩
  exact calls_independent sampleOriginator sampleWorld twoCalls firstId.text
    (by simp [twoCalls, Step.env]) (fun row hrow => by cases hrow) hchannels hreplies

end OtpVoice
