import OtpVoice.Coroutine.Purge
import OtpVoice.Service.Footprint
import OtpVoice.Service.System

/-!
# The API key of `src/api/auth.py`

`guardedService` is the service as it is reached from outside: a request brings a key and a body
that is still to be validated. Its dependency `require_api_key` comes first, then the validation of
the body, then the endpoint. `refused_requests_do_nothing`: a request that is refused, for its key
or for its body, changes nothing but the log, whatever it asks for and whenever it comes.
-/

set_option autoImplicit false

namespace OtpVoice

open Coroutine

/-- `HTTPAuthorizationCredentials`: an `Authorization` header with the scheme `Bearer`. -/
structure HTTPAuthorizationCredentials where
  scheme : String
  credentials : String

/-- What `require_api_key` reads of a request. -/
structure Presented where
  credentials : Option HTTPAuthorizationCredentials
  xApiKey : Option String

/-- `_extract_key`. -/
def extractKey (p : Presented) : Option String :=
  match p.credentials with
  | some c => if c.credentials ≠ "" then some c.credentials else p.xApiKey
  | none => p.xApiKey

/-- The hash of the configuration, and `verify` of the password library, which may raise. -/
structure KeyCheck where
  apiKeyHash : String
  verify : String → String → Except String Bool

namespace KeyCheck

variable (auth : KeyCheck)

/-- `verify_key`. -/
def verifyKey : Option String → Bool
  | none => false
  | some key =>
    if key = "" then false
    else
      match auth.verify key auth.apiKeyHash with
      | .ok b => b
      | .error _ => false

/-- The log line of a refused key. -/
def unauthorized : Level × String := (.warning, "Unauthorized API access attempt")

/-- The answer to a refused key. -/
def invalidKey : Exc := .http 401 (some "API key نامعتبر است")

/-- `require_api_key`: a key that is not verified is logged and refused. -/
def requireApiKey (p : Presented) : Prog Unit := do
  if auth.verifyKey (extractKey p) then return ()
  else do
    log unauthorized.1 unauthorized.2
    throw invalidKey

end KeyCheck

/-! ## Requests -/

/-- A request with a body that is not validated. -/
inductive HttpRequest where
  | otpCall (mobile code : String) (repeatCount : Option ℤ)
  | retry (requestId : String) (code : Option String) (repeatCount : Option ℤ)
  | status (requestId : String)
  | health

/-- The input that a request is after its validation. -/
def HttpRequest.input? : HttpRequest → Option Input
  | .otpCall mobile code repeatCount =>
    (OTPCallRequest.parse mobile code repeatCount).toOption.map .otpCall
  | .retry requestId code repeatCount =>
    (RetryRequest.parse code repeatCount).toOption.map (.retry requestId)
  | .status requestId => some (.status requestId)
  | .health => some .health

/-- The endpoints with `Depends(require_api_key)`. -/
def HttpRequest.guarded : HttpRequest → Bool
  | .health => false
  | _ => true

/-- The answer to a body with errors; the list of errors is left out. -/
def unprocessable : Exc := .http 422 none

/-- What arrives from outside. -/
inductive Received where
  | http (key : Presented) (x : HttpRequest)
  | amiEvent (kind : EventKind) (message : Message)
  | cleanup

/-- The operations behind the check: what arrives, or a background task. -/
inductive GuardedOp where
  | received (x : Received)
  | execute (task : CallTask)

section Guard

variable (auth : KeyCheck) (o : CallOriginator)

/-- A request: the check of its key, the validation of its body, and its endpoint. -/
def HttpRequest.body (key : Presented) (x : HttpRequest) : Prog Answer := do
  if x.guarded then auth.requireApiKey key
  match x.input? with
  | some input => input.body
  | none => throw unprocessable

/-- The coroutine of an operation behind the check. -/
def GuardedOp.body : GuardedOp → Prog Answer
  | .received (.http key x) => x.body auth key
  | .received (.amiEvent kind message) => (Input.amiEvent kind message).body
  | .received .cleanup => Input.cleanup.body
  | .execute task => (Op.execute task).body o

/-- The service as it is reached from outside. -/
def guardedService (yields : Cmd → Bool) :
    Service Cmd Cmd.Resp Exc Env World Received GuardedOp Answer where
  respond := World.respond
  yields := yields
  entry := .received
  body := GuardedOp.body auth o
  spawns answer := answer.tasks.map .execute

end Guard

/-! ## Commands that nobody notices -/

/-- The same state, and the same log but for the line of a refused key. -/
structure SameState (w v : World) : Prop where
  store : w.store = v.store
  committed : w.committed = v.committed
  limiter : w.limiter = v.limiter
  sent : w.sent = v.sent
  logged : w.logged.filter (· ≠ KeyCheck.unauthorized) =
    v.logged.filter (· ≠ KeyCheck.unauthorized)

/-- What a refused request and a poll do: they read, or log the refused key. -/
def Cmd.Quiet (c : Cmd) : Prop :=
  c.kind ∈ [Kind.read, .client, .connected, .gauge] ∨
    c = .log KeyCheck.unauthorized.1 KeyCheck.unauthorized.2

/-- The lines that a command adds to the log. -/
def Cmd.lines : Cmd → List (Level × String)
  | .log level line => [(level, line)]
  | _ => []

/-- No command looks at the log. -/
theorem respond_logged (e : Env) (n : ℕ) (w : World) (c : Cmd) (l : List (Level × String)) :
    World.respond e n { w with logged := l } c = ((World.respond e n w c).1,
      { (World.respond e n w c).2 with logged := l ++ c.lines }) ∧
    (World.respond e n w c).2.logged = w.logged ++ c.lines := by
  have hanswer : World.answer e n { w with logged := l } c = ((World.answer e n w c).1,
        { (World.answer e n w c).2 with logged := l ++ c.lines }) ∧
      (World.answer e n w c).2.logged = w.logged ++ c.lines := by
    cases c with
    | execute s =>
      simp only [World.answer, Cmd.lines, List.append_nil]
      split <;> exact ⟨rfl, rfl⟩
    | checkNumberLimit mobile =>
      simp only [World.answer, Cmd.lines, List.append_nil]
      split <;> exact ⟨rfl, rfl⟩
    | getAmiClient =>
      simp only [World.answer, Cmd.lines, List.append_nil]
      split <;> exact ⟨rfl, rfl⟩
    | log level line => exact ⟨rfl, rfl⟩
    | _ => exact ⟨by simp [World.answer, Cmd.lines], by simp [World.answer, Cmd.lines]⟩
  cases c with
  | execute s =>
    simp only [World.respond]
    split
    · exact ⟨by simp only [Cmd.lines, List.append_nil, World.undo], (List.append_nil _).symm⟩
    · exact hanswer
  | commit =>
    simp only [World.respond]
    split
    · exact ⟨by simp only [Cmd.lines, List.append_nil, World.rollback], (List.append_nil _).symm⟩
    · exact hanswer
  | _ => exact hanswer

/-- A command has the same answer in both worlds and the same effect on them. -/
theorem SameState.respond {w v : World} (h : SameState w v) (e : Env) (n : ℕ) (c : Cmd) :
    (World.respond e n w c).1 = (World.respond e n v c).1 ∧
      SameState (World.respond e n w c).2 (World.respond e n v c).2 := by
  have hw : w = { v with logged := w.logged } := by
    cases w
    cases v
    obtain ⟨rfl, rfl, rfl, rfl, -⟩ := h
    rfl
  obtain ⟨hrespond, hlogged⟩ := respond_logged e n v c w.logged
  rw [hw, hrespond]
  refine ⟨rfl, rfl, rfl, rfl, rfl, ?_⟩
  rw [hlogged, List.filter_append, List.filter_append, h.logged]

/-- A quiet command leaves the state. -/
theorem SameState.hush {w v : World} (h : SameState w v) {c : Cmd} (hc : c.Quiet) (e : Env)
    (n : ℕ) : SameState (World.respond e n w c).2 v := by
  rcases hc with hc | rfl
  · have hsame : (World.respond e n w c).2 = w := by
      cases c with
      | execute s =>
        have hreads : s.writes = false := by
          cases s <;> first | rfl | simp [Cmd.kind, Stmt.kind] at hc
        cases hfault : e.fault n with
        | some text => rw [World.respond_fault hfault, World.undo_read e n hreads]
        | none =>
          rw [World.respond_execute hfault]
          cases s <;> first | rfl | cases hreads
      | getAmiClient =>
        rw [World.respond_of_not_mayRaise rfl]
        simp only [World.answer]
        split <;> rfl
      | isConnected => rw [World.respond_of_not_mayRaise rfl]; rfl
      | activeCalls => rw [World.respond_of_not_mayRaise rfl]; rfl
      | availableChannels => rw [World.respond_of_not_mayRaise rfl]; rfl
      | _ => simp [Cmd.kind] at hc
    rw [hsame]
    exact h
  · rw [World.respond_of_not_mayRaise rfl]
    refine ⟨h.store, h.committed, h.limiter, h.sent, ?_⟩
    show (w.logged ++ [KeyCheck.unauthorized]).filter _ = _
    rw [List.filter_append, h.logged]
    simp

/-! ## Refused requests and polls -/

/-- A request that only asks. -/
def HttpRequest.poll : HttpRequest → Bool
  | .status _ | .health => true
  | _ => false

/-- The exception with which a request ends before it gets to its endpoint. -/
def KeyCheck.refusal (auth : KeyCheck) (key : Presented) (x : HttpRequest) : Option Exc :=
  if x.guarded && !auth.verifyKey (extractKey key) then some invalidKey
  else if x.input?.isNone then some unprocessable
  else none

/-- The input of the service that is left of what arrives: none for a refused request, and none for
a poll if polls are left out too. -/
def Received.input (auth : KeyCheck) (polls : Bool) : Received → Option Input
  | .http key x =>
    if (auth.refusal key x).isSome || !polls && x.poll then none else x.input?
  | .amiEvent kind message => some (.amiEvent kind message)
  | .cleanup => some .cleanup

/-- The operation of the service that an operation behind the check becomes, if any. -/
def GuardedOp.op (auth : KeyCheck) (polls : Bool) : GuardedOp → Option Op
  | .received x => (x.input auth polls).map .input
  | .execute task => some (.execute task)

section Refusal

variable {auth : KeyCheck} {o : CallOriginator} {key : Presented} {x : HttpRequest}

theorem requireApiKey_of_true (h : auth.verifyKey (extractKey key) = true) :
    auth.requireApiKey key = pure () := by
  rw [KeyCheck.requireApiKey, h]
  rfl

/-- A request that passes the check of its key. -/
theorem body_of_key (h : x.guarded = true → auth.verifyKey (extractKey key) = true) :
    x.body auth key =
      match x.input? with
      | some input => input.body
      | none => throw unprocessable := by
  simp only [HttpRequest.body]
  split
  · rename_i hguarded
    rw [requireApiKey_of_true (h hguarded)]
    rfl
  · rfl

theorem refusal_eq_none_iff : auth.refusal key x = none ↔
    (x.guarded = true → auth.verifyKey (extractKey key) = true) ∧ x.input?.isSome = true := by
  rw [KeyCheck.refusal]
  cases x.guarded <;> cases auth.verifyKey (extractKey key) <;> cases x.input? <;> simp

/-- An admitted request does what its input does. -/
theorem body_of_input {polls : Bool} {input : Input}
    (h : (Received.http key x).input auth polls = some input) : x.body auth key = input.body := by
  rw [Received.input] at h
  split at h
  · cases h
  · rename_i hnot
    rw [Bool.or_eq_true, not_or, Option.not_isSome_iff_eq_none] at hnot
    rw [body_of_key (refusal_eq_none_iff.1 hnot.1).1, h]

/-- The two ways in which a request is refused. -/
theorem refusal_cases {exc : Exc} (h : auth.refusal key x = some exc) :
    (x.guarded = true ∧ auth.verifyKey (extractKey key) = false ∧ exc = KeyCheck.invalidKey) ∨
      ((x.guarded = true → auth.verifyKey (extractKey key) = true) ∧ x.input? = none ∧
        exc = unprocessable) := by
  rw [KeyCheck.refusal] at h
  by_cases hno : (x.guarded && !auth.verifyKey (extractKey key)) = true
  · rw [if_pos hno] at h
    rw [Bool.and_eq_true, Bool.not_eq_true'] at hno
    exact .inl ⟨hno.1, hno.2, (Option.some.inj h).symm⟩
  · rw [if_neg hno] at h
    split at h
    · rename_i hinput
      refine .inr ⟨fun hguarded => ?_, Option.isNone_iff_eq_none.1 hinput, (Option.some.inj h).symm⟩
      simpa [hguarded] using hno
    · cases h

/-- A refused request logs at most the refused key, and ends with its exception. -/
theorem refused_body {exc : Exc} (h : auth.refusal key x = some exc) :
    x.body auth key = .done (.error exc) ∨
      ∃ k, x.body auth key = .call (.log KeyCheck.unauthorized.1 KeyCheck.unauthorized.2) k ∧
        k (.ok ()) = .done (.error exc) ∧ ∀ e, k (.error e) = .done (.error e) := by
  rcases refusal_cases h with ⟨hguarded, hkey, rfl⟩ | ⟨hkey, hinput, rfl⟩
  · simp only [HttpRequest.body, KeyCheck.requireApiKey, hguarded, hkey, if_true,
      Bool.false_eq_true, if_false]
    exact .inr ⟨_, rfl, rfl, fun _ => rfl⟩
  · rw [body_of_key hkey, hinput]
    exact .inl rfl

theorem quiet_of_touches {α : Type} {p : Prog α}
    (h : Touches [.read, .client, .connected, .gauge] p) : Coro.Uses Cmd.Quiet p :=
  Coro.Uses.mono (fun _ hc => .inl hc) h

/-- A poll reads and starts nothing. -/
theorem poll_still {input : Input} (hpoll : x.poll = true) (hinput : x.input? = some input) :
    Service.Still Cmd.Quiet (fun answer => answer.tasks.map GuardedOp.execute = []) input.body := by
  cases x with
  | otpCall mobile code repeatCount => cases hpoll
  | retry requestId code repeatCount => cases hpoll
  | status requestId =>
    cases hinput
    apply Service.Still.bind (quiet_of_touches ((touches_getCallRecord _).mono (by decide)))
    intro record
    cases record with
    | none => exact Service.still_throw _
    | some record =>
      apply Service.Still.bind (quiet_of_touches ((touches_getEvents _).mono (by decide)))
      exact fun events => Service.still_pure rfl
  | health =>
    cases hinput
    apply Service.Still.bind (quiet_of_touches (touches_issue (c := .getAmiClient) rfl))
    intro _
    apply Service.Still.bind (quiet_of_touches (touches_issue (c := .isConnected) rfl))
    intro connected
    apply Service.Still.bind (quiet_of_touches (touches_issue (c := .activeCalls) rfl))
    intro active
    apply Service.Still.bind (quiet_of_touches (touches_issue (c := .availableChannels) rfl))
    exact fun available => Service.still_pure rfl

/-- A request that is not admitted is refused, or a poll. -/
theorem still_of_not_admitted {polls : Bool}
    (h : (Received.http key x).input auth polls = none) :
    Service.Still Cmd.Quiet (fun answer => answer.tasks.map GuardedOp.execute = [])
      (x.body auth key) := by
  cases hrefusal : auth.refusal key x with
  | some exc =>
    rcases refused_body hrefusal with hbody | ⟨k, hbody, hok, herror⟩
    · rw [hbody]
      exact Service.still_throw exc
    · rw [hbody]
      refine fun r _ _ => ⟨.inr rfl, ?_⟩
      cases r with
      | ok u =>
        have hk : k (.ok u) = .done (.error exc) := hok
        rw [hk]
        exact Service.still_throw exc
      | error e =>
        rw [herror e]
        exact Service.still_throw e
  | none =>
    obtain ⟨hkey, hinput⟩ := refusal_eq_none_iff.1 hrefusal
    obtain ⟨input, hinput⟩ := Option.isSome_iff_exists.1 hinput
    rw [body_of_key hkey, hinput]
    refine poll_still ?_ hinput
    by_contra hpoll
    rw [Received.input, hrefusal, hinput] at h
    simp [hpoll] at h

end Refusal

/-! ## Runs -/

/-- The service without the requests that are refused, and without polls if `polls` is false. -/
def guardPurge (auth : KeyCheck) (o : CallOriginator) (yields : Cmd → Bool) (polls : Bool) :
    Service.Purge (guardedService auth o yields) (otpService o yields) where
  rel := SameState
  input := Received.input auth polls
  op := GuardedOp.op auth polls
  quiet := Cmd.Quiet
  yields := rfl
  entry _ := rfl
  body := by
    intro a b h
    cases a with
    | received x =>
      cases x with
      | http key x =>
        obtain ⟨input, hinput, rfl⟩ := Option.map_eq_some_iff.1 h
        exact body_of_input hinput
      | amiEvent kind message =>
        cases h
        rfl
      | cleanup =>
        cases h
        rfl
    | execute task =>
      cases h
      rfl
  spawns out := by
    show (out.tasks.map GuardedOp.execute).map _ = (out.tasks.map Op.execute).map _
    rw [List.map_map, List.map_map]
    rfl
  silent := by
    intro a h
    cases a with
    | received x =>
      cases x with
      | http key x => exact still_of_not_admitted (Option.map_eq_none_iff.1 h)
      | amiEvent kind message => cases h
      | cleanup => cases h
    | execute task => cases h
  respond e n c h := h.respond e n c
  hush e n hc h := h.hush hc e n

/-- What an ended request must have been answered. -/
def GuardedOp.Refuses (auth : KeyCheck) (op : GuardedOp) (r : Except Exc Answer) : Prop :=
  ∀ key x exc, op = .received (.http key x) → auth.refusal key x = some exc → r = .error exc

theorem refuses_run (auth : KeyCheck) (o : CallOriginator) (yields : Cmd → Bool) (w : World)
    (acts : List (Act Env Received)) {i : ℕ} {op : GuardedOp} {r : Except Exc Answer}
    (h : ((guardedService auth o yields).run (.initial w) acts).outcome i = some (op, r)) :
    op.Refuses auth r := by
  have hbody : ∀ op w e, (guardedService auth o yields).Keeps (fun m _ => m)
      (fun _ _ _ _ _ => True) (fun op r (_ : Unit) => op.Refuses auth r) op
      ((guardedService auth o yields).body op) ⟨w, e, ()⟩ := by
    intro op w e
    by_cases hrefused : ∃ key x exc, op = .received (.http key x) ∧
        auth.refusal key x = some exc
    · obtain ⟨key, x, exc, rfl, hexc⟩ := hrefused
      have hend : ∀ v : Service.View World Env Unit, (guardedService auth o yields).Keeps
          (fun m _ => m) (fun _ _ _ _ _ => True) (fun op r (_ : Unit) => op.Refuses auth r)
          (.received (.http key x)) (.done (.error exc)) v := by
        intro v key' x' exc' hop hexc'
        cases hop
        rw [hexc] at hexc'
        cases hexc'
        rfl
      show (guardedService auth o yields).Keeps _ _ _ _ (x.body auth key) _
      rcases refused_body hexc with hbody | ⟨k, hbody, hok, -⟩
      · rw [hbody]
        exact hend _
      · rw [hbody]
        rintro r v ⟨n, hr, -⟩
        have hlog : (World.respond e n w
            (.log KeyCheck.unauthorized.1 KeyCheck.unauthorized.2)).1 = .ok () := by
          rw [World.respond_of_not_mayRaise rfl]
          rfl
        rw [hr.trans hlog, hok]
        exact ⟨trivial, hend v⟩
    · -- nothing is said of the other operations
      refine Coro.Sat.mono (fun r v _ => ?_)
        (Coro.Sat.of_uses (I := fun _ => True) (fun _ _ _ _ _ _ _ => ⟨trivial, trivial⟩)
          (Coro.uses_true _) trivial)
      exact fun key x exc hop hexc => absurd ⟨key, x, exc, hop, hexc⟩ hrefused
  have hrun := (guardedService auth o yields).run_spec (m := fun _ => ()) hbody w acts
  exact hrun.ended (Config.outcome_eq_some_iff.1 h) (Classical.arbitrary Env)

/-- A request that is refused, for its key or for its body, changes nothing but the log, whatever it
asks for and whenever it comes: the run without the refused requests has the same other threads,
with the same outcomes, and leaves the same store, limiter and actions. So does the run without
polls. -/
theorem refused_requests_do_nothing (auth : KeyCheck) (o : CallOriginator) (yields : Cmd → Bool)
    (polls : Bool) (w : World) (acts : List (Act Env Received)) :
    let K := guardPurge auth o yields polls
    let s := (guardedService auth o yields).run (.initial w) acts
    let s' := (otpService o yields).run (.initial w) (K.acts (.initial w) acts)
    s'.threads = K.kept s.threads ∧ SameState s.world s'.world ∧
      ∀ i op r, s.outcome i = some (op, r) → op.Refuses auth r := by
  intro K s s'
  have hstart : SameState w w := ⟨rfl, rfl, rfl, rfl, rfl⟩
  have hmatch := Service.Purge.run (Service.Purge.matches_initial (K := K) hstart) acts
  exact ⟨hmatch.threads, hmatch.world, fun i op r h => refuses_run auth o yields w acts h⟩

end OtpVoice
