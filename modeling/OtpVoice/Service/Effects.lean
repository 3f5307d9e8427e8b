import OtpVoice.Core.Validator
import OtpVoice.Coroutine.Sums
import OtpVoice.Storage.Schema

/-!
# Commands, world and environment

`Cmd` lists what the functions of the service do besides computing: read the clock, draw a request
id, run a statement on the shared database connection, call a method of the rate limiter, talk to
the AMI client, write a log line. `respond` gives the answer of each command and its effect on the
`World`; what the code cannot know in advance (clock readings, drawn ids, replies of Asterisk,
exceptions) comes from an `Env`.

A statement takes effect when it is submitted, since the connection runs statements in the order of
their submission, and all coroutines see it at once. A commit that raises rolls back the transaction
of the connection, with the statements of every coroutine since the last commit. An `INSERT`,
`UPDATE` or `DELETE` that raises does so too for some exceptions (a full disk), and leaves the
tables as they were for others (a locked database). `NoRollbacks` says that nothing in a run rolls
back.
-/

set_option autoImplicit false

namespace OtpVoice

open Coroutine

/-! ## Values exchanged with the outside -/

/-- The text of a version 4 UUID. -/
def isUuid4 (s : String) : Bool :=
  s.toList.length = 36 && s.toList.zipIdx.all fun (c, i) =>
    if i ∈ [8, 13, 18, 23] then c = '-'
    else if i = 14 then c = '4'
    else if i = 19 then c ∈ ['8', '9', 'a', 'b']
    else c ∈ "0123456789abcdef".toList

/-- A result of `str(uuid.uuid4())`. -/
structure Uuid4 where
  text : String
  wf : isUuid4 text = true

/-- The exceptions that the service raises or meets. -/
inductive Exc where
  | http (statusCode : ℕ) (detail : Option String)
  | timeoutError
  | connectionError (text : String)
  | other (text : String)
  deriving DecidableEq

/-- `str(e)`. -/
def Exc.text : Exc → String
  | .http _ detail => detail.getD ""
  | .timeoutError => ""
  | .connectionError text => text
  | .other text => text

/-- The headers that the service reads from AMI messages; `causeDashTxt` is `Cause-txt`. -/
inductive Header where
  | event | response | message | actionID | reason | channel | channelStateDesc | cause
  | causeDashTxt | causeTxt | userEvent | userevent | requestID | requestid
  deriving DecidableEq, Repr

/-- An AMI message: a dictionary of headers. -/
structure Message where
  headers : List (Header × String)
  deriving DecidableEq

/-- `message.get(key)`. -/
def Message.get (m : Message) (key : Header) : Option String := m.headers.lookup key

/-- What `send_action` returns: nothing, one message, or a list of messages or `None`s. -/
inductive Reply where
  | nothing
  | one (m : Message)
  | many (ms : List (Option Message))

/-- An AMI action: headers and values in order. -/
abbrev Action : Type := List (String × String)

/-- The levels of a log line. -/
inductive Level where
  | debug | info | warning | error
  deriving DecidableEq, Repr

/-! ## Commands -/

/-- What a function of the service does besides computing. -/
inductive Cmd where
  | time
  | uuid4
  | execute (s : Stmt)
  | commit
  | checkConcurrentCapacity
  | checkHourlyLimit
  | checkNumberLimit (mobile : String)
  | acquireSlot
  | releaseSlot
  | cleanupLimits
  | activeCalls
  | availableChannels
  | getAmiClient
  | isConnected
  | submitAction (a : Action)
  | awaitReply
  | hasEventHandler
  | log (level : Level) (line : String)

/-- What a command returns when it does not raise. -/
def Cmd.Resp : Cmd → Type
  | .time => Time
  | .uuid4 => Uuid4
  | .execute s => s.Result
  | .checkConcurrentCapacity => Bool × Option String
  | .checkHourlyLimit => Bool × Option String
  | .checkNumberLimit _ => Bool × Option String
  | .cleanupLimits => String
  | .activeCalls => ℕ
  | .availableChannels => ℕ
  | .isConnected => Bool
  | .awaitReply => Reply
  | .hasEventHandler => Bool
  | _ => Unit

/-- The coroutines of the service. -/
abbrev Prog (α : Type) : Type := Coro Cmd Cmd.Resp Exc α

/-- The state shared by all coroutines: the tables as the connection sees them, the tables of the
last commit, the limiter, the actions handed over to the AMI library, and the log. -/
structure World where
  store : Store
  committed : Store
  limiter : RateLimiter
  sent : List Action := []
  logged : List (Level × String) := []

/-- What the environment gives to one turn of a coroutine: for each of its commands a clock reading
and possibly the exception of a statement, with the flag that it undoes more than the statement, or
of a commit, the next drawn id, the exception that `get_ami_client` may raise, the connection flag
of the AMI client, the outcome of a pending `send_action`, and whether an event handler is
installed. Exceptions are given by their texts. -/
structure Env where
  now : ℕ → Time
  fault : ℕ → Option String
  undoes : ℕ → Bool
  commitFault : ℕ → Option String
  uuid : Uuid4
  client : Option String
  connected : Bool
  reply : Except Exc Reply
  handler : Bool

instance : Nonempty Env :=
  ⟨⟨fun _ => 0, fun _ => none, fun _ => false, fun _ => none,
    ⟨"00000000-0000-4000-8000-000000000000", by decide⟩, none, false, .ok .nothing, false⟩⟩

/-- No statement and no commit of the turn raises. -/
def Env.Calm (e : Env) : Prop := (∀ n, e.fault n = none) ∧ ∀ n, e.commitFault n = none

/-- Nothing rolls back in the turn. -/
structure Env.NoRollback (e : Env) : Prop where
  statement : ∀ n, (e.fault n).isSome = true → e.undoes n = false
  commit : ∀ n, e.commitFault n = none

theorem Env.Calm.noRollback {e : Env} (h : e.Calm) : e.NoRollback where
  statement n hfault := by
    rw [h.1 n] at hfault
    cases hfault
  commit := h.2

/-- The commands on the database connection. -/
def Cmd.mayRaise : Cmd → Bool
  | .execute _ => true
  | .commit => true
  | _ => false

/-- The answer to the `n`-th command of a turn when the environment raises nothing. -/
def World.answer (e : Env) (n : ℕ) (w : World) : (c : Cmd) → Except Exc c.Resp × World
  | .time => (.ok (e.now n), w)
  | .uuid4 => (.ok e.uuid, w)
  | .execute s =>
    match s.exec w.store with
    | (.ok r, st) => (.ok r, { w with store := st })
    | (.error text, _) => (.error (.other text), w)
  | .commit => (.ok (), { w with committed := w.store })
  | .checkConcurrentCapacity => (.ok w.limiter.checkConcurrentCapacity, w)
  | .checkHourlyLimit =>
    let x := w.limiter.checkHourlyLimit (e.now n)
    (.ok x.1, { w with limiter := x.2 })
  | .checkNumberLimit mobile =>
    match w.limiter.checkNumberLimit mobile (e.now n) with
    | (.ok r, rl) => (.ok r, { w with limiter := rl })
    | (.error text, rl) => (.error (.other text), { w with limiter := rl })
  | .acquireSlot => (.ok (), { w with limiter := w.limiter.acquireSlot })
  | .releaseSlot => (.ok (), { w with limiter := w.limiter.releaseSlot })
  | .cleanupLimits =>
    let x := w.limiter.cleanup (e.now n)
    (.ok x.1, { w with limiter := x.2 })
  | .activeCalls => (.ok w.limiter.activeCalls, w)
  | .availableChannels => (.ok w.limiter.availableChannels, w)
  | .getAmiClient =>
    match e.client with
    | none => (.ok (), w)
    | some text => (.error (.other text), w)
  | .isConnected => (.ok e.connected, w)
  | .submitAction a => (.ok (), { w with sent := w.sent ++ [a] })
  | .awaitReply => (e.reply, w)
  | .hasEventHandler => (.ok e.handler, w)
  | .log level line => (.ok (), { w with logged := w.logged ++ [(level, line)] })

/-- The connection goes back to the tables of the last commit. -/
def World.rollback (w : World) : World := { w with store := w.committed }

/-- What a statement that raises leaves: the tables as they were or those of the last commit. -/
def World.undo (e : Env) (n : ℕ) (s : Stmt) (w : World) : World :=
  { w with store := if s.writes && e.undoes n then w.committed else w.store }

/-- The `n`-th command of a turn rolls back. -/
def Env.rollsBack (e : Env) (n : ℕ) : Cmd → Bool
  | .execute s => (e.fault n).isSome && (s.writes && e.undoes n)
  | .commit => (e.commitFault n).isSome
  | _ => false

/-- The answer to the `n`-th command of a turn. A statement that raises undoes itself or, as a
commit that raises, takes the connection back to the last commit, with the writes of all
coroutines. -/
def World.respond (e : Env) (n : ℕ) (w : World) : (c : Cmd) → Except Exc c.Resp × World
  | .execute s =>
    match e.fault n with
    | some text => (.error (.other text), w.undo e n s)
    | none => w.answer e n (.execute s)
  | .commit =>
    match e.commitFault n with
    | some text => (.error (.other text), w.rollback)
    | none => w.answer e n .commit
  | c => w.answer e n c

theorem World.respond_of_not_mayRaise {e : Env} {n : ℕ} {w : World} {c : Cmd}
    (h : c.mayRaise = false) : World.respond e n w c = w.answer e n c := by
  cases c <;> first | rfl | cases h

theorem World.respond_execute {e : Env} {n : ℕ} (h : e.fault n = none) (w : World) (s : Stmt) :
    World.respond e n w (.execute s) = w.answer e n (.execute s) := by
  simp only [World.respond, h]

theorem World.respond_fault {e : Env} {n : ℕ} {text : String} (h : e.fault n = some text)
    (w : World) (s : Stmt) : World.respond e n w (.execute s) =
      (.error (.other text), w.undo e n s) := by
  simp only [World.respond, h]

theorem Env.NoRollback.undo {e : Env} {n : ℕ} {text : String} (he : e.NoRollback)
    (h : e.fault n = some text) (w : World) (s : Stmt) : w.undo e n s = w := by
  rw [World.undo, he.statement n (by rw [h]; rfl), Bool.and_false]
  rfl

/-- A `SELECT` that raises leaves the tables as they were. -/
theorem World.undo_read (e : Env) (n : ℕ) {s : Stmt} (hs : s.writes = false) (w : World) :
    w.undo e n s = w := by
  rw [World.undo, hs]
  rfl

theorem Env.NoRollback.rollsBack {e : Env} (he : e.NoRollback) (n : ℕ) (c : Cmd) :
    e.rollsBack n c = false := by
  cases c with
  | execute s =>
    cases hfault : e.fault n with
    | none => simp [Env.rollsBack, hfault]
    | some text => simp [Env.rollsBack, he.statement n (by rw [hfault]; rfl)]
  | commit => simp [Env.rollsBack, he.commit n]
  | _ => rfl

/-- What rolls back raises. -/
theorem World.respond_rollsBack {e : Env} {n : ℕ} {c : Cmd} (h : e.rollsBack n c = true)
    (w : World) : ∃ text, World.respond e n w c = (.error (.other text), w.rollback) := by
  cases c with
  | execute s =>
    obtain ⟨hfault, hundoes⟩ := Bool.and_eq_true_iff.1 h
    obtain ⟨text, hfault⟩ := Option.isSome_iff_exists.1 hfault
    refine ⟨text, ?_⟩
    rw [World.respond_fault hfault, World.undo, if_pos hundoes]
    rfl
  | commit =>
    obtain ⟨text, hfault⟩ := Option.isSome_iff_exists.1 h
    refine ⟨text, ?_⟩
    simp only [World.respond, hfault]
  | _ => cases h

theorem World.respond_commit {e : Env} {n : ℕ} (h : e.commitFault n = none) (w : World) :
    World.respond e n w .commit = (.ok (), { w with committed := w.store }) := by
  simp only [World.respond, h, World.answer]

theorem World.respond_commitFault {e : Env} {n : ℕ} {text : String}
    (h : e.commitFault n = some text) (w : World) :
    World.respond e n w .commit = (.error (.other text), w.rollback) := by
  simp only [World.respond, h]

theorem World.answer_execute (e : Env) (n : ℕ) (w : World) (s : Stmt) :
    (w.answer e n (.execute s)).2.store = (s.exec w.store).2 := by
  cases s with
  | insertCall row =>
    simp only [World.answer, Stmt.exec]
    cases w.store.calls.insert row <;> rfl
  | _ => rfl

theorem Env.mayRaise_of_rollsBack {e : Env} {n : ℕ} {c : Cmd} (h : e.rollsBack n c = true) :
    c.mayRaise = true := by
  cases c <;> first | rfl | cases h

/-- A command changes the tables only by the effect of its statement, or when it rolls back. -/
theorem World.respond_store (e : Env) (n : ℕ) (w : World) (c : Cmd) :
    (World.respond e n w c).2.store = w.store ∨
      (∃ s, c = .execute s ∧ e.fault n = none ∧
        (World.respond e n w c).2.store = (s.exec w.store).2) ∨
      (e.rollsBack n c = true ∧ (World.respond e n w c).2.store = w.committed) := by
  cases c with
  | execute s =>
    cases hfault : e.fault n with
    | none =>
      rw [World.respond_execute hfault]
      exact .inr (.inl ⟨s, rfl, rfl, w.answer_execute e n s⟩)
    | some text =>
      rw [World.respond_fault hfault]
      simp only [World.undo, Env.rollsBack, hfault]
      cases s.writes && e.undoes n with
      | false => exact .inl rfl
      | true => exact .inr (.inr ⟨rfl, rfl⟩)
  | commit =>
    cases hfault : e.commitFault n with
    | none =>
      rw [World.respond_commit hfault]
      exact .inl rfl
    | some text =>
      rw [World.respond_commitFault hfault]
      exact .inr (.inr ⟨by simp [Env.rollsBack, hfault], rfl⟩)
  | checkNumberLimit mobile =>
    simp only [World.respond, World.answer]
    split <;> exact .inl rfl
  | getAmiClient =>
    simp only [World.respond, World.answer]
    split <;> exact .inl rfl
  | _ => exact .inl rfl

/-- The tables of the last commit are those of a commit that raises nothing. -/
theorem World.respond_committed (e : Env) (n : ℕ) (w : World) (c : Cmd) :
    (World.respond e n w c).2.committed = w.committed ∨
      (c = .commit ∧ e.commitFault n = none ∧
        (World.respond e n w c).2.committed = w.store ∧
          (World.respond e n w c).2.store = w.store) := by
  cases c with
  | execute s =>
    left
    cases hfault : e.fault n with
    | none =>
      rw [World.respond_execute hfault]
      simp only [World.answer]
      split <;> rfl
    | some text =>
      rw [World.respond_fault hfault]
      rfl
  | commit =>
    cases hfault : e.commitFault n with
    | none =>
      rw [World.respond_commit hfault]
      exact .inr ⟨rfl, rfl, rfl, rfl⟩
    | some text =>
      rw [World.respond_commitFault hfault]
      exact .inl rfl
  | checkNumberLimit mobile =>
    simp only [World.respond, World.answer]
    split <;> exact .inl rfl
  | getAmiClient =>
    simp only [World.respond, World.answer]
    split <;> exact .inl rfl
  | _ => exact .inl rfl

/-- What holds of the tables and of those of the last commit, and is kept by the statement of a
command, is kept by the command, also when it rolls back. -/
theorem World.respond_keeps {I : Store → Prop} {e : Env} {n : ℕ} {w : World} {c : Cmd}
    (hw : I w.store ∧ I w.committed)
    (hexec : ∀ s, c = .execute s → e.fault n = none → I (s.exec w.store).2) :
    I (World.respond e n w c).2.store ∧ I (World.respond e n w c).2.committed := by
  constructor
  · rcases World.respond_store e n w c with h | ⟨s, hc, hfault, h⟩ | ⟨-, h⟩
    · rw [h]
      exact hw.1
    · rw [h]
      exact hexec s hc hfault
    · rw [h]
      exact hw.2
  · rcases World.respond_committed e n w c with h | ⟨-, -, h, -⟩
    · rw [h]
      exact hw.2
    · rw [h]
      exact hw.1

/-- What a command does to the limiter. -/
def Cmd.onLimiter (now : Time) (rl : RateLimiter) : Cmd → RateLimiter
  | .checkHourlyLimit => (rl.checkHourlyLimit now).2
  | .checkNumberLimit mobile => (rl.checkNumberLimit mobile now).2
  | .acquireSlot => rl.acquireSlot
  | .releaseSlot => rl.releaseSlot
  | .cleanupLimits => (rl.cleanup now).2
  | _ => rl

theorem World.answer_limiter (e : Env) (n : ℕ) (w : World) (c : Cmd) :
    (w.answer e n c).2.limiter = c.onLimiter (e.now n) w.limiter := by
  cases c with
  | execute s =>
    simp only [World.answer, Cmd.onLimiter]
    split <;> rfl
  | checkNumberLimit mobile =>
    simp only [World.answer, Cmd.onLimiter]
    split <;> simp_all
  | getAmiClient =>
    simp only [World.answer, Cmd.onLimiter]
    split <;> rfl
  | _ => rfl

theorem World.respond_limiter (e : Env) (n : ℕ) (w : World) (c : Cmd) :
    (World.respond e n w c).2.limiter = c.onLimiter (e.now n) w.limiter := by
  rw [← World.answer_limiter]
  cases c with
  | execute s =>
    cases hfault : e.fault n with
    | none => rw [World.respond_execute hfault]
    | some text =>
      rw [World.respond_fault hfault, World.answer_limiter]
      rfl
  | commit =>
    cases hfault : e.commitFault n with
    | none => rw [World.respond_commit hfault]; rfl
    | some text => rw [World.respond_commitFault hfault]; rfl
  | _ => rfl

/-! ## Runs in which nothing rolls back -/

/-- Nothing rolls back in the run. -/
def NoRollbacks {In : Type} (acts : List (Act Env In)) : Prop :=
  ∀ i e, Act.turn i e ∈ acts → e.NoRollback

section NoRollbacks

variable {In : Type} {acts acts' : List (Act Env In)} {e : Env} {i : ℕ}

theorem NoRollbacks.of_turn (h : NoRollbacks acts) {k : ℕ} (hk : acts[k]? = some (.turn i e)) :
    e.NoRollback :=
  h i e (List.mem_of_getElem? hk)

theorem NoRollbacks.mono (h : NoRollbacks acts) (hsub : acts' ⊆ acts) : NoRollbacks acts' :=
  fun i e he => h i e (hsub he)

@[simp] theorem noRollbacks_nil : NoRollbacks ([] : List (Act Env In)) :=
  fun _ _ h => absurd h List.not_mem_nil

@[simp] theorem noRollbacks_arrive {x : In} :
    NoRollbacks (.arrive x :: acts) ↔ NoRollbacks acts :=
  ⟨fun h => h.mono (List.subset_cons_self _ _), fun h i e he =>
    h i e ((List.mem_cons.1 he).resolve_left fun h => by cases h)⟩

@[simp] theorem noRollbacks_turn :
    NoRollbacks (.turn i e :: acts) ↔ e.NoRollback ∧ NoRollbacks acts := by
  refine ⟨fun h => ⟨h i e List.mem_cons_self, h.mono (List.subset_cons_self _ _)⟩, ?_⟩
  rintro ⟨he, h⟩ j e' hmem
  rcases List.mem_cons.1 hmem with heq | hmem
  · cases heq
    exact he
  · exact h j e' hmem

@[simp] theorem noRollbacks_append :
    NoRollbacks (acts ++ acts') ↔ NoRollbacks acts ∧ NoRollbacks acts' := by
  refine ⟨fun h =>
    ⟨h.mono (List.subset_append_left _ _), h.mono (List.subset_append_right _ _)⟩, ?_⟩
  rintro ⟨h, h'⟩ i e he
  exact (List.mem_append.1 he).elim (h i e) (h' i e)

end NoRollbacks

/-- The commands at which a coroutine gives up the event loop: the awaited ones. -/
def Cmd.awaited : Cmd → Bool
  | .execute _ => true
  | .commit => true
  | .checkHourlyLimit => true
  | .checkNumberLimit _ => true
  | .cleanupLimits => true
  | .submitAction _ => true
  | _ => false

/-- The only command that waits for Asterisk. -/
def Cmd.waitsForAsterisk : Cmd → Bool
  | .submitAction _ => true
  | _ => false

/-! ## One function for each command -/

/-- Issue a command of the service. -/
def issue (c : Cmd) : Prog c.Resp := Coro.perform c

/-- `time.time()`. -/
def time : Prog Time := issue .time

/-- `uuid.uuid4()`. -/
def uuid4 : Prog Uuid4 := issue .uuid4

/-- `await conn.execute(...)` with its fetches. -/
def execute (s : Stmt) : Prog s.Result := issue (.execute s)

/-- `await conn.commit()`. -/
def commit : Prog Unit := issue .commit

/-- `check_concurrent_capacity`, which is not awaited. -/
def checkConcurrentCapacity : Prog (Bool × Option String) := issue .checkConcurrentCapacity

/-- `await check_hourly_limit()`. -/
def checkHourlyLimit : Prog (Bool × Option String) := issue .checkHourlyLimit

/-- `await check_number_limit(mobile)`. -/
def checkNumberLimit (mobile : String) : Prog (Bool × Option String) :=
  issue (.checkNumberLimit mobile)

/-- `acquire_slot()`. -/
def acquireSlot : Prog Unit := issue .acquireSlot

/-- `release_slot()`. -/
def releaseSlot : Prog Unit := issue .releaseSlot

/-- `await rate_limiter.cleanup()`, with the line that it logs. -/
def cleanupLimits : Prog String := issue .cleanupLimits

/-- The property `active_calls`. -/
def activeCalls : Prog ℕ := issue .activeCalls

/-- The property `available_channels`. -/
def availableChannels : Prog ℕ := issue .availableChannels

/-- `get_ami_client()`, which may raise. -/
def getAmiClient : Prog Unit := issue .getAmiClient

/-- The property `is_connected` of the AMI client. -/
def isConnected : Prog Bool := issue .isConnected

/-- The part of `send_action` that hands the action over. -/
def submitAction (a : Action) : Prog Unit := issue (.submitAction a)

/-- The part of `send_action` that waits for the reply. -/
def awaitReply : Prog Reply := issue .awaitReply

/-- Whether `get_event_handler()` gives a handler. -/
def hasEventHandler : Prog Bool := issue .hasEventHandler

/-- One call of the logger. -/
def log (level : Level) (line : String) : Prog Unit := issue (.log level line)

/-- `if not ok: raise x`. -/
def raiseUnless (ok : Bool) (x : Exc) : Prog Unit := if ok then pure () else throw x

/-! ## Coroutines run alone -/

section Alone

variable {β : Type}

/-- One command before the rest, run alone. -/
theorem complete_issue_bind (e : Env) (c : Cmd) (f : c.Resp → Prog β) (n : ℕ) (w : World) :
    (issue c >>= f).complete (World.respond e) n w =
      match World.respond e n w c with
      | (.ok a, w') => (f a).complete (World.respond e) (n + 1) w'
      | (.error x, w') => (.error x, n + 1, w') := by
  refine (Coro.complete_bind _ f (issue c) n w).trans ?_
  simp only [issue, Coro.perform, Coro.complete]
  rcases World.respond e n w c with ⟨x | a, w'⟩ <;> rfl

end Alone

end OtpVoice
