import Mathlib.Data.List.ReduceOption
import OtpVoice.Ami.Originator
import OtpVoice.Service.System

/-!
# The outcome of `originate`

`originate` judges the first message of the reply of `send_action`, and forwards the later
`OriginateResponse` messages to the event handler. `Coro.transcript` shows every command of the
method, so that it can be told which commands are those of the handler:

- `leadsTo_sendAction` : the action is sent, and its reply comes back as it is.
- `transcript_forward` : the loop applies the handler to the forwarded messages in their order.
- `originate_outcome` : what `originate` returns, and what it has forwarded.
-/

set_option autoImplicit false

namespace OtpVoice

open Coroutine

/-! ## The handler applied to messages -/

/-- The messages that the loop of `originate` hands over to the event handler. -/
def forwardedMessages (later : List (Option Message)) : List Message :=
  later.reduceOption.filter fun msg => msg.get .event = some "OriginateResponse"

/-- `_on_originate_response` applied to messages in their order, as commands, their number and the
state: the handler is looked up for each message and starts from the state that the one before has
left, and an exception of it is logged. -/
def applied (e : Env) : List Message → ℕ → World → List Cmd × ℕ × World
  | [], n, w => ([], n, w)
  | msg :: rest, n, w =>
    match (onOriginateResponse msg).transcript (World.respond e) (n + 1) w with
    | (cs, .ok _, m, w') =>
      let later := applied e rest m w'
      (.hasEventHandler :: cs ++ later.1, later.2)
    | (cs, .error x, m, w') =>
      let line := "Failed forwarding OriginateResponse: " ++ x.text
      let later := applied e rest (m + 1) { w' with logged := w'.logged ++ [(.error, line)] }
      (.hasEventHandler :: cs ++ .log .error line :: later.1, later.2)

theorem forwardedMessages_cons {msg : Message} (hevent : msg.get .event = some "OriginateResponse")
    (later : List (Option Message)) :
    forwardedMessages (some msg :: later) = msg :: forwardedMessages later := by
  simp only [forwardedMessages, List.reduceOption_cons_of_some, List.filter_cons, hevent,
    decide_true, if_true]

theorem forwardedMessages_cons_of_ne {msg : Message}
    (hevent : msg.get .event ≠ some "OriginateResponse") (later : List (Option Message)) :
    forwardedMessages (some msg :: later) = forwardedMessages later := by
  simp only [forwardedMessages, List.reduceOption_cons_of_some, List.filter_cons, hevent,
    decide_false, Bool.false_eq_true, if_false]

section Alone

variable {α β : Type} (e : Env) (n : ℕ) (w : World)

/-- One command before the rest. -/
theorem transcript_issue_bind (c : Cmd) (f : c.Resp → Prog β) :
    (issue c >>= f).transcript (World.respond e) n w =
      match World.respond e n w c with
      | (.ok a, w') =>
        (c :: ((f a).transcript (World.respond e) (n + 1) w').1,
          ((f a).transcript (World.respond e) (n + 1) w').2)
      | (.error x, w') => ([c], .error x, n + 1, w') := by
  refine (Coro.transcript_bind _ f (issue c) n w).trans ?_
  simp only [issue, Coro.perform, Coro.transcript]
  rcases World.respond e n w c with ⟨x | a, w'⟩ <;> rfl

theorem transcript_log (level : Level) (line : String) :
    (log level line).transcript (World.respond e) n w =
      ([.log level line], .ok (), n + 1, { w with logged := w.logged ++ [(level, line)] }) := by
  show ([Cmd.log level line], (World.respond e n w (.log level line)).1, n + 1,
    (World.respond e n w (.log level line)).2) = _
  rw [World.respond_of_not_mayRaise rfl]
  rfl

/-- `attempt` never raises. -/
theorem transcript_attempt (p : Prog α) :
    (attempt p).transcript (World.respond e) n w =
      ((p.transcript (World.respond e) n w).1, .ok (p.transcript (World.respond e) n w).2.1,
        (p.transcript (World.respond e) n w).2.2) := by
  rw [attempt, Coro.transcript_tryCatch, Coro.transcript_bind]
  rcases p.transcript (World.respond e) n w with ⟨cs, x | a, m, w'⟩
  · simp [Coro.transcript, pure]
  · simp [Coro.transcript, pure]

/-- The loop applies the handler to the forwarded messages. The induction follows the messages; one
that is not forwarded leaves no trace. -/
theorem transcript_forward {e : Env} (hhandler : e.handler = true) (later : List (Option Message))
    (n : ℕ) (w : World) :
    (CallOriginator.forward later).transcript (World.respond e) n w =
      ((applied e (forwardedMessages later) n w).1, .ok (),
        (applied e (forwardedMessages later) n w).2) := by
  induction later generalizing n w with
  | nil => rfl
  | cons msg later ih =>
    cases msg with
    | none => exact ih n w
    | some msg =>
      by_cases hevent : msg.get .event = some "OriginateResponse"
      · have hready : (hasEventHandler >>= fun ready =>
            if ready then onOriginateResponse msg else return ()).transcript (World.respond e) n w =
              (.hasEventHandler ::
                ((onOriginateResponse msg).transcript (World.respond e) (n + 1) w).1,
                ((onOriginateResponse msg).transcript (World.respond e) (n + 1) w).2) := by
          refine (transcript_issue_bind e n w .hasEventHandler _).trans ?_
          rw [World.respond_of_not_mayRaise rfl]
          simp only [World.answer, hhandler, if_true]
        rw [forwardedMessages_cons hevent, CallOriginator.forward, if_pos hevent,
          Coro.transcript_bind, Coro.transcript_tryCatch, hready, applied]
        rcases (onOriginateResponse msg).transcript (World.respond e) (n + 1) w with
          ⟨cs, x | a, m, w'⟩
        · -- the line of the exception is the last command of the iteration
          simp only [transcript_log, ih, List.cons_append, List.append_assoc, List.nil_append]
        · simp only [ih, List.cons_append]
      · rw [forwardedMessages_cons_of_ne hevent, CallOriginator.forward, if_neg hevent]
        exact ih n w

/-- The outcome of the loop. -/
theorem complete_forward {e : Env} (hhandler : e.handler = true) (later : List (Option Message))
    (n : ℕ) (w : World) :
    (CallOriginator.forward later).complete (World.respond e) n w =
      (.ok (), (applied e (forwardedMessages later) n w).2) := by
  rw [← Coro.transcript_complete, transcript_forward hhandler]

/-- The loop raises nothing, with or without a handler. -/
theorem forward_returns (e : Env) (later : List (Option Message)) (n : ℕ) (w : World) :
    ∃ cs m w', (CallOriginator.forward later).transcript (World.respond e) n w =
      (cs, .ok (), m, w') := by
  induction later generalizing n w with
  | nil => exact ⟨[], n, w, rfl⟩
  | cons msg later ih =>
    cases msg with
    | none => exact ih n w
    | some msg =>
      rw [CallOriginator.forward]
      split
      · rw [Coro.transcript_bind, Coro.transcript_tryCatch]
        rcases (hasEventHandler >>= fun ready => if ready = true then onOriginateResponse msg
          else pure ()).transcript (World.respond e) n w with ⟨cs, x | a, m, w'⟩
        · simp only [transcript_log]
          obtain ⟨cs', m', w'', hrest⟩ := ih (m + 1) { w' with logged := w'.logged ++
            [(.error, "Failed forwarding OriginateResponse: " ++ x.text)] }
          rw [hrest]
          exact ⟨_, m', w'', rfl⟩
        · obtain ⟨cs', m', w'', hrest⟩ := ih m w'
          simp only [hrest]
          exact ⟨_, m', w'', rfl⟩
      · exact ih n w

end Alone

/-! ## The method itself -/

/-- The commands of `originate` and `send_action` themselves, without those of the handler. -/
def Cmd.originating : Cmd → Bool
  | .getAmiClient => true
  | .isConnected => true
  | .submitAction _ => true
  | .awaitReply => true
  | .log _ _ => true
  | _ => false

/-- The run of `p` issues commands of the method and leaves the tables alone, until it goes on as
`q` with the `m`-th command and the state `w'`. -/
def LeadsTo {α : Type} (e : Env) (p : Prog α) (n : ℕ) (w : World) (q : Prog α) (m : ℕ)
    (w' : World) : Prop :=
  ∃ own, p.transcript (World.respond e) n w =
      (own ++ (q.transcript (World.respond e) m w').1, (q.transcript (World.respond e) m w').2) ∧
    (∀ c ∈ own, c.originating = true) ∧ w'.store = w.store

section Rules

variable {α β : Type} {e : Env} {n m k : ℕ} {w w' w'' : World}

theorem leadsTo_refl (p : Prog α) : LeadsTo e p n w p n w := ⟨[], rfl, by simp, rfl⟩

theorem LeadsTo.trans {p q z : Prog α} (h : LeadsTo e p n w q m w')
    (h' : LeadsTo e q m w' z k w'') : LeadsTo e p n w z k w'' := by
  obtain ⟨own, hrun, hown, hstore⟩ := h
  obtain ⟨own', hrun', hown', hstore'⟩ := h'
  refine ⟨own ++ own', ?_, ?_, hstore'.trans hstore⟩
  · rw [hrun, hrun', List.append_assoc]
  · intro c hc
    rcases List.mem_append.1 hc with hc | hc
    · exact hown c hc
    · exact hown' c hc

/-- One command of the method before the rest. -/
theorem leadsTo_issue {c : Cmd} (hc : c.originating = true) {a : c.Resp} (f : c.Resp → Prog β)
    (hanswer : w.answer e n c = (.ok a, w')) (hstore : w'.store = w.store) :
    LeadsTo e (issue c >>= f) n w (f a) (n + 1) w' := by
  have hraise : c.mayRaise = false := by
    cases c <;> first | rfl | cases hc
  refine ⟨[c], ?_, by simpa using hc, hstore⟩
  rw [transcript_issue_bind, World.respond_of_not_mayRaise hraise, hanswer]
  rfl

theorem leadsTo_log (level : Level) (line : String) (f : Unit → Prog β) :
    LeadsTo e (log level line >>= f) n w (f ()) (n + 1)
      { w with logged := w.logged ++ [(level, line)] } :=
  leadsTo_issue (c := .log level line) rfl f rfl rfl

theorem LeadsTo.tryCatch_ok {p : Prog α} {a : α} (h : LeadsTo e p n w (.done (.ok a)) m w')
    (handler : Exc → Prog α) : LeadsTo e (tryCatch p handler) n w (.done (.ok a)) m w' := by
  obtain ⟨own, hrun, hown⟩ := h
  refine ⟨own, ?_, hown⟩
  rw [Coro.transcript_tryCatch, hrun]
  rfl

theorem LeadsTo.tryCatch_error {p : Prog α} {x : Exc} (h : LeadsTo e p n w (.done (.error x)) m w')
    (handler : Exc → Prog α) : LeadsTo e (tryCatch p handler) n w (handler x) m w' := by
  obtain ⟨own, hrun, hown⟩ := h
  refine ⟨own, ?_, hown⟩
  rw [Coro.transcript_tryCatch, hrun]
  simp only [Coro.transcript, List.append_nil]

theorem LeadsTo.attempt_bind {p : Prog α} {r : Except Exc α} (h : LeadsTo e p n w (.done r) m w')
    (f : Except Exc α → Prog β) : LeadsTo e (attempt p >>= f) n w (f r) m w' := by
  obtain ⟨own, hrun, hown⟩ := h
  refine ⟨own, ?_, hown⟩
  rw [Coro.transcript_bind, transcript_attempt, hrun]
  simp only [Coro.transcript, List.append_nil]

/-- The reply of the library comes back as it is. -/
theorem leadsTo_awaitReply : LeadsTo e awaitReply n w (.done e.reply) (n + 1) w := by
  refine ⟨[.awaitReply], ?_, by simp [Cmd.originating], rfl⟩
  show ([Cmd.awaitReply], (World.respond e n w .awaitReply).1, n + 1,
    (World.respond e n w .awaitReply).2) = _
  rw [World.respond_of_not_mayRaise rfl]
  rfl

/-- `send_action` of a connected client gives back what the library gives. -/
theorem leadsTo_sendAction (hconnected : e.connected = true) (action : Action) (n : ℕ) (w : World) :
    ∃ m w', LeadsTo e (sendAction action) n w (.done e.reply) m w' := by
  have hstart : LeadsTo e (sendAction action) n w _ (n + 1) w :=
    leadsTo_issue (c := .isConnected) rfl _ (a := true) (by rw [← hconnected]; rfl) rfl
  have hsent : LeadsTo e (submitAction action >>= fun _ => awaitReply) (n + 1) w (.done e.reply)
      (n + 1 + 1 + 1) { w with sent := w.sent ++ [action] } :=
    (leadsTo_issue (c := .submitAction action) rfl (fun _ => awaitReply) rfl rfl).trans
      leadsTo_awaitReply
  cases hreply : e.reply with
  | ok reply =>
    rw [hreply] at hsent
    exact ⟨_, _, hstart.trans (hsent.tryCatch_ok _)⟩
  | error x =>
    rw [hreply] at hsent
    have hcaught := hstart.trans (hsent.tryCatch_error _)
    cases x with
    | timeoutError => exact ⟨_, _, hcaught⟩
    | http statusCode detail => exact ⟨_, _, hcaught.trans (leadsTo_log _ _ _)⟩
    | connectionError text => exact ⟨_, _, hcaught.trans (leadsTo_log _ _ _)⟩
    | other text => exact ⟨_, _, hcaught.trans (leadsTo_log _ _ _)⟩

/-- The reply acknowledges the action: the `Response` of its first message is `Success`. -/
def Reply.Acknowledges (reply : Reply) (later : List (Option Message)) : Prop :=
  ∃ ack, reply.messages = ack :: later ∧ msgGet ack .response = some "Success"

/-- The judgement of a reply. -/
theorem leadsTo_judge (mobile : String) (reply : Reply) (n : ℕ) (w : World) :
    (∃ later, reply.Acknowledges later ∧ LeadsTo e (CallOriginator.judge mobile reply.messages) n w
        (CallOriginator.forward later >>= fun _ => pure (true, none)) n w) ∨
      ((∀ later, ¬ reply.Acknowledges later) ∧ ∃ text m w',
        LeadsTo e (CallOriginator.judge mobile reply.messages) n w
          (.done (.ok (false, some text))) m w') := by
  cases hmessages : reply.messages with
  | nil =>
    refine .inr ⟨?_, _, n, w, leadsTo_refl _⟩
    rintro later ⟨ack, h, -⟩
    cases hmessages.symm.trans h
  | cons ack later =>
    by_cases hack : msgGet ack .response = some "Success"
    · refine .inl ⟨later, ⟨ack, hmessages, hack⟩, ?_⟩
      rw [CallOriginator.judge, if_pos hack]
      exact leadsTo_refl _
    · refine .inr ⟨?_, ?_⟩
      · rintro later' ⟨ack', h, hack'⟩
        cases hmessages.symm.trans h
        exact hack hack'
      · rw [CallOriginator.judge, if_neg hack]
        exact ⟨_, _, _, leadsTo_log _ _ _⟩

/-- The client is connected, and the reply of `send_action` acknowledges the action. -/
def Env.Acknowledges (e : Env) (later : List (Option Message)) : Prop :=
  e.connected = true ∧ ∃ reply, e.reply = .ok reply ∧ reply.Acknowledges later

/-- `originate` up to its loop, or up to its failure. -/
theorem leadsTo_originate (o : CallOriginator) (requestId mobile code : String)
    (repeatCount timeout : ℤ) (he : e.client = none) (n : ℕ) (w : World) :
    (∃ later m w', e.Acknowledges later ∧
        LeadsTo e (o.originate requestId mobile code repeatCount timeout) n w
          (CallOriginator.forward later >>= fun _ => pure (true, none)) m w') ∨
      ((∀ later, ¬ e.Acknowledges later) ∧ ∃ text m w',
        LeadsTo e (o.originate requestId mobile code repeatCount timeout) n w
          (.done (.ok (false, some text))) m w') := by
  have hclient : ∀ (m : ℕ) (w' : World), w'.answer e m .getAmiClient = (.ok (), w') := by
    intro m w'
    simp only [World.answer, he]
  have hstart : LeadsTo e (o.originate requestId mobile code repeatCount timeout) n w _
      (n + 1 + 1 + 1) _ :=
    (leadsTo_log _ _ _).trans ((leadsTo_issue (c := .getAmiClient) rfl _ (hclient _ _) rfl).trans
      (leadsTo_issue (c := .isConnected) rfl _ (a := e.connected) rfl rfl))
  cases hconnected : e.connected with
  | false =>
    rw [hconnected] at hstart
    refine .inr ⟨?_, _, _, _, hstart⟩
    rintro later ⟨h, -⟩
    cases hconnected.symm.trans h
  | true =>
    rw [hconnected] at hstart
    obtain ⟨m, w', hsent⟩ := leadsTo_sendAction hconnected (o.action requestId
      (sanitizeAmiValue mobile) (sanitizeAmiValue code) (CallOriginator.clampRepeat repeatCount)
      timeout) (n + 1 + 1 + 1) { w with logged := w.logged ++ [(.info, "Originating call to " ++
        maskMobile (sanitizeAmiValue mobile) ++ " code=" ++ maskCode (sanitizeAmiValue code) ++
        " repeat=" ++ toString (CallOriginator.clampRepeat repeatCount) ++ " req=" ++ requestId)] }
    have hjudged := hstart.trans (hsent.attempt_bind _)
    cases hreply : e.reply with
    | error x =>
      rw [hreply] at hjudged
      have hfailed : ∀ later, ¬ e.Acknowledges later := by
        rintro later ⟨-, reply, h, -⟩
        cases hreply.symm.trans h
      -- one line for each kind of exception, and its text
      refine .inr ⟨hfailed, ?_⟩
      cases x with
      | timeoutError => exact ⟨_, _, _, hjudged.trans (leadsTo_log _ _ _)⟩
      | connectionError text => exact ⟨_, _, _, hjudged.trans (leadsTo_log _ _ _)⟩
      | http statusCode detail => exact ⟨_, _, _, hjudged.trans (leadsTo_log _ _ _)⟩
      | other text => exact ⟨_, _, _, hjudged.trans (leadsTo_log _ _ _)⟩
    | ok reply =>
      rw [hreply] at hjudged
      rcases leadsTo_judge (e := e) (sanitizeAmiValue mobile) reply m w' with
        ⟨later, hack, hlater⟩ | ⟨hrefused, text, m', w'', hfail⟩
      · exact .inl ⟨later, m, w', ⟨hconnected, reply, hreply, hack⟩, hjudged.trans hlater⟩
      · refine .inr ⟨?_, text, m', w'', hjudged.trans hfail⟩
        rintro later ⟨-, reply', h, hack⟩
        cases hreply.symm.trans h
        exact hrefused later hack

end Rules

/-! ## What `originate` returns and forwards -/

/-- With a client that is initialised, for every connection state and every reply of `send_action`,
an exception included:

- `originate` returns `(True, None)` if and only if the client is connected and the first message of
  the reply has the `Response` `Success`, and `(False, e)` with a text `e` otherwise;
- when it returns `(True, None)` and an event handler is installed, its own commands are followed by
  those of the handler on the later messages whose `Event` is `OriginateResponse`, in their order;
- when it returns `(False, e)`, it has not even looked for the handler, and the tables are as they
  were. -/
theorem originate_outcome (o : CallOriginator) (requestId mobile code : String)
    (repeatCount timeout : ℤ) (e : Env) (he : e.client = none) (n : ℕ) (w : World) :
    ∃ commands ok error m w',
      (o.originate requestId mobile code repeatCount timeout).transcript (World.respond e) n w =
        (commands, .ok (ok, error), m, w') ∧
      ((ok, error) = (true, none) ↔ e.connected = true ∧ ∃ reply, e.reply = .ok reply ∧
        ∃ ack later, reply.messages = ack :: later ∧ msgGet ack .response = some "Success") ∧
      ((ok, error) ≠ (true, none) → ok = false ∧ error ≠ none ∧
        (∀ c ∈ commands, c.originating = true) ∧ w'.store = w.store) ∧
      ((ok, error) = (true, none) → e.handler = true → ∃ reply own k w₁,
        e.reply = .ok reply ∧ (∀ c ∈ own, c.originating = true) ∧ w₁.store = w.store ∧
        commands = own ++ (applied e (forwardedMessages reply.messages.tail) k w₁).1 ∧
        (m, w') = (applied e (forwardedMessages reply.messages.tail) k w₁).2) := by
  have hcondition : (∃ later, e.Acknowledges later) ↔ (e.connected = true ∧ ∃ reply,
      e.reply = .ok reply ∧ ∃ ack later, reply.messages = ack :: later ∧
        msgGet ack .response = some "Success") := by
    constructor
    · rintro ⟨later, hconnected, reply, hreply, ack, hmessages, hack⟩
      exact ⟨hconnected, reply, hreply, ack, later, hmessages, hack⟩
    · rintro ⟨hconnected, reply, hreply, ack, later, hmessages, hack⟩
      exact ⟨later, hconnected, reply, hreply, ack, hmessages, hack⟩
  rw [← hcondition]
  rcases leadsTo_originate o requestId mobile code repeatCount timeout he n w with
    ⟨later, k, w₁, hack, own, hrun, hown, hstore⟩ |
    ⟨hrefused, text, k, w₁, own, hrun, hown, hstore⟩
  · obtain ⟨cs, m, w', hforward⟩ := forward_returns e later k w₁
    have hend : (CallOriginator.forward later >>= fun _ => pure (true, none)).transcript
        (World.respond e) k w₁ = (cs, .ok (true, (none : Option String)), m, w') := by
      rw [Coro.transcript_bind, hforward]
      simp only [Coro.transcript, pure, List.append_nil]
    rw [hend] at hrun
    refine ⟨own ++ cs, true, none, m, w', hrun, iff_of_true rfl ⟨later, hack⟩, ?_, ?_⟩
    · intro h
      exact absurd rfl h
    · intro _ hhandler
      obtain ⟨-, reply, hreply, ack, hmessages, -⟩ := hack
      rw [transcript_forward hhandler] at hforward
      obtain ⟨hcommands, hfinal⟩ := Prod.mk.inj hforward
      refine ⟨reply, own, k, w₁, hreply, hown, hstore, ?_, ?_⟩
      · rw [hmessages, List.tail_cons, hcommands]
      · rw [hmessages, List.tail_cons, (Prod.mk.inj hfinal).2]
  · refine ⟨_, false, some text, _, _, hrun, ?_, ?_, ?_⟩
    · refine iff_of_false (by simp) ?_
      rintro ⟨later, hack⟩
      exact hrefused later hack
    · intro _
      refine ⟨rfl, by simp, ?_, hstore⟩
      simpa [Coro.transcript] using hown
    · intro h
      cases h

/-- The report of a busy line, as it comes with the acknowledgement. -/
def busyResponse : Message :=
  ⟨(.event, "OriginateResponse") :: (originateBusy firstId.text).headers⟩

/-- The acknowledgement and the report of a busy line. -/
def busyReply : Env := .calm 2 firstId [success, busyResponse]

theorem originate_outcome_busy :
    ∃ commands m w', (sampleOriginator.originate firstId.text "09120000000" "1234" 2 30).transcript
        (World.respond busyReply) 0 answeredWorld = (commands, .ok (true, none), m, w') ∧
      .hasEventHandler ∈ commands := by
  obtain ⟨commands, ok, error, m, w', hrun, hok, -, hforwarded⟩ := originate_outcome
    sampleOriginator firstId.text "09120000000" "1234" 2 30 busyReply rfl 0 answeredWorld
  have htrue : (ok, error) = (true, none) :=
    hok.2 ⟨rfl, .many [some success, some busyResponse], rfl, _, _, rfl, rfl⟩
  obtain ⟨reply, own, k, w₁, hreply, -, -, hcommands, -⟩ := hforwarded htrue rfl
  rw [htrue] at hrun
  refine ⟨commands, m, w', hrun, ?_⟩
  cases hreply
  have happlied : forwardedMessages [some busyResponse] = [busyResponse] :=
    forwardedMessages_cons rfl []
  rw [hcommands]
  apply List.mem_append_right
  show Cmd.hasEventHandler ∈ (applied busyReply (forwardedMessages [some busyResponse]) k w₁).1
  rw [happlied, applied]
  split <;> exact List.mem_append_left _ List.mem_cons_self

end OtpVoice
