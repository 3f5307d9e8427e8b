import OtpVoice.Ami.Failure

/-!
# Messages that are delivered twice

What a handler does about a message is a `Reaction`: at most one guarded update of a record and at
most one line in its timeline, both determined by the message and the tables. `complete_dispatch`
is the refinement: a handler that returns has carried out its reaction.

After the reaction has been carried out, the handler would react in the same way, or without the
update (`settles_reaction`): the lookup by channel finds the same record, and a hangup finds it in a
terminal status. So a second delivery writes the same values and the same line
(`duplicate_delivery_harmless`).
-/

set_option autoImplicit false

namespace OtpVoice

open Coroutine

/-! ## Reactions -/

/-- A guarded update of a record, and a line of a timeline. -/
structure Reaction where
  update : Option (String × Status × StatusFields) := none
  line : Option (String × EventName × Option String) := none

/-- The reaction to a dialplan event. -/
def DialplanEvent.reaction (d : DialplanEvent) (requestId : String) (message : Message) :
    Reaction :=
  match d, orText (message.get .channel) none with
  | .callStart, some channel =>
    { update := some (requestId, d.status, { channel := some channel })
      line := some (requestId, d.line, some ("channel=" ++ channel)) }
  | .callStart, none =>
    { line := some (requestId, d.line, some ("channel=" ++ showText (message.get .channel))) }
  | _, _ =>
    { update := some (requestId, d.status, {})
      line := some (requestId, d.line, none) }

/-- The reaction to a `Newstate` on the channel of a record. -/
def newStateReaction (message : Message) (channel : String) (record : CallRecord) : Reaction :=
  match stateStatus message with
  | some (status, event) =>
    { update := some (record.requestId, status, {})
      line := some (record.requestId, event, some ("channel=" ++ channel)) }
  | none => {}

/-- The reaction to a `Hangup` on the channel of a record. -/
def hangupReaction (message : Message) (channel : String) (record : CallRecord) : Reaction where
  update :=
    if record.status.terminal then none
    else some (record.requestId, hangupStatus (causeInt message) record.status,
      { hangupCause := some (hangupText message) })
  line := some (record.requestId, .hangup, some ("cause=" ++ toString (causeInt message) ++ " (" ++
    causeTxt message ++ ") channel=" ++ channel))

/-- The reaction to a message about the record of its channel. -/
def onChannel (calls : CallTable) (message : Message)
    (react : Message → String → CallRecord → Reaction) : Reaction :=
  match orText (message.get .channel) none with
  | none => {}
  | some channel =>
    match newestOfChannel calls channel with
    | none => {}
    | some record => react message channel record

/-- The reaction of the handler of a kind to a message. -/
def reaction (calls : CallTable) (message : Message) : EventKind → Reaction
  | .originateResponse =>
    match extractRequestId (message.get .actionID) with
    | none => {}
    | some requestId =>
      { update := (originateFailure message).map fun status =>
          (requestId, status, { asteriskReason := some ((message.get .reason).getD "") })
        line := some (requestId, .originateResponse, some ("response=" ++
          (message.get .response).getD "" ++ " reason=" ++ (message.get .reason).getD "" ++
          " channel=" ++ showText (message.get .channel))) }
  | .newchannel => {}
  | .newstate => onChannel calls message newStateReaction
  | .hangup => onChannel calls message hangupReaction
  | .userEvent =>
    match userEventRequestId message, dialplanEvent message with
    | some requestId, some d => d.reaction requestId message
    | _, _ => {}

/-- The records after a reaction. -/
def Reaction.updated (x : Reaction) (t : Time) (st : Store) : Store :=
  match x.update with
  | some (requestId, status, u) => st.updateStatus requestId status t u
  | none => st

/-- The tables after a reaction. -/
def Reaction.carryOut (x : Reaction) (t now : Time) (st : Store) : Store :=
  match x.line with
  | some (requestId, event, detail) => (x.updated t st).withEvent ⟨requestId, event, detail, now⟩
  | none => x.updated t st

/-! ## The handlers carry out their reactions -/

section Handlers

variable (e : Env) (message : Message) (n : ℕ) (w : World)

/-- What is proved of every handler. -/
def Carries (p : Prog Unit) (x : Reaction) : Prop :=
  ∃ r m st cm, p.complete (World.respond e) n w =
      (r, m, { w with store := st, committed := cm }) ∧
    (r = .ok () → ∃ t now, st = x.carryOut t now w.store) ∧
    (e.Calm → r = .ok ())

theorem carries_nothing : Carries e n w (return ()) {} :=
  ⟨.ok (), n, w.store, w.committed, rfl, fun _ => ⟨0, 0, rfl⟩, fun _ => rfl⟩

theorem carries_line (requestId : String) (event : EventName) (detail : Option String) :
    Carries e n w (addEvent requestId event detail)
      { line := some (requestId, event, detail) } := by
  obtain ⟨r, m, st, cm, hrun, -, hline, hcalm⟩ := complete_addEvent e requestId event detail n w
  exact ⟨r, m, st, cm, hrun, fun h => ⟨0, _, hline h⟩, hcalm⟩

/-- The update first, and then the line. -/
theorem carries_update_line (requestId : String) (status : Status) (u : StatusFields)
    (event : EventName) (detail : Option String) :
    Carries e n w (updateCallStatus requestId status u >>= fun _ => addEvent requestId event detail)
      { update := some (requestId, status, u), line := some (requestId, event, detail) } := by
  obtain ⟨r, m, st, cm, hrun, -, hok, hcalm⟩ :=
    complete_update_addEvent e requestId status u event detail n w
  refine ⟨r, m, st, cm, hrun, ?_, hcalm⟩
  intro h
  obtain ⟨k, hst⟩ := hok h
  exact ⟨_, _, hst⟩

/-- The line first, and then an update or none. -/
theorem carries_line_update (requestId : String) (event : EventName) (detail : Option String)
    (update : Option (Status × StatusFields)) {p : Prog Unit}
    (hp : p = match update with
      | some (status, u) => updateCallStatus requestId status u >>= fun _ => pure ()
      | none => pure ()) :
    Carries e n w (addEvent requestId event detail >>= fun _ => p)
      { update := update.map fun x => (requestId, x)
        line := some (requestId, event, detail) } := by
  obtain ⟨r, m, st, cm, hrun, hok, hcalm⟩ :=
    complete_addEvent_update e requestId event detail update n w hp
  refine ⟨r, m, st, cm, hrun, ?_, hcalm⟩
  intro h
  obtain ⟨t, rfl⟩ := hok h
  refine ⟨t, e.now n, ?_⟩
  cases update with
  | none => rfl
  | some x => exact Store.withEvent_updateStatus _ _ _ _ _ _

variable {e message n w}

/-- A lookup by channel before the rest; its exception ends the handler. -/
theorem carries_select {channel : String} {f : Option CallRecord → Prog Unit} {x : Reaction}
    (h : Carries e (n + 1) w (f (newestOfChannel w.store.calls channel)) x) :
    Carries e n w (getCallByChannel channel >>= f) x := by
  unfold Carries
  rw [complete_getCallByChannel_bind]
  cases hfault : e.fault n with
  | none => exact h
  | some text =>
    refine ⟨.error (.other text), n + 1, w.store, w.committed, rfl, ?_, ?_⟩
    · intro hok
      cases hok
    · intro hcalm
      cases (hcalm.1 n).symm.trans hfault

variable (e message n w)

theorem carries_onOriginateResponse :
    Carries e n w (onOriginateResponse message)
      (reaction w.store.calls message .originateResponse) := by
  simp only [onOriginateResponse, reaction]
  cases extractRequestId (message.get .actionID) with
  | none => exact carries_nothing e n w
  | some requestId =>
    have hcarries := carries_line_update e n w requestId .originateResponse
      (some ("response=" ++ (message.get .response).getD "" ++ " reason=" ++
        (message.get .reason).getD "" ++ " channel=" ++ showText (message.get .channel)))
      ((originateFailure message).map fun status =>
        (status, { asteriskReason := some ((message.get .reason).getD "") })) rfl
    rw [Option.map_map] at hcarries
    cases hfailure : originateFailure message with
    | none =>
      rw [hfailure] at hcarries
      exact hcarries
    | some status =>
      rw [hfailure] at hcarries
      exact hcarries

theorem carries_onNewState :
    Carries e n w (onNewState message) (reaction w.store.calls message .newstate) := by
  simp only [onNewState, reaction, onChannel]
  cases orText (message.get .channel) none with
  | none => exact carries_nothing e n w
  | some channel =>
    apply carries_select
    dsimp only
    cases newestOfChannel w.store.calls channel with
    | none => exact carries_nothing e (n + 1) w
    | some record =>
      simp only [newStateReaction]
      cases stateStatus message with
      | none => exact carries_nothing e (n + 1) w
      | some x => exact carries_update_line e (n + 1) w record.requestId x.1 {} x.2 _

theorem carries_onHangup :
    Carries e n w (onHangup message) (reaction w.store.calls message .hangup) := by
  simp only [onHangup, reaction, onChannel]
  cases orText (message.get .channel) none with
  | none => exact carries_nothing e n w
  | some channel =>
    apply carries_select
    dsimp only
    cases newestOfChannel w.store.calls channel with
    | none => exact carries_nothing e (n + 1) w
    | some record =>
      simp only [hangupReaction]
      cases hterminal : record.status.terminal with
      | true => exact carries_line_update e (n + 1) w record.requestId .hangup _ none rfl
      | false =>
        exact carries_line_update e (n + 1) w record.requestId .hangup _ (some (_, _)) rfl

theorem carries_onUserEvent :
    Carries e n w (onUserEvent message) (reaction w.store.calls message .userEvent) := by
  simp only [onUserEvent, reaction]
  cases userEventRequestId message with
  | none => exact carries_nothing e n w
  | some requestId =>
    cases dialplanEvent message with
    | none => exact carries_nothing e n w
    | some d =>
      cases d with
      | callStart =>
        simp only [DialplanEvent.reaction]
        cases orText (message.get .channel) none with
        | none => exact carries_line e n w requestId .dialplanStart _
        | some channel => exact carries_update_line e n w requestId .answered _ .dialplanStart _
      | playbackStart => exact carries_update_line e n w requestId .playing {} .playing none
      | playbackComplete =>
        exact carries_update_line e n w requestId .completed {} .playbackComplete none

/-- Every handler carries out the reaction of its kind, or ends with an exception of the
database. -/
theorem complete_dispatch (kind : EventKind) :
    Carries e n w (dispatch kind message) (reaction w.store.calls message kind) := by
  cases kind with
  | originateResponse => exact carries_onOriginateResponse e message n w
  | newchannel => exact carries_nothing e n w
  | newstate => exact carries_onNewState e message n w
  | hangup => exact carries_onHangup e message n w
  | userEvent => exact carries_onUserEvent e message n w

end Handlers

/-! ## The same reaction again -/

section Again

variable {st : Store} {message : Message}

theorem Reaction.calls_carryOut (x : Reaction) (t now : Time) (st : Store) :
    (x.carryOut t now st).calls = (x.updated t st).calls := by
  unfold Reaction.carryOut
  split <;> rfl

/-- The lines that a reaction adds. -/
theorem Reaction.events_carryOut (x : Reaction) (t now : Time) (st : Store) :
    (x.carryOut t now st).events =
      st.events ++ x.line.toList.map fun l => ⟨l.1, l.2.1, l.2.2, now⟩ := by
  have hupdated : (x.updated t st).events = st.events := by
    unfold Reaction.updated
    split
    · exact Store.events_updateStatus _ _ _ _ _
    · rfl
  unfold Reaction.carryOut
  split
  · rename_i hline
    simp only [Store.withEvent, hupdated, hline, Option.toList_some, List.map_cons, List.map_nil]
  · rename_i hline
    simp only [hupdated, hline, Option.toList_none, List.map_nil, List.append_nil]

theorem CallRecord.guarded_channel {u : StatusFields} (hu : u.channel = none) (row : CallRecord)
    (status : Status) (t : Time) : (row.guarded status t u).channel = row.channel := by
  simp only [CallRecord.guarded]
  split
  · rfl
  · simp only [CallRecord.updated, hu]
    rfl

theorem CallRecord.guarded_requestId (row : CallRecord) (status : Status) (t : Time)
    (u : StatusFields) : (row.guarded status t u).requestId = row.requestId := by
  simp only [CallRecord.guarded]
  split <;> rfl

theorem CallRecord.guarded_createdAt (row : CallRecord) (status : Status) (t : Time)
    (u : StatusFields) : (row.guarded status t u).createdAt = row.createdAt := by
  simp only [CallRecord.guarded]
  split <;> rfl

/-- An update that binds no channel does not change which record is found for a channel. -/
theorem newestOfChannel_updateStatus {u : StatusFields} (hu : u.channel = none) {channel : String}
    {row : CallRecord} (hrow : newestOfChannel st.calls channel = some row) (status : Status)
    (t : Time) :
    newestOfChannel (st.updateStatus row.requestId status t u).calls channel =
      some (row.guarded status t u) := by
  rw [newestOfChannel_map (st.rows_updateStatus row.requestId status t u), hrow, Option.map_some,
    if_pos rfl]
  · intro r
    split
    · exact r.guarded_channel hu status t
    · rfl
  · intro r
    split
    · exact r.guarded_createdAt status t u
    · rfl

/-- After a reaction, the message meets the same reaction, or the same line without an update. -/
def Settles (st : Store) (x : Reaction) (react : CallTable → Reaction) : Prop :=
  ∀ t, (react (x.updated t st).calls).line = x.line ∧
    ((react (x.updated t st).calls).update = x.update ∨
      (react (x.updated t st).calls).update = none)

/-- A reaction without an update leaves the records as they are. -/
theorem settles_of_update_none (react : CallTable → Reaction)
    (h : (react st.calls).update = none) : Settles st (react st.calls) react := by
  intro t
  have hsame : (react st.calls).updated t st = st := by
    simp only [Reaction.updated, h]
  rw [hsame]
  exact ⟨rfl, .inl rfl⟩

theorem onChannel_of_found {react : Message → String → CallRecord → Reaction} {calls : CallTable}
    {channel : String} {record : CallRecord}
    (hchannel : orText (message.get .channel) none = some channel)
    (hrecord : newestOfChannel calls channel = some record) :
    onChannel calls message react = react message channel record := by
  simp only [onChannel, hchannel, hrecord]

/-- A reaction by channel settles if it updates the record that it has found, without a channel,
and reacts in the same way, or without the update, to the record it leaves. -/
theorem settles_onChannel {react : Message → String → CallRecord → Reaction}
    (hreact : ∀ channel record requestId status u, (react message channel record).update =
        some (requestId, status, u) → requestId = record.requestId ∧ u.channel = none ∧
      ∀ t, let again := react message channel (record.guarded status t u)
        again.line = (react message channel record).line ∧
          (again.update = some (requestId, status, u) ∨ again.update = none)) :
    Settles st (onChannel st.calls message react) fun calls => onChannel calls message react := by
  cases hupdate : (onChannel st.calls message react).update with
  | none => exact settles_of_update_none (fun calls => onChannel calls message _) hupdate
  | some x =>
    obtain ⟨requestId, status, u⟩ := x
    intro t
    have hafter : (onChannel st.calls message react).updated t st =
        st.updateStatus requestId status t u := by
      simp only [Reaction.updated, hupdate]
    rw [hafter, hupdate]
    simp only [onChannel] at hupdate
    split at hupdate
    · cases hupdate
    · rename_i channel hchannel
      split at hupdate
      · cases hupdate
      · rename_i record hrecord
        obtain ⟨rfl, hu, hagain⟩ := hreact channel record requestId status u hupdate
        -- the record that was found is found again
        beta_reduce
        rw [onChannel_of_found hchannel hrecord,
          onChannel_of_found hchannel (newestOfChannel_updateStatus hu hrecord status t)]
        exact hagain t

theorem settles_newState : Settles st (onChannel st.calls message newStateReaction)
    fun calls => onChannel calls message newStateReaction := by
  apply settles_onChannel
  intro channel record requestId status u hupdate
  simp only [newStateReaction] at hupdate ⊢
  split at hupdate
  · cases hupdate
    refine ⟨rfl, rfl, ?_⟩
    intro t
    rw [CallRecord.guarded_requestId]
    exact ⟨rfl, .inl rfl⟩
  · cases hupdate

/-- A hangup that updates its record leaves it in a terminal status. -/
theorem settles_hangup : Settles st (onChannel st.calls message hangupReaction)
    fun calls => onChannel calls message hangupReaction := by
  apply settles_onChannel
  intro channel record requestId status u hupdate
  simp only [hangupReaction] at hupdate ⊢
  split at hupdate
  · cases hupdate
  · rename_i hopen
    simp only [Option.some.injEq, Prod.mk.injEq] at hupdate
    obtain ⟨rfl, rfl, rfl⟩ := hupdate
    refine ⟨rfl, rfl, ?_⟩
    intro t
    have hterminal : (record.guarded (hangupStatus (causeInt message) record.status) t
        { hangupCause := some (hangupText message) }).status.terminal = true := by
      simp only [CallRecord.guarded, Status.goesBack, Bool.eq_false_of_not_eq_true hopen,
        Bool.false_and, Bool.false_eq_true, if_false, CallRecord.updated, hangupStatus_terminal]
    simp only [CallRecord.guarded_requestId, hterminal, if_true, or_true, and_self]

/-- After any reaction, the same message meets the same reaction, or the same line without the
update. -/
theorem settles_reaction (st : Store) (message : Message) (kind : EventKind) :
    Settles st (reaction st.calls message kind) fun calls => reaction calls message kind := by
  cases kind with
  | newstate => exact settles_newState
  | hangup => exact settles_hangup
  -- the other kinds do not look at the records
  | originateResponse => exact fun _ => ⟨rfl, .inl rfl⟩
  | newchannel => exact fun _ => ⟨rfl, .inl rfl⟩
  | userEvent => exact fun _ => ⟨rfl, .inl rfl⟩

/-- A row without the time of its last update. -/
def CallRecord.unstamped (row : CallRecord) : CallRecord := { row with updatedAt := 0 }

/-- The same guarded update again changes only the time. -/
theorem CallRecord.guarded_again (row : CallRecord) (status : Status) (t t' : Time)
    (u : StatusFields) :
    ((row.guarded status t u).guarded status t' u).unstamped =
      (row.guarded status t u).unstamped := by
  cases hguard : row.status.goesBack status with
  | true => simp only [CallRecord.guarded, hguard, if_true]
  | false =>
    have hself : status.goesBack status = false := by
      simp only [Status.goesBack, Bool.and_not_self]
    have hgiven : ∀ {β : Type} (a b : Option β), (a <|> a <|> b) = (a <|> b) := by
      intro β a b
      cases a <;> rfl
    simp only [CallRecord.guarded, hguard, CallRecord.updated, hself, Bool.false_eq_true, if_false,
      CallRecord.unstamped, hgiven]

/-- The rows after the same update, or none, are those after the first one. -/
theorem Reaction.rows_updated_again {x y : Reaction} (h : y.update = x.update ∨ y.update = none)
    {t t' : Time} {st' : Store} (hst : st'.calls = (x.updated t st).calls) :
    (y.updated t' st').calls.rows.map CallRecord.unstamped =
      st'.calls.rows.map CallRecord.unstamped := by
  rcases h with h | h
  · simp only [Reaction.updated, h] at hst ⊢
    cases hupdate : x.update with
    | none => rfl
    | some z =>
      obtain ⟨requestId, status, u⟩ := z
      rw [hupdate] at hst
      simp only [Store.rows_updateStatus, hst, List.map_map]
      apply List.map_congr_left
      intro row _
      simp only [Function.comp_apply]
      by_cases hkey : row.requestId = requestId
      · simp only [if_pos hkey, CallRecord.guarded_requestId, CallRecord.guarded_again]
      · simp only [if_neg hkey]
  · simp only [Reaction.updated, h]

end Again

/-! ## Two deliveries -/

/-- The ways on which a message reaches its handler: as an event, or forwarded by `originate` from
the later messages of a reply. -/
inductive Delivery where
  | event | forwarded
  deriving DecidableEq

/-- What runs on a delivery. -/
def Delivery.body (kind : EventKind) (message : Message) : Delivery → Prog Unit
  | .event => dispatch kind message
  | .forwarded => CallOriginator.forward [some message]

/-- Only an `OriginateResponse` is forwarded, and only to a handler that is installed. -/
def Delivery.Reaches (kind : EventKind) (message : Message) (e : Env) : Delivery → Prop
  | .event => True
  | .forwarded => kind = .originateResponse ∧ e.handler = true ∧
      message.get .event = some "OriginateResponse"

/-- The delivery takes `w` to `w'`, and no exception stops or is logged by it. -/
def Handled (kind : EventKind) (message : Message) (d : Delivery) (e : Env) (n : ℕ) (w w' : World) :
    Prop :=
  d.Reaches kind message e ∧
    ∃ m, (d.body kind message).complete (World.respond e) n w = (.ok (), m, w') ∧
      w'.logged = w.logged

section Deliveries

variable {kind : EventKind} {message : Message} {d : Delivery} {e : Env} {n : ℕ} {w w' : World}

/-- A forwarded message, run alone: the handler takes over, and an exception of it is logged. -/
theorem complete_forwarded (hhandler : e.handler = true)
    (hevent : message.get .event = some "OriginateResponse") :
    (CallOriginator.forward [some message]).complete (World.respond e) n w =
      match (onOriginateResponse message).complete (World.respond e) (n + 1) w with
      | (.ok _, m, w') => (.ok (), m, w')
      | (.error x, m, w') => (.ok (), m + 1, { w' with logged :=
          w'.logged ++ [(.error, "Failed forwarding OriginateResponse: " ++ x.text)] }) := by
  have hforwarded : forwardedMessages [some message] = [message] :=
    forwardedMessages_cons hevent []
  rw [complete_forward hhandler, hforwarded, applied, ← Coro.transcript_complete]
  rcases (onOriginateResponse message).transcript (World.respond e) (n + 1) w with
    ⟨cs, x | a, m, w'⟩
  · rfl
  · rfl

/-- A delivery that is handled carries out the reaction of its kind. -/
theorem Handled.carriedOut (h : Handled kind message d e n w w') :
    ∃ t now, w'.store = (reaction w.store.calls message kind).carryOut t now w.store := by
  obtain ⟨hreaches, m, hrun, hlogged⟩ := h
  cases d with
  | event =>
    obtain ⟨r, m', st, cm, hdispatch, hok, -⟩ := complete_dispatch e message n w kind
    cases hdispatch.symm.trans hrun
    exact hok rfl
  | forwarded =>
    obtain ⟨rfl, hhandler, hevent⟩ := hreaches
    obtain ⟨r, m', st, cm, hdispatch, hok, -⟩ :=
      complete_dispatch e message (n + 1) w .originateResponse
    simp only [dispatch] at hdispatch
    simp only [Delivery.body, complete_forwarded hhandler hevent, hdispatch] at hrun
    cases r with
    | ok _ =>
      cases hrun
      exact hok rfl
    | error x =>
      -- the exception would have been logged
      cases hrun
      simp at hlogged

/-- Without an exception of the database every delivery is handled. -/
theorem handled_of_calm (hreaches : d.Reaches kind message e) (he : e.Calm) (n : ℕ) (w : World) :
    ∃ w', Handled kind message d e n w w' := by
  cases d with
  | event =>
    obtain ⟨r, m, st, cm, hdispatch, -, hcalm⟩ := complete_dispatch e message n w kind
    obtain rfl := hcalm he
    exact ⟨_, hreaches, m, hdispatch, rfl⟩
  | forwarded =>
    obtain ⟨rfl, hhandler, hevent⟩ := hreaches
    obtain ⟨r, m, st, cm, hdispatch, -, hcalm⟩ :=
      complete_dispatch e message (n + 1) w .originateResponse
    obtain rfl := hcalm he
    simp only [dispatch] at hdispatch
    refine ⟨{ w with store := st, committed := cm }, ⟨rfl, hhandler, hevent⟩, m, ?_, rfl⟩
    simp only [Delivery.body, complete_forwarded hhandler hevent, hdispatch]

end Deliveries

/-- A line of a timeline without its time. -/
def EventRow.entry (row : EventRow) : String × EventName × Option String :=
  (row.requestId, row.event, row.detail)

/-- Every delivery of a message of the five kinds is handled when no statement and no commit raises.
And in any state, whatever the message says and on whichever way it comes: when it is handled twice
in a row, the second time leaves the rows of `otp_calls` as the first has left them, apart from
`updated_at`, and adds to the timelines the entries that the first has added. -/
theorem duplicate_delivery_harmless (kind : EventKind) (message : Message) (w : World) :
    (∀ (d : Delivery) e n, d.Reaches kind message e → e.Calm →
      ∃ w', Handled kind message d e n w w') ∧
    ∀ d₁ e₁ n₁ w₁ d₂ e₂ n₂ w₂, Handled kind message d₁ e₁ n₁ w w₁ →
      Handled kind message d₂ e₂ n₂ w₁ w₂ →
      w₂.store.calls.rows.map CallRecord.unstamped = w₁.store.calls.rows.map CallRecord.unstamped ∧
        ∃ l₁ l₂, w₁.store.events = w.store.events ++ l₁ ∧
          w₂.store.events = w₁.store.events ++ l₂ ∧
          l₂.map EventRow.entry = l₁.map EventRow.entry := by
  constructor
  · intro d e n hreaches he
    exact handled_of_calm hreaches he n w
  · intro d₁ e₁ n₁ w₁ d₂ e₂ n₂ w₂ h₁ h₂
    obtain ⟨t₁, now₁, hfirst⟩ := h₁.carriedOut
    obtain ⟨t₂, now₂, hsecond⟩ := h₂.carriedOut
    obtain ⟨hline, hupdate⟩ := settles_reaction w.store message kind t₁
    have hcalls : w₁.store.calls =
        ((reaction w.store.calls message kind).updated t₁ w.store).calls := by
      rw [hfirst, Reaction.calls_carryOut]
    rw [← hcalls] at hline hupdate
    constructor
    · rw [hsecond, Reaction.calls_carryOut]
      exact Reaction.rows_updated_again hupdate hcalls
    · have hevents₁ := congrArg Store.events hfirst
      have hevents₂ := congrArg Store.events hsecond
      rw [Reaction.events_carryOut] at hevents₁ hevents₂
      refine ⟨_, _, hevents₁, hevents₂, ?_⟩
      rw [hline, List.map_map, List.map_map]
      rfl

/-- A hangup of the answered call is delivered twice, and a busy line is reported as an event and
forwarded. -/
theorem duplicate_delivery_harmless_sample :
    (∃ w₁ w₂, Handled .hangup (hangup sampleChannel "16") .event (.calm 3 firstId []) 0
        answeredWorld w₁ ∧
      Handled .hangup (hangup sampleChannel "16") .event (.calm 4 firstId []) 0 w₁ w₂ ∧
      w₂.store.calls.rows.map CallRecord.unstamped =
        w₁.store.calls.rows.map CallRecord.unstamped) ∧
    ∃ w₁ w₂, Handled .originateResponse busyResponse .event (.calm 3 firstId []) 0
        answeredWorld w₁ ∧
      Handled .originateResponse busyResponse .forwarded (.calm 4 firstId []) 7 w₁ w₂ ∧
      w₂.store.calls.rows.map CallRecord.unstamped =
        w₁.store.calls.rows.map CallRecord.unstamped := by
  constructor
  · have hharmless := duplicate_delivery_harmless .hangup (hangup sampleChannel "16")
    obtain ⟨w₁, h₁⟩ := (hharmless answeredWorld).1 .event (.calm 3 firstId []) 0 trivial
      (Env.calm_calm _ _ _)
    obtain ⟨w₂, h₂⟩ := (hharmless w₁).1 .event (.calm 4 firstId []) 0 trivial
      (Env.calm_calm _ _ _)
    exact ⟨w₁, w₂, h₁, h₂, ((hharmless answeredWorld).2 _ _ _ _ _ _ _ _ h₁ h₂).1⟩
  · have hharmless := duplicate_delivery_harmless .originateResponse busyResponse
    obtain ⟨w₁, h₁⟩ := (hharmless answeredWorld).1 .event (.calm 3 firstId []) 0 trivial
      (Env.calm_calm _ _ _)
    obtain ⟨w₂, h₂⟩ := (hharmless w₁).1 .forwarded (.calm 4 firstId []) 7 ⟨rfl, rfl, rfl⟩
      (Env.calm_calm _ _ _)
    exact ⟨w₁, w₂, h₁, h₂, ((hharmless answeredWorld).2 _ _ _ _ _ _ _ _ h₁ h₂).1⟩

end OtpVoice
