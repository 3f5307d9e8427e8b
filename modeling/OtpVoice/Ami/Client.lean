import OtpVoice.Ami.EventHandler
import Mathlib.Data.List.Induction

/-!
# The AMI connection: `src/ami/client.py`

`AMIClient` builds a new panoramisk Manager for each connection attempt; the event handlers are
registered once, by `init_event_handler` at the end of the first successful `connect` of `startup`.
`Link` is the state of both, and `Link.step` one event: an attempt that goes on, a callback of a
Manager, or the shutdown.

- `registered_iff`: after startup the Manager of a connected client has the handlers, in every state
  of a run, if and only if no reconnect has put a new Manager in its place, apart from those that
  never lead to a connection.
- `reconnect_loses_handlers`: a disconnect and a reconnect.
-/

set_option autoImplicit false

namespace OtpVoice

/-! ## The client and its attempts -/

/-- The fields of `AMIClient` that change; Manager objects are numbered in the order in which they
are built. -/
structure AMIClient where
  manager : Option ℕ := none
  connected : Bool := false
  deriving DecidableEq

/-- A coroutine inside `_do_connect`. -/
inductive Attempt where
  /-- At the start of `connect`, or in the sleep of `_schedule_reconnect`. -/
  | pending
  /-- Awaiting the `connect` of the Manager that it has built. -/
  | connecting (manager : ℕ)
  | returned
  deriving DecidableEq

/-- The client, the number of built Managers, the registered callbacks, the coroutines that connect
(the first one is the `connect` of `startup`), and whether `startup` has passed
`init_event_handler`. -/
structure Link where
  client : AMIClient
  built : ℕ
  callbacks : List (ℕ × EventKind)
  attempts : List Attempt
  started : Bool

/-- `startup` calls `connect`. -/
def Link.initial : Link := ⟨{}, 0, [], [.pending], false⟩

/-- What happens to the connection. A disconnect schedules a reconnect if the loop is running. -/
inductive LinkEvent where
  | build (attempt : ℕ) (raises : Bool)
  | connectEnds (attempt : ℕ) (raises : Bool)
  | login (manager : ℕ)
  | disconnect (manager : ℕ) (loopRunning : Bool)
  | close

namespace Link

/-- `EventHandler.register` on a Manager. -/
def register (manager : ℕ) : List (ℕ × EventKind) :=
  [(manager, .originateResponse), (manager, .newchannel), (manager, .newstate), (manager, .hangup),
    (manager, .userEvent)]

/-- `init_event_handler`. -/
def initEventHandler (l : Link) : Link :=
  match l.client.manager with
  | none => { l with started := true }
  | some manager => { l with callbacks := l.callbacks ++ register manager, started := true }

/-- The `except` of `_do_connect`: back to the sleep of `_schedule_reconnect`. -/
def connectionFailed (l : Link) (i : ℕ) : Link :=
  { l with
    client := { l.client with connected := false }
    attempts := l.attempts.set i .pending }

/-- The assignment of `_do_connect`, up to its `await`. -/
def doConnect (l : Link) (i : ℕ) : Link :=
  { l with
    client := { l.client with manager := some l.built }
    built := l.built + 1
    attempts := l.attempts.set i (.connecting l.built) }

/-- `_do_connect` returns; `startup` goes on. -/
def connectReturns (l : Link) (i : ℕ) : Link :=
  let l := { l with attempts := l.attempts.set i .returned }
  if i = 0 then l.initEventHandler else l

/-- `_on_login`. -/
def onLogin (l : Link) : Link := { l with client := { l.client with connected := true } }

/-- `_on_disconnect`. -/
def onDisconnect (l : Link) (loopRunning : Bool) : Link :=
  { l with
    client := { l.client with connected := false }
    attempts := l.attempts ++ if loopRunning then [.pending] else [] }

/-- `close`. -/
def close (l : Link) : Link := { l with client := { l.client with connected := false } }

/-- One event; an event that cannot happen changes nothing. -/
def step (l : Link) : LinkEvent → Link
  | .build i raises =>
    if l.attempts[i]? = some .pending then
      if raises then l.connectionFailed i else l.doConnect i
    else l
  | .connectEnds i raises =>
    match l.attempts[i]? with
    | some (.connecting _) => if raises then l.connectionFailed i else l.connectReturns i
    | _ => l
  | .login manager => if manager < l.built then l.onLogin else l
  | .disconnect manager loopRunning => if manager < l.built then l.onDisconnect loopRunning else l
  | .close => l.close

/-- The state after the first `n` events. -/
def after (es : List LinkEvent) (n : ℕ) : Link := (es.take n).foldl step initial

/-- The Manager that `send_action` uses has the five handlers. -/
def Registered (l : Link) : Prop :=
  ∃ manager, l.client.manager = some manager ∧ ∀ kind, (manager, kind) ∈ l.callbacks

/-- The Manager that `send_action` uses has no handler. -/
def Unregistered (l : Link) : Prop :=
  ∃ manager, l.client.manager = some manager ∧ ∀ kind, (manager, kind) ∉ l.callbacks

/-- The `n`-th event is a reconnect after startup that puts a new Manager in place. -/
def Replaces (es : List LinkEvent) (n : ℕ) : Prop :=
  ∃ i, es[n]? = some (.build i false) ∧ (after es n).attempts[i]? = some .pending ∧
    (after es n).started = true

/-- The `n`-th event is the login of a Manager. -/
def LogsIn (es : List LinkEvent) (n : ℕ) : Prop :=
  ∃ manager, es[n]? = some (.login manager) ∧ manager < (after es n).built

/-! ## Steps -/

/-- What an event does: nothing, or one part of the code runs. -/
inductive Effect (l : Link) (ev : LinkEvent) : Link → Prop where
  | nothing : Effect l ev l
  | fails (i : ℕ) (a : Attempt) (ha : l.attempts[i]? = some a) (hne : a ≠ .returned) :
    Effect l ev (l.connectionFailed i)
  | connects (i : ℕ) (hev : ev = .build i false) (ha : l.attempts[i]? = some .pending) :
    Effect l ev (l.doConnect i)
  | returns (i m : ℕ) (ha : l.attempts[i]? = some (.connecting m)) :
    Effect l ev (l.connectReturns i)
  | login (m : ℕ) (hev : ev = .login m) (hm : m < l.built) : Effect l ev l.onLogin
  | disconnects (loopRunning : Bool) : Effect l ev (l.onDisconnect loopRunning)
  | closes : Effect l ev l.close

theorem step_effect (l : Link) (ev : LinkEvent) : Effect l ev (l.step ev) := by
  cases ev with
  | build i raises =>
    simp only [step]
    split
    · rename_i ha
      cases raises with
      | true => exact .fails i _ ha (by simp)
      | false => exact .connects i rfl ha
    · exact .nothing
  | connectEnds i raises =>
    simp only [step]
    split
    · rename_i m ha
      cases raises with
      | true => exact .fails i _ ha (by simp)
      | false => exact .returns i m ha
    · exact .nothing
  | login m =>
    simp only [step]
    split
    · rename_i hm
      exact .login m rfl hm
    · exact .nothing
  | disconnect m loopRunning =>
    simp only [step]
    split
    · exact .disconnects loopRunning
    · exact .nothing
  | close => exact .closes

theorem mem_register (manager : ℕ) (kind : EventKind) : (manager, kind) ∈ register manager := by
  cases kind <;> simp [register]

/-- The shape of the reachable states: the numbers in use are those of built Managers, and the
`connect` of `startup` ends once, with the registration. -/
structure Wf (l : Link) : Prop where
  manager_lt : ∀ m, l.client.manager = some m → m < l.built
  manager_some : 0 < l.built → l.client.manager ≠ none
  callbacks_lt : ∀ x ∈ l.callbacks, x.1 < l.built
  connecting_lt : ∀ (i : ℕ) m, l.attempts[i]? = some (.connecting m) → m < l.built
  returned : l.started = true → l.attempts[0]? = some .returned

theorem wf_initial : Wf initial := by
  refine ⟨by simp [initial], by simp [initial], by simp [initial], ?_, by simp [initial]⟩
  intro i m h
  rcases i with _ | i
  · cases h
  · simp [initial] at h

variable {l : Link}

/-- A coroutine that moves on leaves the others where they are. -/
theorem Wf.returned_set (h : Wf l) {i : ℕ} {a b : Attempt} (ha : l.attempts[i]? = some a)
    (hne : a ≠ .returned) (hstarted : l.started = true) :
    (l.attempts.set i b)[0]? = some .returned := by
  have hret := h.returned hstarted
  have hi : i ≠ 0 := by
    rintro rfl
    exact hne (Option.some.inj (ha.symm.trans hret))
  rw [List.getElem?_set_ne hi]
  exact hret

theorem Wf.connecting_set (h : Wf l) {i : ℕ} {b : Attempt} {bound : ℕ} (hle : l.built ≤ bound)
    (hb : ∀ m, b = .connecting m → m < bound) (j m : ℕ)
    (hj : (l.attempts.set i b)[j]? = some (.connecting m)) : m < bound := by
  rw [List.getElem?_set] at hj
  split at hj
  · split at hj
    · exact hb m (Option.some.inj hj)
    · cases hj
  · exact (h.connecting_lt j m hj).trans_le hle

theorem Wf.connectionFailed (h : Wf l) {i : ℕ} {a : Attempt} (ha : l.attempts[i]? = some a)
    (hne : a ≠ .returned) : Wf (l.connectionFailed i) :=
  ⟨h.manager_lt, h.manager_some, h.callbacks_lt,
    h.connecting_set (i := i) le_rfl (fun m hm => by cases hm), h.returned_set ha hne⟩

theorem Wf.doConnect (h : Wf l) {i : ℕ} (ha : l.attempts[i]? = some .pending) :
    Wf (l.doConnect i) := by
  refine ⟨?_, ?_, ?_, ?_, ?_⟩
  · intro m hm
    cases hm
    exact Nat.lt_succ_self _
  · exact fun _ => Option.some_ne_none _
  · exact fun x hx => (h.callbacks_lt x hx).trans (Nat.lt_succ_self _)
  · apply h.connecting_set (i := i) (Nat.le_succ _)
    intro m hm
    cases hm
    exact Nat.lt_succ_self _
  · exact h.returned_set ha (by simp)

/-- While an attempt connects, a Manager is in place. -/
theorem Wf.exists_manager (h : Wf l) {i m : ℕ} (ha : l.attempts[i]? = some (.connecting m)) :
    ∃ k, l.client.manager = some k := by
  have hbuilt : 0 < l.built := Nat.zero_lt_of_lt (h.connecting_lt i m ha)
  exact Option.ne_none_iff_exists'.1 (h.manager_some hbuilt)

/-- The end of a reconnect. -/
theorem connectReturns_of_ne (l : Link) {i : ℕ} (hi : i ≠ 0) :
    l.connectReturns i = { l with attempts := l.attempts.set i .returned } := by
  simp [Link.connectReturns, hi]

/-- The end of the `connect` of `startup`. -/
theorem connectReturns_zero {k : ℕ} (h : l.client.manager = some k) :
    l.connectReturns 0 = { l with
      attempts := l.attempts.set 0 .returned
      callbacks := l.callbacks ++ register k
      started := true } := by
  simp [Link.connectReturns, initEventHandler, h]

/-- The end of an attempt leaves the client as it is. -/
theorem client_connectReturns (l : Link) (i : ℕ) : (l.connectReturns i).client = l.client := by
  simp only [Link.connectReturns, initEventHandler]
  split
  · split <;> rfl
  · rfl

theorem Wf.connectReturns (h : Wf l) {i m : ℕ} (ha : l.attempts[i]? = some (.connecting m)) :
    Wf (l.connectReturns i) := by
  have hset := h.connecting_set (i := i) (b := .returned) le_rfl (fun m hm => by cases hm)
  by_cases hi : i = 0
  · subst hi
    have hlt : 0 < l.attempts.length := (List.getElem?_eq_some_iff.1 ha).1
    obtain ⟨k, hmanager⟩ := h.exists_manager ha
    have hk := h.manager_lt k hmanager
    rw [connectReturns_zero hmanager]
    refine ⟨h.manager_lt, h.manager_some, ?_, hset, ?_⟩
    · intro x hx
      rcases List.mem_append.1 hx with hx | hx
      · exact h.callbacks_lt x hx
      · have hall : ∀ y ∈ register k, y.1 = k := by simp [register]
        rw [hall x hx]
        exact hk
    · intro _
      simp [hlt]
  · rw [l.connectReturns_of_ne hi]
    exact ⟨h.manager_lt, h.manager_some, h.callbacks_lt, hset, h.returned_set ha (by simp)⟩

theorem Wf.onDisconnect (h : Wf l) (loopRunning : Bool) : Wf (l.onDisconnect loopRunning) := by
  refine ⟨h.manager_lt, h.manager_some, h.callbacks_lt, ?_, ?_⟩
  · intro i k hk
    simp only [Link.onDisconnect, List.getElem?_append] at hk
    split at hk
    · exact h.connecting_lt i k hk
    · -- the new attempt is still pending
      cases loopRunning
      · simp at hk
      · simp only [if_true, List.getElem?_singleton] at hk
        split at hk <;> cases hk
  · intro hstarted
    have hret := h.returned hstarted
    simp only [Link.onDisconnect, List.getElem?_append_left (List.getElem?_eq_some_iff.1 hret).1]
    exact hret

theorem Wf.step (h : Wf l) (ev : LinkEvent) : Wf (l.step ev) := by
  have heffect := l.step_effect ev
  generalize l.step ev = l' at heffect
  cases heffect with
  | nothing => exact h
  | fails i a ha hne => exact h.connectionFailed ha hne
  | connects i hev ha => exact h.doConnect ha
  | returns i m ha => exact h.connectReturns ha
  | login m hev hm =>
    exact ⟨h.manager_lt, h.manager_some, h.callbacks_lt, h.connecting_lt, h.returned⟩
  | disconnects loopRunning => exact h.onDisconnect loopRunning
  | closes => exact ⟨h.manager_lt, h.manager_some, h.callbacks_lt, h.connecting_lt, h.returned⟩

/-- A new Manager has no handler. -/
theorem Wf.unregistered_doConnect (h : Wf l) (i : ℕ) : Unregistered (l.doConnect i) := by
  refine ⟨l.built, rfl, fun kind hmem => ?_⟩
  exact absurd (h.callbacks_lt _ hmem) (Nat.lt_irrefl _)

/-- After startup only a new Manager changes which Manager is in place, and nothing is
registered. -/
theorem Wf.step_started (h : Wf l) (hstarted : l.started = true) (ev : LinkEvent) :
    (l.step ev).started = true ∧ (l.step ev).callbacks = l.callbacks ∧
      ((∃ i, ev = .build i false ∧ l.attempts[i]? = some .pending ∧ l.step ev = l.doConnect i) ∨
        (l.step ev).client.manager = l.client.manager) := by
  have heffect := l.step_effect ev
  generalize l.step ev = l' at heffect
  cases heffect with
  | connects i hev ha => exact ⟨hstarted, rfl, .inl ⟨i, hev, ha, rfl⟩⟩
  | returns i m ha =>
    -- the `connect` of `startup` has returned before
    have hi : i ≠ 0 := by
      rintro rfl
      cases ha.symm.trans (h.returned hstarted)
    rw [l.connectReturns_of_ne hi]
    exact ⟨hstarted, rfl, .inr rfl⟩
  | _ => exact ⟨hstarted, rfl, .inr rfl⟩

/-- The end of startup leaves a Manager with handlers in place. -/
theorem Wf.registered_of_starts (h : Wf l) (hbefore : l.started = false) {ev : LinkEvent}
    (hafter : (l.step ev).started = true) : Registered (l.step ev) := by
  have heffect := l.step_effect ev
  generalize l.step ev = l' at heffect hafter ⊢
  cases heffect with
  | returns i m ha =>
    by_cases hi : i = 0
    · -- `startup` goes on and registers the handlers on the Manager in place
      subst hi
      obtain ⟨k, hmanager⟩ := h.exists_manager ha
      rw [connectReturns_zero hmanager]
      exact ⟨k, hmanager, fun kind => List.mem_append_right _ (mem_register k kind)⟩
    · rw [l.connectReturns_of_ne hi] at hafter
      cases hbefore.symm.trans hafter
  | _ => cases hbefore.symm.trans hafter

/-- Only a login connects the client. -/
theorem connected_step (l : Link) (ev : LinkEvent) :
    (∃ m, ev = .login m ∧ m < l.built ∧ (l.step ev).client.connected = true) ∨
      ((l.step ev).client.connected = true → l.client.connected = true) := by
  have heffect := l.step_effect ev
  generalize l.step ev = l' at heffect
  cases heffect with
  | nothing => exact .inr id
  | connects i hev ha => exact .inr id
  | login m hev hm => exact .inl ⟨m, hev, hm, rfl⟩
  | returns i m ha =>
    right
    rw [client_connectReturns]
    exact id
  | _ => exact .inr fun h => by cases h

theorem Registered.not_unregistered (h : Registered l) : ¬ Unregistered l := by
  rintro ⟨m, hm, hno⟩
  obtain ⟨k, hk, hall⟩ := h
  obtain rfl : k = m := Option.some.inj (hk.symm.trans hm)
  exact hno .hangup (hall .hangup)

/-! ## Runs -/

section Runs

variable {es : List LinkEvent}

theorem after_succ {n : ℕ} {ev : LinkEvent} (h : es[n]? = some ev) :
    after es (n + 1) = (after es n).step ev := by
  rw [after, after, List.take_add_one, h, Option.toList_some, List.foldl_append]
  rfl

theorem after_succ_of_none {n : ℕ} (h : es[n]? = none) : after es (n + 1) = after es n := by
  rw [after, after, List.take_add_one, h, Option.toList_none, List.append_nil]

/-- Every state of a run is well formed. -/
theorem wf_after (es : List LinkEvent) (n : ℕ) : Wf (after es n) := by
  induction n with
  | zero => exact wf_initial
  | succ n ih =>
    cases hev : es[n]? with
    | none =>
      rw [after_succ_of_none hev]
      exact ih
    | some ev =>
      rw [after_succ hev]
      exact ih.step ev

/-- A Manager without handlers stays without handlers. -/
theorem unregistered_later {m n : ℕ} (hmn : m ≤ n) (hstarted : (after es m).started = true)
    (h : Unregistered (after es m)) : (after es n).started = true ∧ Unregistered (after es n) := by
  induction n, hmn using Nat.le_induction with
  | base => exact ⟨hstarted, h⟩
  | succ n hmn ih =>
    cases hev : es[n]? with
    | none =>
      rw [after_succ_of_none hev]
      exact ih
    | some ev =>
      rw [after_succ hev]
      obtain ⟨hs, hcallbacks, hnew | hsame⟩ := (wf_after es n).step_started ih.1 ev
      · obtain ⟨i, -, -, heq⟩ := hnew
        refine ⟨hs, ?_⟩
        rw [heq]
        exact (wf_after es n).unregistered_doConnect i
      · obtain ⟨k, hk, hno⟩ := ih.2
        exact ⟨hs, k, hsame.trans hk, fun kind => hcallbacks ▸ hno kind⟩

/-- A new Manager in place, after startup. -/
theorem Replaces.unregistered {n : ℕ} (h : Replaces es n) :
    (after es (n + 1)).started = true ∧ Unregistered (after es (n + 1)) ∧
      (after es (n + 1)).client.connected = (after es n).client.connected := by
  obtain ⟨i, hev, hpending, hstarted⟩ := h
  have heq : after es (n + 1) = (after es n).doConnect i := by
    rw [after_succ hev]
    simp [Link.step, hpending]
  rw [heq]
  exact ⟨hstarted, (wf_after es n).unregistered_doConnect i, rfl⟩

/-- As long as replaced Managers never lead to a connection, the client is registered or
disconnected. The induction is on the number of events: a replacement finds the client disconnected,
and no login follows. -/
theorem registered_or_disconnected
    (h : ∀ n, Replaces es n → (after es n).client.connected = false ∧ ∀ k, n < k → ¬ LogsIn es k)
    (n : ℕ) (hstarted : (after es n).started = true) : Registered (after es n) ∨
      ((after es n).client.connected = false ∧ ∃ m < n, Replaces es m) := by
  induction n with
  | zero => cases hstarted
  | succ n ih =>
    cases hev : es[n]? with
    | none =>
      rw [after_succ_of_none hev] at hstarted ⊢
      rcases ih hstarted with hreg | ⟨hdis, m, hm, hrep⟩
      · exact .inl hreg
      · exact .inr ⟨hdis, m, hm.trans (Nat.lt_succ_self n), hrep⟩
    | some ev =>
      rw [after_succ hev] at hstarted ⊢
      cases hbefore : (after es n).started with
      | false => exact .inl ((wf_after es n).registered_of_starts hbefore hstarted)
      | true =>
        obtain ⟨-, hcallbacks, hcase⟩ := (wf_after es n).step_started hbefore ev
        rcases ih hbefore with ⟨k, hk, hall⟩ | ⟨hdis, m, hm, hrep⟩
        · rcases hcase with ⟨i, rfl, hpending, heq⟩ | hsame
          · have hrep : Replaces es n := ⟨i, hev, hpending, hbefore⟩
            refine .inr ⟨?_, n, Nat.lt_succ_self n, hrep⟩
            rw [heq]
            exact (h n hrep).1
          · exact .inl ⟨k, hsame.trans hk, fun kind => hcallbacks ▸ hall kind⟩
        · refine .inr ⟨?_, m, hm.trans (Nat.lt_succ_self n), hrep⟩
          rcases connected_step (after es n) ev with ⟨k, rfl, hlt, -⟩ | hconn
          · exact absurd ⟨k, hev, hlt⟩ ((h m hrep).2 n hm)
          · by_contra hne
            rw [hconn (by simpa using hne)] at hdis
            cases hdis

/-- In every state after startup in which the client is connected, its Manager has the five
handlers, if and only if every reconnect that puts a new Manager in place after startup finds the
client disconnected, and no login follows it. -/
theorem registered_iff (es : List LinkEvent) :
    (∀ n, (after es n).started = true → (after es n).client.connected = true →
        Registered (after es n)) ↔
      ∀ n, Replaces es n →
        (after es n).client.connected = false ∧ ∀ k, n < k → ¬ LogsIn es k := by
  constructor
  · intro h n hrep
    obtain ⟨hstarted, hun, hconn⟩ := hrep.unregistered
    constructor
    · by_contra hne
      exact (h (n + 1) hstarted (hconn.trans (by simpa using hne))).not_unregistered hun
    · rintro k hk ⟨m, hev, hlt⟩
      obtain ⟨hs, hu⟩ := unregistered_later (Nat.le_succ_of_le hk) hstarted hun
      refine (h (k + 1) hs ?_).not_unregistered hu
      rw [after_succ hev]
      simp [Link.step, hlt, onLogin]
  · intro h n hstarted hconn
    rcases registered_or_disconnected h n hstarted with hreg | ⟨hdis, -⟩
    · exact hreg
    · rw [hconn] at hdis
      cases hdis

end Runs

end Link

/-- Startup connects at its second try; then the connection is lost and made again. -/
def reconnectRun : List LinkEvent :=
  [.build 0 false, .connectEnds 0 true, .build 0 false, .connectEnds 0 false, .login 1,
    .disconnect 1 true, .build 1 false, .connectEnds 1 false, .login 2]

/-- After the reconnect the client is connected through a Manager that has no handler. -/
theorem reconnect_loses_handlers :
    (Link.after reconnectRun 5).client = ⟨some 1, true⟩ ∧
      (Link.after reconnectRun 5).callbacks = Link.register 1 ∧
      (Link.after reconnectRun 9).started = true ∧
      (Link.after reconnectRun 9).client = ⟨some 2, true⟩ ∧
      ∀ kind, (2, kind) ∉ (Link.after reconnectRun 9).callbacks := by
  refine ⟨rfl, rfl, rfl, rfl, ?_⟩
  intro kind
  have hcallbacks : (Link.after reconnectRun 9).callbacks = Link.register 1 := rfl
  rw [hcallbacks]
  cases kind <;> decide

end OtpVoice
