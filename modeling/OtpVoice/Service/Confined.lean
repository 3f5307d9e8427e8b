import OtpVoice.Coroutine.Lockstep
import OtpVoice.Service.Scope
import OtpVoice.Storage.Views

/-!
# Turns about one request

`Scope.within P C` is the scope of the requests in `P` and the channels in `C`. A coroutine that is
`Confined` to it stays in it for all answers that do.

- `turn_lockstep`: a turn confined to one request and its channels does the same on two worlds that
  agree on the request.
- `turn_spares`: a turn confined to other requests and other channels keeps what the request sees.
-/

set_option autoImplicit false

namespace OtpVoice

open Coroutine

/-- The statements about the requests in `P` and the channels in `C`; the ids in `D` may be
drawn. -/
def Scope.within (P C D : String → Prop) : Scope where
  stmt
    | .insertCall row => P row.requestId ∧ row.channel = none
    | .updateCall fields values key => P key ∧ ∀ channel,
      (Column.channel, SqlValue.text channel) ∈ fields.zip values → C channel
    | .incrementRetry _ key => P key
    | .selectCall key => P key
    | .selectByChannel channel => C channel
    | .insertEvent row => P row.requestId
    | .selectEvents key => P key
    | .deleteExpired _ => False
    | .deleteOrphanEvents => False
  drawn := D
  found row := P row.requestId
  reply message := ∀ key, extractRequestId (message.get .actionID) = some key → P key

/-- The commands about a call: all but those that read the limiter and the deletions. -/
def callKinds : List Kind :=
  [.clock, .drawId, .insertCall, .updateCall, .countRetry, .read, .insertEvent, .commit, .acquire,
    .release, .client, .connected, .submit, .reply, .handler, .log]

/-- What a command of a confined coroutine satisfies. -/
def WithinGuard (P C D : String → Prop) (b : Bool) (c : Cmd) (_ : Except Exc c.Resp) (_ : Bool) :
    Prop :=
  (Scope.within P C D).Guards b c ∧ c.kind ∈ callKinds

/-- The coroutine is about the requests in `P` and the channels in `C`. -/
def Confined {α : Type} (P C D : String → Prop) (p : Prog α) (b : Bool) : Prop :=
  Coro.Sat (Scope.within P C D).Answers (WithinGuard P C D) (fun _ _ => True) p b

/-- A coroutine runs until it waits for Asterisk or ends. -/
def runTurn {α : Type} (e : Env) (p : Prog α) (w : World) : Prog α × World :=
  Service.suspend Cmd.waitsForAsterisk (World.respond e) p 0 w

section Within

variable {α : Type} {P C D : String → Prop} {b : Bool} {e : Env} {n : ℕ} {w w' : World}

theorem confined_of_stays {ks : List Kind} {p : Prog α}
    (h : Stays (Scope.within P C D) (fun _ => True) p b) (hp : Touches ks p)
    (hks : ks ⊆ callKinds) : Confined P C D p b :=
  Coro.Sat.and_uses h (hp.mono hks)

theorem within_covers {requestId : String} (h : P requestId) (events : List EventName) :
    (Scope.within P C D).Covers requestId events where
  read := h
  update status now u hu := by
    constructor
    · exact h
    · intro channel hmem
      exact absurd (List.of_mem_zip hmem).1 (channel_not_mem_updateFields hu)
  event _ _ _ _ := h

/-- The `UPDATE` that binds a channel. -/
theorem within_bind {requestId channel : String} (h : P requestId) (hchannel : C channel)
    (status : Status) (now : Time) :
    (Scope.within P C D).stmt (.updateCall (updateFields { channel := some channel })
      (updateValues status now { channel := some channel }) requestId) := by
  constructor
  · exact h
  · intro channel' hmem
    simp [updateFields, updateValues] at hmem
    rw [hmem]
    exact hchannel

/-! ## Answers -/

/-- A confined coroutine is guarded at each of its commands. -/
theorem guard_of_allowed {c : Cmd}
    (h : Service.Allowed (Scope.within P C D).Answers (WithinGuard P C D) b c) :
    (Scope.within P C D).Guards b c ∧ c.kind ∈ callKinds := by
  apply h (.error .timeoutError) (b || c.waitsForAsterisk)
  constructor
  · rfl
  · split
    · rename_i heq
      cases heq
    · rename_i heq
      cases heq
    · rename_i heq
      cases heq
    · trivial

/-- The answers of a turn are in the scope, if the drawn id, the forwarded messages of the reply and
the records found by channel are. -/
theorem answers_respond {c : Cmd} (hguard : (Scope.within P C D).Guards b c)
    (hdrawn : D e.uuid.text)
    (hreply : b = true → ∀ reply, e.reply = .ok reply → (Scope.within P C D).Honest reply)
    (hfound : ∀ channel row, C channel → newestOfChannel w.store.calls channel = some row →
      P row.requestId) :
    (Scope.within P C D).Answers b c (World.respond e n w c).1 (b || c.waitsForAsterisk) := by
  constructor
  · rfl
  · cases c with
    | uuid4 =>
      rw [World.respond_of_not_mayRaise rfl]
      exact hdrawn
    | awaitReply =>
      -- the action has been submitted
      rw [World.respond_of_not_mayRaise rfl]
      cases hr : e.reply with
      | error x =>
        simp only [World.answer, hr]
      | ok reply =>
        simp only [World.answer, hr]
        exact hreply hguard reply hr
    | execute s =>
      cases s with
      | selectByChannel channel =>
        cases hfault : e.fault n with
        | some text => rw [World.respond_fault hfault]; trivial
        | none =>
          rw [World.respond_execute hfault]
          simp only [World.answer, Stmt.exec]
          cases hnewest : newestOfChannel w.store.calls channel with
          | none => trivial
          | some row => exact hfound channel row hguard hnewest
      | _ => trivial
    | _ => trivial

/-! ## Turns about the request -/

/-- A coroutine that has ended may be confined to anything. -/
theorem confined_rest {p : Prog α} {m : Bool}
    (hrest : Coro.Sat (Scope.within P C D).Answers (WithinGuard P C D) (fun _ _ => True) p m)
    (h : p.isDone = true ∨ m = true) : Confined P C D p true := by
  rcases h with hdone | rfl
  · cases p with
    | done r => trivial
    | call c k => cases hdone
  · exact hrest

theorem memory_of_not_waits {c : Cmd} (hc : c.waitsForAsterisk = false) :
    (b || c.waitsForAsterisk) = b := by
  rw [hc, Bool.or_false]

theorem memory_of_waits {c : Cmd} (hc : c.waitsForAsterisk = true) :
    (b || c.waitsForAsterisk) = true := by
  rw [hc, Bool.or_true]

variable {requestId : String}

/-- A command about the request has the same answer on two worlds that agree on it, if nothing rolls
back. -/
theorem respond_about {c : Cmd} (hkeeps : e.NoRollback)
    (hguard : (Scope.within (· = requestId) C D).Guards b c)
    (hkind : c.kind ∈ callKinds) (h : Agree requestId C w.store w'.store) :
    (World.respond e n w' c).1 = (World.respond e n w c).1 ∧
      Agree requestId C (World.respond e n w c).2.store (World.respond e n w' c).2.store := by
  cases c with
  | execute s =>
    cases hfault : e.fault n with
    | some text =>
      rw [World.respond_fault hfault, World.respond_fault hfault, hkeeps.undo hfault,
        hkeeps.undo hfault]
      exact ⟨rfl, h⟩
    | none =>
      have habout : s.About requestId C := by
        cases s with
        | insertCall row => exact hguard.1
        | updateCall fields values key => exact hguard.1
        | _ => exact hguard
      have hseparates : s.Separates requestId C := by
        cases s with
        | insertCall row => exact hguard.2
        | updateCall fields values key =>
          intro channel hmem
          exact iff_of_true (hguard.2 channel hmem) hguard.1
        | _ => trivial
      obtain ⟨hresult, hview⟩ := exec_about habout h.separate h.separate' h.view
      rw [World.respond_execute hfault, World.respond_execute hfault]
      constructor
      · simp only [World.answer]
        rcases hexec : s.exec w.store with ⟨r, st⟩
        rcases hexec' : s.exec w'.store with ⟨r', st'⟩
        rw [hexec, hexec'] at hresult
        obtain rfl : r' = r := hresult
        cases r' <;> rfl
      · rw [World.answer_execute, World.answer_execute]
        exact ⟨hview, h.separate.exec hseparates, h.separate'.exec hseparates⟩
  | commit =>
    rw [World.respond_commit (hkeeps.commit n), World.respond_commit (hkeeps.commit n)]
    exact ⟨rfl, h⟩
  | checkConcurrentCapacity => exact absurd hkind (by decide)
  | checkHourlyLimit => exact absurd hkind (by decide)
  | checkNumberLimit mobile => exact absurd hkind (show Kind.number ∉ callKinds by decide)
  | cleanupLimits => exact absurd hkind (by decide)
  | activeCalls => exact absurd hkind (by decide)
  | availableChannels => exact absurd hkind (by decide)
  | getAmiClient =>
    rw [World.respond_of_not_mayRaise rfl, World.respond_of_not_mayRaise rfl]
    simp only [World.answer]
    cases e.client <;> exact ⟨rfl, h⟩
  | _ =>
    rw [World.respond_of_not_mayRaise rfl, World.respond_of_not_mayRaise rfl]
    exact ⟨rfl, h⟩

/-- A turn about the request does the same on two worlds that agree on it. -/
theorem turn_lockstep {p : Prog α} (hkeeps : e.NoRollback)
    (hp : Confined (· = requestId) C D p b)
    (h : Agree requestId C w.store w'.store) (hdrawn : D e.uuid.text)
    (hreply : b = true → ∀ reply, e.reply = .ok reply →
      (Scope.within (· = requestId) C D).Honest reply) :
    (runTurn e p w').1 = (runTurn e p w).1 ∧
      Confined (· = requestId) C D (runTurn e p w).1 true ∧
        Agree requestId C (runTurn e p w).2.store (runTurn e p w').2.store := by
  have hstep : ∀ n m c (w w' : World),
      Service.Allowed (Scope.within (· = requestId) C D).Answers
        (WithinGuard (· = requestId) C D) m c →
      (m = b ∧ Agree requestId C w.store w'.store) →
      (World.respond e n w' c).1 = (World.respond e n w c).1 ∧
        ∃ m', (Scope.within (· = requestId) C D).Answers m c (World.respond e n w c).1 m' ∧
          (c.waitsForAsterisk = false → m' = b ∧
            Agree requestId C (World.respond e n w c).2.store (World.respond e n w' c).2.store) ∧
          (c.waitsForAsterisk = true → m' = true ∧
            Agree requestId C (World.respond e n w c).2.store
              (World.respond e n w' c).2.store) := by
    rintro n m c w w' hallowed ⟨rfl, h⟩
    obtain ⟨hguard, hkind⟩ := guard_of_allowed hallowed
    obtain ⟨hanswer, hagree⟩ := respond_about hkeeps hguard hkind h
    refine ⟨hanswer, m || c.waitsForAsterisk, answers_respond hguard hdrawn hreply ?_, ?_, ?_⟩
    · -- a channel in `C` leads to the record of the request
      intro channel row hchannel hnewest
      obtain ⟨hfind, hrow⟩ := mem_of_newestOfChannel hnewest
      exact (h.separate _ row hfind channel hrow).1 hchannel
    · intro hwaits
      exact ⟨memory_of_not_waits hwaits, hagree⟩
    · intro hwaits
      exact ⟨memory_of_waits hwaits, hagree⟩
  obtain ⟨hsame, m, hrest, hend⟩ := Service.suspend_lockstep
    (fun m (w w' : World) => m = b ∧ Agree requestId C w.store w'.store)
    (fun m (w w' : World) => m = true ∧ Agree requestId C w.store w'.store) hstep (n := 0) hp
    ⟨rfl, h⟩
  rcases hend with ⟨hdone, -, hagree⟩ | ⟨hm, hagree⟩
  · exact ⟨hsame, confined_rest hrest (.inl hdone), hagree⟩
  · exact ⟨hsame, confined_rest hrest (.inr hm), hagree⟩

/-! ## Turns about other requests -/

/-- A command about other requests and other channels keeps what the request sees, if nothing rolls
back. -/
theorem respond_spares {st' : Store} {c : Cmd} (hkeeps : e.NoRollback)
    (hguard : (Scope.within (· ≠ requestId) (fun channel => ¬ C channel) D).Guards b c)
    (h : Agree requestId C w.store st') :
    Agree requestId C (World.respond e n w c).2.store st' := by
  rcases World.respond_store e n w c with hkeep | ⟨s, rfl, -, hexec⟩ | ⟨hundone, -⟩
  · rw [hkeep]
    exact h
  · have hspares : s.Spares requestId := by
      cases s with
      | insertCall row => exact hguard.1
      | updateCall fields values key => exact hguard.1
      | selectCall key => trivial
      | selectByChannel channel => trivial
      | selectEvents key => trivial
      | _ => exact hguard
    have hseparates : s.Separates requestId C := by
      cases s with
      | insertCall row => exact hguard.2
      | updateCall fields values key =>
        intro channel hmem
        exact iff_of_false (hguard.2 channel hmem) hguard.1
      | _ => trivial
    rw [hexec]
    exact ⟨h.view.trans (view_exec_spares hspares).symm, h.separate.exec hseparates, h.separate'⟩
  · cases (hkeeps.rollsBack n c).symm.trans hundone

/-- A turn about other requests and other channels keeps what the request sees. -/
theorem turn_spares {st' : Store} {p : Prog α} (hkeeps : e.NoRollback)
    (hp : Confined (· ≠ requestId) (fun channel => ¬ C channel) D p b)
    (h : Agree requestId C w.store st') (hdrawn : D e.uuid.text)
    (hreply : b = true → ∀ reply, e.reply = .ok reply →
      (Scope.within (· ≠ requestId) (fun channel => ¬ C channel) D).Honest reply) :
    Confined (· ≠ requestId) (fun channel => ¬ C channel) D (runTurn e p w).1 true ∧
      Agree requestId C (runTurn e p w).2.store st' := by
  have hstep : ∀ n m c (w : World),
      Service.Allowed (Scope.within (· ≠ requestId) (fun channel => ¬ C channel) D).Answers
        (WithinGuard (· ≠ requestId) (fun channel => ¬ C channel) D) m c →
      (m = b ∧ Agree requestId C w.store st') →
      ∃ m', (Scope.within (· ≠ requestId) (fun channel => ¬ C channel) D).Answers m c
          (World.respond e n w c).1 m' ∧
        (c.waitsForAsterisk = false →
          m' = b ∧ Agree requestId C (World.respond e n w c).2.store st') ∧
        (c.waitsForAsterisk = true →
          m' = true ∧ Agree requestId C (World.respond e n w c).2.store st') := by
    rintro n m c w hallowed ⟨rfl, h⟩
    obtain ⟨hguard, -⟩ := guard_of_allowed hallowed
    have hagree : Agree requestId C (World.respond e n w c).2.store st' :=
      respond_spares hkeeps hguard h
    refine ⟨m || c.waitsForAsterisk, answers_respond hguard hdrawn hreply ?_, ?_, ?_⟩
    · -- another channel leads to another record
      intro channel row hchannel hnewest hid
      obtain ⟨hfind, hrow⟩ := mem_of_newestOfChannel hnewest
      exact hchannel ((h.separate _ row hfind channel hrow).2 hid)
    · intro hwaits
      exact ⟨memory_of_not_waits hwaits, hagree⟩
    · intro hwaits
      exact ⟨memory_of_waits hwaits, hagree⟩
  obtain ⟨m, hrest, hend⟩ := Service.suspend_keeps
    (fun m (w : World) => m = b ∧ Agree requestId C w.store st')
    (fun m (w : World) => m = true ∧ Agree requestId C w.store st') hstep (n := 0) hp ⟨rfl, h⟩
  rcases hend with ⟨hdone, -, hagree⟩ | ⟨hm, hagree⟩
  · exact ⟨confined_rest hrest (.inl hdone), hagree⟩
  · exact ⟨confined_rest hrest (.inr hm), hagree⟩

end Within

end OtpVoice
