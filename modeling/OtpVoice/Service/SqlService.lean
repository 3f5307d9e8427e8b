import OtpVoice.Coroutine.Refinement
import OtpVoice.Service.Scope
import OtpVoice.Storage.SqlRun

/-!
# The service over SQL tables

`sqlService` runs the coroutines of the service on a database of tables and rows, through the SQL of
`src/storage/db.py`. Its statements are those that `Stmt.Issued` describes (`uses_issued`), so that
over a database that represents a store it does what `otpService` does over this store
(`sqlRefinement`).
-/

set_option autoImplicit false

namespace OtpVoice

open Coroutine

/-! ## The statements of the service -/

/-- A command whose statement, if it has one, is issued by the service. -/
def Cmd.Issued : Cmd → Prop
  | .execute s => s.Issued
  | _ => True

/-- The statements of the service, with all ids, records and messages. -/
def Scope.issued : Scope where
  stmt := Stmt.Issued
  drawn _ := True
  found _ := True
  reply _ := True

/-- The events of all timelines. -/
def allEvents : List EventName := eventNames

theorem issued_covers (requestId : String) : Scope.issued.Covers requestId allEvents where
  read := trivial
  update status now u _ := ⟨status, now, u, rfl, rfl⟩
  event _ _ _ _ := trivial

section Issued

variable {b : Bool}

/-- A part that writes no record. -/
theorem stays_issued {α : Type} {ks : List Kind} {p : Prog α} (hp : Touches ks p)
    (hks : ks.all (fun k => k ∉ [Kind.insertCall, .updateCall, .reply]) = true) :
    Stays Scope.issued (fun _ => True) p b := by
  refine Coro.Sat.of_uses (I := fun _ => True) ?_ hp trivial
  intro b' c r b'' hc _ _
  have hkind := of_decide_eq_true (List.all_eq_true.1 hks _ hc)
  refine ⟨?_, trivial⟩
  cases c with
  | execute s =>
    cases s with
    | insertCall row => exact absurd (by simp [Cmd.kind, Stmt.kind]) hkind
    | updateCall fields values requestId => exact absurd (by simp [Cmd.kind, Stmt.kind]) hkind
    | _ => exact True.intro
  | awaitReply => exact absurd (by decide) hkind
  | _ => trivial

/-- A new record has the defaults of its table. -/
theorem issued_createCallRecord (mobile code codeMasked : String) (parent : Option String) :
    Stays Scope.issued (fun _ => True) (createCallRecord mobile code codeMasked parent) b := by
  apply (stays_issued touches_uuid4 (by decide)).then
  intro id _
  apply (stays_issued touches_time (by decide)).then
  intro now _
  have hissued (row : CallRecord) (hrow : (Stmt.insertCall row).Issued) (b : Bool) :
      Stays Scope.issued (fun _ => True) (execute (.insertCall row)) b :=
    stays_execute (S := Scope.issued) hrow
  refine (hissued _ ?_ _).then fun _ _ => ?_
  · exact ⟨rfl, rfl, rfl, rfl, rfl, rfl⟩
  apply (stays_issued touches_commit (by decide)).then
  intro _ _
  exact (stays_issued (touches_addEvent _ _ _) (by decide)).then fun _ _ => stays_pure _

theorem issued_answers (b : Bool) (c : Cmd) (r : Except Exc c.Resp) :
    Scope.issued.Answers b c r (b || c.waitsForAsterisk) := by
  refine ⟨rfl, ?_⟩
  split
  · exact True.intro
  · exact fun _ _ _ => True.intro
  · exact True.intro
  · trivial

theorem issued_dispatch (kind : EventKind) (message : Message) :
    Stays Scope.issued (fun _ => True) (dispatch kind message) b := by
  cases kind with
  | originateResponse =>
    exact stays_onOriginateResponse (show _ ∈ allEvents by decide)
      fun requestId _ => issued_covers requestId
  | newchannel => exact stays_pure _
  | newstate =>
    exact stays_onNewState (show _ ∈ allEvents by decide) (by decide) (fun _ _ => trivial)
      fun row _ => issued_covers _
  | hangup =>
    exact stays_onHangup (show _ ∈ allEvents by decide) (fun _ _ => trivial)
      fun row _ => issued_covers _
  | userEvent =>
    have hlines : ∀ d : DialplanEvent, d.line ∈ allEvents := by
      intro d
      cases d <;> decide
    exact stays_onUserEvent hlines (fun requestId _ => issued_covers requestId)
      fun requestId channel _ _ _ now => ⟨_, now, { channel := some channel }, rfl, rfl⟩

theorem issued_body (o : CallOriginator) (op : Op) :
    Stays Scope.issued (fun _ => True) (op.body o) b := by
  have hlog : ∀ level line (answer : Answer) b', Stays Scope.issued (fun _ => True)
      (log level line >>= fun _ => pure answer) b' := fun level line answer b' =>
    (stays_issued (touches_log _ _) (by decide)).then fun _ _ => stays_pure _
  cases op with
  | execute task =>
    exact (stays_executeCall (show _ ⊆ allEvents by decide) (issued_covers _)
      fun _ _ requestId _ => issued_covers requestId).then fun _ _ => stays_pure _
  | input x =>
    cases x with
    | otpCall request =>
      exact (stays_issued (touches_checkLimits _) (by decide)).then fun _ _ =>
        (issued_createCallRecord _ _ _ _).then fun _ _ => hlog _ _ _ _
    | retry requestId body =>
      apply (stays_issued (touches_getCallRecord _) (by decide)).then
      intro record _
      cases record with
      | none => trivial
      | some record =>
        apply (stays_issued (touches_nothing_raiseUnless _ _) (by decide)).then
        intro _ _
        apply (stays_issued (touches_nothing_raiseUnless _ _) (by decide)).then
        intro _ _
        exact (stays_issued (touches_checkLimits _) (by decide)).then fun _ _ =>
          (issued_createCallRecord _ _ _ _).then fun _ _ =>
            (stays_issued (touches_incrementRetry _) (by decide)).then fun _ _ => hlog _ _ _ _
    | status requestId => exact stays_issued (touches_getCallStatus _) (by decide)
    | health => exact stays_issued touches_healthCheck (by decide)
    | amiEvent kind message => exact (issued_dispatch kind message).then fun _ _ => stays_pure _
    | cleanup =>
      exact (stays_issued touches_periodicCleanup (by decide)).then fun _ _ => stays_pure _

/-- Every statement of the service is one that `db.py` sends. -/
theorem uses_issued (o : CallOriginator) (op : Op) : Coro.Uses Cmd.Issued (op.body o) := by
  refine Coro.Sat.uses (P := Cmd.Issued) .timeoutError ?_ ?_ (issued_body o op (b := false))
  · intro b c r
    exact ⟨_, issued_answers b c r⟩
  · intro b c r b' hc
    cases c with
    | execute s => exact hc
    | _ => trivial

end Issued

/-! ## The service -/

/-- The state shared by all coroutines, with the tables of the database and those of its last
commit. -/
structure SqlWorld where
  db : Sql.Database
  committed : Sql.Database
  limiter : RateLimiter
  sent : List Action := []
  logged : List (Level × String) := []

/-- All but the tables. -/
def SqlWorld.frame (w : SqlWorld) : World := ⟨.empty, .empty, w.limiter, w.sent, w.logged⟩

/-- What a statement that raises leaves: the tables as they were or those of the last commit. -/
def SqlWorld.undo (e : Env) (n : ℕ) (s : Stmt) (w : SqlWorld) : SqlWorld :=
  { w with db := if s.writes && e.undoes n then w.committed else w.db }

/-- The answer to the `n`-th command of a turn: a statement runs on the tables, a commit keeps them
or, when it raises, goes back to those of the last commit, and the other commands do not look at
them. -/
def SqlWorld.respond (e : Env) (n : ℕ) (w : SqlWorld) : (c : Cmd) → Except Exc c.Resp × SqlWorld
  | .execute s =>
    match e.fault n with
    | some text => (.error (.other text), w.undo e n s)
    | none =>
      match s.run w.db with
      | (.ok r, db) => (.ok r, { w with db := db })
      | (.error text, _) => (.error (.other text), w)
  | .commit =>
    match e.commitFault n with
    | some text => (.error (.other text), { w with db := w.committed })
    | none => (.ok (), { w with committed := w.db })
  | c =>
    let x := World.respond e n w.frame c
    (x.1, ⟨w.db, w.committed, x.2.limiter, x.2.sent, x.2.logged⟩)

/-- The service over the tables of the database. -/
def sqlService (o : CallOriginator) (yields : Cmd → Bool) :
    Service Cmd Cmd.Resp Exc Env SqlWorld Input Op Answer where
  respond := SqlWorld.respond
  yields := yields
  entry := .input
  body := Op.body o
  spawns answer := answer.tasks.map .execute

/-- The same limiter, actions and log, and tables that represent the store, as do those of the last
commit. -/
structure Shows (w : SqlWorld) (v : World) : Prop where
  represents : Represents w.db v.store
  committed : Represents w.committed v.committed
  limiter : w.limiter = v.limiter
  sent : w.sent = v.sent
  logged : w.logged = v.logged

/-- A command that is not one of the connection leaves its tables, and does not look at them. -/
theorem respond_frame (e : Env) (n : ℕ) (v : World) (st cm : Store) {c : Cmd}
    (hc : c.mayRaise = false) :
    World.respond e n { v with store := st, committed := cm } c =
      ((World.respond e n v c).1,
        { (World.respond e n v c).2 with store := st, committed := cm }) ∧
    (World.respond e n v c).2.store = v.store ∧
      (World.respond e n v c).2.committed = v.committed := by
  cases c with
  | execute s => cases hc
  | commit => cases hc
  | checkNumberLimit mobile =>
    simp only [World.respond, World.answer]
    split <;> exact ⟨rfl, rfl, rfl⟩
  | getAmiClient =>
    simp only [World.respond, World.answer]
    split <;> exact ⟨rfl, rfl, rfl⟩
  | _ => exact ⟨rfl, rfl, rfl⟩

/-- A statement that raises leaves the same on both sides. -/
theorem Shows.undo {w : SqlWorld} {v : World} (h : Shows w v) (e : Env) (n : ℕ) (s : Stmt) :
    Shows (w.undo e n s) (v.undo e n s) := by
  refine ⟨?_, h.committed, h.limiter, h.sent, h.logged⟩
  simp only [SqlWorld.undo, World.undo]
  cases s.writes && e.undoes n with
  | true => exact h.committed
  | false => exact h.represents

/-- A statement gives the same result on both sides, or raises the same exception. -/
theorem shows_execute {w : SqlWorld} {v : World} (h : Shows w v) (e : Env) (n : ℕ) {s : Stmt}
    (hs : s.Issued) :
    (SqlWorld.respond e n w (.execute s)).1 = (World.respond e n v (.execute s)).1 ∧
      Shows (SqlWorld.respond e n w (.execute s)).2 (World.respond e n v (.execute s)).2 := by
  cases hfault : e.fault n with
  | some text =>
    rw [World.respond_fault hfault]
    simp only [SqlWorld.respond, hfault]
    exact ⟨trivial, h.undo e n s⟩
  | none =>
    rw [World.respond_execute hfault]
    obtain ⟨hresult, hrep⟩ := represents_exec hs h.represents
    simp only [SqlWorld.respond, hfault, World.answer]
    generalize s.run w.db = x at hresult hrep
    generalize s.exec v.store = y at hresult hrep
    obtain ⟨r, db⟩ := x
    obtain ⟨r', st⟩ := y
    obtain rfl : r = r' := hresult
    cases r with
    | ok r => exact ⟨rfl, hrep, h.committed, h.limiter, h.sent, h.logged⟩
    | error text => exact ⟨rfl, h⟩

/-- A commit keeps the tables of both sides, or brings back those of the last one. -/
theorem shows_commit {w : SqlWorld} {v : World} (h : Shows w v) (e : Env) (n : ℕ) :
    (SqlWorld.respond e n w .commit).1 = (World.respond e n v .commit).1 ∧
      Shows (SqlWorld.respond e n w .commit).2 (World.respond e n v .commit).2 := by
  cases hfault : e.commitFault n with
  | some text =>
    rw [World.respond_commitFault hfault]
    simp only [SqlWorld.respond, hfault]
    exact ⟨trivial, h.committed, h.committed, h.limiter, h.sent, h.logged⟩
  | none =>
    rw [World.respond_commit hfault]
    simp only [SqlWorld.respond, hfault]
    exact ⟨trivial, h.represents, h.represents, h.limiter, h.sent, h.logged⟩

/-- The other commands read and write what both sides share. -/
theorem shows_other {w : SqlWorld} {v : World} (h : Shows w v) (e : Env) (n : ℕ) {c : Cmd}
    (hc : c.mayRaise = false) :
    (SqlWorld.respond e n w c).1 = (World.respond e n v c).1 ∧
      Shows (SqlWorld.respond e n w c).2 (World.respond e n v c).2 := by
  have hrespond : SqlWorld.respond e n w c =
      ((World.respond e n w.frame c).1, ⟨w.db, w.committed, (World.respond e n w.frame c).2.limiter,
        (World.respond e n w.frame c).2.sent, (World.respond e n w.frame c).2.logged⟩) := by
    cases c with
    | execute s => cases hc
    | commit => cases hc
    | _ => rfl
  have hframe : w.frame = { v with store := .empty, committed := .empty } := by
    simp only [SqlWorld.frame, h.limiter, h.sent, h.logged]
  obtain ⟨hother, hstore, hcommitted⟩ := respond_frame e n v .empty .empty hc
  rw [hrespond, hframe, hother]
  refine ⟨rfl, ?_, ?_, rfl, rfl, rfl⟩
  · rw [hstore]
    exact h.represents
  · rw [hcommitted]
    exact h.committed

theorem shows_respond {w : SqlWorld} {v : World} (h : Shows w v) (e : Env) (n : ℕ) {c : Cmd}
    (hc : c.Issued) :
    (SqlWorld.respond e n w c).1 = (World.respond e n v c).1 ∧
      Shows (SqlWorld.respond e n w c).2 (World.respond e n v c).2 := by
  cases c with
  | execute s => exact shows_execute h e n hc
  | commit => exact shows_commit h e n
  | _ => exact shows_other h e n rfl

/-- The service over the tables refines the service over the store. -/
def sqlRefinement (o : CallOriginator) (yields : Cmd → Bool) :
    Service.Refinement (sqlService o yields) (otpService o yields) where
  rel := Shows
  cmd := Cmd.Issued
  yields := rfl
  entry := rfl
  body := rfl
  spawns := rfl
  uses := uses_issued o
  respond e n h hc := shows_respond h e n hc

end OtpVoice
