import OtpVoice.Api.Admission
import OtpVoice.Api.Rejection

/-!
# Requests that fail half-way

A request for a call inserts its record, puts a first line into the timeline, counts the retry of
the parent, and schedules the task only at its end. Each of these steps is a transaction of its own.

- `request_all_or_nothing_iff`: a request that is handled alone either is answered with one new
  record and one task for it, or leaves `otp_calls` as it was, if and only if neither a statement
  nor a commit after the commit of its `INSERT` raises, nor its `INSERT` or that commit rolls back
  what another operation has written and not committed.
- `failed_request_strands_record`: the first line of the timeline cannot be written.
-/

set_option autoImplicit false

namespace OtpVoice

open Coroutine

/-- The keys of `otp_calls`. -/
def Store.ids (st : Store) : List String := st.calls.rows.map CallRecord.requestId

/-- The request is answered 202 with exactly one new record, which is queued, and one task for it;
or it fails, and `otp_calls` is as before. -/
def AllOrNothing (w : World) (r : Except Exc Answer) (w' : World) : Prop :=
  (∃ response row repeatCount, r = .ok (.accepted response [row.task repeatCount]) ∧
    w'.store.ids = w.store.ids ++ [response.requestId] ∧
    w'.store.calls.find response.requestId = some row ∧ row.status = .queued) ∨
  ((∃ x, r = .error x) ∧ w'.store.calls = w.store.calls)

/-- The request passes its checks. -/
def Input.Passes (e : Env) (w : World) : Input → Prop
  | .otpCall request => (w.limiter.checkLimits request.mobile (e.now 1) (e.now 2)).1 = .ok ()
  | .retry requestId body => e.fault 0 = none ∧ ∃ record,
    w.store.calls.find requestId = some record ∧ record.status.retryable = true ∧
      body.chosenCode record ≠ "" ∧
      (w.limiter.checkLimits record.mobile (e.now 2) (e.now 3)).1 = .ok ()
  | _ => False

/-- The number of commands before the `INSERT` of the record. -/
def Input.insertAt (x : Input) : ℕ := x.firstCheck + 5

/-- A statement or a commit, by its place among the commands of the turn. -/
inductive Point where
  | statement (n : ℕ)
  | commit (n : ℕ)

/-- The statement or the commit raises. -/
def Point.raises (e : Env) : Point → Bool
  | .statement n => (e.fault n).isSome
  | .commit n => (e.commitFault n).isSome

/-- The statement or the commit raises, and the connection rolls back. -/
def Point.rollsBack (e : Env) : Point → Bool
  | .statement n => (e.fault n).isSome && e.undoes n
  | .commit n => (e.commitFault n).isSome

/-- What follows the commit of the `INSERT`: the first line of the timeline, and for a retry the
count of the parent. -/
def Input.afterInsert : Input → List Point
  | .otpCall _ => [.statement 8, .commit 9]
  | _ => [.statement 9, .commit 10, .statement 12, .commit 13, .statement 14]

/-- The `INSERT` of the record and its commit take effect, and a later statement or commit of the
request raises. -/
def Input.Strands (e : Env) (w : World) (x : Input) : Prop :=
  x.Passes e w ∧ e.fault x.insertAt = none ∧ w.store.calls.find e.uuid.text = none ∧
    e.commitFault (x.insertAt + 1) = none ∧ ∃ p ∈ x.afterInsert, p.raises e = true

/-- The `INSERT` of the record or its commit rolls back, and with it goes what another operation has
written to `otp_calls` and not committed yet. -/
def Input.Reverts (e : Env) (w : World) (x : Input) : Prop :=
  x.Passes e w ∧
    ((Point.statement x.insertAt).rollsBack e = true ∨
      e.fault x.insertAt = none ∧ w.store.calls.find e.uuid.text = none ∧
        (Point.commit (x.insertAt + 1)).rollsBack e = true) ∧
    w.committed.calls ≠ w.store.calls

/-! ## Single steps -/

section Steps

variable {α β : Type} {e : Env} {n : ℕ} {w : World}

/-- Run alone from the `n`-th command of its turn on, the coroutine keeps the keys of `otp_calls` if
those of the last commit are the same. If one of the points `ns` raises it fails, and else it ends
before the `m`-th command as `post` says. -/
structure Finishes (e : Env) (p : Prog α) (n : ℕ) (w : World) (ns : List Point) (m : ℕ)
    (post : α → World → Prop) : Prop where
  ids : w.committed.ids = w.store.ids →
    (p.complete (World.respond e) n w).2.2.store.ids = w.store.ids ∧
      (p.complete (World.respond e) n w).2.2.committed.ids = w.store.ids
  raises : (∃ k ∈ ns, k.raises e = true) →
    ∃ x, (p.complete (World.respond e) n w).1 = .error x
  returns : (∀ k ∈ ns, k.raises e = false) → (p.complete (World.respond e) n w).2.1 = m ∧
    ∃ a, (p.complete (World.respond e) n w).1 = .ok a ∧
      post a (p.complete (World.respond e) n w).2.2

theorem exists_raises_or (e : Env) (ns : List Point) :
    (∃ k ∈ ns, k.raises e = true) ∨ ∀ k ∈ ns, k.raises e = false := by
  by_cases h : ∃ k ∈ ns, k.raises e = true
  · exact .inl h
  · exact .inr fun k hk => Bool.eq_false_iff.2 fun hraises => h ⟨k, hk, hraises⟩

theorem Finishes.mono {p : Prog α} {ns : List Point} {m : ℕ} {Q post : α → World → Prop}
    (hp : Finishes e p n w ns m Q) (hQ : ∀ a w', Q a w' → post a w') :
    Finishes e p n w ns m post := by
  refine ⟨hp.ids, hp.raises, fun hall => ?_⟩
  obtain ⟨hm, a, ha, hpost⟩ := hp.returns hall
  exact ⟨hm, a, ha, hQ a _ hpost⟩

theorem Finishes.bind {p : Prog β} {f : β → Prog α} {ns : List Point} (ns' : List Point) {m m' : ℕ}
    {Q : β → World → Prop} {post : α → World → Prop} (hp : Finishes e p n w ns m Q)
    (hf : ∀ b w', Q b w' → Finishes e (f b) m w' ns' m' post) :
    Finishes e (p >>= f) n w (ns ++ ns') m' post := by
  have hbind := Coro.complete_bind (World.respond e) f p n w
  obtain ⟨hids, hraises, hreturns⟩ := hp
  generalize p.complete (World.respond e) n w = y at hbind hids hraises hreturns
  rcases exists_raises_or e ns with hfault | hnone
  · -- the first part fails, and the rest is skipped
    obtain ⟨x, hx⟩ := hraises hfault
    obtain ⟨r, k, w'⟩ := y
    cases hx
    refine ⟨by rw [hbind]; exact hids, fun _ => ⟨x, by rw [hbind]⟩, fun hall => ?_⟩
    obtain ⟨k, hk, hsome⟩ := hfault
    cases (hall k (List.mem_append_left _ hk)).symm.trans hsome
  · obtain ⟨hm, b, hb, hQ⟩ := hreturns hnone
    obtain ⟨r, k, w'⟩ := y
    cases hb
    obtain rfl : k = m := hm
    -- the first part returns, and the rest decides
    obtain ⟨hids', hraises', hreturns'⟩ := hf b w' hQ
    refine ⟨fun hw => ?_, fun ⟨j, hj, hsome⟩ => ?_, fun hall => ?_⟩
    · obtain ⟨hstore, hcommitted⟩ := hids hw
      rw [hbind, ← hstore]
      exact hids' (hcommitted.trans hstore.symm)
    · rw [hbind]
      refine hraises' ⟨j, (List.mem_append.1 hj).resolve_left fun hj => ?_, hsome⟩
      cases (hnone j hj).symm.trans hsome
    · rw [hbind]
      exact hreturns' fun j hj => hall j (List.mem_append_right _ hj)

theorem finishes_pure {a : α} {post : α → World → Prop} (h : post a w) :
    Finishes e (pure a) n w [] n post := by
  refine ⟨fun hw => ⟨rfl, hw⟩, ?_, fun _ => ⟨rfl, a, rfl, h⟩⟩
  rintro ⟨k, hk, -⟩
  cases hk

/-- A command that is not one of the connection. -/
theorem finishes_silent {c : Cmd} {a : c.Resp} {w' : World} (hc : c.mayRaise = false)
    (h : w.answer e n c = (.ok a, w')) (hstore : w'.store = w.store)
    (hcommitted : w'.committed = w.committed) :
    Finishes e (issue c) n w [] (n + 1) fun b w'' => b = a ∧ w'' = w' := by
  have hrun : (issue c).complete (World.respond e) n w = (.ok a, n + 1, w') := by
    show ((World.respond e n w c).1, n + 1, (World.respond e n w c).2) = _
    rw [World.respond_of_not_mayRaise hc, h]
  refine ⟨fun hw => ?_, ?_, fun _ => by rw [hrun]; exact ⟨rfl, a, rfl, rfl, rfl⟩⟩
  · rw [hrun, hstore, hcommitted]
    exact ⟨rfl, hw⟩
  · rintro ⟨k, hk, -⟩
    cases hk

theorem World.undo_ids {s : Stmt} (hw : w.committed.ids = w.store.ids) :
    (w.undo e n s).store.ids = w.store.ids := by
  simp only [World.undo]
  split
  · exact hw
  · rfl

/-- A statement. -/
theorem finishes_execute {s : Stmt} {a : s.Result} {st : Store} (h : s.exec w.store = (.ok a, st))
    (hids : st.ids = w.store.ids) :
    Finishes e (execute s) n w [.statement n] (n + 1) fun b w'' =>
      b = a ∧ w'' = { w with store := st } := by
  have hrun : (execute s).complete (World.respond e) n w =
      ((World.respond e n w (.execute s)).1, n + 1, (World.respond e n w (.execute s)).2) := rfl
  cases hfault : e.fault n with
  | some text =>
    rw [World.respond_fault hfault] at hrun
    refine ⟨fun hw => ?_, fun _ => ⟨_, congrArg Prod.fst hrun⟩, fun hall => ?_⟩
    · rw [hrun]
      exact ⟨World.undo_ids hw, hw⟩
    · have hnone := hall _ List.mem_cons_self
      simp [Point.raises, hfault] at hnone
  | none =>
    have hrespond : World.respond e n w (.execute s) = (.ok a, { w with store := st }) := by
      rw [World.respond_execute hfault, World.answer, h]
    rw [hrespond] at hrun
    refine ⟨fun hw => ?_, ?_, fun _ => by rw [hrun]; exact ⟨rfl, a, rfl, rfl, rfl⟩⟩
    · rw [hrun]
      exact ⟨hids, hw⟩
    · simp [Point.raises, hfault]

/-- A commit; when it raises, the tables of the last one come back. -/
theorem finishes_commit :
    Finishes e commit n w [.commit n] (n + 1) fun _ w'' =>
      w'' = { w with committed := w.store } := by
  have hrun : commit.complete (World.respond e) n w =
      ((World.respond e n w .commit).1, n + 1, (World.respond e n w .commit).2) := rfl
  cases hfault : e.commitFault n with
  | some text =>
    rw [World.respond_commitFault hfault] at hrun
    refine ⟨fun hw => by rw [hrun]; exact ⟨hw, hw⟩,
      fun _ => ⟨_, congrArg Prod.fst hrun⟩, fun hall => ?_⟩
    have hnone := hall _ List.mem_cons_self
    simp [Point.raises, hfault] at hnone
  | none =>
    rw [World.respond_commit hfault] at hrun
    refine ⟨fun hw => ?_, ?_, fun _ => by rw [hrun]; exact ⟨rfl, (), rfl, rfl⟩⟩
    · rw [hrun]
      exact ⟨rfl, rfl⟩
    · simp [Point.raises, hfault]

/-- `add_event` keeps the calls. -/
theorem finishes_addEvent (requestId : String) (event : EventName) (detail : Option String) :
    Finishes e (addEvent requestId event detail) n w [.statement (n + 1), .commit (n + 2)] (n + 3)
      fun _ w' => w'.store.calls = w.store.calls := by
  apply (finishes_silent (c := .time) rfl rfl rfl rfl).bind [.statement (n + 1), .commit (n + 2)]
  rintro now _ ⟨-, rfl⟩
  refine (finishes_execute (s := .insertEvent ⟨requestId, event, detail, now⟩) rfl rfl).bind
    [.commit (n + 2)] ?_
  rintro _ _ ⟨-, rfl⟩
  apply Finishes.mono finishes_commit
  rintro _ _ rfl
  rfl

theorem ids_modify (st : Store) (requestId : String) (f : CallRecord → CallRecord)
    (hf : ∀ row, (f row).requestId = row.requestId) :
    ({ st with calls := st.calls.modify requestId f hf } : Store).ids = st.ids := by
  simp only [Store.ids, Table.modify, List.map_map]
  apply List.map_congr_left
  intro row _
  simp only [Function.comp_apply]
  split
  · exact hf row
  · rfl

/-- `increment_retry` changes no other record. -/
theorem finishes_incrementRetry (requestId : String) :
    Finishes e (incrementRetry requestId) n w
      [.statement (n + 1), .commit (n + 2), .statement (n + 3)] (n + 4) fun _ w' =>
        ∀ key, key ≠ requestId → w'.store.calls.find key = w.store.calls.find key := by
  apply (finishes_silent (c := .time) rfl rfl rfl rfl).bind
    [.statement (n + 1), .commit (n + 2), .statement (n + 3)]
  rintro now w₁ ⟨-, h₁⟩
  rw [h₁]
  refine (finishes_execute (s := .incrementRetry now requestId) rfl (ids_modify _ _ _ _)).bind
    [.commit (n + 2), .statement (n + 3)] ?_
  rintro _ _ ⟨-, rfl⟩
  apply finishes_commit.bind [.statement (n + 3)]
  rintro _ _ rfl
  apply (finishes_execute (s := .selectCall requestId) rfl rfl).bind []
  rintro record w₂ ⟨-, rfl⟩
  have hfind : ∀ key, key ≠ requestId → (w.store.calls.modify requestId (CallRecord.retried now)
      fun _ => rfl).find key = w.store.calls.find key := by
    intro key hkey
    exact (Table.find_modify _ _ _ _ _).trans (if_neg hkey)
  cases record with
  | none => exact finishes_pure hfind
  | some record => exact finishes_pure hfind

end Steps

/-! ## The creation of the record -/

section Creation

variable {e : Env} {n : ℕ} {w : World}

theorem ids_insert {calls calls' : CallTable} {row : CallRecord} {events : List EventRow}
    (h : calls.insert row = some calls') :
    (⟨calls', events⟩ : Store).ids = (⟨calls, events⟩ : Store).ids ++ [row.requestId] := by
  rw [Store.ids, (Table.insert_eq_some_iff.1 h).2, List.map_append]
  rfl

/-- `create_call_record` fails at its `INSERT` and changes nothing but for a rollback, or it has
inserted the record and goes on to its first commit. -/
theorem complete_createCallRecord (mobile code codeMasked : String) (parent : Option String) :
    (((e.fault (n + 2)).isSome = true ∨ (w.store.calls.find e.uuid.text).isSome = true) ∧
      (∃ x, ((createCallRecord mobile code codeMasked parent).complete (World.respond e) n w).1 =
        .error x) ∧
      ((createCallRecord mobile code codeMasked parent).complete (World.respond e) n
        w).2.2.store.calls =
          if (Point.statement (n + 2)).rollsBack e then w.committed.calls else w.store.calls) ∨
    (e.fault (n + 2) = none ∧ w.store.calls.find e.uuid.text = none ∧
      ∃ row w₁, row.requestId = e.uuid.text ∧ row.mobile = mobile ∧ row.code = code ∧
        row.status = .queued ∧ w₁.committed = w.committed ∧
        w₁.store.ids = w.store.ids ++ [row.requestId] ∧
        w₁.store.calls.find row.requestId = some row ∧
        (createCallRecord mobile code codeMasked parent).complete (World.respond e) n w =
          ((commit >>= fun _ => addEvent e.uuid.text .queued none >>= fun _ =>
            (pure e.uuid.text : Prog String)).complete (World.respond e) (n + 3) w₁)) := by
  set row : CallRecord :=
    { requestId := e.uuid.text, mobile, code, codeMasked, parentRequestId := parent,
      createdAt := e.now (n + 1), updatedAt := e.now (n + 1),
      expiresAt := e.now (n + 1) + ttlSeconds }
  have hrun : (createCallRecord mobile code codeMasked parent).complete (World.respond e) n w =
      ((execute (.insertCall row) >>= fun _ => commit >>= fun _ =>
        addEvent e.uuid.text .queued none >>= fun _ =>
          (pure e.uuid.text : Prog String)).complete (World.respond e) (n + 2) w) := by
    refine (complete_issue_bind e .uuid4 _ n w).trans ?_
    rw [World.respond_of_not_mayRaise rfl]
    refine (complete_issue_bind e .time _ (n + 1) w).trans ?_
    rw [World.respond_of_not_mayRaise rfl]
    rfl
  have hinsert := complete_issue_bind e (.execute (.insertCall row)) (fun _ => commit >>= fun _ =>
        addEvent e.uuid.text .queued none >>= fun _ =>
          (pure e.uuid.text : Prog String)) (n + 2) w
  rw [hrun]
  cases hfault : e.fault (n + 2) with
  | some text =>
    rw [World.respond_fault hfault] at hinsert
    refine .inl ⟨.inl rfl, ⟨_, congrArg Prod.fst hinsert⟩,
      (congrArg (·.2.2.store.calls) hinsert).trans ?_⟩
    simp only [World.undo, Stmt.writes, Point.rollsBack, hfault]
    exact apply_ite Store.calls _ _ _
  | none =>
    rw [World.respond_execute hfault] at hinsert
    cases hcalls : w.store.calls.insert row with
    | none =>
      have hanswer : w.answer e (n + 2) (.execute (.insertCall row)) =
          (.error (.other "UNIQUE constraint failed: otp_calls.request_id"), w) := by
        simp [World.answer, Stmt.exec, hcalls]
      rw [hanswer] at hinsert
      refine .inl ⟨.inr (Table.find_isSome_of_insert_eq_none hcalls),
        ⟨_, congrArg Prod.fst hinsert⟩, (congrArg (·.2.2.store.calls) hinsert).trans ?_⟩
      simp [Point.rollsBack, hfault]
    | some calls =>
      have hanswer : w.answer e (n + 2) (.execute (.insertCall row)) =
          (.ok (1 : ℕ), { w with store := { w.store with calls := calls } }) := by
        simp [World.answer, Stmt.exec, hcalls]
      rw [hanswer] at hinsert
      obtain ⟨hnew, hrows⟩ := Table.insert_eq_some_iff.1 hcalls
      refine .inr ⟨rfl, hnew, row, { w with store := { w.store with calls := calls } }, rfl, rfl,
        rfl, rfl, rfl, ids_insert hcalls, ?_, hinsert⟩
      exact Table.find_eq_some_iff.2 ⟨by rw [hrows]; simp, rfl⟩

/-- A request that fails before its record is committed is all or nothing, unless it rolls back what
another operation has written. -/
theorem allOrNothing_failed {w₀ w' : World} {x : Exc} {undone : Bool} (hw₀ : w₀.store = w.store)
    (hw' : w'.store.calls = if undone then w.committed.calls else w.store.calls) :
    AllOrNothing w₀ (.error x) w' ↔
      ¬ (undone = true ∧ w.committed.calls ≠ w.store.calls) := by
  have hsame : AllOrNothing w₀ (.error x) w' ↔ w'.store.calls = w.store.calls := by
    simp [AllOrNothing, hw₀]
  rw [hsame, hw']
  cases undone with
  | false => simp
  | true => simp

/-- What follows the commit of the `INSERT`: if one of the points `ns` raises the request fails, and
the new row stays; else it is answered with its task. -/
theorem allOrNothing_committed {p : Prog Answer} {w₀ : World} {row : CallRecord} {ns : List Point}
    {m : ℕ} {repeatCount : ℤ}
    (hp : Finishes e p n w ns m fun answer w' =>
      answer = .accepted ⟨row.requestId, .queued, 5⟩ [row.task repeatCount] ∧
        w'.store.calls.find row.requestId = some row)
    (hcommitted : w.committed = w.store) (hids : w.store.ids = w₀.store.ids ++ [row.requestId])
    (hstatus : row.status = .queued) :
    let y := p.complete (World.respond e) n w
    AllOrNothing w₀ y.1 y.2.2 ↔ ¬ ∃ k ∈ ns, k.raises e = true := by
  intro y
  have hgrown : y.2.2.store.ids = w₀.store.ids ++ [row.requestId] :=
    (hp.ids (congrArg Store.ids hcommitted)).1.trans hids
  rcases exists_raises_or e ns with hraised | hnone
  · refine iff_of_false ?_ (not_not_intro hraised)
    obtain ⟨x, hx⟩ := hp.raises hraised
    rintro (⟨response, row', repeatCount', hok, -⟩ | ⟨-, hsame⟩)
    · cases hx.symm.trans hok
    · have hids' : y.2.2.store.ids = w₀.store.ids := by rw [Store.ids, hsame, Store.ids]
      rw [hids'] at hgrown
      simpa using congrArg List.length hgrown
  · refine iff_of_true (.inl ?_) ?_
    · obtain ⟨-, answer, hanswer, rfl, hrow⟩ := hp.returns hnone
      exact ⟨_, row, repeatCount, hanswer, hgrown, hrow, hstatus⟩
    · rintro ⟨k, hk, hsome⟩
      cases (hnone k hk).symm.trans hsome

/-- What follows the checks of a request: the creation of the record and the rest `g`. If the
`INSERT` and its commit take effect, the request finishes or not as the statements and commits after
it do. If one of the two rolls back, `otp_calls` is as at the last commit. -/
theorem allOrNothing_create {mobile code codeMasked : String} {parent : Option String}
    {g : String → Prog Answer} (ns : List Point) {m : ℕ} (repeatCount : ℤ) {w₀ : World}
    (hw₀ : w₀.store = w.store)
    (hg : ∀ (row : CallRecord) (w₁ w₂ : World), row.requestId = e.uuid.text →
      row.mobile = mobile → row.code = code →
      w₁.store.ids = w.store.ids ++ [row.requestId] → w₁.store.calls.find row.requestId = some row →
      w₂.store.calls = w₁.store.calls → w.store.calls.find e.uuid.text = none →
      Finishes e (g e.uuid.text) (n + 7) w₂ ns m fun answer w₃ =>
        answer = .accepted ⟨e.uuid.text, .queued, 5⟩ [row.task repeatCount] ∧
          w₃.store.calls.find row.requestId = some row) :
    let y := (createCallRecord mobile code codeMasked parent >>= g).complete (World.respond e) n w
    AllOrNothing w₀ y.1 y.2.2 ↔
      ¬ ((e.fault (n + 2) = none ∧ w.store.calls.find e.uuid.text = none ∧
          e.commitFault (n + 3) = none ∧
            ∃ k ∈ [.statement (n + 5), .commit (n + 6)] ++ ns, k.raises e = true) ∨
        ((Point.statement (n + 2)).rollsBack e = true ∨
          e.fault (n + 2) = none ∧ w.store.calls.find e.uuid.text = none ∧
            (Point.commit (n + 3)).rollsBack e = true) ∧
          w.committed.calls ≠ w.store.calls) := by
  intro y
  have hbind : y = _ := Coro.complete_bind (World.respond e) g
    (createCallRecord mobile code codeMasked parent) n w
  rcases complete_createCallRecord (e := e) (n := n) (w := w) mobile code codeMasked parent with
    ⟨hfail, ⟨x, hx⟩, hw⟩ |
      ⟨hfault, hfree, row, w₁, hid, hm, hc, hstatus, hcommitted, hids, hfind, hrun⟩
  · -- the `INSERT` fails, and nothing has changed but for a rollback
    have hnot : ¬ (e.fault (n + 2) = none ∧ w.store.calls.find e.uuid.text = none) := by
      rintro ⟨hnone, hfree⟩
      rcases hfail with h | h
      · rw [hnone] at h
        cases h
      · rw [hfree] at h
        cases h
    rcases hcreate : (createCallRecord mobile code codeMasked parent).complete (World.respond e) n w
      with ⟨r, k, w'⟩
    rw [hcreate] at hbind hx hw
    cases hx
    rw [hbind]
    refine (allOrNothing_failed hw₀ hw).trans (not_congr ⟨fun h => .inr ⟨.inl h.1, h.2⟩, ?_⟩)
    rintro (⟨hnone, hfree, -⟩ | ⟨h | ⟨hnone, hfree, -⟩, hne⟩)
    · exact absurd ⟨hnone, hfree⟩ hnot
    · exact ⟨h, hne⟩
    · exact absurd ⟨hnone, hfree⟩ hnot
  · set tail : Prog String := addEvent e.uuid.text .queued none >>= fun _ => pure e.uuid.text
    have hy : y = ((commit >>= fun _ => tail) >>= g).complete (World.respond e) (n + 3) w₁ := by
      rw [hbind, hrun]
      exact (Coro.complete_bind (World.respond e) g (commit >>= fun _ => tail) (n + 3) w₁).symm
    have hfirst := complete_issue_bind e .commit (fun _ => tail) (n + 3) w₁
    have hinsert : (Point.statement (n + 2)).rollsBack e = false := by
      rw [Point.rollsBack, hfault]
      rfl
    cases hcommit : e.commitFault (n + 3) with
    | some text =>
      -- the commit raises: the request fails with the tables of the last commit
      rw [World.respond_commitFault hcommit] at hfirst
      have hraised : y = (.error (.other text), n + 4, w₁.rollback) := by
        have hpart : (commit >>= fun _ => tail).complete (World.respond e) (n + 3) w₁ =
            (.error (.other text), n + 4, w₁.rollback) := hfirst
        rw [hy, Coro.complete_bind, hpart]
      have hcalls : w₁.rollback.store.calls =
          if (Point.commit (n + 3)).rollsBack e then w.committed.calls else w.store.calls := by
        rw [Point.rollsBack, hcommit]
        exact congrArg Store.calls hcommitted
      have hundone : (Point.commit (n + 3)).rollsBack e = true := by
        rw [Point.rollsBack, hcommit]
        rfl
      rw [hraised, allOrNothing_failed hw₀ hcalls]
      simp [hinsert, hundone, hfault, hfree]
    | none =>
      -- the record is there and committed: the rest runs from `w₂`
      rw [World.respond_commit hcommit] at hfirst
      set w₂ : World := { w₁ with committed := w₁.store }
      have htail : Finishes e tail (n + 4) w₂ [.statement (n + 5), .commit (n + 6)] (n + 7)
          fun a w₃ => a = e.uuid.text ∧ w₃.store.calls = w₁.store.calls := by
        apply (finishes_addEvent _ _ _).bind []
        intro _ w₃ h₃
        exact finishes_pure ⟨rfl, h₃⟩
      have hrest := htail.bind (f := g) ns fun a w₃ h₃ => by
        obtain ⟨rfl, h₃⟩ := h₃
        exact hg row w₁ w₃ hid hm hc hids hfind h₃ hfree
      have hy' : y = (tail >>= g).complete (World.respond e) (n + 4) w₂ := by
        have hpart : (commit >>= fun _ => tail).complete (World.respond e) (n + 3) w₁ =
            tail.complete (World.respond e) (n + 4) w₂ := hfirst
        rw [hy, Coro.complete_bind, hpart]
        exact (Coro.complete_bind (World.respond e) g tail (n + 4) w₂).symm
      have hundone : (Point.commit (n + 3)).rollsBack e = false := by
        rw [Point.rollsBack, hcommit]
        rfl
      rw [← hid] at hrest
      have hids₂ : w₂.store.ids = w₀.store.ids ++ [row.requestId] := by
        rw [hw₀]
        exact hids
      have hall := allOrNothing_committed hrest rfl hids₂ hstatus
      dsimp only at hall
      rw [hy', hall]
      simp [hinsert, hundone, hfault, hfree]

end Creation

/-! ## The two endpoints -/

section Requests

variable {e : Env} {w : World}

/-- Three layers have been passed, or the request is rejected without a change of `otp_calls`. -/
theorem allOrNothing_checkLimits {mobile : String} {k : ℕ} {f : Unit → Prog Answer} {w₀ : World}
    (hw₀ : w₀.store = w.store) {P : Prop}
    (hf : ∀ w₁, w₁.store = w.store → w₁.committed = w.committed →
      (AllOrNothing w₀ ((f ()).complete (World.respond e) (k + 3) w₁).1
        ((f ()).complete (World.respond e) (k + 3) w₁).2.2 ↔ ¬ P)) :
    let y := (checkLimits mobile >>= f).complete (World.respond e) k w
    AllOrNothing w₀ y.1 y.2.2 ↔
      ¬ ((w.limiter.checkLimits mobile (e.now (k + 1)) (e.now (k + 2))).1 = .ok () ∧ P) := by
  intro y
  have hbind : y = _ := Coro.complete_bind (World.respond e) f (checkLimits mobile) k w
  rw [complete_checkLimits] at hbind
  dsimp only at hbind
  have hthree := @RateLimiter.checkLimits_ok w.limiter mobile (e.now (k + 1)) (e.now (k + 2))
  generalize w.limiter.checkLimits mobile (e.now (k + 1)) (e.now (k + 2)) = z at hbind hthree ⊢
  obtain ⟨x | u, j, rl⟩ := z
  · -- one of the layers rejects the request
    have hnot : ¬ ((Except.error x : Except Exc Unit) = .ok () ∧ P) := by
      rintro ⟨h, -⟩
      cases h
    refine iff_of_true (.inr ?_) hnot
    rw [hbind]
    exact ⟨⟨x, rfl⟩, congrArg Store.calls hw₀.symm⟩
  · -- all three have been asked, and only the limiter has changed
    obtain rfl : j = 3 := hthree rfl
    have hy : y = (f ()).complete (World.respond e) (k + 3) { w with limiter := rl } := hbind
    rw [hy, hf { w with limiter := rl } rfl rfl]
    simp

/-- What spoils a request that has passed its checks. -/
def Input.Spoils (e : Env) (w : World) (x : Input) : Prop :=
  (e.fault x.insertAt = none ∧ w.store.calls.find e.uuid.text = none ∧
      e.commitFault (x.insertAt + 1) = none ∧ ∃ p ∈ x.afterInsert, p.raises e = true) ∨
    ((Point.statement x.insertAt).rollsBack e = true ∨
      e.fault x.insertAt = none ∧ w.store.calls.find e.uuid.text = none ∧
        (Point.commit (x.insertAt + 1)).rollsBack e = true) ∧
      w.committed.calls ≠ w.store.calls

theorem strands_or_reverts {x : Input} :
    x.Strands e w ∨ x.Reverts e w ↔ x.Passes e w ∧ x.Spoils e w := by
  simp only [Input.Strands, Input.Reverts, Input.Spoils, ← and_or_left]

theorem allOrNothing_sendOtpCall (e : Env) (w : World) (request : OTPCallRequest) :
    let y := (sendOtpCall request).complete (World.respond e) 0 w
    AllOrNothing w y.1 y.2.2 ↔
      ¬ ((Input.otpCall request).Strands e w ∨ (Input.otpCall request).Reverts e w) := by
  rw [strands_or_reverts]
  apply allOrNothing_checkLimits rfl (P := (Input.otpCall request).Spoils e w)
  intro w₁ hw₁ hcm₁
  rw [Input.Spoils, ← hw₁, ← hcm₁]
  apply allOrNothing_create (m := 11) [] request.repeatCount hw₁.symm
  rintro row w₂ w₃ hid hm hc - hfind hcalls -
  apply (finishes_silent (c := .log _ _) rfl rfl rfl rfl).bind []
  rintro _ w₄ ⟨-, rfl⟩
  refine finishes_pure ⟨?_, ?_⟩
  · rw [CallRecord.task, hid, hm, hc]
  · exact (congrArg (fun calls => calls.find row.requestId) hcalls).trans hfind

theorem allOrNothing_retryCall (e : Env) (w : World) (requestId : String) (body : RetryRequest) :
    let y := (retryCall requestId body).complete (World.respond e) 0 w
    AllOrNothing w y.1 y.2.2 ↔
      ¬ ((Input.retry requestId body).Strands e w ∨ (Input.retry requestId body).Reverts e w) := by
  intro y
  rw [strands_or_reverts]
  -- a request that does not pass fails and changes nothing
  have hfail : ∀ x m, y = (.error x, m, w) → ¬ (Input.retry requestId body).Passes e w →
      (AllOrNothing w y.1 y.2.2 ↔ ¬ ((Input.retry requestId body).Passes e w ∧
        (Input.retry requestId body).Spoils e w)) := by
    intro x m hy hpasses
    refine iff_of_true (.inr ?_) ?_
    · rw [hy]
      exact ⟨⟨x, rfl⟩, rfl⟩
    · rintro ⟨h, -⟩
      exact hpasses h
  cases hfault : e.fault 0 with
  | some text =>
    apply hfail _ _ (complete_retryCall_fault hfault requestId body w)
    rintro ⟨hnone, -⟩
    cases hnone.symm.trans hfault
  | none =>
    have hy : y = _ := complete_retryCall hfault requestId body w
    cases hfind : w.store.calls.find requestId with
    | none =>
      simp only [hfind] at hy
      apply hfail _ _ hy
      rintro ⟨-, record, hrecord, -⟩
      cases hfind.symm.trans hrecord
    | some record =>
      simp only [hfind] at hy
      have honly : (Input.retry requestId body).Passes e w → record.status.retryable = true ∧
          body.chosenCode record ≠ "" := by
        rintro ⟨-, record', hrecord, hretry, hcode, -⟩
        obtain rfl := Option.some.inj (hfind.symm.trans hrecord)
        exact ⟨hretry, hcode⟩
      by_cases hretry : record.status.retryable = true
      · rw [if_pos hretry] at hy
        by_cases hcode : body.chosenCode record ≠ ""
        · rw [if_pos hcode] at hy
          rw [hy]
          refine (allOrNothing_checkLimits (P := (Input.retry requestId body).Spoils e w) rfl
            fun w₁ hw₁ hcm₁ => ?_).trans (not_congr ?_)
          · rw [Input.Spoils, ← hw₁, ← hcm₁]
            apply allOrNothing_create (m := 16) [.statement 12, .commit 13, .statement 14]
              (body.repeatCount.getD 2) hw₁.symm
            rintro row w₂ w₃ hid hm hc - hrow hcalls hfree
            -- the parent is another record than the new one
            have hne : row.requestId ≠ requestId := by
              intro heq
              rw [← heq, hid, ← hw₁, hfree] at hfind
              cases hfind
            apply (finishes_incrementRetry requestId).bind []
            intro _ w₄ hw₄
            apply (finishes_silent (c := .log _ _) rfl rfl rfl rfl).bind []
            rintro _ w₅ ⟨-, rfl⟩
            refine finishes_pure ⟨?_, ?_⟩
            · rw [CallRecord.task, hid, hm, hc]
            · exact (hw₄ _ hne).trans
                ((congrArg (fun calls => calls.find row.requestId) hcalls).trans hrow)
          · constructor
            · rintro ⟨hlimits, hrest⟩
              exact ⟨⟨hfault, record, hfind, hretry, hcode, hlimits⟩, hrest⟩
            · rintro ⟨⟨-, record', hrecord, -, -, hlimits⟩, hrest⟩
              obtain rfl := Option.some.inj (hfind.symm.trans hrecord)
              exact ⟨hlimits, hrest⟩
        · rw [if_neg hcode] at hy
          exact hfail _ _ hy fun h => hcode (honly h).2
      · rw [if_neg hretry] at hy
        exact hfail _ _ hy fun h => hretry (honly h).1

/-- A request handled alone, in any world and with any choice of failing statements and commits, is
answered with one new record and one task for it, or fails and leaves `otp_calls` as it was, if and
only if no statement and no commit after the commit of its `INSERT` raises, and neither the `INSERT`
nor that commit rolls back while `otp_calls` has uncommitted changes of another operation. -/
theorem request_all_or_nothing_iff (e : Env) (w : World) {x : Input} (hx : x.passive = false) :
    let y := x.body.complete (World.respond e) 0 w
    AllOrNothing w y.1 y.2.2 ↔ ¬ (x.Strands e w ∨ x.Reverts e w) := by
  cases x with
  | otpCall request => exact allOrNothing_sendOtpCall e w request
  | retry requestId body => exact allOrNothing_retryCall e w requestId body
  | _ => cases hx

end Requests

theorem request_all_or_nothing_iff_sample :
    let y := (sendOtpCall sampleRequest).complete (World.respond (.calm 0 firstId [])) 0 sampleWorld
    AllOrNothing sampleWorld y.1 y.2.2 := by
  refine (request_all_or_nothing_iff (.calm 0 firstId []) sampleWorld (x := .otpCall sampleRequest)
    rfl).2 ?_
  rintro (⟨-, -, -, -, p, hp, h⟩ | ⟨-, h | ⟨-, -, h⟩, -⟩)
  · rcases List.mem_pair.1 hp with rfl | rfl <;> cases h
  · cases h
  · cases h

/-- The disk is full when the first line of the timeline is written: the request fails, its record
is queued, and no task will ever dial it. -/
theorem failed_request_strands_record :
    let e : Env := { Env.calm 0 firstId [] with
      fault := fun n => if n = 8 then some "database or disk is full" else none
      undoes := fun _ => true }
    let y := (sendOtpCall sampleRequest).complete (World.respond e) 0 sampleWorld
    y.1 = .error (.other "database or disk is full") ∧
      (y.2.2.store.calls.find firstId.text).map CallRecord.status = some .queued ∧
      sampleWorld.store.calls.find firstId.text = none ∧
      ¬ AllOrNothing sampleWorld y.1 y.2.2 := by
  intro e y
  have hy : y.1 = .error (.other "database or disk is full") ∧
      (y.2.2.store.calls.find firstId.text).map CallRecord.status = some .queued ∧
      sampleWorld.store.calls.find firstId.text = none := by
    decide +kernel
  refine ⟨hy.1, hy.2.1, hy.2.2, ?_⟩
  rintro (⟨response, row, n, hok, -⟩ | ⟨-, hsame⟩)
  · cases hy.1.symm.trans hok
  · rw [hsame, hy.2.2] at hy
    cases hy.2.1

end OtpVoice
