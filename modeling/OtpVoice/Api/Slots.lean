import OtpVoice.Api.Quota

/-!
# Slots

The notes of a thread about the capacity layer: passed checks, the slot taken and given back, the
entry into the `try` block, and exceptions of its commands. `active_add_released` reads the number
of active calls off the trace of a run. `slot_given_back_iff` says when `_execute_call` gives its
slot back, `active_le_iff` when the number of active calls stays within its bound, and
`active_within_capacity` what the capacity layer would have to ensure for that.
-/

set_option autoImplicit false

namespace OtpVoice

open Coroutine

/-- What is noted of slots: a passed capacity check, a slot taken or given back, the beginning of
the `try`, and an exception. -/
inductive SlotNote where
  | passed | acquired | released | entered | raised
  deriving DecidableEq

/-- The `try` block of `_execute_call` begins with the log line of `originate`. -/
def SlotNote.of : (c : Cmd) → Except Exc c.Resp → Option SlotNote
  | .checkConcurrentCapacity, .ok (true, _) => some .passed
  | .acquireSlot, _ => some .acquired
  | .releaseSlot, _ => some .released
  | .log _ _, _ => some .entered
  | _, .error _ => some .raised
  | _, .ok _ => none

/-- The note of an event. -/
def slotNote (ev : Ev) : Option SlotNote := SlotNote.of ev.cmd ev.res

/-- The notes of a thread. -/
def slotNotes (i : ℕ) (tr : List (ℕ × Ev)) : List SlotNote := (ownEvents i tr).filterMap slotNote

/-- A command of `_execute_call` has raised an exception before the `try` block. -/
def raisedBeforeTry (l : List SlotNote) : Prop := .raised ∈ l.takeWhile (· ≠ .entered)

instance (l : List SlotNote) : Decidable (raisedBeforeTry l) :=
  inferInstanceAs (Decidable (_ ∈ _))

/-- What every operation keeps of its notes. -/
def Op.KeepsSlots : Op → List SlotNote → Prop
  | .execute _, l => l.count .released ≤ l.count .acquired ∧ l.count .acquired ≤ 1
  | .input _, l => .acquired ∉ l ∧ .released ∉ l

/-- The notes of an operation that has ended. -/
def Op.EndsSlots : Op → Except Exc Answer → List SlotNote → Prop
  | .execute _, _, l =>
    l.count .acquired = 1 ∧ l.count .released = if raisedBeforeTry l then 0 else 1
  | .input x, .ok _, l => x.passive = false → .passed ∈ l
  | .input _, .error _, _ => True

/-! ## The notes of one thread -/

theorem SlotNote.of_ne {c : Cmd} (hc : c.kind ∉ [Kind.acquire, .release]) {r : Except Exc c.Resp}
    {x : SlotNote} (h : SlotNote.of c r = some x) : x ≠ .acquired ∧ x ≠ .released := by
  unfold SlotNote.of at h
  split at h <;> cases h <;> first
    | decide
    | exact absurd (by simp [Cmd.kind]) hc

/-- The note of an exception. -/
def SlotNote.ofOutcome {α : Type} : Except Exc α → Option SlotNote
  | .ok _ => none
  | .error _ => some .raised

theorem SlotNote.of_plain {c : Cmd}
    (hc : c.kind ∉ [Kind.capacity, .acquire, .release, .log]) (r : Except Exc c.Resp) :
    SlotNote.of c r = SlotNote.ofOutcome r := by
  unfold SlotNote.of
  split <;> first
    | rfl
    | exact absurd (by simp [Cmd.kind]) hc

section Noting

variable {α β : Type} {o : CallOriginator} {yields : Cmd → Bool}
variable {I K : List SlotNote → Prop} {post : Except Exc α → List SlotNote → Prop}
variable {l : List SlotNote}

/-- A part that neither takes nor gives back a slot keeps what other notes cannot change. -/
theorem noting_steady {ks : List Kind} {p : Prog α} (hp : Touches ks p)
    (hks : ks.all (fun k => k ∉ [Kind.acquire, .release]) = true)
    (hK : ∀ l x, K l → x ≠ .acquired → x ≠ .released → K (l ++ [x])) (hI : ∀ l, K l → I l)
    (hl : K l) : (otpService o yields).Noting slotNote I (fun _ l' => K l') p l := by
  refine Coro.Sat.of_uses (I := K) ?_ hp hl
  rintro l c r _ hc hl ⟨e, n, w, -, rfl⟩
  have hc' := of_decide_eq_true (List.all_eq_true.1 hks _ hc)
  have hl' : K (Service.note slotNote l ⟨e, n, c, r⟩) := by
    simp only [Service.note, slotNote]
    cases hx : SlotNote.of c r with
    | none => simpa using hl
    | some x => exact hK l x hl (SlotNote.of_ne hc' hx).1 (SlotNote.of_ne hc' hx).2
  exact ⟨hI _ hl', hl'⟩

/-- A part without handlers notes the exception with which it ends, and nothing else. -/
theorem noting_direct {ks : List Kind} {p : Prog α} (hp : Touches ks p) (hdirect : Coro.Direct p)
    (hks : ks.all (fun k => k ∉ [Kind.capacity, .acquire, .release, .log]) = true) (hl : I l)
    (hraised : I (l ++ [.raised])) :
    (otpService o yields).Noting slotNote I
      (fun r l' => l' = l ++ (SlotNote.ofOutcome r).toList) p l := by
  induction p with
  | done r =>
    obtain ⟨a, rfl⟩ := hdirect
    exact (List.append_nil l).symm
  | call c k ih =>
    have hc := of_decide_eq_true (List.all_eq_true.1 hks _ hp.1)
    rintro r _ ⟨e, n, w, -, rfl⟩
    simp only [Service.note, slotNote, SlotNote.of_plain hc r]
    cases r with
    | ok a =>
      simp only [SlotNote.ofOutcome, Option.toList_none, List.append_nil]
      exact ⟨hl, ih (.ok a) (hp.2 _) (hdirect.2 a)⟩
    | error x =>
      rw [hdirect.1 x]
      exact ⟨hraised, rfl⟩

theorem direct_addEvent (requestId : String) (event : EventName) (detail : Option String) :
    Coro.Direct (addEvent requestId event detail) :=
  (Coro.direct_perform _).bind fun _ => (Coro.direct_perform _).bind fun _ =>
    Coro.direct_perform _

theorem direct_updateCallStatus (requestId : String) (status : Status) (u : StatusFields) :
    Coro.Direct (updateCallStatus requestId status u) := by
  apply (Coro.direct_perform _).bind
  intro record
  match record with
  | none => exact Coro.direct_pure _
  | some record =>
    dsimp only
    split
    · exact Coro.direct_pure _
    · exact (Coro.direct_perform _).bind fun now => (Coro.direct_perform _).bind fun _ =>
        (Coro.direct_perform _).bind fun _ => Coro.direct_pure _

/-- The notes after the entry into the `try` block, as long as the slot is held. -/
def Held (l : List SlotNote) : Prop :=
  ∃ rest, l = .acquired :: .entered :: rest ∧ .acquired ∉ rest ∧ .released ∉ rest

theorem Held.concat {x : SlotNote} (h : Held l) (ha : x ≠ .acquired) (hr : x ≠ .released) :
    Held (l ++ [x]) := by
  obtain ⟨rest, rfl, hacquired, hreleased⟩ := h
  exact ⟨rest ++ [x], rfl, by simp [hacquired, ha.symm], by simp [hreleased, hr.symm]⟩

theorem Held.count (h : Held l) : l.count .acquired = 1 ∧ l.count .released = 0 := by
  obtain ⟨rest, rfl, hacquired, hreleased⟩ := h
  simp [List.count_eq_zero_of_not_mem hacquired, List.count_eq_zero_of_not_mem hreleased]

/-- The slot is given back after a `try` block that has been entered. -/
theorem Held.released (h : Held l) :
    (l ++ [SlotNote.released]).count .acquired = 1 ∧
      (l ++ [SlotNote.released]).count .released = 1 ∧
      ¬ raisedBeforeTry (l ++ [.released]) := by
  obtain ⟨hacquired, hreleased⟩ := h.count
  obtain ⟨rest, rfl, -, -⟩ := h
  refine ⟨by simpa using hacquired, by simpa using hreleased, ?_⟩
  simp [raisedBeforeTry]

theorem noting_executePrologue (task : CallTask) :
    (otpService o yields).Noting slotNote ((Op.execute task).KeepsSlots)
      (fun r l => l = [.acquired] ++ (SlotNote.ofOutcome r).toList) (executePrologue task) [] := by
  have hacquired : (Op.execute task).KeepsSlots [.acquired] := ⟨by decide, by decide⟩
  have hraised : (Op.execute task).KeepsSlots [.acquired, .raised] := ⟨by decide, by decide⟩
  have hacquire : (otpService o yields).Noting slotNote ((Op.execute task).KeepsSlots)
      (fun r l => l = [.acquired] ∧ r = .ok ()) acquireSlot [] := by
    refine Service.noting_perform fun e n w => ⟨hacquired, rfl, ?_⟩
    rfl
  refine hacquire.bind ?_ fun x l hl => by cases hl.2
  rintro _ _ ⟨rfl, -⟩
  have htouches : Touches (statusKinds ++ eventKinds)
      (updateCallStatus task.requestId .originating {} >>= fun _ =>
        addEvent task.requestId .originating none) :=
    ((touches_updateCallStatus _ _ _).mono (by decide)).bind fun _ =>
      (touches_addEvent _ _ _).mono (by decide)
  refine noting_direct htouches ?_ (by decide) hacquired hraised
  · exact (direct_updateCallStatus _ _ _).bind fun _ => direct_addEvent _ _ _

theorem keepsSlots_of_held (task : CallTask) (h : Held l) : (Op.execute task).KeepsSlots l := by
  obtain ⟨hacquired, hreleased⟩ := h.count
  exact ⟨hacquired ▸ hreleased ▸ Nat.zero_le 1, hacquired.le⟩

/-- The body of the `try` block enters it with its first command. -/
theorem noting_executeBody (task : CallTask) :
    (otpService o yields).Noting slotNote ((Op.execute task).KeepsSlots) (fun _ l => Held l)
      (executeBody o task) [.acquired] := by
  have htouches := touches_executeBody o task
  obtain ⟨level, line, k, hbody⟩ : ∃ level line k, executeBody o task = .call (.log level line) k :=
    ⟨_, _, _, rfl⟩
  rw [hbody] at htouches ⊢
  rintro r _ ⟨e, n, w, -, rfl⟩
  have hheld : Held [.acquired, .entered] := ⟨[], rfl, by simp, by simp⟩
  exact ⟨keepsSlots_of_held task hheld, noting_steady (htouches.2 r) (by decide)
    (fun l x h => h.concat) (fun l => keepsSlots_of_held task) hheld⟩

theorem noting_executeCall (task : CallTask) :
    (otpService o yields).Noting slotNote ((Op.execute task).KeepsSlots)
      (fun _ l => l.count .acquired = 1 ∧ l.count .released = if raisedBeforeTry l then 0 else 1)
      (executeCall o task) [] := by
  refine (noting_executePrologue task).bind ?_ ?_
  · rintro _ _ rfl
    refine Service.Noting.tryFinally (Q := fun _ => Held) (Service.Noting.tryCatch
      (noting_executeBody task) (fun _ _ h => h) fun e l hl => noting_steady
        (touches_executeHandler task e) (by decide) (fun l x h => h.concat)
        (fun l => keepsSlots_of_held task) hl) ?_
    intro r l hl
    obtain ⟨hacquired, hreleased, htry⟩ := hl.released
    have hrelease : (otpService o yields).Noting slotNote ((Op.execute task).KeepsSlots)
        (fun _ l' => l' = l ++ [.released]) releaseSlot l :=
      Service.noting_perform fun e n w =>
        ⟨⟨(hreleased.trans hacquired.symm).le, hacquired.le⟩, rfl⟩
    refine hrelease.bind ?_ ?_
    · rintro _ _ rfl
      exact ⟨hacquired, by rw [hreleased, if_neg htry]⟩
    · rintro _ _ rfl
      exact ⟨hacquired, by rw [hreleased, if_neg htry]⟩
  · rintro x _ rfl
    exact ⟨rfl, rfl⟩

/-- No slot taken or given back. -/
def Slotless (l : List SlotNote) : Prop := .acquired ∉ l ∧ .released ∉ l

theorem Slotless.concat {x : SlotNote} (h : Slotless l) (ha : x ≠ .acquired) (hr : x ≠ .released) :
    Slotless (l ++ [x]) :=
  ⟨by simp [h.1, ha.symm], by simp [h.2, hr.symm]⟩

theorem noting_slotless {ks : List Kind} {p : Prog α} (hp : Touches ks p)
    (hks : ks.all (fun k => k ∉ [Kind.acquire, .release]) = true) (hl : Slotless l) :
    (otpService o yields).Noting slotNote Slotless (fun _ l' => Slotless l') p l :=
  noting_steady hp hks (fun _ _ h => h.concat) (fun _ h => h) hl

/-- The rest of a request that the capacity layer has let through. -/
theorem noting_admitted {ks : List Kind} {p : Prog α} (hp : Touches ks p)
    (hks : ks.all (fun k => k ∉ [Kind.acquire, .release]) = true) (hl : Slotless l)
    (hpassed : .passed ∈ l) :
    (otpService o yields).Noting slotNote Slotless (fun _ l' => .passed ∈ l') p l := by
  refine (noting_steady (K := fun l => Slotless l ∧ .passed ∈ l) hp hks
    (fun l x h ha hr => ⟨h.1.concat ha hr, by simp [h.2]⟩) (fun _ h => h.1) ⟨hl, hpassed⟩).mono ?_
  exact fun _ _ h => h.2

theorem noting_checkCapacity (hl : Slotless l) :
    (otpService o yields).Noting slotNote Slotless
      (fun r l' => Slotless l' ∧ ∀ msg, r = .ok (true, msg) → .passed ∈ l')
      checkConcurrentCapacity l := by
  apply Service.noting_perform
  intro e n w
  generalize ((otpService o yields).respond e n w .checkConcurrentCapacity).1 = r
  have hpassed : Slotless (l ++ [.passed]) := hl.concat (by rintro ⟨⟩) (by rintro ⟨⟩)
  have hraised : Slotless (l ++ [.raised]) := hl.concat (by rintro ⟨⟩) (by rintro ⟨⟩)
  rcases r with x | ⟨_ | _, msg⟩
  · exact ⟨hraised, hraised, fun _ h => by cases h⟩
  · exact ⟨by simpa [slotNote, SlotNote.of] using hl, by simpa [slotNote, SlotNote.of] using hl,
      fun _ h => by cases h⟩
  · exact ⟨hpassed, hpassed, fun _ _ => List.mem_append_right _ (List.mem_singleton_self _)⟩

/-- A request that gets past the three layers has passed the capacity layer. -/
theorem noting_checkLimits_bind {mobile : String} {g : Unit → Prog α}
    (hg : ∀ u, Touches requestKinds (g u)) (hl : Slotless l) :
    (otpService o yields).Noting slotNote Slotless (fun r l' => ∀ a, r = .ok a → .passed ∈ l')
      (checkLimits mobile >>= g) l := by
  have hlimits : (otpService o yields).Noting slotNote Slotless
      (fun r l' => r = .ok () → Slotless l' ∧ .passed ∈ l') (checkLimits mobile) l := by
    refine (noting_checkCapacity hl).bind ?_ fun x _ _ h => by cases h
    rintro ⟨_ | _, msg⟩ l' ⟨hl', hpassed⟩
    · exact fun h => by cases h
    · -- the two other layers take no slot
      have hrest : ∀ {p : Prog Unit}, Touches [.hourly, .number] p →
          (otpService o yields).Noting slotNote Slotless
            (fun r l' => r = .ok () → Slotless l' ∧ .passed ∈ l') p l' := fun htouches =>
        (noting_steady (K := fun l => Slotless l ∧ .passed ∈ l) htouches (by decide)
          (fun l x h ha hr => ⟨h.1.concat ha hr, by simp [h.2]⟩) (fun _ h => h.1)
          ⟨hl', hpassed msg rfl⟩).mono fun _ _ h _ => h
      exact hrest (touches_issue_bind rfl fun _ => (touches_raiseUnless _ _).bind fun _ =>
        touches_issue_bind rfl fun _ => touches_raiseUnless _ _)
  refine hlimits.bind (fun u l' h => ?_) fun x _ _ _ h => by cases h
  exact (noting_admitted (hg u) (by decide) (h rfl).1 (h rfl).2).mono fun _ _ h _ _ => h

theorem noting_request {x : Input} (hx : x.passive = false) :
    (otpService o yields).Noting slotNote Slotless (fun r l => ∀ a, r = .ok a → .passed ∈ l)
      x.body [] := by
  have hnil : Slotless [] := ⟨by simp, by simp⟩
  cases x with
  | otpCall request =>
    exact noting_checkLimits_bind (fun _ =>
      ((touches_createCallRecord _ _ _ _).mono (by decide)).bind fun _ =>
        touches_issue_bind rfl fun _ => touches_pure _) hnil
  | retry requestId body =>
    refine (noting_slotless (touches_getCallRecord requestId) (by decide) hnil).bind
      (fun record l hl => ?_) fun x _ _ _ h => by cases h
    cases record with
    | none => exact fun _ h => by cases h
    | some record =>
      refine (noting_slotless (touches_nothing_raiseUnless _ _) (by decide) hl).bind
        (fun _ l hl => ?_) fun x _ _ _ h => by cases h
      refine (noting_slotless (touches_nothing_raiseUnless _ _) (by decide) hl).bind
        (fun _ l hl => ?_) fun x _ _ _ h => by cases h
      exact noting_checkLimits_bind (fun _ =>
        ((touches_createCallRecord _ _ _ _).mono (by decide)).bind fun _ =>
          ((touches_incrementRetry _).mono (by decide)).bind fun _ =>
            touches_issue_bind rfl fun _ => touches_pure _) hl
  | _ => cases hx

/-- The notes of every operation. -/
theorem slot_notes (op : Op) :
    (otpService o yields).Noting slotNote op.KeepsSlots op.EndsSlots (op.body o) [] := by
  cases op with
  | execute task =>
    refine (noting_executeCall task).bind (fun _ _ h => h) fun _ _ h => h
  | input x =>
    cases hx : x.passive with
    | true =>
      refine (noting_slotless (touches_passive hx) (by decide)
        (l := []) ⟨by simp, by simp⟩).mono ?_
      rintro (_ | _) l -
      · trivial
      · exact fun h => by cases hx.symm.trans h
    | false =>
      apply (noting_request hx).mono
      rintro (_ | answer) l h
      · trivial
      · exact fun _ => h answer rfl

theorem Op.keepsSlots_nil (op : Op) : op.KeepsSlots [] := by
  cases op with
  | execute task => exact ⟨le_rfl, Nat.zero_le 1⟩
  | input x => exact ⟨by simp, by simp⟩

end Noting

/-! ## Active calls along a run -/

/-- An event with the given note. -/
def noted (x : SlotNote) (ev : Ev) : Bool := slotNote ev = some x

theorem countP_noted (x : SlotNote) (i : ℕ) (tr : List (ℕ × Ev)) :
    (ownEvents i tr).countP (noted x) = (slotNotes i tr).count x := by
  rw [slotNotes, List.count, List.countP_filterMap]
  apply List.countP_congr
  intro ev _
  simp only [noted]
  cases slotNote ev <;> simp

/-- The number of events of a trace with the given note. -/
def tally (x : SlotNote) (tr : List (ℕ × Ev)) : ℕ := tr.countP fun y => noted x y.2

theorem tally_concat (x : SlotNote) (tr : List (ℕ × Ev)) (i : ℕ) (ev : Ev) :
    tally x (tr ++ [(i, ev)]) = tally x tr + if slotNote ev = some x then 1 else 0 := by
  simp [tally, List.countP_append, List.countP_singleton, noted]

theorem tally_eq_sum {n : ℕ} {tr : List (ℕ × Ev)} (h : ∀ y ∈ tr, y.1 < n) (x : SlotNote) :
    tally x tr = ∑ i ∈ Finset.range n, (slotNotes i tr).count x := by
  rw [tally, Service.countP_trace (noted x) h]
  exact Finset.sum_congr rfl fun i _ => countP_noted x i tr

theorem activeCount_onLimiter {c : Cmd} (hc : c.kind ∉ [Kind.acquire, .release]) (now : Time)
    (rl : RateLimiter) : (c.onLimiter now rl).activeCount = rl.activeCount := by
  cases c with
  | checkHourlyLimit =>
    simp only [Cmd.onLimiter, RateLimiter.checkHourlyLimit]
    split <;> rfl
  | checkNumberLimit mobile =>
    simp only [Cmd.onLimiter, RateLimiter.checkNumberLimit]
    split
    · split <;> rfl
    · rfl
  | acquireSlot => simp [Cmd.kind] at hc
  | releaseSlot => simp [Cmd.kind] at hc
  | _ => rfl

theorem activeCount_releaseSlot (rl : RateLimiter) :
    rl.releaseSlot.activeCount = rl.activeCount - 1 := by
  unfold RateLimiter.releaseSlot
  split
  · rfl
  · omega

section Runs

variable (o : CallOriginator) (yields : Cmd → Bool) (w₀ : World) (acts : List Turn)

variable {yields w₀ acts} in
/-- No thread gives back more than it has taken. -/
theorem count_released_le {pre suf : List (ℕ × Ev)}
    (h : ((otpService o yields).run (Config.initial w₀) acts).trace = pre ++ suf) {i : ℕ}
    (hi : i < ((otpService o yields).run (Config.initial w₀) acts).threads.length) :
    (slotNotes i pre).count .released ≤ (slotNotes i pre).count .acquired := by
  obtain ⟨⟨op, p⟩, ht⟩ :
      ∃ t, ((otpService o yields).run (Config.initial w₀) acts).threads[i]? = some t :=
    ⟨_, List.getElem?_eq_getElem hi⟩
  have hkeeps : op.KeepsSlots (slotNotes i pre) := Service.run_noting_prefix slot_notes w₀ acts
    Op.keepsSlots_nil (Config.opOf_eq_some_iff.2 ⟨p, ht⟩) h
  cases op with
  | execute task => exact hkeeps.1
  | input x => exact (List.count_eq_zero_of_not_mem hkeeps.2).trans_le (Nat.zero_le _)

theorem released_le_acquired {pre suf : List (ℕ × Ev)}
    (h : ((otpService o yields).run (Config.initial w₀) acts).trace = pre ++ suf) :
    tally .released pre ≤ tally .acquired pre := by
  have hown : ∀ y ∈ pre,
      y.1 < ((otpService o yields).run (Config.initial w₀) acts).threads.length := by
    intro y hy
    exact (otpService o yields).run_owners w₀ acts y (h ▸ List.mem_append_left _ hy)
  rw [tally_eq_sum hown, tally_eq_sum hown]
  apply Finset.sum_le_sum
  intro i hi
  exact count_released_le o h (Finset.mem_range.1 hi)

/-- The number of active calls is the number of slots taken and not given back. -/
theorem active_add_released (hw₀ : w₀.limiter.activeCount = 0) {pre suf : List (ℕ × Ev)}
    (h : ((otpService o yields).run (Config.initial w₀) acts).trace = pre ++ suf) :
    ((otpService o yields).replay w₀ pre).limiter.activeCount + tally .released pre =
      tally .acquired pre := by
  refine (otpService o yields).run_prefix_induction
    (P := fun pre w => w.limiter.activeCount + tally .released pre = tally .acquired pre)
    hw₀ ?_ h
  intro pre i ev suf hsplit _ ih
  have hle := released_le_acquired o yields w₀ acts (hsplit.trans (List.append_cons _ _ _))
  have hlimiter : ((otpService o yields).respond ev.env ev.index
      ((otpService o yields).replay w₀ pre) ev.cmd).2.limiter = _ := World.respond_limiter _ _ _ _
  rw [hlimiter]
  rw [tally_concat, tally_concat] at hle ⊢
  obtain ⟨e, n, c, r⟩ := ev
  by_cases hc : c.kind ∈ [Kind.acquire, .release]
  · cases c with
    | acquireSlot =>
      simp only [slotNote, SlotNote.of, Cmd.onLimiter, RateLimiter.acquireSlot] at hle ⊢
      simp only [reduceCtorEq, if_true, if_false, Option.some.injEq] at hle ⊢
      omega
    | releaseSlot =>
      simp only [slotNote, SlotNote.of, Cmd.onLimiter, activeCount_releaseSlot] at hle ⊢
      simp only [reduceCtorEq, if_true, if_false, Option.some.injEq] at hle ⊢
      omega
    | execute s => cases s <;> simp [Cmd.kind, Stmt.kind] at hc
    | _ => simp [Cmd.kind] at hc
  · have hno : ∀ x, slotNote ⟨e, n, c, r⟩ = some x → x ≠ .acquired ∧ x ≠ .released :=
      fun x => SlotNote.of_ne hc
    rw [activeCount_onLimiter hc, if_neg fun h => (hno _ h).2 rfl, if_neg fun h => (hno _ h).1 rfl]
    exact ih

/-! ## The slot of a background task -/

/-- No background task is in progress: each has ended or not yet begun. -/
def Idle (s : Conf) : Prop :=
  ∀ i task, s.opOf i = some (.execute task) → ownEvents i s.trace = [] ∨ ∃ r,
    s.outcome i = some (.execute task, r)

theorem slotNotes_ended {i : ℕ} {task : CallTask} {r : Except Exc Answer}
    (hi : ((otpService o yields).run (Config.initial w₀) acts).outcome i =
      some (.execute task, r)) :
    let l := slotNotes i ((otpService o yields).run (Config.initial w₀) acts).trace
    l.count .acquired = 1 ∧ l.count .released = if raisedBeforeTry l then 0 else 1 :=
  Service.run_noting_ended slot_notes w₀ acts hi

/-- Every `_execute_call` that has ended gives its slot back exactly once if and only if no awaited
operation before its `try` block raised, and a service without a call in progress has no active call
if and only if this is so for all calls before. -/
theorem slot_given_back_iff (o : CallOriginator) (yields : Cmd → Bool) (w₀ : World)
    (acts : List Turn) (hw₀ : w₀.limiter.activeCount = 0) :
    let s := (otpService o yields).run (Config.initial w₀) acts
    (∀ i task r, s.outcome i = some (.execute task, r) →
      (slotNotes i s.trace).count .acquired = 1 ∧
        ((slotNotes i s.trace).count .released = 1 ↔ ¬ raisedBeforeTry (slotNotes i s.trace))) ∧
    (Idle s → (s.world.limiter.activeCalls = 0 ↔ ∀ i task r,
      s.outcome i = some (.execute task, r) → ¬ raisedBeforeTry (slotNotes i s.trace))) := by
  intro s
  have hended : ∀ i task r, s.outcome i = some (.execute task, r) →
      (slotNotes i s.trace).count .acquired = 1 ∧
        ((slotNotes i s.trace).count .released = 1 ↔ ¬ raisedBeforeTry (slotNotes i s.trace)) := by
    intro i task r hi
    obtain ⟨hacquired, hreleased⟩ := slotNotes_ended o yields w₀ acts hi
    refine ⟨hacquired, ?_⟩
    rw [hreleased]
    exact ite_eq_right_iff.trans ⟨fun h hr => Nat.zero_ne_one (h hr), fun h hr => absurd hr h⟩
  refine ⟨hended, fun hidle => ?_⟩
  have hown : ∀ y ∈ s.trace, y.1 < s.threads.length := (otpService o yields).run_owners w₀ acts
  have hactive : s.world.limiter.activeCount + tally .released s.trace =
      tally .acquired s.trace := by
    rw [Service.run_world]
    exact active_add_released o yields w₀ acts hw₀ (List.append_nil _).symm
  rw [tally_eq_sum hown, tally_eq_sum hown] at hactive
  -- each thread has given back what it has taken, unless it raised before the `try` block
  have hthread : ∀ i ∈ Finset.range s.threads.length,
      (slotNotes i s.trace).count .released ≤ (slotNotes i s.trace).count .acquired ∧
        ((slotNotes i s.trace).count .released = (slotNotes i s.trace).count .acquired ↔
          ∀ task r, s.outcome i = some (.execute task, r) →
            ¬ raisedBeforeTry (slotNotes i s.trace)) := by
    intro i hi
    obtain ⟨⟨op, p⟩, ht⟩ : ∃ t, s.threads[i]? = some t :=
      ⟨_, List.getElem?_eq_getElem (Finset.mem_range.1 hi)⟩
    have hop : s.opOf i = some op := Config.opOf_eq_some_iff.2 ⟨p, ht⟩
    cases op with
    | execute task =>
      rcases hidle i task hop with hnil | ⟨r, hr⟩
      · have hnotes : slotNotes i s.trace = [] := by rw [slotNotes, hnil]; rfl
        simp [hnotes, raisedBeforeTry]
      · obtain ⟨hacquired, hiff⟩ := hended i task r hr
        obtain ⟨-, hreleased⟩ := slotNotes_ended o yields w₀ acts hr
        refine ⟨?_, ?_⟩
        · rw [hacquired, hreleased]
          split <;> simp
        · rw [hacquired, hiff]
          refine ⟨fun h _ _ _ => h, fun h => h task r hr⟩
    | input x =>
      obtain ⟨hacquired, hreleased⟩ : Slotless (slotNotes i s.trace) :=
        Service.run_noting_prefix slot_notes w₀ acts Op.keepsSlots_nil hop (List.append_nil _).symm
      rw [List.count_eq_zero_of_not_mem hacquired, List.count_eq_zero_of_not_mem hreleased]
      refine ⟨le_rfl, iff_of_true rfl fun task r hr => ?_⟩
      rw [Config.outcome_eq_some_iff, ht] at hr
      cases hr
  have hsum := Finset.sum_eq_sum_iff_of_le fun i hi => (hthread i hi).1
  have hzero : s.world.limiter.activeCalls = 0 ↔
      ∑ i ∈ Finset.range s.threads.length, (slotNotes i s.trace).count .released =
        ∑ i ∈ Finset.range s.threads.length, (slotNotes i s.trace).count .acquired := by
    rw [← hactive, RateLimiter.activeCalls]
    omega
  rw [hzero, hsum]
  refine ⟨fun h i task r hi => ?_, fun h i hi => (hthread i hi).2.2 fun task r hr => h i task r hr⟩
  have hlt : i < s.threads.length :=
    (List.getElem?_eq_some_iff.1 (Config.outcome_eq_some_iff.1 hi)).1
  exact (hthread i (Finset.mem_range.2 hlt)).2.1 (h i (Finset.mem_range.2 hlt)) task r hi

end Runs

/-- A turn in which the database refuses the `n`-th command. -/
def Env.faulty (now : Time) (uuid : Uuid4) (n : ℕ) (text : String) : Env :=
  { Env.calm now uuid [success] with fault := fun k => if k = n then some text else none }

/-- A call whose task meets a database error before its `try` block. -/
def leakRun : List Turn := oneCallRun ++ [.turn 1 (.faulty 7 firstId 1 "disk I/O error")]

/-- The task of the call in `leakRun`. -/
def leakedTask : CallTask := ⟨firstId.text, "09120000000", "1234", 2⟩

theorem slot_given_back_iff_leak :
    let s := (interleaved sampleOriginator).run (Config.initial sampleWorld) leakRun
    ((slotNotes 1 s.trace).count .released = 1 ↔ ¬ raisedBeforeTry (slotNotes 1 s.trace)) ∧
      (s.world.limiter.activeCalls = 0 ↔ ∀ i task r,
        s.outcome i = some (.execute task, r) → ¬ raisedBeforeTry (slotNotes i s.trace)) := by
  intro s
  obtain ⟨hended, hidle⟩ := slot_given_back_iff sampleOriginator Cmd.awaited sampleWorld leakRun rfl
  have htask : s.outcome 1 = some (.execute leakedTask, .error (.other "disk I/O error")) := by
    decide +kernel
  refine ⟨(hended 1 _ _ htask).2, hidle fun i task hi => ?_⟩
  have hlength : s.threads.length = 2 := by decide +kernel
  have hinput : s.opOf 0 = some (.input (.otpCall sampleRequest)) := by decide +kernel
  match i with
  | 0 => cases hinput.symm.trans hi
  | 1 =>
    obtain ⟨p, hp⟩ := Config.opOf_eq_some_iff.1 hi
    cases (Config.outcome_eq_some_iff.1 htask).symm.trans hp
    exact .inr ⟨_, htask⟩
  | i + 2 =>
    obtain ⟨p, hp⟩ := Config.opOf_eq_some_iff.1 hi
    have hlt : i + 2 < s.threads.length := (List.getElem?_eq_some_iff.1 hp).1
    omega

/-- The task has ended with an exception, and its slot is taken for ever. -/
theorem prologue_exception_leaks_slot :
    let s := (interleaved sampleOriginator).run (Config.initial sampleWorld) leakRun
    s.threads.length = 2 ∧
      s.outcome 0 = some (.input (.otpCall sampleRequest),
        .ok (.accepted ⟨firstId.text, .queued, 5⟩ [leakedTask])) ∧
      s.outcome 1 = some (.execute leakedTask, .error (.other "disk I/O error")) ∧
      (slotNotes 1 s.trace).count .acquired = 1 ∧ (slotNotes 1 s.trace).count .released = 0 ∧
      s.world.limiter.activeCalls = 1 := by
  decide +kernel

/-! ## The bound on active calls -/

/-- What `/health` reports when the bound on active calls is kept. -/
def RateLimiter.WithinCapacity (rl : RateLimiter) : Prop :=
  rl.activeCalls ≤ rl.maxConcurrent ∧ rl.activeCalls + rl.availableChannels = rl.maxConcurrent

theorem RateLimiter.withinCapacity_iff (rl : RateLimiter) :
    rl.WithinCapacity ↔ rl.activeCount ≤ rl.maxConcurrent := by
  unfold WithinCapacity activeCalls availableChannels
  omega

theorem RateLimiter.checkConcurrentCapacity_iff (rl : RateLimiter) :
    rl.checkConcurrentCapacity.1 = true ↔ rl.activeCount < rl.maxConcurrent := by
  unfold checkConcurrentCapacity
  split
  · simpa
  · rename_i h
    simpa using h

/-- The request of thread `i` has been let through and has failed before the events `suf`. -/
def droppedBy (s : Conf) (suf : List (ℕ × Ev)) (i : ℕ) : Bool :=
  match s.outcome i with
  | some (_, .error _) => (ownEvents i suf).isEmpty
  | _ => false

/-- The number of requests let through that have failed before the events `suf`. -/
def dropped (s : Conf) (suf : List (ℕ × Ev)) : ℕ :=
  ∑ i ∈ Finset.range s.threads.length,
    if droppedBy s suf i then (slotNotes i s.trace).count .passed else 0

/-- After the events `pre` and before `suf`: the requests let through that have neither failed nor
taken a slot. -/
def underway (s : Conf) (pre suf : List (ℕ × Ev)) : ℤ :=
  tally .passed pre - tally .acquired pre - dropped s suf

/-- The capacity layer lets a request through only if there is room for it besides the active calls
and the requests underway. -/
def Reserves (w₀ : World) (o : CallOriginator) (yields : Cmd → Bool) (s : Conf) : Prop :=
  ∀ pre x suf, s.trace = pre ++ x :: suf → slotNote x.2 = some .passed →
    ((otpService o yields).replay w₀ pre).limiter.activeCount + underway s pre (x :: suf) <
      w₀.limiter.maxConcurrent

instance (w₀ : World) (o : CallOriginator) (yields : Cmd → Bool) (s : Conf) :
    Decidable (Reserves w₀ o yields s) :=
  decidable_of_iff' _ Service.forall_split_iff

theorem droppedBy_cons {s : Conf} {x : ℕ × Ev} {suf : List (ℕ × Ev)} {i : ℕ}
    (h : droppedBy s (x :: suf) i = true) : droppedBy s suf i = true := by
  unfold droppedBy at h ⊢
  split at h
  · simp only [ownEvents, List.isEmpty_iff, List.map_eq_nil_iff, List.filter_eq_nil_iff] at h ⊢
    exact fun y hy => h y (List.mem_cons_of_mem _ hy)
  · cases h

/-- A failed request stays failed. -/
theorem dropped_cons_le (s : Conf) (x : ℕ × Ev) (suf : List (ℕ × Ev)) :
    dropped s (x :: suf) ≤ dropped s suf := by
  apply Finset.sum_le_sum
  intro i _
  split
  · rename_i h
    rw [if_pos (droppedBy_cons h)]
  · exact Nat.zero_le _

section Runs

variable (o : CallOriginator) (yields : Cmd → Bool) (w₀ : World) (acts : List Turn)

/-- The active calls stay within their bound if and only if each slot is taken in a state in which
the capacity check would still pass. -/
theorem active_le_iff (hw₀ : w₀.limiter.activeCount = 0) :
    let s := (otpService o yields).run (Config.initial w₀) acts
    (∀ pre suf, s.trace = pre ++ suf →
      ((otpService o yields).replay w₀ pre).limiter.WithinCapacity) ↔
    ∀ pre (i : ℕ) ev suf, s.trace = pre ++ (i, ev) :: suf → ev.cmd = .acquireSlot →
      ((otpService o yields).replay w₀ pre).limiter.checkConcurrentCapacity.1 = true := by
  intro s
  simp only [RateLimiter.withinCapacity_iff, RateLimiter.checkConcurrentCapacity_iff]
  have hstep : ∀ pre (x : ℕ × Ev), ((otpService o yields).replay w₀ (pre ++ [x])).limiter =
      x.2.cmd.onLimiter (x.2.env.now x.2.index) ((otpService o yields).replay w₀ pre).limiter := by
    intro pre x
    rw [Service.replay_concat]
    exact World.respond_limiter _ _ _ _
  constructor
  · intro hwithin pre i ev suf hsplit hcmd
    have hafter := hwithin (pre ++ [(i, ev)]) suf (by simpa using hsplit)
    rw [hstep, hcmd] at hafter
    exact hafter
  · intro hpasses pre
    induction pre using List.reverseRecOn with
    | nil => exact fun _ _ => hw₀.trans_le (Nat.zero_le _)
    | append_singleton pre x ih =>
      intro suf hsplit
      obtain ⟨i, ev⟩ := x
      have hsplit : s.trace = pre ++ (i, ev) :: suf := by simpa using hsplit
      have hbefore := ih _ hsplit
      have hmax : ((otpService o yields).replay w₀ (pre ++ [(i, ev)])).limiter.maxConcurrent =
          ((otpService o yields).replay w₀ pre).limiter.maxConcurrent := by
        have h := (settings_replay o yields w₀ (pre ++ [(i, ev)])).trans
          (settings_replay o yields w₀ pre).symm
        simp only [RateLimiter.settings, Prod.mk.injEq] at h
        exact h.2.2.1
      rw [hmax, hstep]
      by_cases hc : ev.cmd.kind ∈ [Kind.acquire, .release]
      · obtain ⟨e, n, c, r⟩ := ev
        cases c with
        | acquireSlot => exact hpasses pre i _ suf hsplit rfl
        | releaseSlot =>
          show (RateLimiter.releaseSlot _).activeCount ≤ _
          rw [activeCount_releaseSlot]
          exact (Nat.sub_le _ _).trans hbefore
        | execute s => cases s <;> simp [Cmd.kind, Stmt.kind] at hc
        | _ => simp [Cmd.kind] at hc
      · rw [activeCount_onLimiter hc]
        exact hbefore

/-- Each slot taken and each request dropped belongs to a request of its own that has been let
through. -/
theorem acquired_add_dropped_le :
    let s := (otpService o yields).run (Config.initial w₀) acts
    tally .acquired s.trace + dropped s [] ≤ tally .passed s.trace := by
  intro s
  have hown : ∀ y ∈ s.trace, y.1 < s.threads.length := (otpService o yields).run_owners w₀ acts
  have hthread : ∀ i ∈ Finset.range s.threads.length, ∃ op p, s.threads[i]? = some ⟨op, p⟩ := by
    intro i hi
    exact ⟨_, _, List.getElem?_eq_getElem (Finset.mem_range.1 hi)⟩
  have hacquired : tally .acquired s.trace ≤ Service.total (Service.counted Op.isExecute) s := by
    rw [tally_eq_sum hown, Service.total_eq_sum_range]
    apply Finset.sum_le_sum
    intro i hi
    obtain ⟨op, p, ht⟩ := hthread i hi
    have hkeeps : op.KeepsSlots (slotNotes i s.trace) := Service.run_noting_prefix slot_notes w₀
      acts Op.keepsSlots_nil (Config.opOf_eq_some_iff.2 ⟨p, ht⟩) (List.append_nil _).symm
    rw [ht, Option.map_some, Option.getD_some]
    cases op with
    | execute task => exact hkeeps.2
    | input x => exact (List.count_eq_zero_of_not_mem hkeeps.1).le
  have hscheduled : Service.total (Service.counted Op.isExecute) s ≤
      Service.total ((otpService o yields).scheduled Op.isExecute) s :=
    (otpService o yields).run_scheduled (fun _ => rfl) w₀ acts
  refine (Nat.add_le_add_right (hacquired.trans hscheduled) _).trans ?_
  rw [tally_eq_sum hown, Service.total_eq_sum_range, dropped, ← Finset.sum_add_distrib]
  apply Finset.sum_le_sum
  intro i hi
  obtain ⟨op, p, ht⟩ := hthread i hi
  rw [ht, Option.map_some, Option.getD_some]
  cases p with
  | call c k => simp [Service.scheduled, droppedBy, Config.outcome, ht]
  | done r =>
    have houtcome : s.outcome i = some (op, r) := Config.outcome_eq_some_iff.2 ht
    cases r with
    | error x =>
      simp only [Service.scheduled, Nat.zero_add]
      split
      · exact le_rfl
      · exact Nat.zero_le _
    | ok answer =>
      simp only [droppedBy, houtcome, Bool.false_eq_true, if_false, Nat.add_zero,
        Service.scheduled]
      refine List.countP_le_length.trans ?_
      rw [otpService, List.length_map]
      obtain hnone | ⟨x, task, -, -, -, -, rfl, hx, htask, -⟩ := Op.Accepts.tasks
        (Service.run_noting_ended admission_notes w₀ acts houtcome)
      · rw [hnone]
        exact Nat.zero_le _
      · -- the request whose task is scheduled has passed the check
        have hends : x.passive = false → SlotNote.passed ∈ slotNotes i s.trace :=
          Service.run_noting_ended slot_notes w₀ acts houtcome
        rw [htask]
        exact List.one_le_count_iff.2 (hends hx)

/-- The requests let through are covered by the capacity and by what has been given back or dropped.
The induction is on the events so far. -/
theorem passed_le_of_reserves (hw₀ : w₀.limiter.activeCount = 0)
    (h : Reserves w₀ o yields ((otpService o yields).run (Config.initial w₀) acts))
    {pre suf : List (ℕ × Ev)}
    (hs : ((otpService o yields).run (Config.initial w₀) acts).trace = pre ++ suf) :
    tally .passed pre ≤ w₀.limiter.maxConcurrent + tally .released pre +
      dropped ((otpService o yields).run (Config.initial w₀) acts) suf := by
  induction pre using List.reverseRecOn generalizing suf with
  | nil => exact Nat.zero_le _
  | append_singleton pre x ih =>
    obtain ⟨i, ev⟩ := x
    have hsplit : ((otpService o yields).run (Config.initial w₀) acts).trace =
        pre ++ (i, ev) :: suf := by simpa using hs
    have hdropped := dropped_cons_le
      ((otpService o yields).run (Config.initial w₀) acts) (i, ev) suf
    have hbefore := ih hsplit
    rw [tally_concat, tally_concat]
    by_cases hpassed : slotNote ev = some .passed
    · have hroom := h pre (i, ev) suf hsplit hpassed
      have hactive := active_add_released o yields w₀ acts hw₀ hsplit
      simp only [underway] at hroom
      rw [if_pos hpassed]
      omega
    · rw [if_neg hpassed]
      omega

/-- The bound on active calls is kept in a run if and only if each slot is taken in a state in which
the capacity check passes; it is enough that the capacity layer counts the requests underway. -/
theorem active_within_capacity (o : CallOriginator) (yields : Cmd → Bool) (w₀ : World)
    (acts : List Turn) (hw₀ : w₀.limiter.activeCount = 0) :
    let s := (otpService o yields).run (Config.initial w₀) acts
    ((∀ pre suf, s.trace = pre ++ suf →
        ((otpService o yields).replay w₀ pre).limiter.WithinCapacity) ↔
      ∀ pre (i : ℕ) ev suf, s.trace = pre ++ (i, ev) :: suf → ev.cmd = .acquireSlot →
        ((otpService o yields).replay w₀ pre).limiter.checkConcurrentCapacity.1 = true) ∧
    (Reserves w₀ o yields s → s.world.limiter.WithinCapacity) := by
  intro s
  refine ⟨active_le_iff o yields w₀ acts hw₀, fun hreserves => ?_⟩
  have hpassed : tally .passed s.trace ≤
      w₀.limiter.maxConcurrent + tally .released s.trace + dropped s [] :=
    passed_le_of_reserves o yields w₀ acts hw₀ hreserves (List.append_nil _).symm
  have hacquired : tally .acquired s.trace + dropped s [] ≤ tally .passed s.trace :=
    acquired_add_dropped_le o yields w₀ acts
  have hworld : s.world = (otpService o yields).replay w₀ s.trace := Service.run_world _ _ _
  have hactive : s.world.limiter.activeCount + tally .released s.trace =
      tally .acquired s.trace := by
    rw [hworld]
    exact active_add_released o yields w₀ acts hw₀ (List.append_nil _).symm
  have hsettings := settings_replay o yields w₀ s.trace
  simp only [RateLimiter.settings, Prod.mk.injEq] at hsettings
  rw [RateLimiter.withinCapacity_iff]
  have hmax : s.world.limiter.maxConcurrent = w₀.limiter.maxConcurrent :=
    hworld ▸ hsettings.2.2.1
  omega

end Runs

/-- A service with a single channel. -/
def oneChannel : World := .startup 3 10 1 500

/-- A call whose task has taken its slot. -/
def heldRun : List Turn := oneCallRun ++ [.turn 1 (.calm 7 firstId [])]

theorem active_within_capacity_held :
    let s := (interleaved sampleOriginator).run (Config.initial oneChannel) heldRun
    s.world.limiter.activeCalls = 1 ∧ s.world.limiter.WithinCapacity :=
  ⟨by decide +kernel, (active_within_capacity sampleOriginator Cmd.awaited oneChannel heldRun
    rfl).2 (by decide +kernel)⟩

/-- Two requests that pass the capacity layer before either of them has taken a slot. -/
def raceRun : List Turn :=
  .arrive (.otpCall sampleRequest) :: oneCallRun ++
    (([0, 1, 2, 3, 4, 5, 6] : List ℕ).map fun now => .turn 1 (.calm now secondId [])) ++
    [.turn 2 (.calm 7 firstId []), .turn 3 (.calm 7 firstId [])]

theorem two_calls_on_one_channel :
    let s := (interleaved sampleOriginator).run (Config.initial oneChannel) raceRun
    s.world.limiter.activeCalls = 2 ∧ s.world.limiter.maxConcurrent = 1 ∧
      s.world.limiter.activeCalls + s.world.limiter.availableChannels = 2 := by
  decide +kernel

end OtpVoice
