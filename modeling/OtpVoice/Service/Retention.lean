import OtpVoice.Service.Timeline

/-!
# How long a code is kept

Nothing but the cleanup deletes a record, and with it the code. Both the times that it compares are
readings of the same clock: a creation writes one into the new row, and a pass of the cleanup binds
one in its `DELETE`. In between each of the two keeps the event loop (`dated_at`), so that a clock
that does not go back orders the rows and the passes: after a pass no row is left that had expired
at its reading, and none comes up again, however the passes, requests and handlers interleave
(`expired_codes_are_gone`).
-/

set_option autoImplicit false

namespace OtpVoice

open Coroutine

/-! ## The readings before an `INSERT` and a `DELETE` -/

/-- What a thread notes of each of its commands. -/
inductive DatingNote where
  | reading (t : Time)
  | inserted (row : CallRecord)
  | purged (t : Time)
  | other

/-- The note of a command with its answer. -/
def DatingNote.of : (c : Cmd) → Except Exc c.Resp → DatingNote
  | .time, .ok t => .reading t
  | .execute (.insertCall row), _ => .inserted row
  | .execute (.deleteExpired t), _ => .purged t
  | _, _ => .other

/-- The note of an event. -/
def datingNote (ev : Ev) : Option DatingNote := some (.of ev.cmd ev.res)

/-- The last command before an `INSERT` or a `DELETE` reads the clock, and gives the time in it. -/
def Dated (l : List DatingNote) : DatingNote → Prop
  | .inserted row => l.getLast? = some (.reading row.createdAt) ∧
    row.expiresAt = row.createdAt + ttlSeconds
  | .purged t => l.getLast? = some (.reading t)
  | _ => True

section Noting

variable {α β : Type} {o : CallOriginator} {yields : Cmd → Bool} {l : List DatingNote}

/-- A part keeps its notes dated. -/
abbrev Dates (o : CallOriginator) (yields : Cmd → Bool)
    (post : Except Exc α → List DatingNote → Prop) (p : Prog α) (l : List DatingNote) : Prop :=
  (otpService o yields).Noting datingNote (Service.Justified Dated) post p l

theorem dated_of_kind {c : Cmd} (hc : c.kind ∉ [Kind.insertCall, .delete])
    (r : Except Exc c.Resp) (l : List DatingNote) : Dated l (.of c r) := by
  cases hnote : DatingNote.of c r with
  | inserted row | purged t =>
    unfold DatingNote.of at hnote
    split at hnote <;> cases hnote
    exact absurd (by simp [Cmd.kind, Stmt.kind]) hc
  | _ => trivial

/-- A part that neither inserts nor deletes. -/
theorem dates_of_touches {ks : List Kind} {p : Prog α} (hp : Touches ks p)
    (hks : ks.all (fun k => k ∉ [Kind.insertCall, .delete]) = true)
    (hl : Service.Justified Dated l) :
    Dates o yields (fun _ l' => Service.Justified Dated l') p l := by
  refine Coro.Sat.of_uses (I := Service.Justified Dated) ?_ hp hl
  rintro l₁ c r _ hc hl₁ ⟨e, n, w, -, rfl⟩
  have hl₂ := hl₁.concat
    (dated_of_kind (of_decide_eq_true (List.all_eq_true.1 hks _ hc)) r l₁)
  exact ⟨hl₂, hl₂⟩

/-- The parts of a coroutine, one after the other. -/
theorem dates_bind {p : Prog β} {g : β → Prog α}
    (hp : Dates o yields (fun _ l' => Service.Justified Dated l') p l)
    (hg : ∀ b l', Service.Justified Dated l' →
      Dates o yields (fun _ l'' => Service.Justified Dated l'') (g b) l') :
    Dates o yields (fun _ l' => Service.Justified Dated l') (p >>= g) l :=
  hp.bind hg fun _ _ h => h

/-- A reading, and a statement that may rest on it. -/
theorem dates_time_execute {s : Time → Stmt} {g : (t : Time) → (s t).Result → Prog α}
    (hl : Service.Justified Dated l)
    (hs : ∀ t r, Dated (l ++ [.reading t]) (.of (.execute (s t)) r))
    (hg : ∀ t a l', Service.Justified Dated l' →
      Dates o yields (fun _ l'' => Service.Justified Dated l'') (g t a) l') :
    Dates o yields (fun _ l' => Service.Justified Dated l')
      (time >>= fun t => execute (s t) >>= g t) l := by
  have hread : Dates o yields (fun r l' => Service.Justified Dated l' ∧
      ∀ t, r = .ok t → l' = l ++ [.reading t]) time l := by
    apply Service.noting_perform
    intro e n w
    have hanswer : (otpService o yields).respond e n w .time = (.ok (e.now n), w) :=
      World.respond_of_not_mayRaise rfl
    have hnoted : Service.Justified Dated (l ++ [.reading (e.now n)]) := hl.concat trivial
    rw [hanswer]
    exact ⟨hnoted, hnoted, fun t ht => by rw [← Except.ok.inj ht]; rfl⟩
  refine hread.bind (fun t l₁ ⟨h₁, heq⟩ => ?_) fun x l₁ h₁ => h₁.1
  obtain rfl := heq t rfl
  refine dates_bind ?_ fun a l₂ h₂ => hg t a l₂ h₂
  apply Service.noting_perform
  intro e n w
  have hnoted := h₁.concat (hs t ((otpService o yields).respond e n w (.execute (s t))).1)
  exact ⟨hnoted, hnoted⟩

theorem dates_createCallRecord (mobile code codeMasked : String) (parent : Option String)
    (hl : Service.Justified Dated l) :
    Dates o yields (fun _ l' => Service.Justified Dated l')
      (createCallRecord mobile code codeMasked parent) l := by
  refine dates_bind (dates_of_touches touches_uuid4 (by decide) hl) fun requestId l₁ h₁ =>
    dates_time_execute h₁ (fun now r => ?_) fun now _ l₂ h₂ => ?_
  · exact ⟨List.getLast?_concat, rfl⟩
  · exact dates_bind (dates_of_touches touches_commit (by decide) h₂) fun _ l₃ h₃ =>
      dates_bind (dates_of_touches (touches_addEvent _ _ _) (by decide) h₃) fun _ _ h₄ => h₄

theorem dates_cleanupExpired (hl : Service.Justified Dated l) :
    Dates o yields (fun _ l' => Service.Justified Dated l') cleanupExpired l := by
  refine dates_time_execute hl (fun now r => List.getLast?_concat) fun now cursor l₁ h₁ => ?_
  have horphans : Dates o yields (fun _ l' => Service.Justified Dated l')
      (execute .deleteOrphanEvents) l₁ := by
    apply Service.noting_perform
    intro e n w
    exact ⟨h₁.concat trivial, h₁.concat trivial⟩
  refine dates_bind horphans fun _ l₂ h₂ =>
    dates_bind (dates_of_touches touches_commit (by decide) h₂) fun _ l₃ h₃ => ?_
  dsimp only
  split
  · exact dates_bind (dates_of_touches (touches_log _ _) (by decide) h₃) fun _ _ h₄ => h₄
  · exact h₃

theorem dates_periodicCleanup (hl : Service.Justified Dated l) :
    Dates o yields (fun _ l' => Service.Justified Dated l') periodicCleanup l := by
  have hlimits : Touches [.cleanup, .log] (cleanupLimits >>= fun line => log .debug line) :=
    touches_issue_bind rfl fun _ => touches_issue rfl
  refine Service.Noting.tryCatch (Q := fun _ l' => Service.Justified Dated l') ?_ (fun _ _ h => h)
    fun x l₁ h₁ => dates_of_touches (touches_log _ _) (by decide) h₁
  exact dates_bind (dates_cleanupExpired hl) fun _ l₁ h₁ => dates_of_touches hlimits (by decide) h₁

theorem dates_sendOtpCall (request : OTPCallRequest) (hl : Service.Justified Dated l) :
    Dates o yields (fun _ l' => Service.Justified Dated l') (sendOtpCall request) l :=
  dates_bind (dates_of_touches (touches_checkLimits _) (by decide) hl) fun _ l₁ h₁ =>
    dates_bind (dates_createCallRecord _ _ _ _ h₁) fun _ l₂ h₂ =>
      dates_bind (dates_of_touches (touches_log _ _) (by decide) h₂) fun _ _ h₃ => h₃

theorem dates_retryCall (requestId : String) (body : RetryRequest)
    (hl : Service.Justified Dated l) :
    Dates o yields (fun _ l' => Service.Justified Dated l') (retryCall requestId body) l := by
  refine dates_bind (dates_of_touches (touches_getCallRecord _) (by decide) hl)
    fun record l₁ h₁ => ?_
  cases record with
  | none => exact h₁
  | some record =>
    exact dates_bind (dates_of_touches (touches_nothing_raiseUnless _ _) rfl h₁) fun _ l₂ h₂ =>
      dates_bind (dates_of_touches (touches_nothing_raiseUnless _ _) rfl h₂) fun _ l₃ h₃ =>
        dates_bind (dates_of_touches (touches_checkLimits _) (by decide) h₃) fun _ l₄ h₄ =>
          dates_bind (dates_createCallRecord _ _ _ _ h₄) fun _ l₅ h₅ =>
            dates_bind (dates_of_touches (touches_incrementRetry _) (by decide) h₅)
              fun _ l₆ h₆ => dates_bind (dates_of_touches (touches_log _ _) (by decide) h₆)
                fun _ _ h₇ => h₇

/-- Every operation dates its rows and its deletions. -/
theorem dates_body (op : Op) :
    Dates o yields (fun _ l' => Service.Justified Dated l') (op.body o) [] := by
  have hnil := Service.Justified.nil Dated
  cases op with
  | execute task =>
    exact dates_bind (dates_of_touches (touches_executeCall o task) (by decide) hnil)
      fun _ _ h => h
  | input x =>
    cases x with
    | otpCall request => exact dates_sendOtpCall request hnil
    | retry requestId body => exact dates_retryCall requestId body hnil
    | status requestId => exact dates_of_touches (touches_getCallStatus _) (by decide) hnil
    | health => exact dates_of_touches touches_healthCheck (by decide) hnil
    | amiEvent kind message =>
      exact dates_bind (dates_of_touches (touches_dispatch kind message) (by decide) hnil)
        fun _ _ h => h
    | cleanup => exact dates_bind (dates_periodicCleanup hnil) fun _ _ h => h

end Noting

/-! ## Runs -/

section Runs

variable {o : CallOriginator} {w₀ : World} {acts : List Turn} {n i : ℕ}

/-- A note that rests on a reading comes right after it in the trace: reading the clock does not
give up the event loop. -/
theorem dated_at {ev : Ev} {t : Time} {y : DatingNote}
    (hx : (commands o w₀ acts)[n]? = some (i, ev)) (hy : DatingNote.of ev.cmd ev.res = y)
    (ht : ∀ l, Dated l y → l.getLast? = some (.reading t)) :
    ∃ m ev' l, n = m + 1 ∧ (commands o w₀ acts)[m]? = some (i, ev') ∧
      clockReading ev' = some t ∧ Dated l y := by
  obtain ⟨-, -, hdated⟩ := Service.run_justified dates_body w₀ acts hx
    (show datingNote ev = some y from congrArg some hy)
  have hmap : (ownEvents i ((commands o w₀ acts).take n)).filterMap datingNote =
      (ownEvents i ((commands o w₀ acts).take n)).map fun ev => DatingNote.of ev.cmd ev.res :=
    congrFun List.filterMap_eq_map _
  have hlast := (congrArg List.getLast? hmap).symm.trans (ht _ hdated)
  rw [List.getLast?_map, Option.map_eq_some_iff] at hlast
  obtain ⟨ev', hlast, hreading⟩ := hlast
  have hclock : clockReading ev' = some t ∧ ev'.cmd.awaited = false := by
    obtain ⟨e, k, c, r⟩ := ev'
    simp only at hreading
    unfold DatingNote.of at hreading
    split at hreading <;> cases hreading
    exact ⟨rfl, rfl⟩
  obtain ⟨m, hm, hxm⟩ := Service.run_adjacent (interleaved o) hx hlast hclock.2
  exact ⟨m, ev', _, hm, hxm, hclock.1, hdated⟩

/-- The reading right before a creation. -/
theorem reading_of_insert {row : CallRecord}
    (h : Ran (commands o w₀ acts) n i (.insertCall row)) :
    ∃ m ev, n = m + 1 ∧ (commands o w₀ acts)[m]? = some (i, ev) ∧
      clockReading ev = some row.createdAt ∧ row.expiresAt = row.createdAt + ttlSeconds := by
  obtain ⟨⟨e, k, c, r⟩, hx, hcmd, -⟩ := h
  obtain rfl : c = .execute (.insertCall row) := hcmd
  obtain ⟨m, ev, l, hm, hxm, hreading, -, hexpiry⟩ :=
    dated_at hx rfl fun _ (hdated : Dated _ (.inserted row)) => hdated.1
  exact ⟨m, ev, hm, hxm, hreading, hexpiry⟩

/-- The reading right before a pass of the cleanup. -/
theorem reading_of_purge {t : Time} (h : Ran (commands o w₀ acts) n i (.deleteExpired t)) :
    ∃ m ev, n = m + 1 ∧ (commands o w₀ acts)[m]? = some (i, ev) ∧ clockReading ev = some t := by
  obtain ⟨⟨e, k, c, r⟩, hx, hcmd, -⟩ := h
  obtain rfl : c = .execute (.deleteExpired t) := hcmd
  obtain ⟨m, ev, l, hm, hxm, hreading, -⟩ :=
    dated_at hx rfl fun _ (hdated : Dated _ (.purged t)) => hdated
  exact ⟨m, ev, hm, hxm, hreading⟩

/-- One command after a pass of the cleanup with the reading `t`: what it leaves or creates has not
expired at `t`. -/
theorem unexpired_succ (hkeeps : NoRollbacks acts)
    (hclock : ClockMonotone (commands o w₀ acts)) {t : Time}
    (hpurge : Ran (commands o w₀ acts) n i (.deleteExpired t)) {m : ℕ} (hm : n < m)
    (h : ∀ row ∈ (tablesAt o w₀ acts m).calls.rows, t ≤ row.expiresAt) :
    ∀ row ∈ (tablesAt o w₀ acts (m + 1)).calls.rows, t ≤ row.expiresAt := by
  rcases tablesAt_step o w₀ hkeeps m with hkeep | ⟨j, s, hran, hstore⟩
  · rw [hkeep]
    exact h
  · rw [hstore]
    intro row hrow
    have hafter := Table.find_mem hrow
    cases hbefore : (tablesAt o w₀ acts m).calls.find row.requestId with
    | some old =>
      -- no statement moves the expiry of a record
      rw [(code_expiry_exec hbefore hafter).2]
      exact h old (Table.find_eq_some_iff.1 hbefore).1
    | none =>
      obtain rfl := find_exec_new hbefore hafter
      obtain ⟨a, eva, rfl, ha, hcreated, hexpiry⟩ := reading_of_insert hran
      obtain ⟨b, evb, rfl, hb, hreading⟩ := reading_of_purge hpurge
      have hle : t ≤ row.createdAt :=
        rel_of_pairwise_filterMap hclock (by omega) hb ha hreading hcreated
      rw [hexpiry, ttlSeconds]
      linarith

end Runs

/-- Under every interleaving of requests, handlers, background tasks and cleanups, with a clock that
does not go back and no rollback: once a pass of the cleanup has deleted with the reading
`t`, no later state holds a record, and so no code, that had expired at `t`. -/
theorem expired_codes_are_gone (o : CallOriginator) (w₀ : World) (acts : List Turn)
    (hkeeps : NoRollbacks acts) (hclock : ClockMonotone (commands o w₀ acts)) {n i : ℕ} {t : Time}
    (hpurge : Ran (commands o w₀ acts) n i (.deleteExpired t)) {m : ℕ} (hm : n < m) :
    ∀ row ∈ (tablesAt o w₀ acts m).calls.rows, t ≤ row.expiresAt := by
  induction m, hm using Nat.le_induction with
  | base =>
    have hstore : tablesAt o w₀ acts (n + 1) = _ :=
      hpurge.store (S := interleaved o) rfl w₀
    rw [hstore]
    intro row hrow
    have hkept := (Table.mem_delete.1 hrow).2
    exact not_lt.1 (by simpa [expired] using hkept)
  | succ m hm ih => exact unexpired_succ hkeeps hclock hpurge hm ih

/-- A pass of the cleanup at time 301 and a request after it. -/
def renewedRun : List Turn :=
  .arrive .cleanup :: List.replicate 3 (.turn 0 (.calm 301 firstId [])) ++
    .arrive (.otpCall sampleRequest) :: List.replicate 7 (.turn 1 (.calm 302 secondId []))

/-- The pass deletes a call of time 0, and the request after it creates a record that stays. -/
theorem expired_codes_are_gone_renewed :
    answeredRecord ∈ (tablesAt sampleOriginator answeredWorld renewedRun 1).calls.rows ∧
      (tablesAt sampleOriginator answeredWorld renewedRun 2).calls.rows = [] ∧
      ∃ row, row ∈ (tablesAt sampleOriginator answeredWorld renewedRun 12).calls.rows ∧
        row.requestId = secondId.text ∧ (301 : Time) ≤ row.expiresAt := by
  have hclock : ClockMonotone (commands sampleOriginator answeredWorld renewedRun) := by
    unfold ClockMonotone
    decide +kernel
  have hpurge : Ran (commands sampleOriginator answeredWorld renewedRun) 1 0
      (.deleteExpired 301) := ⟨_, rfl, rfl, rfl⟩
  have hcreated : (((tablesAt sampleOriginator answeredWorld renewedRun 12).calls.find
      secondId.text)).isSome = true := by
    decide +kernel
  obtain ⟨row, hrow⟩ := Option.isSome_iff_exists.1 hcreated
  obtain ⟨hmem, hid⟩ := Table.find_eq_some_iff.1 hrow
  exact ⟨by decide +kernel, by decide +kernel, row, hmem, hid,
    expired_codes_are_gone sampleOriginator answeredWorld renewedRun (by simp [renewedRun]) hclock
      hpurge (by decide) row hmem⟩

end OtpVoice
