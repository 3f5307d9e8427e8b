import OtpVoice.Api.Rejection
import OtpVoice.Service.Statements

/-!
# Expired records

The retry endpoint takes the stored code of a record without a look at `expires_at`; an expired
record is refused only once a pass of the cleanup has deleted it.

- `expired_retry_refused_iff`: in every state of every run, a retry of a retryable record without a
  new code is refused with 400 or 404 if and only if a cleanup with a clock reading after the expiry
  has run since the record was there, or the record holds no code.
- `expired_code_dialled`: between two passes of the cleanup the code of an expired record is
  dialled.
-/

set_option autoImplicit false

namespace OtpVoice

open Coroutine

/-- The answer of an endpoint is 400 or 404; no task is scheduled. -/
def Refused (r : Except Exc Answer) : Prop :=
  ∃ c d, r = .error (.http c d) ∧ (c = 400 ∨ c = 404)

/-- The clock reading of a deletion of the expired records that raises nothing. -/
def purgeTime (ev : Ev) : Option Time :=
  match ev.cmd with
  | .execute (.deleteExpired now) => if (ev.env.fault ev.index).isNone then some now else none
  | _ => none

/-- The `k`-th command of a trace deletes the records that expired before a time after `t`. -/
def PurgesAfter (tr : List (ℕ × Ev)) (t : Time) (k : ℕ) : Prop :=
  ∃ x ∈ tr[k]?, ∃ now ∈ purgeTime x.2, t < now

instance (tr : List (ℕ × Ev)) (t : Time) (k : ℕ) : Decidable (PurgesAfter tr t k) :=
  inferInstanceAs (Decidable (∃ x ∈ tr[k]?, _))

/-- The id of the record that a command inserts. -/
def Cmd.insertedId : Cmd → Option String
  | .execute (.insertCall row) => some row.requestId
  | _ => none

/-- From the `m`-th to the `n`-th event of a trace no record with the given id is inserted. -/
def NotDrawnAgain (tr : List (ℕ × Ev)) (requestId : String) (m n : ℕ) : Prop :=
  ∀ k < n, m ≤ k → ∀ x ∈ tr[k]?, x.2.cmd.insertedId ≠ some requestId

instance (tr : List (ℕ × Ev)) (requestId : String) (m n : ℕ) :
    Decidable (NotDrawnAgain tr requestId m n) :=
  inferInstanceAs (Decidable (∀ k < n, _))

theorem purgesAfter_iff {tr : List (ℕ × Ev)} {t : Time} {k : ℕ} :
    PurgesAfter tr t k ↔ ∃ i now, Ran tr k i (.deleteExpired now) ∧ t < now := by
  constructor
  · rintro ⟨⟨i, ev⟩, hx, now, hnow, hlt⟩
    refine ⟨i, now, ⟨ev, hx, ?_⟩, hlt⟩
    simp only [purgeTime, Option.mem_def] at hnow
    split at hnow
    · rename_i hcmd
      split at hnow
      · rename_i hfault
        cases hnow
        exact ⟨hcmd, Option.isNone_iff_eq_none.1 hfault⟩
      · cases hnow
    · cases hnow
  · rintro ⟨i, now, ⟨ev, hx, hcmd, hfault⟩, hlt⟩
    exact ⟨(i, ev), hx, now, by simp [purgeTime, hcmd, hfault], hlt⟩

/-! ## The retry endpoint -/

section Endpoint

variable {e : Env} {w : World} {requestId : String} {body : RetryRequest}

/-- The three layers reject with 503 or 429 only. -/
theorem RateLimiter.checkLimits_http {rl : RateLimiter} {mobile : String} {hourlyAt numberAt : Time}
    {c : ℕ} {d : Option String}
    (h : (rl.checkLimits mobile hourlyAt numberAt).1 = .error (.http c d)) : c = 503 ∨ c = 429 := by
  unfold RateLimiter.checkLimits at h
  split at h
  · cases h
    exact .inl rfl
  · split at h
    · cases h
      exact .inr rfl
    · dsimp only at h
      split at h
      · cases h
      · cases h
        exact .inr rfl
      · cases h

/-- A retry without a new code is refused for its record exactly when the record is missing or has
no code. -/
theorem retryCall_refused_iff (he : e.fault 0 = none) (hbody : orText body.code none = none)
    (hretryable : ∀ row, w.store.calls.find requestId = some row → row.status.retryable = true) :
    Refused ((retryCall requestId body).complete (World.respond e) 0 w).1 ↔
      ∀ row, w.store.calls.find requestId = some row → row.code = "" := by
  rw [complete_retryCall he]
  cases hfind : w.store.calls.find requestId with
  | none => exact iff_of_true ⟨404, _, rfl, .inr rfl⟩ fun row h => by cases h
  | some row =>
    -- the request brings no code of its own, so the stored one is chosen
    have hcode : body.chosenCode row = row.code := by
      unfold RetryRequest.chosenCode
      cases hnew : body.code with
      | none => rfl
      | some text =>
        by_cases hempty : text = ""
        · simp [orText, hempty]
        · simp [orText, hnew, hempty] at hbody
    simp only [hretryable row hfind, if_true, hcode]
    by_cases hempty : row.code = ""
    · -- the record holds no code: 400
      rw [if_neg (not_not.2 hempty)]
      refine iff_of_true ⟨400, _, rfl, .inl rfl⟩ ?_
      rintro row' h
      rw [← Option.some.inj h]
      exact hempty
    · rw [if_pos hempty]
      -- the layers and the rest of the request never answer 400 or 404
      refine iff_of_false ?_ fun hall => hempty (hall row rfl)
      rintro ⟨c, d, hresult, hc⟩
      obtain ⟨j, -, hlimits⟩ := checkLimits_of_rejected
        (fun _ => raisesNoHttp_retryAdmitted requestId body row)
        (Prod.ext hresult (Prod.ext rfl rfl))
      have := RateLimiter.checkLimits_http (congrArg Prod.fst hlimits)
      omega

end Endpoint

/-! ## Runs -/

section Runs

variable {o : CallOriginator} {yields : Cmd → Bool} {w₀ : World} {acts : List Turn}
  {requestId : String} {row : CallRecord}

/-- One command on a record: it keeps its code and its expiry, or a cleanup after its expiry drops
it. -/
theorem record_next (hkeeps : NoRollbacks acts) {n : ℕ}
    (hbefore : ((otpService o yields).worldAfter w₀
      ((otpService o yields).run (Config.initial w₀) acts).trace n).store.calls.find requestId =
        some row) :
    let s := (otpService o yields).run (Config.initial w₀) acts
    let w := (otpService o yields).worldAfter w₀ s.trace
    (∃ row', (w (n + 1)).store.calls.find requestId = some row' ∧ row'.code = row.code ∧
        row'.expiresAt = row.expiresAt) ∨
      ((w (n + 1)).store.calls.find requestId = none ∧ PurgesAfter s.trace row.expiresAt n) := by
  intro s w
  rcases store_step (S := otpService o yields) rfl w₀ (NoRollbacks.held hkeeps) n with
    hkeep | ⟨i, st, hran, hexec⟩
  · refine .inl ⟨row, ?_, rfl, rfl⟩
    show (Service.worldAfter _ w₀ s.trace (n + 1)).store.calls.find requestId = some row
    rw [hkeep]
    exact hbefore
  · have hstore : (w (n + 1)).store = (st.exec (w n).store).2 := hexec
    rw [hstore]
    cases hafter : (st.exec (w n).store).2.calls.find requestId with
    | some row' => exact .inl ⟨row', rfl, code_expiry_exec hbefore hafter⟩
    | none =>
      obtain ⟨now, rfl, hlt⟩ := find_exec_gone hbefore hafter
      exact .inr ⟨rfl, purgesAfter_iff.2 ⟨i, now, hran, hlt⟩⟩

/-- A record of a run later on: it is there with its code and its expiry, or a cleanup after its
expiry has dropped it, and it stays away unless its id is drawn again. -/
theorem record_kept (hkeeps : NoRollbacks acts) {m n : ℕ} (hmn : m ≤ n)
    (hbefore : ((otpService o yields).worldAfter w₀
      ((otpService o yields).run (Config.initial w₀) acts).trace m).store.calls.find requestId =
        some row)
    (hfresh : NotDrawnAgain ((otpService o yields).run (Config.initial w₀) acts).trace requestId
      m n) :
    let s := (otpService o yields).run (Config.initial w₀) acts
    let w := (otpService o yields).worldAfter w₀ s.trace
    ((∃ row', (w n).store.calls.find requestId = some row' ∧ row'.code = row.code ∧
        row'.expiresAt = row.expiresAt) ∧ ∀ k < n, m ≤ k → ¬ PurgesAfter s.trace row.expiresAt k) ∨
      ((w n).store.calls.find requestId = none ∧
        ∃ k < n, m ≤ k ∧ PurgesAfter s.trace row.expiresAt k) := by
  intro s w
  induction n, hmn using Nat.le_induction with
  | base => exact .inl ⟨⟨row, hbefore, rfl, rfl⟩, fun k hk hmk => absurd hmk (Nat.not_le.2 hk)⟩
  | succ n hmn ih =>
    have hlt := Nat.lt_succ_self n
    rcases ih fun k hk => hfresh k (hk.trans hlt) with
      ⟨⟨row', hrow', hcode, hexpiry⟩, hno⟩ | ⟨hgone, k, hk, hmk, hpurge⟩
    · have hstep := record_next hkeeps hrow'
      rw [hexpiry] at hstep
      rcases hstep with ⟨row'', hrow'', hcode', hexpiry'⟩ | ⟨hgone, hpurge⟩
      · refine .inl ⟨⟨row'', hrow'', hcode'.trans hcode, hexpiry'⟩, fun k hk hmk => ?_⟩
        rcases Nat.lt_succ_iff_lt_or_eq.1 hk with hk | rfl
        · exact hno k hk hmk
        · -- a purge would have dropped the record
          intro hpurge
          obtain ⟨i, now, hran, hlate⟩ := purgesAfter_iff.1 hpurge
          have hstore : (w (k + 1)).store = ((Stmt.deleteExpired now).exec (w k).store).2 :=
            hran.store (S := otpService o yields) rfl w₀
          have hdropped : (w (k + 1)).store.calls.find requestId = none := by
            rw [hstore]
            exact find_deleteExpired hrow' (by rw [hexpiry]; exact hlate)
          cases hrow''.symm.trans hdropped
      · -- the cleanup drops the record now
        exact .inr ⟨hgone, n, hlt, hmn, hpurge⟩
    · -- the record has gone before, and only an `INSERT` of its id brings it back
      refine .inr ⟨?_, k, hk.trans hlt, hmk, hpurge⟩
      rcases store_step (S := otpService o yields) rfl w₀ (NoRollbacks.held hkeeps) n
        with hkeep | ⟨i, st, hran, hexec⟩
      · exact (congrArg (fun st => st.calls.find requestId) hkeep).trans hgone
      · have hstore : (w (n + 1)).store = (st.exec (w n).store).2 := hexec
        rw [hstore]
        by_contra hne
        obtain ⟨new, hnew⟩ := Option.ne_none_iff_exists'.1 hne
        obtain rfl := find_exec_new hgone hnew
        obtain ⟨ev, hx, hcmd, -⟩ := hran
        apply hfresh n hlt hmn _ hx
        rw [hcmd, Cmd.insertedId, (Table.find_eq_some_iff.1 hnew).2]

/-- A retryable record and a retry of it without a new code, at any later time, in a run in which
nothing rolls back: the retry is refused with 400 or 404 if and only if a pass of the cleanup with a
clock reading after the expiry has deleted records since, or the record holds no code. -/
theorem expired_retry_refused_iff (o : CallOriginator) (yields : Cmd → Bool) (w₀ : World)
    (acts : List Turn) (hkeeps : NoRollbacks acts) {m n : ℕ} (hmn : m ≤ n) {requestId : String}
    {row : CallRecord} :
    let s := (otpService o yields).run (Config.initial w₀) acts
    let w := (otpService o yields).worldAfter w₀ s.trace
    (w m).store.calls.find requestId = some row → NotDrawnAgain s.trace requestId m n →
      (∀ row', (w n).store.calls.find requestId = some row' → row'.status.retryable = true) →
      ∀ e body, e.fault 0 = none → orText body.code none = none →
        (Refused ((retryCall requestId body).complete (World.respond e) 0 (w n)).1 ↔
          (∃ k < n, m ≤ k ∧ PurgesAfter s.trace row.expiresAt k) ∨ row.code = "") := by
  intro s w hrow hfresh hretryable e body he hbody
  rw [retryCall_refused_iff he hbody hretryable]
  rcases record_kept hkeeps hmn hrow hfresh with
    ⟨⟨row', hrow', hcode, -⟩, hno⟩ | ⟨hgone, hpurge⟩
  · constructor
    · intro h
      exact .inr (hcode ▸ h row' hrow')
    · rintro (⟨k, hk, hmk, hpurge⟩ | hempty) row'' hrow''
      · exact absurd hpurge (hno k hk hmk)
      · rw [← Option.some.inj (hrow'.symm.trans hrow''), hcode]
        exact hempty
  · -- the record is missing: 404
    refine iff_of_true (fun row' h => ?_) (.inl hpurge)
    cases hgone.symm.trans h

end Runs

/-- A call at time 0 that fails because the AMI connection is down. -/
def failedRun : List Turn :=
  [.arrive (.otpCall sampleRequest), .turn 0 (.calm 0 firstId []),
    .turn 1 (.disconnected 1 firstId)]

/-- The cleanup at time 600 drops its record. -/
def purgedRun : List Turn := failedRun ++ [.arrive .cleanup, .turn 2 (.calm 600 firstId [])]

theorem expired_retry_refused_iff_purged :
    let s := (sequential sampleOriginator).run (Config.initial sampleWorld) purgedRun
    let w := (sequential sampleOriginator).worldAfter sampleWorld s.trace
    Refused ((retryCall firstId.text plainRetry).complete (World.respond (.calm 700 secondId [])) 0
      (w 38)).1 := by
  intro s w
  have hrow : (w 31).store.calls.find firstId.text = some
      { requestId := firstId.text, mobile := "09120000000", code := "1234", codeMasked := "1**4",
        status := .failed, hangupCause := some "سرویس AMI در دسترس نیست", parentRequestId := none,
        createdAt := 0, updatedAt := 1, expiresAt := 300 } := by decide +kernel
  have hgone : (w 38).store.calls.find firstId.text = none := by decide +kernel
  refine (expired_retry_refused_iff sampleOriginator Cmd.waitsForAsterisk sampleWorld purgedRun
    (by simp [purgedRun, failedRun]) (m := 31) (n := 38) (by decide) hrow (by decide +kernel) ?_
    (.calm 700 secondId []) plainRetry rfl rfl).2
    (.inl ⟨32, by decide, by decide, by decide +kernel⟩)
  intro row' hrow'
  cases hgone.symm.trans hrow'

/-- The cleanup runs at time 299 and the next one is due at time 599: at time 400 the record has
expired, and a retry dials its code. -/
def staleRun : List Turn :=
  failedRun ++ [.arrive .cleanup, .turn 2 (.calm 299 firstId []),
    .arrive (.retry firstId.text plainRetry), .turn 3 (.calm 400 secondId []),
    .turn 4 (.calm 400 secondId [])]

theorem expired_code_dialled :
    let s := (sequential sampleOriginator).run (Config.initial sampleWorld) staleRun
    (s.world.store.calls.find firstId.text).map (fun row => (row.status, row.expiresAt, row.code)) =
        some (.failed, 300, "1234") ∧
      s.outcome 3 = some (.input (.retry firstId.text plainRetry), .ok (.accepted
        ⟨secondId.text, .queued, 5⟩ [⟨secondId.text, "09120000000", "1234", 2⟩])) ∧
      s.world.sent.map (fun action => action.lookup "Variable") =
        [some ("OTP_CODE=1234,OTP_REPEAT=2,OTP_REQUEST_ID=" ++ secondId.text)] := by
  decide +kernel

end OtpVoice
