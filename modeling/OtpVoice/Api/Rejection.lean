import OtpVoice.Core.Quota
import OtpVoice.Service.Footprint

/-!
# Rejected requests and the quotas

The three layers of `checkLimits` are checked one after the other, and the second one records the
call before the third one may reject it. `complete_checkLimits` is the outcome of the three layers;
`rejected_consumes_nothing_iff` says when a rejected request leaves no trace in later decisions.
-/

set_option autoImplicit false

namespace OtpVoice

open Coroutine SlidingWindow

variable {α β : Type}

/-- The outcome of the three layers at the given clock readings, the number of checks made, and the
limiter after them. -/
def RateLimiter.checkLimits (rl : RateLimiter) (mobile : String) (hourlyAt numberAt : Time) :
    Except Exc Unit × ℕ × RateLimiter :=
  if rl.checkConcurrentCapacity.1 = false then
    (.error (.http 503 rl.checkConcurrentCapacity.2), 1, rl)
  else if (rl.checkHourlyLimit hourlyAt).1.1 = false then
    (.error (.http 429 (rl.checkHourlyLimit hourlyAt).1.2), 2, (rl.checkHourlyLimit hourlyAt).2)
  else
    let x := (rl.checkHourlyLimit hourlyAt).2.checkNumberLimit mobile numberAt
    (match x.1 with
      | .ok (true, _) => .ok ()
      | .ok (false, msg) => .error (.http 429 msg)
      | .error text => .error (.other text), 3, x.2)

/-- A request that passes has made three checks. -/
theorem RateLimiter.checkLimits_ok {rl : RateLimiter} {mobile : String} {hourlyAt numberAt : Time}
    (h : (rl.checkLimits mobile hourlyAt numberAt).1 = .ok ()) :
    (rl.checkLimits mobile hourlyAt numberAt).2.1 = 3 := by
  unfold RateLimiter.checkLimits at h ⊢
  split at h
  · cases h
  · rename_i hcapacity
    rw [if_neg hcapacity]
    split at h
    · cases h
    · rename_i hhourly
      rw [if_neg hhourly]

/-- `raise` before the rest, run alone. -/
theorem complete_raiseUnless_bind (e : Env) (ok : Bool) (x : Exc) (f : Unit → Prog β) (n : ℕ)
    (w : World) :
    (raiseUnless ok x >>= f).complete (World.respond e) n w =
      if ok then (f ()).complete (World.respond e) n w else (.error x, n, w) := by
  cases ok <;> rfl

theorem World.respond_checkNumberLimit (e : Env) (n : ℕ) (w : World) (mobile : String) :
    World.respond e n w (.checkNumberLimit mobile) =
      ((match (w.limiter.checkNumberLimit mobile (e.now n)).1 with
        | .ok r => .ok r
        | .error text => .error (.other text)),
        { w with limiter := (w.limiter.checkNumberLimit mobile (e.now n)).2 }) := by
  rw [World.respond_of_not_mayRaise rfl]
  simp only [World.answer]
  rcases w.limiter.checkNumberLimit mobile (e.now n) with ⟨text | r, rl⟩ <;> rfl

/-- The coroutine of the three layers, run alone. -/
theorem complete_checkLimits (e : Env) (mobile : String) (k : ℕ) (w : World) :
    (checkLimits mobile).complete (World.respond e) k w =
      let x := w.limiter.checkLimits mobile (e.now (k + 1)) (e.now (k + 2))
      (x.1, k + x.2.1, { w with limiter := x.2.2 }) := by
  refine (complete_issue_bind e .checkConcurrentCapacity _ k w).trans ?_
  rw [World.respond_of_not_mayRaise rfl]
  simp only [World.answer, complete_raiseUnless_bind, RateLimiter.checkLimits]
  rcases w.limiter.checkConcurrentCapacity with ⟨_ | _, msg⟩
  · rfl
  simp only [if_true, Bool.true_eq_false, if_false]
  refine (complete_issue_bind e .checkHourlyLimit _ (k + 1) w).trans ?_
  rw [World.respond_of_not_mayRaise rfl]
  simp only [World.answer, complete_raiseUnless_bind]
  rcases w.limiter.checkHourlyLimit (e.now (k + 1)) with ⟨⟨_ | _, msg⟩, rl⟩
  · rfl
  simp only [if_true, Bool.true_eq_false, if_false]
  refine (complete_issue_bind e (.checkNumberLimit mobile) _ (k + 2) _).trans ?_
  rw [World.respond_checkNumberLimit]
  rcases rl.checkNumberLimit mobile (e.now (k + 2)) with ⟨text | ⟨_ | _, msg⟩, rl'⟩ <;> rfl

/-! ## The rest of the endpoints -/

/-- No HTTP error. -/
def NotHttp (r : Except Exc α) : Prop := ∀ c d, r ≠ .error (.http c d)

/-- A part that never answers with an HTTP error of its own. -/
def RaisesNoHttp (e : Env) (p : Prog α) : Prop :=
  ∀ n w, NotHttp (p.complete (World.respond e) n w).1

theorem notHttp_answer (e : Env) (n : ℕ) (w : World) {c : Cmd} (hc : c.kind ≠ .reply) :
    NotHttp (w.answer e n c).1 := by
  intro code detail h
  cases c with
  | execute s =>
    simp only [World.answer] at h
    split at h <;> cases h
  | checkNumberLimit mobile =>
    simp only [World.answer] at h
    split at h <;> cases h
  | getAmiClient =>
    simp only [World.answer] at h
    split at h <;> cases h
  | awaitReply => exact hc rfl
  | _ => cases h

theorem notHttp_respond (e : Env) (n : ℕ) (w : World) {c : Cmd} (hc : c.kind ≠ .reply) :
    NotHttp (World.respond e n w c).1 := by
  have hanswer := notHttp_answer e n w hc
  cases c with
  | execute s =>
    simp only [World.respond]
    split
    · exact fun _ _ h => by cases h
    · exact hanswer
  | commit =>
    simp only [World.respond]
    split
    · exact fun _ _ h => by cases h
    · exact hanswer
  | _ => exact hanswer

section RaisesNoHttp

variable {e : Env}

theorem raisesNoHttp_pure (a : α) : RaisesNoHttp e (pure a : Prog α) :=
  fun _ _ _ _ h => by cases h

theorem RaisesNoHttp.bind {p : Prog β} {f : β → Prog α} (hp : RaisesNoHttp e p)
    (hf : ∀ a, RaisesNoHttp e (f a)) : RaisesNoHttp e (p >>= f) := by
  intro n w
  rw [Coro.complete_bind]
  have hpart := hp n w
  rcases hrun : p.complete (World.respond e) n w with ⟨x | a, m, w'⟩
  · rw [hrun] at hpart
    intro c d h
    cases h
    exact hpart c d rfl
  · exact hf a m w'

theorem raisesNoHttp_issue {c : Cmd} (hc : c.kind ≠ .reply) : RaisesNoHttp e (issue c) :=
  fun n w => notHttp_respond e n w hc

theorem raisesNoHttp_issue_bind {c : Cmd} {f : c.Resp → Prog α} (hc : c.kind ≠ .reply)
    (hf : ∀ a, RaisesNoHttp e (f a)) : RaisesNoHttp e (issue c >>= f) :=
  (raisesNoHttp_issue hc).bind hf

theorem raisesNoHttp_addEvent (requestId : String) (event : EventName) (detail : Option String) :
    RaisesNoHttp e (addEvent requestId event detail) :=
  raisesNoHttp_issue_bind (by rintro ⟨⟩) fun _ => raisesNoHttp_issue_bind (by rintro ⟨⟩) fun _ =>
    raisesNoHttp_issue (by rintro ⟨⟩)

theorem raisesNoHttp_createCallRecord (mobile code codeMasked : String) (parent : Option String) :
    RaisesNoHttp e (createCallRecord mobile code codeMasked parent) :=
  raisesNoHttp_issue_bind (by rintro ⟨⟩) fun _ => raisesNoHttp_issue_bind (by rintro ⟨⟩) fun _ =>
    raisesNoHttp_issue_bind (by rintro ⟨⟩) fun _ => raisesNoHttp_issue_bind (by rintro ⟨⟩) fun _ =>
      (raisesNoHttp_addEvent _ _ _).bind fun _ => raisesNoHttp_pure _

theorem raisesNoHttp_incrementRetry (requestId : String) :
    RaisesNoHttp e (incrementRetry requestId) := by
  refine raisesNoHttp_issue_bind (by rintro ⟨⟩) fun _ =>
    raisesNoHttp_issue_bind (by rintro ⟨⟩) fun _ =>
    raisesNoHttp_issue_bind (by rintro ⟨⟩) fun _ =>
    raisesNoHttp_issue_bind (by rintro ⟨⟩) fun record => ?_
  cases record <;> exact raisesNoHttp_pure _

end RaisesNoHttp

/-! ## The checks of the retry endpoint -/

/-- What a retry does after its checks. -/
def retryAdmitted (requestId : String) (body : RetryRequest) (record : CallRecord) :
    Prog Answer := do
  let code := body.chosenCode record
  let newRequestId ← createCallRecord record.mobile code (maskCode code) (some requestId)
  let _ ← incrementRetry requestId
  let task : CallTask := ⟨newRequestId, record.mobile, code, body.repeatCount.getD 2⟩
  log .info ("OTP retry queued: parent=" ++ requestId ++ " new=" ++ newRequestId ++ " mobile=" ++
    maskMobile record.mobile)
  return .accepted ⟨newRequestId, .queued, 5⟩ [task]

theorem raisesNoHttp_retryAdmitted {e : Env} (requestId : String) (body : RetryRequest)
    (record : CallRecord) : RaisesNoHttp e (retryAdmitted requestId body record) :=
  (raisesNoHttp_createCallRecord _ _ _ _).bind fun _ =>
    (raisesNoHttp_incrementRetry _).bind fun _ =>
    raisesNoHttp_issue_bind (c := .log _ _) (by rintro ⟨⟩) fun _ => raisesNoHttp_pure _

/-- A retry whose read raises nothing: the checks of the record come first, then the three
layers. -/
theorem complete_retryCall {e : Env} (he : e.fault 0 = none) (requestId : String)
    (body : RetryRequest) (w : World) :
    (retryCall requestId body).complete (World.respond e) 0 w =
      match w.store.calls.find requestId with
      | none => (.error (.http 404 (some "request_id یافت نشد")), 1, w)
      | some record =>
        if record.status.retryable then
          if body.chosenCode record ≠ "" then
            (checkLimits record.mobile >>= fun _ => retryAdmitted requestId body record).complete
              (World.respond e) 1 w
          else (.error (.http 400
            (some "کد اصلی موجود نیست (احتمالاً منقضی شده)؛ code جدید بدهید")), 1, w)
        else (.error (.http 409 (some (notRetryable record.status))), 1, w) := by
  refine (complete_getCallRecord_bind he requestId _ w).trans ?_
  cases w.store.calls.find requestId with
  | none => rfl
  | some record =>
    simp only [complete_raiseUnless_bind]
    refine if_congr Iff.rfl (if_congr ?_ rfl rfl) rfl
    exact decide_eq_true_iff

theorem complete_retryCall_fault {e : Env} {text : String} (he : e.fault 0 = some text)
    (requestId : String) (body : RetryRequest) (w : World) :
    (retryCall requestId body).complete (World.respond e) 0 w = (.error (.other text), 1, w) := by
  refine (complete_issue_bind e (.execute (.selectCall requestId)) _ 0 w).trans ?_
  rw [World.respond_fault he, World.undo_read e 0 rfl]

/-! ## Rejected requests -/

/-- The number of commands before the first layer. -/
def Input.firstCheck : Input → ℕ
  | .otpCall _ => 0
  | _ => 1

variable {e : Env} {w w' : World} {n c : ℕ} {d : Option String}

/-- An HTTP error of an endpoint after its own checks is one of the three layers. -/
theorem checkLimits_of_rejected {mobile : String} {k : ℕ} {f : Unit → Prog Answer}
    (hf : ∀ u, RaisesNoHttp e (f u))
    (h : (checkLimits mobile >>= f).complete (World.respond e) k w = (.error (.http c d), n, w')) :
    ∃ j, n = k + j ∧ w.limiter.checkLimits mobile (e.now (k + 1)) (e.now (k + 2)) =
      (.error (.http c d), j, w'.limiter) := by
  rw [Coro.complete_bind, complete_checkLimits] at h
  rcases hlimits : w.limiter.checkLimits mobile (e.now (k + 1)) (e.now (k + 2))
    with ⟨x | u, j, rl⟩
  · rw [hlimits] at h
    cases h
    exact ⟨j, rfl, rfl⟩
  · rw [hlimits] at h
    exact absurd (congrArg Prod.fst h) (hf u _ _ c d)

theorem rejected_sendOtpCall {request : OTPCallRequest}
    (h : (sendOtpCall request).complete (World.respond e) 0 w = (.error (.http c d), n, w')) :
    ∃ j, n = 0 + j ∧ w.limiter.checkLimits request.mobile (e.now 1) (e.now 2) =
      (.error (.http c d), j, w'.limiter) :=
  checkLimits_of_rejected (fun _ => (raisesNoHttp_createCallRecord _ _ _ _).bind fun _ =>
    raisesNoHttp_issue_bind (c := .log _ _) (by rintro ⟨⟩) fun _ => raisesNoHttp_pure _) h

theorem rejected_retryCall {requestId : String} {body : RetryRequest} (hc : c = 503 ∨ c = 429)
    (h : (retryCall requestId body).complete (World.respond e) 0 w =
      (.error (.http c d), n, w')) :
    ∃ mobile j, n = 1 + j ∧ w.limiter.checkLimits mobile (e.now 2) (e.now 3) =
      (.error (.http c d), j, w'.limiter) := by
  cases hfault : e.fault 0 with
  | some text =>
    -- a read that raises gives no HTTP error
    cases (complete_retryCall_fault hfault requestId body w).symm.trans h
  | none =>
    rw [complete_retryCall hfault] at h
    cases hfind : w.store.calls.find requestId with
    | none =>
      rw [hfind] at h
      cases h
      omega
    | some record =>
      simp only [hfind] at h
      split at h
      · split at h
        · obtain ⟨j, rfl, hlimits⟩ := checkLimits_of_rejected
            (fun _ => raisesNoHttp_retryAdmitted requestId body record) h
          exact ⟨record.mobile, j, rfl, hlimits⟩
        · cases h
          omega
      · cases h
        omega

/-- A rejection by the first two layers is not noticed; one by the third layer is, unless the entry
in the hourly log has expired when the next check is made. -/
theorem RateLimiter.sameDecisions_iff_of_rejected {rl rl' : RateLimiter} {mobile : String}
    {hourlyAt numberAt start : Time} {j : ℕ}
    (h : rl.checkLimits mobile hourlyAt numberAt = (.error (.http c d), j, rl'))
    (hstart : 2 ≤ j → hourlyAt ≤ start) :
    SameDecisions start rl rl' ↔ rl.checkConcurrentCapacity.1 = false ∨
      (rl.checkHourlyLimit hourlyAt).1.1 = false ∨ hourlyAt + 3600 ≤ start := by
  unfold RateLimiter.checkLimits at h
  split at h
  · rename_i hcapacity
    cases h
    exact ⟨fun _ => .inl hcapacity, fun _ _ _ => rfl⟩
  rename_i hcapacity
  rcases le_or_gt rl.hourlyLimit (prune 3600 hourlyAt rl.hourlyCalls).length with hfull | hroom
  · obtain ⟨hfirst, hsecond⟩ := rl.checkHourlyLimit_full hourlyAt hfull
    rw [if_pos hfirst, hsecond] at h
    cases h
    refine ⟨fun _ => .inr (.inl hfirst), fun _ => sameDecisions_of_sameHours ⟨_, rfl, ?_⟩⟩
    exact ((SameWindow.refl 3600 hourlyAt rl.hourlyCalls).prune.later (hstart le_rfl)).symm
  · rw [rl.checkHourlyLimit_room hourlyAt hroom, if_neg (by simp)] at h
    simp only [hcapacity, rl.checkHourlyLimit_room hourlyAt hroom, Bool.true_eq_false, false_or]
    set rl₁ : RateLimiter :=
      { rl with hourlyCalls := prune 3600 hourlyAt rl.hourlyCalls ++ [hourlyAt] } with hrl₁
    obtain ⟨rfl, rfl⟩ : rl₁ = rl' ∧ 3 = j := by
      dsimp only at h
      rcases le_or_gt rl₁.perNumberCalls
        (prune (rl₁.perNumberWindow : Time) numberAt (rl₁.history mobile)).length with hfull | hroom
      · rw [(rl₁.checkNumberLimit_full mobile numberAt hfull).2] at h
        exact ⟨congrArg (·.2.2) h, congrArg (·.2.1) h⟩
      · rw [rl₁.checkNumberLimit_room mobile numberAt hroom] at h
        cases congrArg Prod.fst h
    have hle : hourlyAt ≤ start := hstart (by omega)
    constructor
    · intro hsame
      by_contra hlate
      refine not_sameDecisions_push (lt_of_le_of_lt ?_ hroom) (prune_prune hle _)
        (by linarith [not_le.1 hlate]) hsame
      rw [← prune_prune hle]
      exact List.length_filter_le _ _
    · refine fun hlate => sameDecisions_of_sameHours ⟨_, rfl, fun t ht => ?_⟩
      have hout : ¬ t - 3600 < hourlyAt := by linarith
      rw [← prune_prune (hle.trans ht)]
      simp [prune, hout]

/-- A rejected request consumes no quota if and only if a layer before the last one rejects it, or
its entry in the hourly log has expired when the first later check is made: otherwise the hourly
layer has recorded a call that the layer of the number rejects. -/
theorem rejected_consumes_nothing_iff {x : Input} {start : Time} (hx : x.passive = false)
    (hc : c = 503 ∨ c = 429)
    (h : x.body.complete (World.respond e) 0 w = (.error (.http c d), n, w'))
    (hstart : ∀ j < n, e.now j ≤ start) :
    RateLimiter.SameDecisions start w.limiter w'.limiter ↔
      w.limiter.checkConcurrentCapacity.1 = false ∨
        (w.limiter.checkHourlyLimit (e.now (x.firstCheck + 1))).1.1 = false ∨
          e.now (x.firstCheck + 1) + 3600 ≤ start := by
  cases x with
  | otpCall request =>
    obtain ⟨j, rfl, hlimits⟩ := rejected_sendOtpCall h
    exact RateLimiter.sameDecisions_iff_of_rejected hlimits fun hj => hstart 1 (by omega)
  | retry requestId body =>
    obtain ⟨mobile, j, rfl, hlimits⟩ := rejected_retryCall hc h
    exact RateLimiter.sameDecisions_iff_of_rejected hlimits fun hj => hstart 2 (by omega)
  | _ => cases hx

/-- A service for one call a number and two calls an hour. -/
def smallWorld : World := .startup 1 10 20 2

/-- The service after an accepted call at time 0, and after a second request for the same number at
time 1. -/
def afterFirst : World :=
  ((sendOtpCall sampleRequest).complete (World.respond (.calm 0 firstId [])) 0 smallWorld).2.2

/-- The state after the second request. -/
def afterSecond : World :=
  ((sendOtpCall sampleRequest).complete (World.respond (.calm 1 secondId [])) 0 afterFirst).2.2

theorem rejected_consumes_nothing_iff_second :
    RateLimiter.SameDecisions 1 afterFirst.limiter afterSecond.limiter ↔
      afterFirst.limiter.checkConcurrentCapacity.1 = false ∨
        (afterFirst.limiter.checkHourlyLimit 1).1.1 = false ∨ (1 : Time) + 3600 ≤ 1 :=
  rejected_consumes_nothing_iff (x := .otpCall sampleRequest) (e := .calm 1 secondId []) (n := 3)
    (d := some "حداکثر 1 تماس در 10 دقیقه - 599 ثانیه صبر کنید") rfl (.inr rfl)
    (Prod.ext (by decide +kernel) (Prod.ext (by decide +kernel) rfl)) fun _ _ => le_rfl

/-- The second request is rejected for its number, and yet it takes the last place of the hour from
a request for any other number. -/
theorem rejected_request_takes_place :
    ((sendOtpCall sampleRequest).complete (World.respond (.calm 1 secondId [])) 0 afterFirst).1 =
        .error (.http 429 (some "حداکثر 1 تماس در 10 دقیقه - 599 ثانیه صبر کنید")) ∧
      afterFirst.limiter.decisions [(.hourly, 2)] = [some true] ∧
      afterSecond.limiter.decisions [(.hourly, 2)] = [some false] := by
  decide +kernel

end OtpVoice
