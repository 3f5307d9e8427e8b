import OtpVoice.Core.RateLimiter
import OtpVoice.Library.SlidingWindow
import Mathlib.Tactic.Linarith

/-!
# Quotas of the rate limiter

Two views of the same logs. `SameDecisions` compares limiters by the answers of all later checks:
limiters whose hourly logs agree on the windows from now on cannot be told apart
(`sameDecisions_of_sameHours`), and a log with one entry more inside the window is noticed
(`not_sameDecisions_push`).
`Audited` relates a limiter to the full histories of its passed checks, and says that no window of
them holds more than the limit; every method keeps it.
-/

set_option autoImplicit false

namespace OtpVoice

open SlidingWindow

/-- The methods of the limiter. -/
inductive LimiterOp where
  | capacity | hourly | number (mobile : String) | acquire | release | cleanup

namespace RateLimiter

/-! ## The checks -/

/-- A check of the limit for a number has let the call pass. -/
def passes : Except String (Bool × Option String) → Bool
  | .ok (ok, _) => ok
  | .error _ => false

section Checks

variable (rl : RateLimiter) (mobile : String) (now : Time)

theorem checkHourlyLimit_full (h : rl.hourlyLimit ≤ (prune 3600 now rl.hourlyCalls).length) :
    (rl.checkHourlyLimit now).1.1 = false ∧
      (rl.checkHourlyLimit now).2 = { rl with hourlyCalls := prune 3600 now rl.hourlyCalls } := by
  simp only [prune] at h
  simp [checkHourlyLimit, h, prune]

theorem checkHourlyLimit_room (h : (prune 3600 now rl.hourlyCalls).length < rl.hourlyLimit) :
    rl.checkHourlyLimit now =
      ((true, none), { rl with hourlyCalls := prune 3600 now rl.hourlyCalls ++ [now] }) := by
  have h' := not_le.2 h
  simp only [prune] at h'
  simp [checkHourlyLimit, h', prune]

theorem checkNumberLimit_full
    (h : rl.perNumberCalls ≤ (prune (rl.perNumberWindow : Time) now (rl.history mobile)).length) :
    passes (rl.checkNumberLimit mobile now).1 = false ∧
      (rl.checkNumberLimit mobile now).2 = rl := by
  simp only [prune] at h
  cases hkept : (rl.history mobile).filter fun t => now - rl.perNumberWindow < t with
  | nil =>
    rw [hkept] at h
    simp only [checkNumberLimit, hkept, if_pos h, passes, and_self]
  | cons oldest rest =>
    rw [hkept] at h
    simp only [checkNumberLimit, hkept, if_pos h, passes, and_self]

theorem checkNumberLimit_room
    (h : (prune (rl.perNumberWindow : Time) now (rl.history mobile)).length < rl.perNumberCalls) :
    rl.checkNumberLimit mobile now = (.ok (true, none),
      { rl with
        numberHistory := rl.numberHistory.insert mobile
          (prune (rl.perNumberWindow : Time) now (rl.history mobile) ++ [now]) }) := by
  have h' := not_le.2 h
  simp only [prune] at h'
  simp [checkNumberLimit, h', prune]

end Checks

/-! ## Later decisions -/

/-- The decision of a check, if the method is one that decides. -/
def serve (rl : RateLimiter) (op : LimiterOp) (now : Time) : Option Bool × RateLimiter :=
  match op with
  | .capacity => (some rl.checkConcurrentCapacity.1, rl)
  | .hourly => (some (rl.checkHourlyLimit now).1.1, (rl.checkHourlyLimit now).2)
  | .number mobile =>
    ((rl.checkNumberLimit mobile now).1.toOption.map Prod.fst, (rl.checkNumberLimit mobile now).2)
  | .acquire => (none, rl.acquireSlot)
  | .release => (none, rl.releaseSlot)
  | .cleanup => (none, (rl.cleanup now).2)

/-- The decisions of a sequence of calls at the given times. -/
def decisions (rl : RateLimiter) : List (LimiterOp × Time) → List (Option Bool)
  | [] => []
  | (op, now) :: rest => (rl.serve op now).1 :: decisions (rl.serve op now).2 rest

/-- No sequence of calls from `start` on tells the limiters apart. -/
def SameDecisions (start : Time) (rl rl' : RateLimiter) : Prop :=
  ∀ ops : List (LimiterOp × Time), (∀ x ∈ ops, start ≤ x.2) → rl.decisions ops = rl'.decisions ops

/-- The limiters differ at most in the hourly log, and there in no window from `start` on. -/
def SameHours (start : Time) (rl rl' : RateLimiter) : Prop :=
  ∃ calls, rl' = { rl with hourlyCalls := calls } ∧ SameWindow 3600 start rl.hourlyCalls calls

variable {start now : Time} {rl rl' : RateLimiter}

/-- The per-number check neither reads nor changes the hourly log. -/
theorem checkNumberLimit_withHours (rl : RateLimiter) (mobile : String) (now : Time)
    (calls : List Time) :
    checkNumberLimit { rl with hourlyCalls := calls } mobile now =
      ((rl.checkNumberLimit mobile now).1,
        { (rl.checkNumberLimit mobile now).2 with hourlyCalls := calls }) := by
  have hhist : history { rl with hourlyCalls := calls } mobile = rl.history mobile := rfl
  cases hkept : (rl.history mobile).filter fun t => now - rl.perNumberWindow < t with
  | nil =>
    simp only [checkNumberLimit, hhist, hkept]
    split <;> rfl
  | cons oldest rest =>
    simp only [checkNumberLimit, hhist, hkept]
    split <;> rfl

theorem checkNumberLimit_hourlyCalls (rl : RateLimiter) (mobile : String) (now : Time) :
    (rl.checkNumberLimit mobile now).2.hourlyCalls = rl.hourlyCalls := by
  simp only [checkNumberLimit]
  split
  · split <;> rfl
  · rfl

theorem SameHours.serve (h : SameHours start rl rl') (op : LimiterOp) (hle : start ≤ now) :
    (rl.serve op now).1 = (rl'.serve op now).1 ∧
      SameHours start (rl.serve op now).2 (rl'.serve op now).2 := by
  obtain ⟨calls, rfl, hsame⟩ := h
  have hnow : (rl.hourlyCalls.filter fun t => now - 3600 < t) =
      calls.filter fun t => now - 3600 < t :=
    hsame now hle
  cases op with
  | capacity => exact ⟨rfl, calls, rfl, hsame⟩
  | hourly =>
    simp only [RateLimiter.serve, checkHourlyLimit, hnow, true_and]
    split
    · exact ⟨_, rfl, .refl _ _ _⟩
    · exact ⟨_, rfl, .refl _ _ _⟩
  | number mobile =>
    simp only [RateLimiter.serve, checkNumberLimit_withHours, true_and]
    exact ⟨calls, rfl, (checkNumberLimit_hourlyCalls rl mobile now).symm ▸ hsame⟩
  | acquire => exact ⟨rfl, calls, rfl, hsame⟩
  | release =>
    simp only [RateLimiter.serve, releaseSlot, true_and]
    split
    · exact ⟨calls, rfl, hsame⟩
    · exact ⟨calls, rfl, hsame⟩
  | cleanup =>
    refine ⟨rfl, calls.filter fun t => now - 3600 < t, ?_, ?_⟩
    · rfl
    · exact hnow ▸ SameWindow.refl _ _ _

/-- Limiters with the same hours ahead decide alike. -/
theorem sameDecisions_of_sameHours (h : SameHours start rl rl') : SameDecisions start rl rl' := by
  intro ops hops
  induction ops generalizing rl rl' with
  | nil => rfl
  | cons x rest ih =>
    obtain ⟨hfirst, hrest⟩ := h.serve x.1 (hops x List.mem_cons_self)
    simp only [decisions, hfirst]
    rw [ih hrest fun y hy => hops y (List.mem_cons_of_mem _ hy)]

/-- `j` hourly checks at one time pass exactly as long as the window has room for all of them. -/
theorem decisions_hourly (rl : RateLimiter) (now : Time) (j : ℕ) :
    rl.decisions (List.replicate j (.hourly, now)) = List.replicate j (some true) ↔
      j = 0 ∨ (prune 3600 now rl.hourlyCalls).length + j ≤ rl.hourlyLimit := by
  induction j generalizing rl with
  | zero => simp [decisions]
  | succ j ih =>
    rw [List.replicate_succ, List.replicate_succ, decisions, List.cons.injEq]
    -- the first check decides; a passed one fills one place
    by_cases hfull : rl.hourlyLimit ≤ (prune 3600 now rl.hourlyCalls).length
    · have hserve : (rl.serve .hourly now).1 = some false :=
        congrArg some (rl.checkHourlyLimit_full now hfull).1
      simp only [hserve, Option.some.injEq, Bool.false_eq_true, false_and, false_iff]
      omega
    · have hserve : rl.serve .hourly now =
          (some true, { rl with hourlyCalls := prune 3600 now rl.hourlyCalls ++ [now] }) := by
        simp only [serve, rl.checkHourlyLimit_room now (not_le.1 hfull)]
      have hlen : (prune 3600 now (prune 3600 now rl.hourlyCalls ++ [now])).length =
          (prune 3600 now rl.hourlyCalls).length + 1 := by
        have hnow : now - 3600 < now := by norm_num
        have happend : prune 3600 now (prune 3600 now rl.hourlyCalls ++ [now]) =
            prune 3600 now rl.hourlyCalls ++ [now] := by
          rw [← prune_prune (le_refl now) rl.hourlyCalls]
          simp [prune, hnow]
        rw [happend, List.length_append, List.length_singleton]
      simp only [hserve, ih, hlen, true_and]
      omega

/-- One entry more inside the window of `now` is noticed by enough hourly checks. -/
theorem not_sameDecisions_push {calls : List Time} {entry : Time}
    (hroom : (prune 3600 now rl.hourlyCalls).length < rl.hourlyLimit)
    (hcalls : prune 3600 now calls = prune 3600 now rl.hourlyCalls) (hin : now - 3600 < entry) :
    ¬ SameDecisions now rl { rl with hourlyCalls := calls ++ [entry] } := by
  intro hsame
  -- as many checks as `rl` has room for: the last one fails on the longer log
  set j := rl.hourlyLimit - (prune 3600 now rl.hourlyCalls).length with hj
  have heq := hsame (List.replicate j (.hourly, now)) fun x hx => by
    rw [List.eq_of_mem_replicate hx]
  have hpass := (decisions_hourly rl now j).2 (.inr (by omega))
  rw [heq, decisions_hourly] at hpass
  have hlen : (prune 3600 now (calls ++ [entry])).length =
      (prune 3600 now rl.hourlyCalls).length + 1 := by
    rw [← hcalls]
    simp [prune, hin]
  simp only [hlen] at hpass
  omega

/-! ## Full histories -/

/-- The limiter agrees at `now` with the histories of the passed checks, `hours` of the hourly one
and `numbers` of the one for each number, and no window of these holds more than its limit. -/
structure Audited (rl : RateLimiter) (now : Time) (hours : List Time)
    (numbers : String → List Time) : Prop where
  hourly : SameWindow 3600 now rl.hourlyCalls hours
  hourly_bounded : Bounded rl.hourlyLimit 3600 hours
  number : ∀ mobile, SameWindow (rl.perNumberWindow : Time) now (rl.history mobile) (numbers mobile)
  number_bounded : ∀ mobile, Bounded rl.perNumberCalls (rl.perNumberWindow : Time) (numbers mobile)

variable {now' : Time} {hours : List Time} {numbers : String → List Time}

theorem audited_init (perNumberCalls : ℕ) (minutes : ℤ) (maxConcurrent hourlyLimit : ℕ)
    (now : Time) :
    (init perNumberCalls minutes maxConcurrent hourlyLimit).Audited now [] fun _ => [] :=
  ⟨.refl _ _ _, bounded_nil _ _, fun _ => .refl _ _ _, fun _ => bounded_nil _ _⟩

namespace Audited

theorem later (h : rl.Audited now hours numbers) (hle : now ≤ now') :
    rl.Audited now' hours numbers :=
  ⟨h.hourly.later hle, h.hourly_bounded, fun mobile => (h.number mobile).later hle,
    h.number_bounded⟩

/-- A passed hourly check enters the history, a failed one only prunes the log. -/
theorem checkHourlyLimit (h : rl.Audited now hours numbers) :
    (rl.checkHourlyLimit now).2.Audited now
      (if (rl.checkHourlyLimit now).1.1 then hours ++ [now] else hours) numbers := by
  rcases le_or_gt rl.hourlyLimit (prune 3600 now rl.hourlyCalls).length with hfull | hroom
  · obtain ⟨hfirst, hsecond⟩ := rl.checkHourlyLimit_full now hfull
    rw [hfirst, hsecond]
    exact ⟨h.hourly.prune, h.hourly_bounded, h.number, h.number_bounded⟩
  · rw [rl.checkHourlyLimit_room now hroom]
    exact ⟨h.hourly.prune.push now, h.hourly_bounded.push h.hourly hroom, h.number,
      h.number_bounded⟩

/-- A passed per-number check enters the history of its number, a failed one changes nothing. -/
theorem checkNumberLimit (h : rl.Audited now hours numbers) (mobile : String) :
    (rl.checkNumberLimit mobile now).2.Audited now hours
      (if passes (rl.checkNumberLimit mobile now).1 then
        Function.update numbers mobile (numbers mobile ++ [now]) else numbers) := by
  rcases le_or_gt rl.perNumberCalls
    (prune (rl.perNumberWindow : Time) now (rl.history mobile)).length with hfull | hroom
  · obtain ⟨hfirst, hsecond⟩ := rl.checkNumberLimit_full mobile now hfull
    rw [hfirst, hsecond]
    exact h
  · rw [rl.checkNumberLimit_room mobile now hroom]
    simp only [passes, if_true]
    refine ⟨h.hourly, h.hourly_bounded, fun m => ?_, fun m => ?_⟩
    · by_cases hm : m = mobile
      · subst hm
        simpa [history] using (h.number m).prune.push now
      · simpa [history, Function.update_of_ne hm, AList.lookup_insert_ne hm] using h.number m
    · by_cases hm : m = mobile
      · subst hm
        simpa using (h.number_bounded m).push (h.number m) hroom
      · simpa [Function.update_of_ne hm] using h.number_bounded m

/-- Cleaning one key prunes the log of that key. -/
theorem lookup_cleanupKey (windowStart : Time) (table : AList fun _ : String => List Time)
    (key mobile : String) :
    ((cleanupKey windowStart table key).lookup mobile).getD [] =
      if mobile = key then ((table.lookup mobile).getD []).filter fun t => windowStart < t
      else (table.lookup mobile).getD [] := by
  by_cases hm : mobile = key
  · subst hm
    simp only [cleanupKey, if_true]
    split
    · rename_i hnil
      rw [AList.lookup_erase, hnil]
      rfl
    · rw [AList.lookup_insert]
      rfl
  · simp only [cleanupKey, hm, if_false]
    split
    · rw [AList.lookup_erase_ne hm]
    · rw [AList.lookup_insert_ne hm]

theorem cleanup (h : rl.Audited now hours numbers) :
    (rl.cleanup now).2.Audited now hours numbers := by
  refine ⟨h.hourly.prune, h.hourly_bounded, fun mobile => ?_, h.number_bounded⟩
  -- the keys are those of the table at the start, while the loop changes the table: the induction
  -- is on the keys, for every table
  have hkeys : ∀ (keys : List String) (table : AList fun _ : String => List Time),
      (∀ m, SameWindow (rl.perNumberWindow : Time) now ((table.lookup m).getD []) (numbers m)) →
      ∀ m, SameWindow (rl.perNumberWindow : Time) now
        (((keys.foldl (cleanupKey (now - rl.perNumberWindow)) table).lookup m).getD [])
        (numbers m) := by
    intro keys
    induction keys with
    | nil => exact fun _ htable => htable
    | cons key keys ih =>
      refine fun table htable => ih _ fun m => ?_
      rw [lookup_cleanupKey]
      split
      · exact (htable m).prune
      · exact htable m
  exact hkeys _ rl.numberHistory h.number mobile

end Audited

end RateLimiter

end OtpVoice
