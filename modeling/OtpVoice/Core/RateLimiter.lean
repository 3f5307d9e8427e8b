import Mathlib.Data.List.AList
import Mathlib.Data.Rat.Defs
import Mathlib.Algebra.Order.Ring.Rat

/-!
# The rate limiter

The class `RateLimiter` of `src/core/rate_limiter.py`, one function for each method. The methods
with a body under `self._lock` never wait inside it, so each is one step; it takes the clock reading
`now` of its `time.time()`. Times are rational seconds. The semaphore of the class is created and
never used, and is left out.
-/

set_option autoImplicit false

namespace OtpVoice

/-- Unix time in seconds. -/
abbrev Time := ℚ

/-- `int(x)` of a number: truncation. -/
def truncate (x : ℚ) : ℤ := x.num.tdiv x.den

/-- The state of a `RateLimiter`. -/
structure RateLimiter where
  perNumberCalls : ℕ
  perNumberWindow : ℤ
  numberHistory : AList fun _ : String => List Time
  activeCount : ℕ
  maxConcurrent : ℕ
  hourlyLimit : ℕ
  hourlyCalls : List Time

namespace RateLimiter

/-- `RateLimiter(...)`: empty logs. -/
def init (perNumberCalls : ℕ) (perNumberWindowMinutes : ℤ) (maxConcurrent hourlyLimit : ℕ) :
    RateLimiter :=
  ⟨perNumberCalls, perNumberWindowMinutes * 60, ∅, 0, maxConcurrent, hourlyLimit, []⟩

/-- `self._number_history.get(mobile, [])`. -/
def history (rl : RateLimiter) (mobile : String) : List Time :=
  (rl.numberHistory.lookup mobile).getD []

/-- An error is the `IndexError` of `history[0]`, which needs `per_number_calls = 0`. -/
def checkNumberLimit (rl : RateLimiter) (mobile : String) (now : Time) :
    Except String (Bool × Option String) × RateLimiter :=
  let windowStart := now - rl.perNumberWindow
  let history := (rl.history mobile).filter fun t => windowStart < t
  if rl.perNumberCalls ≤ history.length then
    match history with
    | [] => (.error "list index out of range", rl)
    -- a refused check does not store the pruned history
    | oldest :: _ =>
      let waitSec := truncate (oldest - windowStart)
      (.ok (false, some ("حداکثر " ++ toString rl.perNumberCalls ++ " تماس در " ++
        toString (rl.perNumberWindow / 60) ++ " دقیقه - " ++ toString waitSec ++
        " ثانیه صبر کنید")), rl)
  else
    (.ok (true, none),
      { rl with numberHistory := rl.numberHistory.insert mobile (history ++ [now]) })

/-- `check_hourly_limit`. -/
def checkHourlyLimit (rl : RateLimiter) (now : Time) : (Bool × Option String) × RateLimiter :=
  let calls := rl.hourlyCalls.filter fun t => now - 3600 < t
  if rl.hourlyLimit ≤ calls.length then
    -- here the pruned log is kept in both cases
    ((false, some ("محدودیت " ++ toString rl.hourlyLimit ++ " تماس در ساعت اعمال شده")),
      { rl with hourlyCalls := calls })
  else ((true, none), { rl with hourlyCalls := calls ++ [now] })

/-- `check_concurrent_capacity`. -/
def checkConcurrentCapacity (rl : RateLimiter) : Bool × Option String :=
  if rl.maxConcurrent ≤ rl.activeCount then
    (false, some ("ظرفیت سیستم پر است (" ++ toString rl.maxConcurrent ++ " تماس همزمان)"))
  else (true, none)

/-- `acquire_slot`. -/
def acquireSlot (rl : RateLimiter) : RateLimiter := { rl with activeCount := rl.activeCount + 1 }

/-- `release_slot`. -/
def releaseSlot (rl : RateLimiter) : RateLimiter :=
  if 0 < rl.activeCount then { rl with activeCount := rl.activeCount - 1 } else rl

/-- The property `active_calls`. -/
def activeCalls (rl : RateLimiter) : ℕ := rl.activeCount

/-- `max(0, max_concurrent - active)`, the subtraction of natural numbers. -/
def availableChannels (rl : RateLimiter) : ℕ := rl.maxConcurrent - rl.activeCount

/-- One pass of the loop of `cleanup` over a key. -/
def cleanupKey (windowStart : Time) (h : AList fun _ : String => List Time) (mobile : String) :
    AList fun _ : String => List Time :=
  let history := ((h.lookup mobile).getD []).filter fun t => windowStart < t
  if history = [] then h.erase mobile else h.insert mobile history

/-- `cleanup` and its log line. -/
def cleanup (rl : RateLimiter) (now : Time) : String × RateLimiter :=
  let windowStart := now - rl.perNumberWindow
  let numberHistory := rl.numberHistory.keys.foldl (cleanupKey windowStart) rl.numberHistory
  ("Cleanup done. Active numbers tracked: " ++ toString numberHistory.keys.length,
    { rl with numberHistory := numberHistory,
              hourlyCalls := rl.hourlyCalls.filter fun t => now - 3600 < t })

end RateLimiter

end OtpVoice
