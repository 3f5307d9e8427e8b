import OtpVoice.Core.FullLog
import Mathlib

/-!
# The advertised waiting time

A rejected `check_number_limit` tells the caller how many seconds to wait: the rest of the window of
the oldest entry, without its fraction. The window is open at its beginning, so that entry leaves it
only when the whole rest has passed. `waiting_sufficient_iff`: the advertised time is enough exactly
when the oldest entry in the window is a whole number of seconds old.

The lemmas of `Std` on the texts of integers come with `Mathlib` as a whole only.
-/

set_option autoImplicit false

namespace OtpVoice

open SlidingWindow

/-! ## Truncation -/

theorem truncate_eq_floor {x : ℚ} (h : 0 ≤ x) : truncate x = ⌊x⌋ := by
  rw [truncate, Rat.floor_def', Int.tdiv_eq_ediv_of_nonneg (Rat.num_nonneg.2 h)]

/-- Truncation drops nothing exactly from the integers. -/
theorem le_truncate_iff {x : ℚ} (h : 0 ≤ x) : x ≤ truncate x ↔ ∃ k : ℤ, x = k := by
  rw [truncate_eq_floor h]
  constructor
  · intro hle
    exact ⟨⌊x⌋, le_antisymm hle (Int.floor_le x)⟩
  · rintro ⟨k, rfl⟩
    rw [Int.floor_intCast]

namespace RateLimiter

/-- The message of a rejected check of a number. -/
def limitText (rl : RateLimiter) (waitSec : ℤ) : String :=
  "حداکثر " ++ toString rl.perNumberCalls ++ " تماس در " ++
    toString (rl.perNumberWindow / 60) ++ " دقیقه - " ++ toString waitSec ++ " ثانیه صبر کنید"

/-- The check of a number is rejected with the waiting time `waitSec`. -/
def Rejects (rl : RateLimiter) (mobile : String) (now : Time) (waitSec : ℤ) : Prop :=
  (rl.checkNumberLimit mobile now).1 = .ok (false, some (rl.limitText waitSec))

/-- Whoever waits for `waitSec` seconds after the check at `now` is accepted, whatever else is
called in between, as long as no other check of the number is accepted. -/
def Sufficient (rl : RateLimiter) (mobile : String) (now : Time) (waitSec : ℤ) : Prop :=
  let rl := (rl.checkNumberLimit mobile now).2
  ∀ ops now', Clocked ops → (∀ x ∈ ops, now ≤ x.2 ∧ x.2 ≤ now') → now + waitSec ≤ now' →
    accepted (.number mobile) ops (rl.decisions ops) = [] →
      passes ((rl.after ops).checkNumberLimit mobile now').1 = true

/-- The oldest entry of the number in the window that ends at `now` is a whole number of seconds
old. -/
def WholeSeconds (rl : RateLimiter) (mobile : String) (now : Time) : Prop :=
  ∃ oldest rest, prune (rl.perNumberWindow : Time) now (rl.history mobile) = oldest :: rest ∧
    ∃ k : ℤ, now - oldest = k

variable {rl : RateLimiter} {log : FullLog} {mobile : String} {now now' : Time} {waitSec : ℤ}

/-- What a rejection says about the log. -/
theorem Rejects.oldest (h : rl.Rejects mobile now waitSec) :
    ∃ oldest rest, prune (rl.perNumberWindow : Time) now (rl.history mobile) = oldest :: rest ∧
      rl.perNumberCalls ≤ rest.length + 1 ∧
      waitSec = truncate (oldest - (now - rl.perNumberWindow)) := by
  simp only [Rejects, checkNumberLimit] at h
  split at h
  · rename_i hfull
    split at h
    · cases h
    · rename_i oldest rest hkept
      rw [hkept, List.length_cons] at hfull
      refine ⟨oldest, rest, hkept, hfull, ?_⟩
      -- the message determines the number in it
      have htext := Option.some.inj (Prod.mk.inj (Except.ok.inj h)).2
      unfold limitText at htext
      have hnumber := (String.append_right_inj _).1 ((String.append_left_inj _).1 htext)
      exact (Int.repr_inj.1 hnumber).symm
  · cases h

/-- A rejection changes nothing. -/
theorem Rejects.state (h : rl.Rejects mobile now waitSec) :
    (rl.checkNumberLimit mobile now).2 = rl := by
  obtain ⟨oldest, rest, hkept, hfull, -⟩ := h.oldest
  exact (rl.checkNumberLimit_full mobile now (by simpa [hkept] using hfull)).2

/-- The decision of a later check, when no check of the number was accepted in between. -/
theorem Follows.decision_after (h : rl.Follows log now) {ops : List (LimiterOp × Time)}
    (hclock : Clocked ops) (hbetween : ∀ x ∈ ops, now ≤ x.2 ∧ x.2 ≤ now') (hle : now ≤ now')
    (hnone : accepted (.number mobile) ops (rl.decisions ops) = []) :
    passes ((rl.after ops).checkNumberLimit mobile now').1 = true ↔
      (prune (rl.perNumberWindow : Time) now' (log.entries (.number mobile))).length <
        rl.perNumberCalls := by
  have hnow : ∀ x ∈ ops, now ≤ x.2 := fun x hx => (hbetween x hx).1
  have hafter := h.after hnow hclock hle fun x hx => (hbetween x hx).2
  obtain ⟨hlimit, hwidth⟩ := log.after_limit ops
  have hchecks : (LimiterOp.number mobile).checks = true := rfl
  rw [h.accepts hchecks hnow hclock] at hnone
  rw [hafter.number_decision, FullLog.room_iff, FullLog.entries_after, hnone, List.append_nil,
    hlimit, hwidth, h.limit, h.width]
  rfl

/-- The window of a rejected check is full, and the message tells the rest of its oldest entry. -/
theorem Follows.window (h : rl.Follows log now)
    (hpast : ∀ τ ∈ log.entries (.number mobile), τ ≤ now)
    (hrejects : rl.Rejects mobile now waitSec) :
    ∃ oldest rest, prune (rl.perNumberWindow : Time) now (rl.history mobile) = oldest :: rest ∧
      prune (rl.perNumberWindow : Time) now (log.entries (.number mobile)) = oldest :: rest ∧
      rest.length + 1 = rl.perNumberCalls ∧ 0 ≤ oldest - (now - rl.perNumberWindow) ∧
      waitSec = truncate (oldest - (now - rl.perNumberWindow)) := by
  obtain ⟨oldest, rest, hkept, hfull, hwait⟩ := hrejects.oldest
  have hprune := (h.audited.number mobile now le_rfl).symm.trans hkept
  refine ⟨oldest, rest, hkept, hprune, ?_, ?_, hwait⟩
  · -- no window holds more than the limit
    have hbound := h.audited.number_bounded mobile now
    rw [count_eq_length_prune hpast, hprune] at hbound
    exact Nat.le_antisymm hbound hfull
  · have hmem : oldest ∈ prune (rl.perNumberWindow : Time) now (rl.history mobile) := by
      rw [hkept]
      exact List.mem_cons_self
    have hin := of_decide_eq_true (List.mem_filter.1 hmem).2
    linarith

/-- The window is a whole number of seconds, so the oldest entry is a whole number of seconds old if
its rest is one. -/
theorem wholeSeconds_iff {oldest : Time} {rest : List Time}
    (hkept : prune (rl.perNumberWindow : Time) now (rl.history mobile) = oldest :: rest) :
    rl.WholeSeconds mobile now ↔ ∃ k : ℤ, oldest - (now - rl.perNumberWindow) = k := by
  constructor
  · rintro ⟨oldest', rest', hkept', k, hk⟩
    obtain ⟨rfl, rfl⟩ := List.cons.inj (hkept.symm.trans hkept')
    refine ⟨rl.perNumberWindow - k, ?_⟩
    rw [Int.cast_sub, ← hk]
    ring
  · rintro ⟨k, hk⟩
    refine ⟨oldest, rest, hkept, rl.perNumberWindow - k, ?_⟩
    rw [Int.cast_sub, ← hk]
    ring

/-- For a limiter that follows a full log of ordered past entries. -/
theorem Follows.sufficient_iff (h : rl.Follows log now)
    (hsorted : (log.entries (.number mobile)).Pairwise (· ≤ ·))
    (hpast : ∀ τ ∈ log.entries (.number mobile), τ ≤ now)
    (hrejects : rl.Rejects mobile now waitSec) :
    rl.Sufficient mobile now waitSec ↔ rl.WholeSeconds mobile now := by
  obtain ⟨oldest, rest, hkept, hprune, hlength, hremains, hwait⟩ := h.window hpast hrejects
  have hordered : (oldest :: rest).Pairwise (· ≤ ·) := by
    rw [← hprune]
    exact hsorted.sublist List.filter_sublist
  have hnonneg : (0 : Time) ≤ waitSec := by
    rw [hwait, truncate_eq_floor hremains]
    exact_mod_cast Int.floor_nonneg.2 hremains
  have hle : now ≤ now + (waitSec : Time) := by linarith
  -- a later check passes exactly when the oldest entry has left the window
  have hpasses : ∀ ops now', Clocked ops → (∀ x ∈ ops, now ≤ x.2 ∧ x.2 ≤ now') → now ≤ now' →
      accepted (.number mobile) ops (rl.decisions ops) = [] →
        (passes ((rl.after ops).checkNumberLimit mobile now').1 = true ↔
          oldest ≤ now' - rl.perNumberWindow) := by
    intro ops now' hclock hbetween hnow hnone
    rw [h.decision_after hclock hbetween hnow hnone, ← prune_prune hnow, hprune,
      ← length_prune_cons_le_iff hordered]
    omega
  rw [wholeSeconds_iff hkept, ← le_truncate_iff hremains, ← hwait]
  simp only [Sufficient, hrejects.state]
  constructor
  · intro hsufficient
    have hout := (hpasses [] (now + waitSec) List.Pairwise.nil (by simp) hle rfl).1
      (hsufficient [] (now + waitSec) List.Pairwise.nil (by simp) le_rfl rfl)
    linarith
  · intro hrest ops now' hclock hbetween hafter hnone
    apply (hpasses ops now' hclock hbetween (hle.trans hafter) hnone).2
    linarith

/-- For every limiter that is reached with a nondecreasing clock: the waiting time of a rejected
check is sufficient if and only if the oldest entry in the window is a whole number of seconds
old. -/
theorem waiting_sufficient_iff {perNumberCalls : ℕ} (hcalls : 1 ≤ perNumberCalls) (minutes : ℤ)
    (maxConcurrent hourlyLimit : ℕ) {ops : List (LimiterOp × Time)} (hclock : Clocked ops)
    {mobile : String} {now : Time} (hnow : ∀ x ∈ ops, x.2 ≤ now) {waitSec : ℤ} :
    let rl := (init perNumberCalls minutes maxConcurrent hourlyLimit).after ops
    rl.Rejects mobile now waitSec →
      (rl.Sufficient mobile now waitSec ↔ rl.WholeSeconds mobile now) := by
  intro rl hrejects
  set start := init perNumberCalls minutes maxConcurrent hourlyLimit
  obtain ⟨first, hfirst, hle⟩ : ∃ first, (∀ x ∈ ops, first ≤ x.2) ∧ first ≤ now := by
    cases ops with
    | nil => exact ⟨now, by simp, le_rfl⟩
    | cons x ops =>
      refine ⟨x.2, ?_, hnow x List.mem_cons_self⟩
      intro y hy
      rcases List.mem_cons.1 hy with rfl | hy
      · exact le_rfl
      · exact (List.pairwise_cons.1 hclock).1 y hy
  have hfollows : rl.Follows (start.fullLog.after ops) now :=
    (follows_init hcalls minutes maxConcurrent hourlyLimit first).after hfirst hclock hle hnow
  have hentries : ((start.fullLog.after ops).entries (.number mobile)).Sublist
      (ops.map Prod.snd) := by
    rw [FullLog.entries_after]
    exact accepted_sublist _ _ _
  apply hfollows.sufficient_iff _ _ hrejects
  · exact (List.pairwise_map.2 hclock).sublist hentries
  · intro τ hτ
    obtain ⟨x, hx, rfl⟩ := List.mem_map.1 (hentries.subset hτ)
    exact hnow x hx

/-- A limiter with one accepted check of a number, half a second after the full second. -/
def halfSecond : RateLimiter := (init 1 1 20 500).after [(.number "a", 1 / 2)]

/-- A second after a check at the full second, the advertised 59 seconds are enough. -/
theorem waiting_sufficient_iff_whole :
    let rl := (init 1 1 20 500).after [(.number "a", 1)]
    rl.Rejects "a" 2 59 ∧ rl.Sufficient "a" 2 59 := by
  intro rl
  have hrejects : rl.Rejects "a" 2 59 := by
    unfold Rejects
    decide +kernel
  refine ⟨hrejects, ?_⟩
  have hclock : Clocked [(.number "a", 1)] := List.pairwise_singleton _ _
  refine (waiting_sufficient_iff (by decide) 1 20 500 hclock (by simp) hrejects).2 ?_
  exact ⟨1, [], by decide +kernel, 1, by decide +kernel⟩

/-- The message says 59 seconds, and after 59 seconds the check is rejected. -/
theorem waiting_insufficient :
    halfSecond.Rejects "a" 1 59 ∧ ¬ halfSecond.Sufficient "a" 1 59 := by
  have hrejects : halfSecond.Rejects "a" 1 59 := by
    unfold Rejects
    decide +kernel
  refine ⟨hrejects, ?_⟩
  intro hsufficient
  have hpasses := hsufficient [] 60 List.Pairwise.nil (by simp) (by norm_num) rfl
  rw [hrejects.state] at hpasses
  exact absurd hpasses (by decide +kernel)

end RateLimiter

end OtpVoice
