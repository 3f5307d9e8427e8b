import Mathlib.Algebra.Order.Group.Defs
import Mathlib.Algebra.Order.Group.Unbundled.Basic
import Mathlib.Data.List.Basic

/-!
# Sliding-window logs

A limiter that admits at most `n` events in every window of a fixed width keeps a log of the
admitted times and drops what has left the window. `SameWindow width now kept full` says that the
log kept and the full history agree on every window that ends at `now` or later; it is kept by
pruning (`SameWindow.prune`), by the passing of time (`SameWindow.later`) and by a new entry
(`SameWindow.push`). `Bounded n width full` says that no window of the history holds more than `n`
events, and `Bounded.push` that it is kept when an event is admitted because the log has fewer than
`n` entries in the present window. A full log has room again when its oldest entry has left the
window (`length_prune_cons_le_iff`).
-/

set_option autoImplicit false

namespace SlidingWindow

variable {T : Type} [AddCommGroup T] [LinearOrder T]

/-- The entries after the beginning of the window that ends at `now`. -/
def prune (width now : T) (log : List T) : List T := log.filter fun t => now - width < t

/-- The number of entries in the window `(t - width, t]`. -/
def count (width t : T) (log : List T) : ℕ := log.countP fun τ => t - width < τ ∧ τ ≤ t

/-- No window holds more than `n` entries. -/
def Bounded (n : ℕ) (width : T) (log : List T) : Prop := ∀ t, count width t log ≤ n

/-- From `now` on, two logs have the same entries in every window. -/
def SameWindow (width now : T) (kept full : List T) : Prop :=
  ∀ t, now ≤ t → prune width t kept = prune width t full

variable {width now now' : T} {kept full : List T} {n : ℕ}

theorem SameWindow.refl (width now : T) (log : List T) : SameWindow width now log log :=
  fun _ _ => rfl

theorem SameWindow.symm (h : SameWindow width now kept full) : SameWindow width now full kept :=
  fun t ht => (h t ht).symm

theorem SameWindow.later (h : SameWindow width now kept full) (hle : now ≤ now') :
    SameWindow width now' kept full :=
  fun t ht => h t (hle.trans ht)

theorem SameWindow.push (h : SameWindow width now kept full) (entry : T) :
    SameWindow width now (kept ++ [entry]) (full ++ [entry]) := by
  intro t ht
  simp only [prune, List.filter_append]
  exact congrArg (· ++ _) (h t ht)

theorem bounded_nil (n : ℕ) (width : T) : Bounded n width [] := fun _ => Nat.zero_le n

/-- The window that ends now holds the whole pruned log, when no entry is later. -/
theorem count_eq_length_prune {log : List T} (hpast : ∀ τ ∈ log, τ ≤ now) :
    count width now log = (prune width now log).length := by
  rw [count, prune, ← List.countP_eq_length_filter]
  apply List.countP_congr
  intro τ hτ
  simp [hpast τ hτ]

/-- An ordered log loses an entry exactly when its oldest one has left the window. -/
theorem length_prune_cons_le_iff {oldest : T} {rest : List T}
    (hsorted : (oldest :: rest).Pairwise (· ≤ ·)) :
    (prune width now (oldest :: rest)).length ≤ rest.length ↔ oldest ≤ now - width := by
  constructor
  · intro hle
    by_contra hin
    -- the other entries are not older, so that the window still holds all of them
    have hall : prune width now (oldest :: rest) = oldest :: rest := by
      apply List.filter_eq_self.2
      intro τ hτ
      rw [decide_eq_true_eq]
      rcases List.mem_cons.1 hτ with rfl | hτ
      · exact not_le.1 hin
      · exact (not_le.1 hin).trans_le ((List.pairwise_cons.1 hsorted).1 τ hτ)
    rw [hall] at hle
    exact absurd hle (Nat.not_succ_le_self _)
  · intro hout
    have hdrop : prune width now (oldest :: rest) = prune width now rest := by
      simp [prune, not_lt.2 hout]
    rw [hdrop]
    exact List.length_filter_le _ _

section Ordered

variable [IsOrderedAddMonoid T]

theorem prune_prune (h : now ≤ now') (log : List T) :
    prune width now' (prune width now log) = prune width now' log := by
  simp only [prune, List.filter_filter]
  apply List.filter_congr
  intro t _
  have hle : now - width ≤ now' - width := sub_le_sub_right h width
  simpa using fun ht : now' - width < t => hle.trans_lt ht

theorem SameWindow.prune (h : SameWindow width now kept full) :
    SameWindow width now (prune width now kept) full :=
  fun t ht => (prune_prune ht kept).trans (h t ht)

/-- An entry may be admitted when the log kept has fewer than `n` entries in the present window. A
window that ends before the new entry does not hold it; one that ends later holds, besides it, only
entries of the present window. -/
theorem Bounded.push (h : Bounded n width full) (hsame : SameWindow width now kept full)
    (hlt : (SlidingWindow.prune width now kept).length < n) : Bounded n width (full ++ [now]) := by
  intro t
  rw [count, List.countP_append, List.countP_singleton]
  rcases lt_or_ge t now with ht | ht
  · have hout : ¬ (t - width < now ∧ now ≤ t) := fun hin => absurd hin.2 (not_le.2 ht)
    rw [if_neg (by simpa using hout), Nat.add_zero]
    exact h t
  · have hle : full.countP (fun τ => t - width < τ ∧ τ ≤ t) ≤
        (SlidingWindow.prune width now full).length := by
      rw [SlidingWindow.prune, ← List.countP_eq_length_filter]
      apply List.countP_mono_left
      intro τ _ hτ
      simp only [decide_eq_true_eq] at hτ ⊢
      exact (sub_le_sub_right ht width).trans_lt hτ.1
    rw [← hsame now le_rfl] at hle
    split <;> omega

end Ordered

end SlidingWindow
