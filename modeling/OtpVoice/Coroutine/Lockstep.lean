import OtpVoice.Coroutine.Turns

/-!
# Two runs in lockstep

A coroutine that runs on two states gets the same answers, and goes on in the same way, as long as
each of its commands answers the same on both. `suspend_lockstep` is the rule for one turn: it needs
a relation between the two states that each allowed command keeps. `suspend_keeps` is the same rule
for one state.
-/

set_option autoImplicit false

namespace Coroutine

namespace Service

variable {C : Type} {R : C → Type} {E σ μ Out : Type}
variable {A G : μ → (c : C) → Except E (R c) → μ → Prop} {post : Except E Out → μ → Prop}
variable {yields : C → Bool} {respond : ℕ → σ → (c : C) → Except E (R c) × σ}

/-- The command is allowed with the memory `m`, whatever its answer is. -/
def Allowed (A G : μ → (c : C) → Except E (R c) → μ → Prop) (m : μ) (c : C) : Prop :=
  ∀ r m', A m c r m' → G m c r m'

/-- The rule of two runs: `Run` relates the memory and the two states between the commands of a
turn, and `Stop` after the command at which the turn ends. The induction follows the coroutine. -/
theorem suspend_lockstep (Run Stop : μ → σ → σ → Prop)
    (hstep : ∀ n m c s s', Allowed A G m c → Run m s s' →
      (respond n s' c).1 = (respond n s c).1 ∧ ∃ m', A m c (respond n s c).1 m' ∧
        (yields c = false → Run m' (respond n s c).2 (respond n s' c).2) ∧
        (yields c = true → Stop m' (respond n s c).2 (respond n s' c).2))
    {p : Coro C R E Out} {n : ℕ} {m : μ} {s s' : σ} (hsat : Coro.Sat A G post p m)
    (hrun : Run m s s') :
    (suspend yields respond p n s').1 = (suspend yields respond p n s).1 ∧
      ∃ m', Coro.Sat A G post (suspend yields respond p n s).1 m' ∧
        (((suspend yields respond p n s).1.isDone = true ∧
            Run m' (suspend yields respond p n s).2 (suspend yields respond p n s').2) ∨
          Stop m' (suspend yields respond p n s).2 (suspend yields respond p n s').2) := by
  induction p generalizing n m s s' with
  | done r => exact ⟨rfl, m, hsat, .inl ⟨rfl, hrun⟩⟩
  | call c k ih =>
    have hallowed : Allowed A G m c := by
      intro r m' hA
      exact (hsat r m' hA).1
    obtain ⟨hanswer, m', hA, hgo, hstop⟩ := hstep n m c s s' hallowed hrun
    have hrest := (hsat _ m' hA).2
    simp only [suspend, hanswer]
    cases hyields : yields c with
    | false =>
      -- the turn goes on
      simp only [Bool.false_and, Bool.false_eq_true, if_false]
      exact ih _ hrest (hgo hyields)
    | true =>
      cases hdone : (k (respond n s c).1).isDone with
      | false =>
        simp only [Bool.not_false, Bool.and_self, if_true]
        exact ⟨trivial, m', hrest, .inr (hstop hyields)⟩
      | true =>
        -- the command was the last one
        simp only [Bool.not_true, Bool.and_false, Bool.false_eq_true, if_false]
        obtain ⟨r, hr⟩ : ∃ r, k (respond n s c).1 = .done r := by
          cases hk : k (respond n s c).1 with
          | done r => exact ⟨r, rfl⟩
          | call c' k' =>
            rw [hk] at hdone
            cases hdone
        rw [hr] at hrest ⊢
        exact ⟨rfl, m', hrest, .inr (hstop hyields)⟩

/-- The rule of one run: what each allowed command keeps holds at the end of a turn. -/
theorem suspend_keeps (Run Stop : μ → σ → Prop)
    (hstep : ∀ n m c s, Allowed A G m c → Run m s → ∃ m', A m c (respond n s c).1 m' ∧
      (yields c = false → Run m' (respond n s c).2) ∧
      (yields c = true → Stop m' (respond n s c).2))
    {p : Coro C R E Out} {n : ℕ} {m : μ} {s : σ} (hsat : Coro.Sat A G post p m) (hrun : Run m s) :
    ∃ m', Coro.Sat A G post (suspend yields respond p n s).1 m' ∧
      (((suspend yields respond p n s).1.isDone = true ∧
          Run m' (suspend yields respond p n s).2) ∨
        Stop m' (suspend yields respond p n s).2) := by
  have hboth : ∀ n m c s s', Allowed A G m c → (s' = s ∧ Run m s) →
      (respond n s' c).1 = (respond n s c).1 ∧ ∃ m', A m c (respond n s c).1 m' ∧
        (yields c = false →
          (respond n s' c).2 = (respond n s c).2 ∧ Run m' (respond n s c).2) ∧
        (yields c = true → Stop m' (respond n s c).2) := by
    rintro n m c s s' hallowed ⟨rfl, hrun⟩
    obtain ⟨m', hA, hgo, hstop⟩ := hstep n m c s' hallowed hrun
    exact ⟨rfl, m', hA, fun hyields => ⟨rfl, hgo hyields⟩, hstop⟩
  obtain ⟨-, m', hrest, ⟨hdone, -, hend⟩ | hstop⟩ := suspend_lockstep
    (fun m s s' => s' = s ∧ Run m s) (fun m s _ => Stop m s) hboth (n := n) hsat ⟨rfl, hrun⟩
  · exact ⟨m', hrest, .inl ⟨hdone, hend⟩⟩
  · exact ⟨m', hrest, .inr hstop⟩

end Service

end Coroutine
