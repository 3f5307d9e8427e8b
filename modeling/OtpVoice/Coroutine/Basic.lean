import Mathlib.Data.Nat.Notation
import Mathlib.Logic.Basic

/-!
# Coroutines over a set of commands

A coroutine issues commands `c : C` to its environment, waits for an answer in `R c` or for an
exception in `E`, and ends with a value or with an exception of its own. `Coro` is the tree of all
its behaviours; the environment picks the branch. It is a monad with exceptions, so that a function
written with `await`, `try` and `finally` has a direct translation.

`Sat` is the program logic: `Sat A G post p s` says that along every run of `p` from the state `s`,
with answers and state changes in `A`, every command satisfies the guarantee `G`, and that the run
ends in `post`. The rules `sat_bind`, `sat_tryCatch` and `sat_tryFinally` follow the operations of
the monad. `Uses P p` bounds the commands that occur in `p`, and `Sat.of_uses` is the frame rule for
them.
-/

set_option autoImplicit false

namespace Coroutine

/-- A coroutine with commands `C`, answers `R`, exceptions `E` and results `α`. -/
inductive Coro (C : Type) (R : C → Type) (E : Type) (α : Type) where
  | done (r : Except E α)
  | call (c : C) (k : Except E (R c) → Coro C R E α)

namespace Coro

variable {C : Type} {R : C → Type} {E : Type} {α β σ : Type}

/-- Sequencing; an exception skips the continuation. -/
def bind : Coro C R E α → (α → Coro C R E β) → Coro C R E β
  | .done (.ok a), f => f a
  | .done (.error x), _ => .done (.error x)
  | .call c k, f => .call c fun r => (k r).bind f

/-- `try: p except x: h x`. -/
def tryCatch : Coro C R E α → (E → Coro C R E α) → Coro C R E α
  | .done (.ok a), _ => .done (.ok a)
  | .done (.error x), h => h x
  | .call c k, h => .call c fun r => (k r).tryCatch h

/-- `try: p finally: q`; an exception of `q` replaces the outcome of `p`. -/
def tryFinally : Coro C R E α → Coro C R E Unit → Coro C R E α
  -- `q` runs after a value and after an exception, and passes the outcome on when it ends normally
  | .done r, q => q.bind fun _ => .done r
  | .call c k, q => .call c fun r => (k r).tryFinally q

/-- Issue one command. -/
def perform (c : C) : Coro C R E (R c) := .call c .done

/-- The coroutine has ended. -/
def isDone : Coro C R E α → Bool
  | .done _ => true
  | .call _ _ => false

instance : Monad (Coro C R E) where
  pure a := .done (.ok a)
  bind := Coro.bind

instance : MonadExceptOf E (Coro C R E) where
  throw x := .done (.error x)
  tryCatch := Coro.tryCatch

/-! ## The program logic -/

/-- What a coroutine does from the state `s`, for all answers that `A` allows: `G` at each command
and `post` at the end. -/
def Sat (A : σ → (c : C) → Except E (R c) → σ → Prop) (G : σ → (c : C) → Except E (R c) → σ → Prop)
    (post : Except E α → σ → Prop) : Coro C R E α → σ → Prop
  | .done r, s => post r s
  | .call c k, s => ∀ r s', A s c r s' → G s c r s' ∧ Sat A G post (k r) s'

section Rules

variable {A : σ → (c : C) → Except E (R c) → σ → Prop} {G : σ → (c : C) → Except E (R c) → σ → Prop}

/-- The postcondition of a first part under which the continuation `f` goes on. -/
def andThen (A : σ → (c : C) → Except E (R c) → σ → Prop)
    (G : σ → (c : C) → Except E (R c) → σ → Prop) (post : Except E β → σ → Prop)
    (f : α → Coro C R E β) : Except E α → σ → Prop
  | .ok a, s => Sat A G post (f a) s
  | .error x, s => post (.error x) s

/-- The postcondition of a `try` body under which the handler `h` takes over. -/
def orElse (A : σ → (c : C) → Except E (R c) → σ → Prop)
    (G : σ → (c : C) → Except E (R c) → σ → Prop) (post : Except E α → σ → Prop)
    (h : E → Coro C R E α) : Except E α → σ → Prop
  | .ok a, s => post (.ok a) s
  | .error x, s => Sat A G post (h x) s

/-- The rule of sequencing. The induction follows the first part; its end hands the state over to
`f`, or skips it. -/
theorem sat_bind (post : Except E β → σ → Prop) (f : α → Coro C R E β) (p : Coro C R E α) (s : σ) :
    Sat A G post (p >>= f) s ↔ Sat A G (andThen A G post f) p s := by
  induction p generalizing s with
  | done r => cases r <;> rfl
  | call c k ih =>
    show (∀ r s', A s c r s' → G s c r s' ∧ Sat A G post (k r >>= f) s') ↔ _
    simp only [ih]
    rfl

theorem sat_tryCatch (post : Except E α → σ → Prop) (h : E → Coro C R E α) (p : Coro C R E α)
    (s : σ) :
    Sat A G post (MonadExcept.tryCatch p h) s ↔ Sat A G (orElse A G post h) p s := by
  induction p generalizing s with
  | done r => cases r <;> rfl
  | call c k ih =>
    show (∀ r s', A s c r s' → G s c r s' ∧ Sat A G post (MonadExcept.tryCatch (k r) h) s') ↔ _
    simp only [ih]
    rfl

theorem sat_tryFinally (post : Except E α → σ → Prop) (q : Coro C R E Unit) (p : Coro C R E α)
    (s : σ) :
    Sat A G post (p.tryFinally q) s ↔
      Sat A G (fun r => Sat A G post (q >>= fun _ => .done r)) p s := by
  induction p generalizing s with
  | done r => rfl
  | call c k ih =>
    show (∀ r s', A s c r s' → G s c r s' ∧ Sat A G post ((k r).tryFinally q) s') ↔ _
    simp only [ih]
    rfl

/-- Consequence: the postcondition may be weakened. -/
theorem Sat.mono {post post' : Except E α → σ → Prop} (hpost : ∀ r s, post r s → post' r s)
    {p : Coro C R E α} {s : σ} (h : Sat A G post p s) : Sat A G post' p s := by
  induction p generalizing s with
  | done r => exact hpost r s h
  | call c k ih =>
    intro r s' hA
    obtain ⟨hG, hk⟩ := h r s' hA
    exact ⟨hG, ih r hk⟩

/-- A run seen through `f`: what holds of all runs that `A` allows holds of those that a finer `A'`
allows. -/
theorem Sat.comap {τ : Type} {A' : τ → (c : C) → Except E (R c) → τ → Prop} {f : τ → σ}
    (hA : ∀ t c r t', A' t c r t' → A (f t) c r (f t')) {post : Except E α → σ → Prop}
    {p : Coro C R E α} {t : τ} (h : Sat A G post p (f t)) :
    Sat A' (fun t c r t' => G (f t) c r (f t')) (fun r t => post r (f t)) p t := by
  induction p generalizing t with
  | done r => exact h
  | call c k ih =>
    intro r t' hA'
    obtain ⟨hG, hk⟩ := h r (f t') (hA t c r t' hA')
    exact ⟨hG, ih r hk⟩

end Rules

/-! ## A coroutine alone -/

/-- A coroutine run to its end without interference: its result, the number of commands executed so
far, and the state. -/
def complete (respond : ℕ → σ → (c : C) → Except E (R c) × σ) :
    Coro C R E α → ℕ → σ → Except E α × ℕ × σ
  | .done r, n, s => (r, n, s)
  | .call c k, n, s => complete respond (k (respond n s c).1) (n + 1) (respond n s c).2

theorem complete_bind (respond : ℕ → σ → (c : C) → Except E (R c) × σ) (f : α → Coro C R E β)
    (p : Coro C R E α) (n : ℕ) (s : σ) :
    complete respond (p >>= f) n s =
      match complete respond p n s with
      | (.ok a, m, t) => complete respond (f a) m t
      | (.error x, m, t) => (.error x, m, t) := by
  induction p generalizing n s with
  | done r => cases r <;> rfl
  | call c k ih => exact ih _ (n + 1) _

theorem complete_tryCatch (respond : ℕ → σ → (c : C) → Except E (R c) × σ) (h : E → Coro C R E α)
    (p : Coro C R E α) (n : ℕ) (s : σ) :
    complete respond (MonadExcept.tryCatch p h) n s =
      match complete respond p n s with
      | (.ok a, m, t) => (.ok a, m, t)
      | (.error x, m, t) => complete respond (h x) m t := by
  induction p generalizing n s with
  | done r => cases r <;> rfl
  | call c k ih => exact ih _ (n + 1) _

/-- The commands of a coroutine that is run to its end without interference, followed by what
`complete` gives. -/
def transcript (respond : ℕ → σ → (c : C) → Except E (R c) × σ) :
    Coro C R E α → ℕ → σ → List C × Except E α × ℕ × σ
  | .done r, n, s => ([], r, n, s)
  | .call c k, n, s =>
    let rest := transcript respond (k (respond n s c).1) (n + 1) (respond n s c).2
    (c :: rest.1, rest.2)

theorem transcript_complete (respond : ℕ → σ → (c : C) → Except E (R c) × σ) (p : Coro C R E α)
    (n : ℕ) (s : σ) : (transcript respond p n s).2 = complete respond p n s := by
  induction p generalizing n s with
  | done r => rfl
  | call c k ih => exact ih _ (n + 1) _

theorem transcript_bind (respond : ℕ → σ → (c : C) → Except E (R c) × σ) (f : α → Coro C R E β)
    (p : Coro C R E α) (n : ℕ) (s : σ) :
    transcript respond (p >>= f) n s =
      match transcript respond p n s with
      | (cs, .ok a, m, t) =>
        (cs ++ (transcript respond (f a) m t).1, (transcript respond (f a) m t).2)
      | (cs, .error x, m, t) => (cs, .error x, m, t) := by
  induction p generalizing n s with
  | done r => cases r <;> rfl
  | call c k ih =>
    have hcall : transcript respond (Coro.call c k >>= f) n s =
        (c :: (transcript respond (k (respond n s c).1 >>= f) (n + 1) (respond n s c).2).1,
          (transcript respond (k (respond n s c).1 >>= f) (n + 1) (respond n s c).2).2) := rfl
    rw [hcall, ih]
    simp only [transcript]
    rcases transcript respond (k (respond n s c).1) (n + 1) (respond n s c).2 with ⟨cs, x | a, m, t⟩
    · rfl
    · rfl

theorem transcript_tryCatch (respond : ℕ → σ → (c : C) → Except E (R c) × σ) (h : E → Coro C R E α)
    (p : Coro C R E α) (n : ℕ) (s : σ) :
    transcript respond (MonadExcept.tryCatch p h) n s =
      match transcript respond p n s with
      | (cs, .ok a, m, t) => (cs, .ok a, m, t)
      | (cs, .error x, m, t) =>
        (cs ++ (transcript respond (h x) m t).1, (transcript respond (h x) m t).2) := by
  induction p generalizing n s with
  | done r => cases r <;> rfl
  | call c k ih =>
    have hcall : transcript respond (MonadExcept.tryCatch (Coro.call c k) h) n s =
        (c :: (transcript respond (MonadExcept.tryCatch (k (respond n s c).1) h) (n + 1)
            (respond n s c).2).1,
          (transcript respond (MonadExcept.tryCatch (k (respond n s c).1) h) (n + 1)
            (respond n s c).2).2) := rfl
    rw [hcall, ih]
    simp only [transcript]
    rcases transcript respond (k (respond n s c).1) (n + 1) (respond n s c).2 with ⟨cs, x | a, m, t⟩
    · rfl
    · rfl

/-- A coroutine that is run alone does what `Sat` promises. -/
theorem Sat.complete {A : σ → (c : C) → Except E (R c) → σ → Prop}
    {G : σ → (c : C) → Except E (R c) → σ → Prop} {post : Except E α → σ → Prop}
    {respond : ℕ → σ → (c : C) → Except E (R c) × σ}
    (hA : ∀ n s c, A s c (respond n s c).1 (respond n s c).2) {p : Coro C R E α} {s : σ}
    (h : Sat A G post p s) (n : ℕ) :
    post (complete respond p n s).1 (complete respond p n s).2.2 := by
  induction p generalizing n s with
  | done r => exact h
  | call c k ih => exact ih _ (h _ _ (hA n s c)).2 (n + 1)

/-! ## Bounding the commands of a coroutine -/

/-- Every command of the coroutine is in `P`. -/
def Uses (P : C → Prop) : Coro C R E α → Prop
  | .done _ => True
  | .call c k => P c ∧ ∀ r, Uses P (k r)

section UsesRules

variable {P : C → Prop}

theorem Uses.bind {p : Coro C R E α} {f : α → Coro C R E β} (hp : Uses P p)
    (hf : ∀ a, Uses P (f a)) : Uses P (p >>= f) := by
  induction p with
  | done r =>
    cases r with
    | ok a => exact hf a
    | error x => trivial
  | call c k ih =>
    constructor
    · exact hp.1
    · intro r
      exact ih r (hp.2 r)

theorem Uses.tryCatch {p : Coro C R E α} {h : E → Coro C R E α} (hp : Uses P p)
    (hh : ∀ x, Uses P (h x)) : Uses P (MonadExcept.tryCatch p h) := by
  induction p with
  | done r =>
    cases r with
    | ok a => trivial
    | error x => exact hh x
  | call c k ih =>
    constructor
    · exact hp.1
    · intro r
      exact ih r (hp.2 r)

theorem Uses.tryFinally {p : Coro C R E α} {q : Coro C R E Unit} (hp : Uses P p)
    (hq : Uses P q) : Uses P (p.tryFinally q) := by
  induction p with
  | done r => exact Uses.bind hq fun _ => trivial
  | call c k ih =>
    constructor
    · exact hp.1
    · intro r
      exact ih r (hp.2 r)

theorem Uses.mono {P' : C → Prop} (hP : ∀ c, P c → P' c) {p : Coro C R E α} (hp : Uses P p) :
    Uses P' p := by
  induction p with
  | done r => trivial
  | call c k ih => exact ⟨hP c hp.1, fun r => ih r (hp.2 r)⟩

theorem uses_true (p : Coro C R E α) : Uses (fun _ => True) p := by
  induction p with
  | done r => trivial
  | call c k ih => exact ⟨trivial, ih⟩

theorem Uses.perform {c : C} (hc : P c) : Uses P (perform c : Coro C R E (R c)) :=
  ⟨hc, fun _ => trivial⟩

/-- The frame rule: what every command in `P` keeps holds at the end. -/
theorem Sat.of_uses {A : σ → (c : C) → Except E (R c) → σ → Prop}
    {G : σ → (c : C) → Except E (R c) → σ → Prop} {I : σ → Prop}
    (hI : ∀ s c r s', P c → I s → A s c r s' → G s c r s' ∧ I s') {p : Coro C R E α}
    (hp : Uses P p) {s : σ} (hs : I s) : Sat A G (fun _ => I) p s := by
  induction p generalizing s with
  | done r => exact hs
  | call c k ih =>
    intro r s' hA
    obtain ⟨hG, hs'⟩ := hI s c r s' hp.1 hs hA
    exact ⟨hG, ih r (hp.2 r) hs'⟩

/-- A bound that is kept for all answers is a bound on the commands. -/
theorem Sat.uses {A : σ → (c : C) → Except E (R c) → σ → Prop}
    {G : σ → (c : C) → Except E (R c) → σ → Prop} {post : Except E α → σ → Prop} (x : E)
    (hA : ∀ s c r, ∃ s', A s c r s') (hG : ∀ s c r s', G s c r s' → P c) {p : Coro C R E α} {s : σ}
    (h : Sat A G post p s) : Uses P p := by
  induction p generalizing s with
  | done r => trivial
  | call c k ih =>
    constructor
    · obtain ⟨s', hs'⟩ := hA s c (.error x)
      exact hG _ _ _ _ (h _ _ hs').1
    · intro r
      obtain ⟨s', hs'⟩ := hA s c r
      exact ih r (h _ _ hs').2

/-- What is promised of the commands, together with a bound on them. -/
theorem Sat.and_uses {A : σ → (c : C) → Except E (R c) → σ → Prop}
    {G : σ → (c : C) → Except E (R c) → σ → Prop} {post : Except E α → σ → Prop}
    {p : Coro C R E α} {s : σ} (h : Sat A G post p s) (hp : Uses P p) :
    Sat A (fun s c r s' => G s c r s' ∧ P c) post p s := by
  induction p generalizing s with
  | done r => exact h
  | call c k ih =>
    intro r s' hA
    obtain ⟨hG, hrest⟩ := h r s' hA
    exact ⟨⟨hG, hp.1⟩, ih r hrest (hp.2 r)⟩

end UsesRules

/-! ## Coroutines without handlers -/

/-- The coroutine catches no exception and raises none: it ends with the first exception of its
commands, or with a value. -/
def Direct : Coro C R E α → Prop
  | .done r => ∃ a, r = .ok a
  | .call _ k => (∀ x, k (.error x) = .done (.error x)) ∧ ∀ a, Direct (k (.ok a))

theorem Direct.bind {p : Coro C R E α} {f : α → Coro C R E β} (hp : Direct p)
    (hf : ∀ a, Direct (f a)) : Direct (p >>= f) := by
  induction p with
  | done r =>
    obtain ⟨a, rfl⟩ := hp
    exact hf a
  | call c k ih =>
    constructor
    · -- an exception of the command passes through `k`, and then through the continuation
      intro x
      show k (.error x) >>= f = _
      rw [hp.1 x]
      rfl
    · intro a
      exact ih (.ok a) (hp.2 a)

theorem direct_perform (c : C) : Direct (perform c : Coro C R E (R c)) :=
  ⟨fun _ => rfl, fun a => ⟨a, rfl⟩⟩

theorem direct_pure (a : α) : Direct (pure a : Coro C R E α) := ⟨a, rfl⟩

end Coro

end Coroutine
