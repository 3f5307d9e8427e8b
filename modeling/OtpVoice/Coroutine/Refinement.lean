import OtpVoice.Coroutine.Service

/-!
# One service over two worlds

Two services that run the same coroutines and differ in their worlds only. A `Refinement` relates
the worlds: each command that the coroutines use has the same answer in related worlds and leaves
related worlds. `Refinement.run`: then every run of the one is a run of the other, with the same
threads, the same trace and related worlds.
-/

set_option autoImplicit false

namespace Coroutine

namespace Service

variable {C : Type} {R : C → Type} {E Env σ τ In Op Out : Type}

/-- The service `S` over its world does what `S'` does over its own. -/
structure Refinement (S : Service C R E Env σ In Op Out) (S' : Service C R E Env τ In Op Out) where
  rel : σ → τ → Prop
  cmd : C → Prop
  yields : S.yields = S'.yields
  entry : S.entry = S'.entry
  body : S.body = S'.body
  spawns : S.spawns = S'.spawns
  uses : ∀ op, Coro.Uses cmd (S.body op)
  respond : ∀ {w v c} (e : Env) (n : ℕ), rel w v → cmd c →
    (S.respond e n w c).1 = (S'.respond e n v c).1 ∧
      rel (S.respond e n w c).2 (S'.respond e n v c).2

namespace Refinement

variable {S : Service C R E Env σ In Op Out} {S' : Service C R E Env τ In Op Out}
  (K : Refinement S S')

/-- The same threads after the same commands, over related worlds. -/
structure Matches (s : Config C R E Env σ Op Out) (s' : Config C R E Env τ Op Out) : Prop where
  world : K.rel s.world s'.world
  threads : s.threads = s'.threads
  trace : s.trace = s'.trace
  uses : ∀ t ∈ s.threads, Coro.Uses K.cmd t.prog

variable {K} {s : Config C R E Env σ Op Out} {s' : Config C R E Env τ Op Out}

theorem Matches.append (h : K.Matches s s') (ops : List Op) : K.Matches
    { s with threads := s.threads ++ ops.map S.start }
    { s' with threads := s'.threads ++ ops.map S'.start } := by
  refine ⟨h.world, ?_, h.trace, ?_⟩
  · have hstart : S.start = S'.start := by
      funext op
      rw [start, start, K.body]
    show s.threads ++ ops.map S.start = s'.threads ++ ops.map S'.start
    rw [h.threads, hstart]
  · intro t ht
    rcases List.mem_append.1 ht with ht | ht
    · exact h.uses t ht
    · obtain ⟨op, -, rfl⟩ := List.mem_map.1 ht
      exact K.uses op

/-- One command on each side. -/
theorem Matches.issue (h : K.Matches s s') (i : ℕ) (op : Op) (e : Env) (n : ℕ) {c : C}
    {k : Except E (R c) → Coro C R E Out} (hc : Coro.Uses K.cmd (.call c k)) :
    K.Matches (S.issue s i op e n c k) (S'.issue s' i op e n c k) ∧
      (S.respond e n s.world c).1 = (S'.respond e n s'.world c).1 := by
  obtain ⟨hanswer, hworld⟩ := K.respond e n h.world hc.1
  refine ⟨⟨hworld, ?_, ?_, ?_⟩, hanswer⟩
  · simp only [Service.issue, h.threads, hanswer]
  · simp only [Service.issue, h.trace, hanswer]
  · intro t ht
    rcases List.mem_or_eq_of_mem_set ht with ht | rfl
    · exact h.uses t ht
    · exact hc.2 _

/-- One turn: the induction follows the coroutine. -/
theorem Matches.advance (i : ℕ) (op : Op) (e : Env) {p : Coro C R E Out}
    (hp : Coro.Uses K.cmd p) (n : ℕ) (h : K.Matches s s') :
    K.Matches (S.advance i op e p n s) (S'.advance i op e p n s') := by
  induction p generalizing n s s' with
  | done r =>
    cases r with
    | ok out =>
      simp only [Service.advance, finish, ← K.spawns]
      exact h.append _
    | error x => exact h
  | call c k ih =>
    obtain ⟨hissue, hanswer⟩ := h.issue i op e n hp
    simp only [Service.advance, ← K.yields, ← hanswer]
    split
    · exact hissue
    · exact ih _ (hp.2 _) (n + 1) hissue

theorem Matches.step (h : K.Matches s s') (a : Act Env In) :
    K.Matches (S.step s a) (S'.step s' a) := by
  cases a with
  | arrive x =>
    have hentry : S.entry x = S'.entry x := congrFun K.entry x
    simp only [Service.step, ← hentry]
    exact h.append [S.entry x]
  | turn i e =>
    simp only [Service.step, ← h.threads]
    split
    · rename_i op c k hi
      exact h.advance i op e (h.uses _ (List.mem_of_getElem? hi)) 0
    · exact h

/-- The rule of runs. -/
theorem run (h : K.Matches s s') (acts : List (Act Env In)) :
    K.Matches (S.run s acts) (S'.run s' acts) := by
  induction acts generalizing s s' with
  | nil => exact h
  | cons a rest ih => exact ih (h.step a)

theorem matches_initial {w : σ} {v : τ} (h : K.rel w v) :
    K.Matches (Config.initial w) (Config.initial v) :=
  ⟨h, rfl, rfl, fun _ ht => absurd ht List.not_mem_nil⟩

theorem Matches.outcome (h : K.Matches s s') (i : ℕ) : s.outcome i = s'.outcome i := by
  simp only [Config.outcome, h.threads]

end Refinement

end Service

end Coroutine
