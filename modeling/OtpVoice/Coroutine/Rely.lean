import OtpVoice.Coroutine.Notes

/-!
# Assumptions about answers

An invariant of the world says something about the answers that a coroutine gets, and the commands
that it issues because of them keep the invariant. `Relies A G Q p` says that `p` issues commands in
`G` and ends in `Q` as long as its answers are in `A`. `run_relies`: if the invariant
gives answers in `A`, if commands in `G` keep it, and if the coroutine of every operation in `V`
relies on it and schedules only such operations, then it holds throughout every run.

The assumption may also be that every answer is one that the thread has got in the end, `Heard l`
for its own events `l`. Then the postcondition explains the outcome of the thread by its answers
(`run_heard`), and no proof about a single coroutine speaks of lists or positions.
-/

set_option autoImplicit false

namespace Coroutine

namespace Service

variable {C : Type} {R : C → Type} {E Env σ In Op Out α β : Type}

/-- An event of the list is the command with this answer. -/
def Heard (l : List (Event C R E Env)) (c : C) (r : Except E (R c)) : Prop :=
  ∃ e n, (⟨e, n, c, r⟩ : Event C R E Env) ∈ l

/-- The coroutine issues commands in `G` and ends in `Q`, if its answers are in `A`. -/
def Relies (A : (c : C) → Except E (R c) → Prop) (G : C → Prop) (Q : Except E α → Prop)
    (p : Coro C R E α) : Prop :=
  Coro.Sat (fun (_ : Unit) c r _ => A c r) (fun _ c _ _ => G c) (fun r _ => Q r) p ()

section Rules

variable {A : (c : C) → Except E (R c) → Prop} {G : C → Prop} {Q : Except E α → Prop}

theorem Relies.mono {Q' : Except E α → Prop} {p : Coro C R E α} (h : Relies A G Q p)
    (hQ : ∀ r, Q r → Q' r) : Relies A G Q' p :=
  Coro.Sat.mono (fun r _ => hQ r) h

theorem Relies.bind {P : Except E β → Prop} {p : Coro C R E β} {f : β → Coro C R E α}
    (hp : Relies A G P p) (hok : ∀ b, P (.ok b) → Relies A G Q (f b))
    (herror : ∀ x, P (.error x) → Q (.error x)) : Relies A G Q (p >>= f) := by
  refine (Coro.sat_bind _ f p ()).2 (Coro.Sat.mono ?_ hp)
  intro r _ hP
  cases r with
  | ok b => exact hok b hP
  | error x => exact herror x hP

theorem Relies.tryCatch {P : Except E α → Prop} {p : Coro C R E α} {h : E → Coro C R E α}
    (hp : Relies A G P p) (hok : ∀ a, P (.ok a) → Q (.ok a))
    (herror : ∀ x, P (.error x) → Relies A G Q (h x)) : Relies A G Q (tryCatch p h) := by
  refine (Coro.sat_tryCatch _ h p ()).2 (Coro.Sat.mono ?_ hp)
  intro r _ hP
  cases r with
  | ok a => exact hok a hP
  | error x => exact herror x hP

theorem Relies.tryFinally {P : Except E α → Prop} {p : Coro C R E α} {q : Coro C R E Unit}
    (hp : Relies A G P p) (hq : ∀ r, P r → Relies A G Q (q >>= fun _ => .done r)) :
    Relies A G Q (p.tryFinally q) :=
  (Coro.sat_tryFinally _ q p ()).2 (Coro.Sat.mono (fun r _ => hq r) hp)

/-- One command, of which the answer is known to be in `A`. -/
theorem relies_perform {c : C} {Q : Except E (R c) → Prop} (hc : G c) (hQ : ∀ r, A c r → Q r) :
    Relies A G Q (Coro.perform c : Coro C R E (R c)) :=
  fun r _ hA => ⟨hc, hQ r hA⟩

/-- A coroutine whose commands are all allowed. -/
theorem relies_of_uses {p : Coro C R E α} (hp : Coro.Uses G p) : Relies A G (fun _ => True) p :=
  Coro.Sat.of_uses (I := fun _ => True) (fun _ _ _ _ hc _ _ => ⟨hc, trivial⟩) hp trivial

end Rules

section Runs

variable (S : Service C R E Env σ In Op Out) {A : (c : C) → Except E (R c) → Prop} {G : C → Prop}
  {V : Op → Prop} {Q : Op → Except E Out → Prop} {I : σ → Prop}

/-- The invariant holds after every first part of the trace, whose commands are all allowed, and
every thread relies on it. -/
structure Relied (A : (c : C) → Except E (R c) → Prop) (G : C → Prop) (Q : Op → Except E Out → Prop)
    (I : σ → Prop) (w : σ) (s : Config C R E Env σ Op Out) : Prop where
  world : s.world = S.replay w s.trace
  invariant : ∀ n, I (S.worldAfter w s.trace n)
  issued : ∀ x ∈ s.trace, G x.2.cmd
  threads : ∀ t ∈ s.threads, Relies A G (Q t.op) t.prog

variable {S}

theorem Relied.append {w : σ} {s : Config C R E Env σ Op Out} (h : S.Relied A G Q I w s)
    (hbody : ∀ op, V op → Relies A G (Q op) (S.body op)) {ops : List Op} (hops : ∀ op ∈ ops, V op) :
    S.Relied A G Q I w { s with threads := s.threads ++ ops.map S.start } := by
  refine ⟨h.world, h.invariant, h.issued, fun t ht => ?_⟩
  rcases List.mem_append.1 ht with ht | ht
  · exact h.threads t ht
  · obtain ⟨op, hop, rfl⟩ := List.mem_map.1 ht
    exact hbody op (hops op hop)

/-- One command. -/
theorem Relied.issue {w : σ} {s : Config C R E Env σ Op Out} (h : S.Relied A G Q I w s)
    (hanswer : ∀ e n v c, I v → A c (S.respond e n v c).1)
    (hstep : ∀ e n v c, I v → G c → I (S.respond e n v c).2) {i : ℕ} {op : Op} (e : Env) (n : ℕ)
    {c : C} {k : Except E (R c) → Coro C R E Out} (hi : s.threads[i]? = some ⟨op, .call c k⟩) :
    S.Relied A G Q I w (S.issue s i op e n c k) := by
  have hI : I s.world := by
    have hend := h.invariant s.trace.length
    rw [worldAfter, List.take_length, ← h.world] at hend
    exact hend
  obtain ⟨hc, hrest⟩ := h.threads _ (List.mem_of_getElem? hi) _ () (hanswer e n s.world c hI)
  refine ⟨?_, fun m => ?_, fun x hx => ?_, fun t ht => ?_⟩
  · simp only [Service.issue, replay_concat, ← h.world]
  · -- a first part of the old trace, or the whole new one
    simp only [Service.issue, worldAfter]
    rcases Nat.lt_or_ge s.trace.length m with hlt | hle
    · rw [List.take_of_length_le (by simp; omega), replay_concat, ← h.world]
      exact hstep e n s.world c hI hc
    · rw [List.take_append_of_le_length hle]
      exact h.invariant m
  · rcases List.mem_append.1 hx with hx | hx
    · exact h.issued x hx
    · obtain rfl := List.mem_singleton.1 hx
      exact hc
  · rcases List.mem_or_eq_of_mem_set ht with ht | rfl
    · exact h.threads t ht
    · exact hrest

variable (S) in
/-- The rule of runs. -/
theorem run_relies (hanswer : ∀ e n v c, I v → A c (S.respond e n v c).1)
    (hstep : ∀ e n v c, I v → G c → I (S.respond e n v c).2) (hentry : ∀ x, V (S.entry x))
    (hspawns : ∀ op out, Q op (.ok out) → ∀ op' ∈ S.spawns out, V op')
    (hbody : ∀ op, V op → Relies A G (Q op) (S.body op)) {w : σ} (hw : I w)
    (acts : List (Act Env In)) : S.Relied A G Q I w (S.run (Config.initial w) acts) := by
  refine S.run_induction (P := S.Relied A G Q I w) ?_ ?_ ?_ ?_ acts
  · intro s x h
    exact h.append hbody fun op hop => List.mem_singleton.1 hop ▸ hentry x
  · exact fun s i op e n c k hi h => h.issue hanswer hstep e n hi
  · rintro s i op (x | out) hi h
    · exact h
    · exact h.append hbody (hspawns op out (h.threads _ (List.mem_of_getElem? hi)))
  · refine ⟨rfl, fun n => ?_, fun x hx => absurd hx List.not_mem_nil,
      fun t ht => absurd ht List.not_mem_nil⟩
    simp only [worldAfter, Config.initial, List.take_nil]
    exact hw

/-- A thread that has ended keeps its postcondition. -/
theorem Relied.ended {w : σ} {s : Config C R E Env σ Op Out} (h : S.Relied A G Q I w s) {i : ℕ}
    {op : Op} {r : Except E Out} (hi : s.outcome i = some (op, r)) : Q op r :=
  h.threads _ (List.mem_of_getElem? (Config.outcome_eq_some_iff.1 hi))

variable (S) in
/-- What follows from the answers of the whole list holds of the notes of a coroutine that keeps all
its events. -/
theorem noting_of_relies (hA : ∀ e n v c, A c (S.respond e n v c).1)
    {P : List (Event C R E Env) → Except E α → Prop} {p : Coro C R E α}
    {l₀ : List (Event C R E Env)}
    (h : ∀ l, l₀ <+: l → Relies (fun c r => Heard l c r ∧ A c r) (fun _ => True) (P l) p) :
    S.Noting some (fun _ => True) (fun r l => P l r) p l₀ := by
  induction p generalizing l₀ with
  | done r => exact h l₀ (List.prefix_refl l₀)
  | call c k ih =>
    rintro r l₁ ⟨e, n, w, rfl, rfl⟩
    refine ⟨trivial, ih _ fun l hl => ?_⟩
    -- the answer is one of those of every longer list
    have hmem : (⟨e, n, c, (S.respond e n w c).1⟩ : Event C R E Env) ∈ l :=
      hl.subset (List.mem_append_right l₀ (List.mem_singleton_self _))
    exact (h l ((List.prefix_append _ _).trans hl) _ () ⟨⟨e, n, hmem⟩, hA e n w c⟩).2

variable (S) in
/-- The outcome of a thread, explained by the answers that it has got. -/
theorem run_heard [Nonempty Env] (hA : ∀ e n v c, A c (S.respond e n v c).1)
    {P : Op → List (Event C R E Env) → Except E Out → Prop}
    (hbody : ∀ op l,
      Relies (fun c r => Heard l c r ∧ A c r) (fun _ => True) (P op l) (S.body op))
    (w : σ) (acts : List (Act Env In)) {i : ℕ} {op : Op} {r : Except E Out}
    (hi : (S.run (Config.initial w) acts).outcome i = some (op, r)) :
    P op (ownEvents i (S.run (Config.initial w) acts).trace) r := by
  have hnoting : ∀ op,
      S.Noting some (fun _ => True) (fun r l => P op l r) (S.body op) [] := fun op =>
    S.noting_of_relies hA fun l _ => hbody op l
  have hended := S.run_noting_ended (J := fun _ _ => True) hnoting w acts hi
  rwa [List.filterMap_some] at hended

end Runs

end Service

end Coroutine
