import OtpVoice.Coroutine.Service
import Mathlib.Data.List.Forall2

/-!
# Two runs side by side

`Related K A V p p'` says that the coroutines `p` and `p'` issue commands in `K`, one after the
other, and go on so after all pairs of answers in `A`, until both end with values in `V` or with the
same exception. There is one rule for each operation of the monad (`Related.bind`,
`Related.tryCatch`, `Related.tryFinally`), and `related_self` for a coroutine that may be compared
with itself.

A `Coupling` of a service relates its commands, answers, worlds, inputs, operations and results;
`Coupling.run` is its rule for runs: two runs whose decisions correspond stay related, thread by
thread.
-/

set_option autoImplicit false

namespace Coroutine

variable {C : Type} {R : C → Type} {E Env σ In Op Out : Type} {α β α' β' : Type}

/-- Values in `V`, or the same exception. -/
inductive Paired (V : α → β → Prop) : Except E α → Except E β → Prop
  | ok {a : α} {b : β} (h : V a b) : Paired V (.ok a) (.ok b)
  | error (x : E) : Paired V (.error x) (.error x)

theorem paired_self (r : Except E α) : Paired (· = ·) r r := by
  cases r with
  | ok a => exact .ok rfl
  | error x => exact .error x

namespace Coro

/-- The commands of the two coroutines are in `K` and their results in `V`, for all answers
in `A`. -/
def Related (K : C → C → Prop) (A : (c c' : C) → Except E (R c) → Except E (R c') → Prop)
    (V : α → β → Prop) : Coro C R E α → Coro C R E β → Prop
  | .done r, .done r' => Paired V r r'
  | .call c k, .call c' k' => K c c' ∧ ∀ r r', A c c' r r' → Related K A V (k r) (k' r')
  | _, _ => False

section Rules

variable {K : C → C → Prop} {A : (c c' : C) → Except E (R c) → Except E (R c') → Prop}
variable {V : α → β → Prop} {V' : α' → β' → Prop}

theorem related_pure {a : α} {b : β} (h : V a b) :
    Related K A V (pure a : Coro C R E α) (pure b : Coro C R E β) := .ok h

theorem related_throw (x : E) :
    Related K A V (throw x : Coro C R E α) (throw x : Coro C R E β) := .error x

/-- The induction rule of related coroutines: both have ended, or both go on with a command. -/
theorem Related.induction
    {motive : (p : Coro C R E α) → (p' : Coro C R E β) → Related K A V p p' → Prop}
    (done : ∀ r r' (h : Paired V r r'), motive (.done r) (.done r') h)
    (call : ∀ c k c' k' (hc : K c c')
      (hk : ∀ r r', A c c' r r' → Related K A V (k r) (k' r')),
      (∀ r r' hr, motive (k r) (k' r') (hk r r' hr)) → motive (.call c k) (.call c' k') ⟨hc, hk⟩)
    {p : Coro C R E α} {p' : Coro C R E β} (h : Related K A V p p') : motive p p' h := by
  induction p generalizing p' with
  | done r =>
    cases p' with
    | done r' => exact done r r' h
    | call c' k' => exact h.elim
  | call c k ih =>
    cases p' with
    | done r' => exact h.elim
    | call c' k' => exact call c k c' k' h.1 h.2 fun r r' hr => ih r (h.2 r r' hr)

/-- The rule of sequencing. -/
theorem Related.bind {p : Coro C R E α} {p' : Coro C R E β} {f : α → Coro C R E α'}
    {f' : β → Coro C R E β'} (hp : Related K A V p p')
    (hf : ∀ a b, V a b → Related K A V' (f a) (f' b)) : Related K A V' (p >>= f) (p' >>= f') := by
  induction hp using Related.induction with
  | done r r' h =>
    cases h with
    | ok hV => exact hf _ _ hV
    | error x => exact .error x
  | call c k c' k' hc hk ih => exact ⟨hc, ih⟩

theorem Related.tryCatch {p : Coro C R E α} {p' : Coro C R E β} {h : E → Coro C R E α}
    {h' : E → Coro C R E β} (hp : Related K A V p p') (hh : ∀ x, Related K A V (h x) (h' x)) :
    Related K A V (MonadExcept.tryCatch p h) (MonadExcept.tryCatch p' h') := by
  induction hp using Related.induction with
  | done r r' h =>
    cases h with
    | ok hV => exact .ok hV
    | error x => exact hh x
  | call c k c' k' hc hk ih => exact ⟨hc, ih⟩

theorem Related.tryFinally {p : Coro C R E α} {p' : Coro C R E β} {q q' : Coro C R E Unit}
    (hp : Related K A V p p') (hq : Related K A (· = ·) q q') :
    Related K A V (p.tryFinally q) (p'.tryFinally q') := by
  induction hp using Related.induction with
  | done r r' h => exact hq.bind fun _ _ _ => h
  | call c k c' k' hc hk ih => exact ⟨hc, ih⟩

/-- One command on both sides. -/
theorem related_perform {c c' : C} {V : R c → R c' → Prop} (hc : K c c')
    (hV : ∀ r r', A c c' r r' → Paired V r r') :
    Related K A V (perform c : Coro C R E (R c)) (perform c' : Coro C R E (R c')) :=
  ⟨hc, hV⟩

/-- A coroutine whose commands have the same answers on both sides does the same. -/
theorem related_self {P : C → Prop} {p : Coro C R E α} (hp : Uses P p) (hK : ∀ c, P c → K c c)
    (hA : ∀ c, P c → ∀ r r', A c c r r' → r = r') : Related K A (· = ·) p p := by
  induction p with
  | done r => exact paired_self r
  | call c k ih =>
    refine ⟨hK c hp.1, fun r r' hr => ?_⟩
    rw [← hA c hp.1 r r' hr]
    exact ih r (hp.2 r)

theorem Related.isDone {p : Coro C R E α} {p' : Coro C R E β} (h : Related K A V p p') :
    p.isDone = p'.isDone := by
  induction h using Related.induction with
  | done r r' h => rfl
  | call c k c' k' hc hk ih => rfl

end Rules

end Coro

/-! ## Services -/

/-- Corresponding scheduling decisions: inputs in `P`, or one turn. -/
inductive Act.Rel (P : In → In → Prop) : Act Env In → Act Env In → Prop
  | arrive {x x' : In} (h : P x x') : Act.Rel P (.arrive x) (.arrive x')
  | turn (i : ℕ) (e : Env) : Act.Rel P (.turn i e) (.turn i e)

namespace Service

/-- Relations between the parts of two runs of one service that every command, every operation and
every result keeps. -/
structure Coupling (S : Service C R E Env σ In Op Out) where
  cmd : C → C → Prop
  answer : (c c' : C) → Except E (R c) → Except E (R c') → Prop
  world : σ → σ → Prop
  input : In → In → Prop
  op : Op → Op → Prop
  out : Out → Out → Prop
  yields : ∀ {c c'}, cmd c c' → S.yields c = S.yields c'
  respond : ∀ {w w' c c'} (e : Env) (n : ℕ), world w w' → cmd c c' →
    answer c c' (S.respond e n w c).1 (S.respond e n w' c').1 ∧
      world (S.respond e n w c).2 (S.respond e n w' c').2
  entry : ∀ {x x'}, input x x' → op (S.entry x) (S.entry x')
  body : ∀ {a a'}, op a a' → Coro.Related cmd answer out (S.body a) (S.body a')
  spawns : ∀ {r r'}, out r r' → List.Forall₂ op (S.spawns r) (S.spawns r')

namespace Coupling

variable {S : Service C R E Env σ In Op Out} (K : Coupling S)

/-- Related operations in the middle of related coroutines. -/
structure ThreadRel (t t' : Thread C R E Op Out) : Prop where
  op : K.op t.op t'.op
  prog : Coro.Related K.cmd K.answer K.out t.prog t'.prog

/-- Configurations with related worlds and threads; the traces need not correspond. -/
structure ConfigRel (s s' : Config C R E Env σ Op Out) : Prop where
  world : K.world s.world s'.world
  threads : List.Forall₂ K.ThreadRel s.threads s'.threads

theorem forall₂_getElem? {P : α → β → Prop} {l : List α} {l' : List β} (h : List.Forall₂ P l l')
    (i : ℕ) : Option.Rel P l[i]? l'[i]? := by
  induction h generalizing i with
  | nil => exact .none
  | cons hP _ ih =>
    cases i with
    | zero => exact .some hP
    | succ i => exact ih i

theorem forall₂_set {P : α → β → Prop} {l : List α} {l' : List β} (h : List.Forall₂ P l l') (i : ℕ)
    {a : α} {b : β} (hab : P a b) : List.Forall₂ P (l.set i a) (l'.set i b) := by
  induction h generalizing i with
  | nil => exact .nil
  | cons hP h ih =>
    cases i with
    | zero => exact .cons hab h
    | succ i => exact .cons hP (ih i)

variable {K} {s s' : Config C R E Env σ Op Out}

theorem ConfigRel.append (h : K.ConfigRel s s') {ops ops' : List Op}
    (hops : List.Forall₂ K.op ops ops') : K.ConfigRel
      { s with threads := s.threads ++ ops.map S.start }
      { s' with threads := s'.threads ++ ops'.map S.start } := by
  refine ⟨h.world, List.rel_append h.threads ?_⟩
  exact List.rel_map (R := K.op) (fun _ _ hop => ⟨hop, K.body hop⟩) hops

/-- One command on each side. -/
theorem ConfigRel.issue (h : K.ConfigRel s s') (i : ℕ) {op op' : Op} (hop : K.op op op') (e : Env)
    (n : ℕ) {c c' : C} {k : Except E (R c) → Coro C R E Out} {k' : Except E (R c') → Coro C R E Out}
    (hp : Coro.Related K.cmd K.answer K.out (.call c k) (.call c' k')) :
    K.ConfigRel (S.issue s i op e n c k) (S.issue s' i op' e n c' k') ∧
      Coro.Related K.cmd K.answer K.out (k (S.respond e n s.world c).1)
        (k' (S.respond e n s'.world c').1) := by
  obtain ⟨hanswer, hworld⟩ := K.respond e n h.world hp.1
  have hrest := hp.2 _ _ hanswer
  exact ⟨⟨hworld, forall₂_set h.threads i ⟨hop, hrest⟩⟩, hrest⟩

/-- One turn: the induction follows the coroutine on the left. -/
theorem ConfigRel.advance (i : ℕ) {op op' : Op} (hop : K.op op op') (e : Env)
    {p p' : Coro C R E Out} (hp : Coro.Related K.cmd K.answer K.out p p') (n : ℕ)
    (h : K.ConfigRel s s') :
    K.ConfigRel (S.advance i op e p n s) (S.advance i op' e p' n s') := by
  induction p generalizing p' n s s' with
  | done r =>
    cases p' with
    | call c' k' => exact hp.elim
    | done r' =>
      cases hp with
      | ok hout => exact h.append (K.spawns hout)
      | error x => exact h
  | call c k ih =>
    cases p' with
    | done r' => exact hp.elim
    | call c' k' =>
      obtain ⟨hissue, hrest⟩ := h.issue i hop e n hp
      -- both give up the event loop, or neither does
      simp only [Service.advance, K.yields hp.1, hrest.isDone]
      split
      · exact hissue
      · exact ih _ hrest (n + 1) hissue

theorem ConfigRel.step (h : K.ConfigRel s s') {a a' : Act Env In} (ha : Act.Rel K.input a a') :
    K.ConfigRel (S.step s a) (S.step s' a') := by
  cases ha with
  | arrive hx => exact h.append (.cons (K.entry hx) .nil)
  | turn i e =>
    have ht := forall₂_getElem? h.threads i
    simp only [Service.step]
    generalize s.threads[i]? = t, s'.threads[i]? = t' at ht
    cases ht with
    | none => exact h
    | @some t t' ht =>
      obtain ⟨op, p⟩ := t
      obtain ⟨op', p'⟩ := t'
      cases p with
      | done r =>
        cases p' with
        | done r' => exact h
        | call c' k' => exact ht.prog.elim
      | call c k =>
        cases p' with
        | done r' => exact ht.prog.elim
        | call c' k' => exact h.advance i ht.op e ht.prog 0

/-- The rule of runs: corresponding decisions keep the relation. -/
theorem run (h : K.ConfigRel s s') {acts acts' : List (Act Env In)}
    (hacts : List.Forall₂ (Act.Rel K.input) acts acts') :
    K.ConfigRel (S.run s acts) (S.run s' acts') := by
  induction hacts generalizing s s' with
  | nil => exact h
  | cons ha _ ih => exact ih (h.step ha)

/-- Related threads end together, with related results. -/
theorem ConfigRel.outcome (h : K.ConfigRel s s') (i : ℕ) :
    Option.Rel (fun x x' => K.op x.1 x'.1 ∧ Paired K.out x.2 x'.2) (s.outcome i)
      (s'.outcome i) := by
  have ht := forall₂_getElem? h.threads i
  simp only [Config.outcome]
  generalize s.threads[i]? = t, s'.threads[i]? = t' at ht
  cases ht with
  | none => exact .none
  | @some t t' ht =>
    obtain ⟨op, p⟩ := t
    obtain ⟨op', p'⟩ := t'
    cases p with
    | done r =>
      cases p' with
      | done r' => exact .some ⟨ht.op, ht.prog⟩
      | call c' k' => exact ht.prog.elim
    | call c k =>
      cases p' with
      | done r' => exact ht.prog.elim
      | call c' k' => exact .none

end Coupling

end Service

end Coroutine
