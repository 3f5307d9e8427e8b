import OtpVoice.Coroutine.Service

/-!
# Operations that leave no trace

A `Purge` between two services says which operations of the first the second has too, and that the
others are silent: their commands keep the worlds related, and they start nothing. `Purge.acts`
takes the silent inputs and the turns of silent threads out of a run. `Purge.run`: what is left is a
run of the second service with the same remaining threads and a related world.
-/

set_option autoImplicit false

namespace Coroutine

namespace Service

variable {C : Type} {R : C → Type} {E Env σ τ In In' Op Op' Out : Type}

/-- Every command is in `P`, and every value that is returned in `Q`. -/
def Still {α : Type} (P : C → Prop) (Q : α → Prop) (p : Coro C R E α) : Prop :=
  Coro.Sat (fun (_ : Unit) _ _ _ => True) (fun _ c _ _ => P c)
    (fun r _ => ∀ a, r = .ok a → Q a) p ()

section Still

variable {α β : Type} {P : C → Prop} {Q : β → Prop}

/-- The first part of a silent coroutine. -/
theorem Still.bind {p : Coro C R E α} {f : α → Coro C R E β} (hp : Coro.Uses P p)
    (hf : ∀ a, Still P Q (f a)) : Still P Q (p >>= f) := by
  have hfirst : Coro.Sat (fun (_ : Unit) _ _ _ => True) (fun _ c _ _ => P c) (fun _ _ => True)
      p () :=
    Coro.Sat.of_uses (fun _ _ _ _ hc _ _ => ⟨hc, trivial⟩) hp trivial
  refine (Coro.sat_bind _ f p ()).2 (hfirst.mono ?_)
  intro r _ _
  cases r with
  | ok a => exact hf a
  | error x => exact fun b hb => by cases hb

theorem still_pure {b : β} (hb : Q b) : Still P Q (pure b : Coro C R E β) := by
  intro a ha
  cases ha
  exact hb

theorem still_throw (x : E) : Still P Q (throw x : Coro C R E β) :=
  fun a ha => by cases ha

end Still

/-- The service `S'` is `S` without some operations that are silent. -/
structure Purge (S : Service C R E Env σ In Op Out) (S' : Service C R E Env τ In' Op' Out) where
  rel : σ → τ → Prop
  input : In → Option In'
  op : Op → Option Op'
  quiet : C → Prop
  yields : S.yields = S'.yields
  entry : ∀ x, op (S.entry x) = (input x).map S'.entry
  body : ∀ {a b}, op a = some b → S.body a = S'.body b
  spawns : ∀ out, (S.spawns out).map op = (S'.spawns out).map some
  silent : ∀ {a}, op a = none → Still quiet (fun out => S.spawns out = []) (S.body a)
  respond : ∀ {w v} (e : Env) (n : ℕ) (c : C), rel w v →
    (S.respond e n w c).1 = (S'.respond e n v c).1 ∧
      rel (S.respond e n w c).2 (S'.respond e n v c).2
  hush : ∀ {w v c} (e : Env) (n : ℕ), quiet c → rel w v → rel (S.respond e n w c).2 v

namespace Purge

variable {S : Service C R E Env σ In Op Out} {S' : Service C R E Env τ In' Op' Out}
  (K : Purge S S')

/-- The thread of the second service, if the operation is not silent. -/
def thread (t : Thread C R E Op Out) : Option (Thread C R E Op' Out) :=
  (K.op t.op).map fun b => ⟨b, t.prog⟩

/-- The threads that are not silent. -/
def kept (ts : List (Thread C R E Op Out)) : List (Thread C R E Op' Out) := ts.filterMap K.thread

/-- The number of a thread among those that are not silent. -/
def rank (ts : List (Thread C R E Op Out)) (i : ℕ) : ℕ := (K.kept (ts.take i)).length

/-- What is left of a scheduling decision. -/
def act (s : Config C R E Env σ Op Out) : Act Env In → Option (Act Env In')
  | .arrive x => (K.input x).map .arrive
  | .turn i e => ((s.threads[i]?).bind K.thread).map fun _ => .turn (K.rank s.threads i) e

/-- What is left of a run from `s`. -/
def acts (s : Config C R E Env σ Op Out) : List (Act Env In) → List (Act Env In')
  | [] => []
  | a :: rest => (K.act s a).toList ++ acts (S.step s a) rest

variable {K}

/-! ## Lists of threads -/

section Threads

variable {ts : List (Thread C R E Op Out)} {i : ℕ} {a : Op} {b : Op'} {p : Coro C R E Out}

theorem thread_of_op (hb : K.op a = some b) : K.thread ⟨a, p⟩ = some ⟨b, p⟩ := by
  rw [thread, hb]
  rfl

theorem thread_of_silent (ha : K.op a = none) : K.thread ⟨a, p⟩ = none := by
  rw [thread, ha]
  rfl

theorem kept_append (ts us : List (Thread C R E Op Out)) :
    K.kept (ts ++ us) = K.kept ts ++ K.kept us := List.filterMap_append

/-- A thread in the middle of its list. -/
theorem kept_split {t : Thread C R E Op Out} (hi : ts[i]? = some t) :
    K.kept ts = K.kept (ts.take i) ++ ((K.thread t).toList ++ K.kept (ts.drop (i + 1))) := by
  obtain ⟨hlt, rfl⟩ := List.getElem?_eq_some_iff.1 hi
  conv_lhs => rw [← List.take_append_drop i ts, List.drop_eq_getElem_cons hlt, kept_append]
  congr 1
  simp only [kept, List.filterMap_cons]
  cases K.thread ts[i] <;> rfl

/-- A thread that goes on, in the middle of its list. -/
theorem kept_set (hlt : i < ts.length) (t : Thread C R E Op Out) : K.kept (ts.set i t) =
    K.kept (ts.take i) ++ ((K.thread t).toList ++ K.kept (ts.drop (i + 1))) := by
  have hi : (ts.set i t)[i]? = some t := List.getElem?_set_self hlt
  rw [kept_split hi, List.take_set_of_le (Nat.le_refl i), List.drop_set_of_lt (Nat.lt_succ_self i)]

theorem rank_set (t : Thread C R E Op Out) : K.rank (ts.set i t) i = K.rank ts i := by
  rw [rank, rank, List.take_set_of_le (Nat.le_refl i)]

/-- A thread that is not silent has its rank as its number. -/
theorem kept_getElem? (hi : ts[i]? = some ⟨a, p⟩) (hb : K.op a = some b) :
    (K.kept ts)[K.rank ts i]? = some ⟨b, p⟩ := by
  rw [kept_split hi, thread_of_op hb, rank, List.getElem?_append_right (Nat.le_refl _),
    Nat.sub_self]
  rfl

theorem kept_set_of_op (hi : ts[i]? = some ⟨a, p⟩) (hb : K.op a = some b) (p' : Coro C R E Out) :
    K.kept (ts.set i ⟨a, p'⟩) = (K.kept ts).set (K.rank ts i) ⟨b, p'⟩ := by
  rw [kept_set (List.getElem?_eq_some_iff.1 hi).1, kept_split hi, thread_of_op hb, thread_of_op hb,
    rank, List.set_append_right _ _ (Nat.le_refl _), Nat.sub_self]
  rfl

theorem kept_set_of_silent (hi : ts[i]? = some ⟨a, p⟩) (ha : K.op a = none) (p' : Coro C R E Out) :
    K.kept (ts.set i ⟨a, p'⟩) = K.kept ts := by
  rw [kept_set (List.getElem?_eq_some_iff.1 hi).1, kept_split hi, thread_of_silent ha,
    thread_of_silent ha]

/-- New threads for operations. -/
theorem kept_start {ops : List Op} {ops' : List Op'} (h : ops.map K.op = ops'.map some) :
    K.kept (ops.map S.start) = ops'.map S'.start := by
  induction ops generalizing ops' with
  | nil =>
    rw [List.map_nil, eq_comm, List.map_eq_nil_iff] at h
    rw [h]
    rfl
  | cons a ops ih =>
    cases ops' with
    | nil => cases h
    | cons b ops' =>
      simp only [List.map_cons, List.cons.injEq] at h
      have hthread : K.thread (S.start a) = some (S'.start b) := by
        rw [start, thread_of_op h.1, K.body h.1]
        rfl
      rw [List.map_cons, List.map_cons, kept, List.filterMap_cons, hthread]
      exact congrArg _ (ih h.2)

end Threads

/-! ## Runs -/

variable (K) in
/-- Related worlds, the same threads but for the silent ones, and nothing to come from these. -/
structure Matches (s : Config C R E Env σ Op Out) (s' : Config C R E Env τ Op' Out) : Prop where
  world : K.rel s.world s'.world
  threads : s'.threads = K.kept s.threads
  silent : ∀ t ∈ s.threads, K.op t.op = none →
    Still K.quiet (fun out => S.spawns out = []) t.prog

variable {s : Config C R E Env σ Op Out} {s' : Config C R E Env τ Op' Out}

theorem Matches.append (h : K.Matches s s') {ops : List Op} {ops' : List Op'}
    (hops : K.kept (ops.map S.start) = ops'.map S'.start) :
    K.Matches { s with threads := s.threads ++ ops.map S.start }
      { s' with threads := s'.threads ++ ops'.map S'.start } := by
  refine ⟨h.world, ?_, ?_⟩
  · show s'.threads ++ _ = K.kept (s.threads ++ _)
    rw [kept_append, h.threads, hops]
  · intro t ht hsilent
    rcases List.mem_append.1 ht with ht | ht
    · exact h.silent t ht hsilent
    · obtain ⟨a, -, rfl⟩ := List.mem_map.1 ht
      exact K.silent hsilent

/-- A command of a thread that is not silent, on both sides. -/
theorem Matches.issue (h : K.Matches s s') {i : ℕ} {a : Op} {b : Op'} {c : C}
    {k : Except E (R c) → Coro C R E Out} (hi : s.threads[i]? = some ⟨a, .call c k⟩)
    (hb : K.op a = some b) (e : Env) (n : ℕ) :
    K.Matches (S.issue s i a e n c k) (S'.issue s' (K.rank s.threads i) b e n c k) := by
  obtain ⟨hanswer, hworld⟩ := K.respond e n c h.world
  refine ⟨hworld, ?_, ?_⟩
  · simp only [Service.issue, h.threads, ← hanswer]
    exact (kept_set_of_op hi hb _).symm
  · intro t ht hsilent
    rcases List.mem_or_eq_of_mem_set ht with ht | rfl
    · exact h.silent t ht hsilent
    · cases hb.symm.trans hsilent

/-- A turn of a thread that is not silent. The induction follows the coroutine. -/
theorem Matches.advance {i : ℕ} {a : Op} {b : Op'} (hb : K.op a = some b) (e : Env)
    (p : Coro C R E Out) (n : ℕ) (h : K.Matches s s') (hi : s.threads[i]? = some ⟨a, p⟩) :
    K.Matches (S.advance i a e p n s) (S'.advance (K.rank s.threads i) b e p n s') := by
  induction p generalizing n s s' with
  | done r =>
    cases r with
    | ok out => exact h.append (kept_start (K.spawns out))
    | error x => exact h
  | call c k ih =>
    have hissue := h.issue hi hb e n
    have hanswer := (K.respond e n c h.world).1
    simp only [Service.advance, ← K.yields, ← hanswer]
    split
    · exact hissue
    · have hlt : i < s.threads.length := (List.getElem?_eq_some_iff.1 hi).1
      have hrank : K.rank (S.issue s i a e n c k).threads i = K.rank s.threads i := rank_set _
      have hrest := ih (S.respond e n s.world c).1 (n + 1) hissue (List.getElem?_set_self hlt)
      rw [hrank] at hrest
      exact hrest

/-- A turn of a silent thread. -/
theorem Matches.advance_silent {i : ℕ} {a : Op} (ha : K.op a = none) (e : Env)
    (p : Coro C R E Out) (n : ℕ) (h : K.Matches s s') (hi : s.threads[i]? = some ⟨a, p⟩)
    (hp : Still K.quiet (fun out => S.spawns out = []) p) :
    K.Matches (S.advance i a e p n s) s' := by
  induction p generalizing n s with
  | done r =>
    cases r with
    | ok out =>
      have hnil : S.spawns out = [] := hp out rfl
      have hsame : S.advance i a e (.done (.ok out)) n s = s := by
        simp only [Service.advance, finish, hnil, List.map_nil, List.append_nil]
      rw [hsame]
      exact h
    | error x => exact h
  | call c k ih =>
    have hlt : i < s.threads.length := (List.getElem?_eq_some_iff.1 hi).1
    have hquiet : K.quiet c := (hp (S.respond e n s.world c).1 () trivial).1
    have hrest : ∀ r, Still K.quiet (fun out => S.spawns out = []) (k r) :=
      fun r => (hp r () trivial).2
    have hissue : K.Matches (S.issue s i a e n c k) s' := by
      refine ⟨K.hush e n hquiet h.world, ?_, ?_⟩
      · exact h.threads.trans (kept_set_of_silent hi ha _).symm
      · intro t ht hsilent
        rcases List.mem_or_eq_of_mem_set ht with ht | rfl
        · exact h.silent t ht hsilent
        · exact hrest _
    simp only [Service.advance]
    split
    · exact hissue
    · exact ih _ (n + 1) hissue (List.getElem?_set_self hlt) (hrest _)

theorem Matches.step (h : K.Matches s s') (x : Act Env In) :
    K.Matches (S.step s x) (S'.run s' (K.act s x).toList) := by
  cases x with
  | arrive x =>
    have hentry := K.entry x
    cases hx : K.input x with
    | none =>
      rw [hx] at hentry
      have hkept : K.kept ([S.entry x].map S.start) = ([] : List Op').map S'.start := by
        rw [List.map_singleton, start, kept, List.filterMap_cons, thread_of_silent hentry]
        rfl
      have happend := h.append hkept
      rw [List.map_nil, List.append_nil] at happend
      rw [act, hx]
      exact happend
    | some y =>
      rw [hx] at hentry
      have hops : [S.entry x].map K.op = [S'.entry y].map some := congrArg (· :: []) hentry
      rw [act, hx]
      exact h.append (kept_start hops)
  | turn i e =>
    simp only [Service.step, act]
    cases hi : s.threads[i]? with
    | none => exact h
    | some t =>
      obtain ⟨a, p⟩ := t
      rw [Option.bind_some]
      cases ha : K.op a with
      | none =>
        rw [thread_of_silent ha]
        cases p with
        | done r => exact h
        | call c k =>
          exact h.advance_silent ha e _ 0 hi (h.silent _ (List.mem_of_getElem? hi) ha)
      | some b =>
        have hi' : s'.threads[K.rank s.threads i]? = some ⟨b, p⟩ := by
          rw [h.threads]
          exact kept_getElem? hi ha
        rw [thread_of_op ha]
        show K.Matches _ (S'.step s' (.turn (K.rank s.threads i) e))
        simp only [Service.step, hi']
        cases p with
        | done r => exact h
        | call c k => exact h.advance ha e _ 0 hi

/-- The rule of runs. -/
theorem run (h : K.Matches s s') (xs : List (Act Env In)) :
    K.Matches (S.run s xs) (S'.run s' (K.acts s xs)) := by
  induction xs generalizing s s' with
  | nil => exact h
  | cons x rest ih =>
    rw [acts, run_append]
    exact ih (h.step x)

theorem matches_initial {w : σ} {v : τ} (h : K.rel w v) :
    K.Matches (Config.initial w) (Config.initial v) :=
  ⟨h, rfl, fun _ ht => absurd ht List.not_mem_nil⟩

end Purge

end Service

end Coroutine
