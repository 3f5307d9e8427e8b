import OtpVoice.Coroutine.Basic
import Mathlib.Data.List.Induction

/-!
# Services: interleaved coroutines over one world

A `Service` answers the commands of its coroutines from a shared world `σ` and an environment. A
thread keeps the event loop until it issues a command in `yields`; then any thread may run. With
every suspending command in `yields` this is the interleaving of an event loop at its await points;
with fewer commands in `yields` it is a coarser schedule of the same coroutines.

A configuration keeps the world, the threads, and the trace of all executed commands. `replay`
recomputes the world from a trace (`run_world`), and every answer in a trace is the one the service
gives at that point (`run_answers`). `run_spec` lifts a fact proved with `Sat` about the single
coroutines to every thread and every executed command of every run: between two yields a coroutine
knows the world, across a yield it keeps only what its monitor has noted of its own commands.
-/

set_option autoImplicit false

namespace Coroutine

/-- One executed command: the environment and the number of commands that its thread had executed
since it got the event loop, the command, and the answer. -/
structure Event (C : Type) (R : C → Type) (E Env : Type) where
  env : Env
  index : ℕ
  cmd : C
  res : Except E (R cmd)

/-- A service: the answers to commands, the commands that give up the event loop, the operations
that inputs start, the coroutine of each operation, and the operations that a result schedules. -/
structure Service (C : Type) (R : C → Type) (E Env σ In Op Out : Type) where
  respond : Env → ℕ → σ → (c : C) → Except E (R c) × σ
  yields : C → Bool
  entry : In → Op
  body : Op → Coro C R E Out
  spawns : Out → List Op

/-- A started operation and the rest of its coroutine. -/
structure Thread (C : Type) (R : C → Type) (E Op Out : Type) where
  op : Op
  prog : Coro C R E Out

/-- A configuration of a service. -/
structure Config (C : Type) (R : C → Type) (E Env σ Op Out : Type) where
  world : σ
  threads : List (Thread C R E Op Out)
  trace : List (ℕ × Event C R E Env)

/-- A scheduling decision: an input arrives, or thread `i` gets the event loop in environment
`e`. -/
inductive Act (Env In : Type) where
  | arrive (x : In)
  | turn (i : ℕ) (e : Env)

variable {C : Type} {R : C → Type} {E Env σ In Op Out : Type}

/-- No thread and an empty trace. -/
def Config.initial (w : σ) : Config C R E Env σ Op Out := ⟨w, [], []⟩

/-- The commands that thread `i` has executed. -/
def ownEvents (i : ℕ) (tr : List (ℕ × Event C R E Env)) : List (Event C R E Env) :=
  (tr.filter fun x => x.1 = i).map Prod.snd

/-- The operation of a thread and its result, once it has ended. -/
def Config.outcome (s : Config C R E Env σ Op Out) (i : ℕ) : Option (Op × Except E Out) :=
  match s.threads[i]? with
  | some ⟨op, .done r⟩ => some (op, r)
  | _ => none

/-- The operation of a thread. -/
def Config.opOf (s : Config C R E Env σ Op Out) (i : ℕ) : Option Op :=
  s.threads[i]?.map Thread.op

theorem Config.outcome_eq_some_iff {s : Config C R E Env σ Op Out} {i : ℕ} {op : Op}
    {r : Except E Out} : s.outcome i = some (op, r) ↔ s.threads[i]? = some ⟨op, .done r⟩ := by
  unfold Config.outcome
  split
  · simp_all
  · rename_i hno
    exact ⟨(fun h => by cases h), fun h => absurd h (hno op r)⟩

theorem Config.opOf_eq_some_iff {s : Config C R E Env σ Op Out} {i : ℕ} {op : Op} :
    s.opOf i = some op ↔ ∃ p, s.threads[i]? = some ⟨op, p⟩ := by
  simp only [Config.opOf, Option.map_eq_some_iff]
  exact ⟨fun ⟨⟨_, p⟩, ht, hop⟩ => ⟨p, hop ▸ ht⟩, fun ⟨p, hp⟩ => ⟨_, hp, rfl⟩⟩

/-! ## The commands of one thread -/

theorem ownEvents_concat_self (i : ℕ) (tr : List (ℕ × Event C R E Env)) (ev : Event C R E Env) :
    ownEvents i (tr ++ [(i, ev)]) = ownEvents i tr ++ [ev] := by
  simp [ownEvents]

theorem ownEvents_concat_ne {i j : ℕ} (h : j ≠ i) (tr : List (ℕ × Event C R E Env))
    (ev : Event C R E Env) : ownEvents i (tr ++ [(j, ev)]) = ownEvents i tr := by
  simp [ownEvents, h]

theorem ownEvents_eq_nil {i : ℕ} {tr : List (ℕ × Event C R E Env)} (h : ∀ x ∈ tr, x.1 < i) :
    ownEvents i tr = [] := by
  simp only [ownEvents, List.map_eq_nil_iff, List.filter_eq_nil_iff, decide_eq_true_eq]
  exact fun x hx => Nat.ne_of_lt (h x hx)

theorem ownEvents_append (i : ℕ) (tr tr' : List (ℕ × Event C R E Env)) :
    ownEvents i (tr ++ tr') = ownEvents i tr ++ ownEvents i tr' := by
  simp [ownEvents]

/-- The commands of a thread before and after one of them. -/
theorem ownEvents_split {tr : List (ℕ × Event C R E Env)} {n : ℕ} {x : ℕ × Event C R E Env}
    (h : tr[n]? = some x) : ownEvents x.1 tr =
      ownEvents x.1 (tr.take n) ++ x.2 :: ownEvents x.1 (tr.drop (n + 1)) := by
  obtain ⟨hn, hx⟩ := List.getElem?_eq_some_iff.1 h
  have hsplit : tr = tr.take n ++ x :: tr.drop (n + 1) := by
    rw [← hx, List.getElem_cons_drop, List.take_append_drop]
  conv_lhs => rw [hsplit, ownEvents_append]
  simp [ownEvents]

theorem mem_ownEvents {i : ℕ} {tr : List (ℕ × Event C R E Env)} {ev : Event C R E Env} :
    ev ∈ ownEvents i tr ↔ (i, ev) ∈ tr := by
  simp only [ownEvents, List.mem_map, List.mem_filter, decide_eq_true_eq]
  exact ⟨fun ⟨x, ⟨hx, hi⟩, hev⟩ => hi ▸ hev ▸ hx, fun h => ⟨(i, ev), ⟨h, rfl⟩, rfl⟩⟩

namespace Service

variable (S : Service C R E Env σ In Op Out)

/-- A new thread for an operation. -/
def start (op : Op) : Thread C R E Op Out := ⟨op, S.body op⟩

/-- Thread `i` issues the command `c` as the `n`-th of its turn. -/
def issue (s : Config C R E Env σ Op Out) (i : ℕ) (op : Op) (e : Env) (n : ℕ) (c : C)
    (k : Except E (R c) → Coro C R E Out) : Config C R E Env σ Op Out :=
  let x := S.respond e n s.world c
  ⟨x.2, s.threads.set i ⟨op, k x.1⟩, s.trace ++ [(i, ⟨e, n, c, x.1⟩)]⟩

/-- The end of a coroutine starts the operations that its result schedules. -/
def finish (s : Config C R E Env σ Op Out) : Except E Out → Config C R E Env σ Op Out
  | .ok out => { s with threads := s.threads ++ (S.spawns out).map S.start }
  | .error _ => s

/-- Thread `i` runs on until it yields or ends. -/
def advance (i : ℕ) (op : Op) (e : Env) :
    Coro C R E Out → ℕ → Config C R E Env σ Op Out → Config C R E Env σ Op Out
  | .done r, _, s => S.finish s r
  | .call c k, n, s =>
    let rest := k (S.respond e n s.world c).1
    -- a coroutine that has nothing left to do ends in the same turn
    if S.yields c && !rest.isDone then S.issue s i op e n c k
    else advance i op e rest (n + 1) (S.issue s i op e n c k)

/-- One scheduling decision. A turn of a thread that has ended, or that does not exist, does
nothing. -/
def step (s : Config C R E Env σ Op Out) : Act Env In → Config C R E Env σ Op Out
  | .arrive x => { s with threads := s.threads ++ [S.start (S.entry x)] }
  | .turn i e =>
    match s.threads[i]? with
    -- the number of commands starts again in each turn
    | some ⟨op, .call c k⟩ => S.advance i op e (.call c k) 0 s
    | _ => s

/-- A run of scheduling decisions. -/
def run (s : Config C R E Env σ Op Out) (acts : List (Act Env In)) : Config C R E Env σ Op Out :=
  acts.foldl S.step s

theorem run_append (s : Config C R E Env σ Op Out) (as bs : List (Act Env In)) :
    S.run s (as ++ bs) = S.run (S.run s as) bs :=
  List.foldl_append

theorem run_concat (s : Config C R E Env σ Op Out) (as : List (Act Env In)) (a : Act Env In) :
    S.run s (as ++ [a]) = S.step (S.run s as) a := by
  rw [run_append]
  rfl

/-! ## Invariants -/

/-- What holds before a turn and is kept by each command and by the end of a coroutine holds after
the turn. -/
theorem advance_induction {P : Config C R E Env σ Op Out → Prop} (i : ℕ) (op : Op) (e : Env)
    (hissue : ∀ (s : Config C R E Env σ Op Out) n c k,
      s.threads[i]? = some ⟨op, .call c k⟩ → P s → P (S.issue s i op e n c k))
    (hfinish : ∀ (s : Config C R E Env σ Op Out) r,
      s.threads[i]? = some ⟨op, .done r⟩ → P s → P (S.finish s r)) :
    ∀ (p : Coro C R E Out) (n : ℕ) (s : Config C R E Env σ Op Out),
      s.threads[i]? = some ⟨op, p⟩ → P s → P (S.advance i op e p n s) := by
  intro p
  induction p with
  | done r => exact fun n s hi h => hfinish s r hi h
  | call c k ih =>
    intro n s hi h
    -- the thread is still there after its command, with the rest of its coroutine
    have hlt : i < s.threads.length := (List.getElem?_eq_some_iff.1 hi).1
    have hP := hissue s n c k hi h
    simp only [advance]
    split
    · exact hP
    · refine ih _ (n + 1) _ ?_ hP
      simp [issue, hlt]

/-- The invariant rule of runs: what holds at the start and is kept by arrivals, by single commands
and by the end of a coroutine holds in every configuration of a run. -/
theorem run_induction {P : Config C R E Env σ Op Out → Prop}
    (harrive : ∀ s x, P s → P (S.step s (.arrive x)))
    (hissue : ∀ (s : Config C R E Env σ Op Out) (i : ℕ) op e n c k,
      s.threads[i]? = some ⟨op, .call c k⟩ → P s → P (S.issue s i op e n c k))
    (hfinish : ∀ (s : Config C R E Env σ Op Out) (i : ℕ) op r,
      s.threads[i]? = some ⟨op, .done r⟩ → P s → P (S.finish s r))
    {s : Config C R E Env σ Op Out} (h : P s) (acts : List (Act Env In)) : P (S.run s acts) := by
  induction acts using List.reverseRecOn with
  | nil => exact h
  | append_singleton as a ih =>
    rw [run_concat]
    generalize S.run s as = t at ih ⊢
    cases a with
    | arrive x => exact harrive t x ih
    | turn i e =>
      simp only [step]
      split
      · rename_i op c k hi
        exact S.advance_induction (P := P) i op e (fun s n c k => hissue s i op e n c k)
          (fun s r => hfinish s i op r) _ 0 t hi ih
      · exact ih

/-- Every command is executed in the environment of a turn of its thread. -/
theorem run_turns (w : σ) (acts : List (Act Env In)) :
    ∀ x ∈ (S.run (Config.initial w) acts).trace, Act.turn x.1 x.2.env ∈ acts := by
  induction acts using List.reverseRecOn with
  | nil => exact fun x hx => absurd hx List.not_mem_nil
  | append_singleton as a ih =>
    have hbefore : ∀ x ∈ (S.run (Config.initial w) as).trace, Act.turn x.1 x.2.env ∈ as ++ [a] :=
      fun x hx => List.mem_append_left _ (ih x hx)
    rw [run_concat]
    generalize S.run (Config.initial w) as = s at hbefore
    cases a with
    | arrive y => exact hbefore
    | turn i e =>
      simp only [step]
      split
      · rename_i op c k hi
        refine S.advance_induction (P := fun t => ∀ x ∈ t.trace,
          Act.turn x.1 x.2.env ∈ as ++ [Act.turn i e]) i op e ?_ ?_ _ 0 s hi hbefore
        · intro t n c k _ ht x hx
          rcases List.mem_append.1 hx with hx | hx
          · exact ht x hx
          · obtain rfl := List.mem_singleton.1 hx
            exact List.mem_append_right _ (List.mem_singleton_self _)
        · rintro t (_ | _) _ ht <;> exact ht
      · exact hbefore

/-! ## The world and the answers of a trace -/

/-- A position of an extended list is its last one or a position of the list. -/
theorem concat_split {α : Type} {l pre suf : List α} {x y : α}
    (h : l ++ [x] = pre ++ y :: suf) : (l = pre ∧ x = y) ∨ ∃ suf', l = pre ++ y :: suf' := by
  rcases List.eq_nil_or_concat suf with rfl | ⟨suf', last, rfl⟩
  · obtain ⟨hl, hx⟩ := List.append_inj' h rfl
    exact .inl ⟨hl, by simpa using hx⟩
  · have h' : l ++ [x] = (pre ++ y :: suf') ++ [last] := by simpa using h
    exact .inr ⟨suf', (List.append_inj' h' rfl).1⟩

/-- The splits of a list at one of its elements are its positions. -/
theorem forall_split_iff {α : Type} {l : List α} {P : List α → α → List α → Prop} :
    (∀ pre x suf, l = pre ++ x :: suf → P pre x suf) ↔
      ∀ n, ∀ h : n < l.length, P (l.take n) l[n] (l.drop (n + 1)) := by
  refine ⟨fun h n hn => h _ _ _ ?_, ?_⟩
  · rw [List.getElem_cons_drop, List.take_append_drop]
  · rintro h pre x suf rfl
    simpa using h pre.length (by simp)

/-- The world after the commands of a trace. -/
def replay (w : σ) (tr : List (ℕ × Event C R E Env)) : σ :=
  tr.foldl (fun w x => (S.respond x.2.env x.2.index w x.2.cmd).2) w

theorem replay_concat (w : σ) (tr : List (ℕ × Event C R E Env)) (x : ℕ × Event C R E Env) :
    S.replay w (tr ++ [x]) = (S.respond x.2.env x.2.index (S.replay w tr) x.2.cmd).2 := by
  simp [replay]

/-- The world after the first `n` commands of a trace. -/
def worldAfter (w : σ) (tr : List (ℕ × Event C R E Env)) (n : ℕ) : σ := S.replay w (tr.take n)

theorem worldAfter_succ (w : σ) {tr : List (ℕ × Event C R E Env)} {n : ℕ}
    {x : ℕ × Event C R E Env} (h : tr[n]? = some x) : S.worldAfter w tr (n + 1) =
      (S.respond x.2.env x.2.index (S.worldAfter w tr n) x.2.cmd).2 := by
  rw [worldAfter, worldAfter, List.take_add_one, h]
  exact S.replay_concat w _ x

theorem worldAfter_succ_of_none (w : σ) {tr : List (ℕ × Event C R E Env)} {n : ℕ}
    (h : tr[n]? = none) : S.worldAfter w tr (n + 1) = S.worldAfter w tr n := by
  rw [worldAfter, worldAfter, List.take_add_one, h, Option.toList_none, List.append_nil]

/-- The world of a run is the replay of its trace. -/
theorem run_world (w : σ) (acts : List (Act Env In)) :
    (S.run (Config.initial w) acts).world = S.replay w (S.run (Config.initial w) acts).trace := by
  refine S.run_induction (P := fun s => s.world = S.replay w s.trace) ?_ ?_ ?_ rfl acts
  · exact fun s x h => h
  · intro s i op e n c k _ h
    simp only [issue, replay_concat, ← h]
  · rintro s i op (_ | _) _ h <;> exact h

theorem worldAfter_length (w : σ) (acts : List (Act Env In)) :
    S.worldAfter w (S.run (Config.initial w) acts).trace
      (S.run (Config.initial w) acts).trace.length = (S.run (Config.initial w) acts).world := by
  rw [worldAfter, List.take_length, run_world]

/-- Every answer in the trace of a run is the answer of the service in the world at that point. -/
theorem run_answers (w : σ) (acts : List (Act Env In)) {pre suf : List (ℕ × Event C R E Env)}
    {i : ℕ} {ev : Event C R E Env}
    (h : (S.run (Config.initial w) acts).trace = pre ++ (i, ev) :: suf) :
    ev.res = (S.respond ev.env ev.index (S.replay w pre) ev.cmd).1 := by
  -- carried together with the world, so that a new command is answered in the replayed world
  suffices H : (S.run (Config.initial w) acts).world =
      S.replay w (S.run (Config.initial w) acts).trace ∧
      ∀ pre i ev suf, (S.run (Config.initial w) acts).trace = pre ++ (i, ev) :: suf →
        ev.res = (S.respond ev.env ev.index (S.replay w pre) ev.cmd).1 from H.2 _ _ _ _ h
  refine S.run_induction (P := fun s => s.world = S.replay w s.trace ∧ ∀ pre i ev suf,
    s.trace = pre ++ (i, ev) :: suf →
      ev.res = (S.respond ev.env ev.index (S.replay w pre) ev.cmd).1) ?_ ?_ ?_ ?_ acts
  · exact fun s x h => h
  · rintro s i op e n c k _ ⟨hw, ht⟩
    refine ⟨by simp only [issue, replay_concat, ← hw], fun pre j ev suf hsplit => ?_⟩
    rcases concat_split hsplit with ⟨rfl, hev⟩ | ⟨suf', hpre⟩
    · cases hev
      rw [← hw]
    · exact ht pre j ev suf' hpre
  · rintro s i op (_ | _) _ h <;> exact h
  · exact ⟨rfl, fun pre i ev suf hnil => by simp [Config.initial] at hnil⟩

/-- The answer to the `n`-th command of a run. -/
theorem trace_answers (w : σ) (acts : List (Act Env In)) {n i : ℕ} {ev : Event C R E Env}
    (hx : (S.run (Config.initial w) acts).trace[n]? = some (i, ev)) : ev.res = (S.respond ev.env
      ev.index (S.worldAfter w (S.run (Config.initial w) acts).trace n) ev.cmd).1 := by
  obtain ⟨hn, hx⟩ := List.getElem?_eq_some_iff.1 hx
  have hsplit : (S.run (Config.initial w) acts).trace =
      (S.run (Config.initial w) acts).trace.take n ++
        (i, ev) :: (S.run (Config.initial w) acts).trace.drop (n + 1) := by
    rw [← hx, List.getElem_cons_drop, List.take_append_drop]
  exact S.run_answers w acts hsplit

/-- The invariant rule of traces: what holds of the first world and is kept by each executed
command, with the answer that the service gave to it, holds after every first part of the trace of a
run. -/
theorem run_prefix_induction {P : List (ℕ × Event C R E Env) → σ → Prop} {w : σ}
    {acts : List (Act Env In)} (hnil : P [] w)
    (hconcat : ∀ pre (i : ℕ) ev suf, (S.run (Config.initial w) acts).trace = pre ++ (i, ev) :: suf →
      ev.res = (S.respond ev.env ev.index (S.replay w pre) ev.cmd).1 → P pre (S.replay w pre) →
        P (pre ++ [(i, ev)]) (S.respond ev.env ev.index (S.replay w pre) ev.cmd).2)
    {pre suf : List (ℕ × Event C R E Env)}
    (h : (S.run (Config.initial w) acts).trace = pre ++ suf) : P pre (S.replay w pre) := by
  induction pre using List.reverseRecOn generalizing suf with
  | nil => exact hnil
  | append_singleton pre x ih =>
    obtain ⟨i, ev⟩ := x
    have hsplit : (S.run (Config.initial w) acts).trace = pre ++ (i, ev) :: suf := by simpa using h
    rw [replay_concat]
    exact hconcat pre i ev suf hsplit (S.run_answers w acts hsplit) (ih hsplit)

/-! ## From single coroutines to runs -/

variable {μ : Type}

/-- What one coroutine sees: the world, the environment of its turn, and the notes of a monitor of
its own commands. -/
structure View (σ Env μ : Type) where
  world : σ
  env : Env
  memory : μ

/-- The steps of a view. Across a yield the world and the environment are arbitrary. -/
def moves (mon : μ → Event C R E Env → μ) (v : View σ Env μ) (c : C) (r : Except E (R c))
    (v' : View σ Env μ) : Prop :=
  ∃ n, r = (S.respond v.env n v.world c).1 ∧ v'.memory = mon v.memory ⟨v.env, n, c, r⟩ ∧
    (S.yields c = false → v'.world = (S.respond v.env n v.world c).2 ∧ v'.env = v.env)

/-- The notes of the monitor of thread `i` after a trace. -/
def monitored (mon : μ → Event C R E Env → μ) (m : μ) (i : ℕ)
    (tr : List (ℕ × Event C R E Env)) : μ :=
  (ownEvents i tr).foldl mon m

theorem monitored_concat_self (mon : μ → Event C R E Env → μ) (m : μ) (i : ℕ)
    (tr : List (ℕ × Event C R E Env)) (ev : Event C R E Env) :
    monitored mon m i (tr ++ [(i, ev)]) = mon (monitored mon m i tr) ev := by
  simp [monitored, ownEvents_concat_self]

theorem monitored_concat_ne (mon : μ → Event C R E Env → μ) (m : μ) {i j : ℕ} (h : j ≠ i)
    (tr : List (ℕ × Event C R E Env)) (ev : Event C R E Env) :
    monitored mon m i (tr ++ [(j, ev)]) = monitored mon m i tr := by
  simp [monitored, ownEvents_concat_ne h]

section RunSpec

variable (mon : μ → Event C R E Env → μ) (m : Op → μ)
  (G : Op → View σ Env μ → (c : C) → Except E (R c) → View σ Env μ → Prop)
  (post : Op → Except E Out → μ → Prop)

/-- The coroutine `p` of an operation does what is promised from the view `v` on. -/
def Keeps (op : Op) (p : Coro C R E Out) (v : View σ Env μ) : Prop :=
  Coro.Sat (S.moves mon) (G op) (fun r v => post op r v.memory) p v

/-- What is promised of all coroutines, in a configuration reached from the world `w₀` in which the
threads of `busy` are in the middle of a turn. -/
structure Promised (w₀ : σ) (busy : ℕ → Prop) (s : Config C R E Env σ Op Out) : Prop where
  world : s.world = S.replay w₀ s.trace
  owners : ∀ x ∈ s.trace, x.1 < s.threads.length
  threads : ∀ (i : ℕ) t, s.threads[i]? = some t → ¬ busy i →
    ∀ w e, S.Keeps mon G post t.op t.prog ⟨w, e, monitored mon (m t.op) i s.trace⟩
  events : ∀ pre (i : ℕ) ev suf, s.trace = pre ++ (i, ev) :: suf →
    ∃ t, s.threads[i]? = some t ∧
      G t.op ⟨S.replay w₀ pre, ev.env, monitored mon (m t.op) i pre⟩ ev.cmd ev.res
        ⟨S.replay w₀ (pre ++ [(i, ev)]), ev.env, monitored mon (m t.op) i (pre ++ [(i, ev)])⟩

variable {S mon m G post} {w₀ : σ} {s : Config C R E Env σ Op Out}

theorem Promised.append (hbody : ∀ op w e, S.Keeps mon G post op (S.body op) ⟨w, e, m op⟩)
    (h : S.Promised mon m G post w₀ (fun _ => False) s) (ops : List Op) :
    S.Promised mon m G post w₀ (fun _ => False)
      { s with threads := s.threads ++ ops.map S.start } := by
  refine ⟨h.world, fun x hx => ?_, fun i t hi _ w e => ?_, fun pre i ev suf hs => ?_⟩
  · simp only [List.length_append]
    exact Nat.lt_add_right _ (h.owners x hx)
  · simp only [List.getElem?_append] at hi
    split at hi
    · exact h.threads i t hi not_false w e
    · rename_i hlt
      rw [List.getElem?_map, Option.map_eq_some_iff] at hi
      obtain ⟨op, -, rfl⟩ := hi
      -- a new thread has executed nothing, so its monitor is where the promise starts
      have hnil : ownEvents i s.trace = [] :=
        ownEvents_eq_nil fun x hx => Nat.lt_of_lt_of_le (h.owners x hx) (Nat.not_lt.1 hlt)
      simp only [monitored, hnil, List.foldl_nil]
      exact hbody op w e
  · obtain ⟨t, hi, hG⟩ := h.events pre i ev suf hs
    refine ⟨t, ?_, hG⟩
    rw [List.getElem?_append_left (List.getElem?_eq_some_iff.1 hi).1]
    exact hi

/-- One command of a turn. -/
theorem Promised.issue {i : ℕ} {op : Op} {e : Env} {n : ℕ} {c : C}
    {k : Except E (R c) → Coro C R E Out} (h : S.Promised mon m G post w₀ (· = i) s)
    (hi : s.threads[i]? = some ⟨op, .call c k⟩)
    (hg : G op ⟨s.world, e, monitored mon (m op) i s.trace⟩ c (S.respond e n s.world c).1
      ⟨(S.issue s i op e n c k).world, e, monitored mon (m op) i (S.issue s i op e n c k).trace⟩) :
    S.Promised mon m G post w₀ (· = i) (S.issue s i op e n c k) := by
  have hlt : i < s.threads.length := (List.getElem?_eq_some_iff.1 hi).1
  refine ⟨?_, fun x hx => ?_, fun j t hj hji w e' => ?_, fun pre j ev suf hs => ?_⟩
  · simp only [Service.issue, replay_concat, ← h.world]
  · simp only [Service.issue, List.mem_append, List.mem_singleton] at hx
    simp only [Service.issue, List.length_set]
    rcases hx with hx | rfl
    · exact h.owners x hx
    · exact hlt
  · simp only [Service.issue] at hj ⊢
    rw [List.getElem?_set_ne (Ne.symm hji)] at hj
    rw [monitored_concat_ne mon _ (Ne.symm hji)]
    exact h.threads j t hj hji w e'
  -- the new event, or an earlier one, whose thread may be the same
  · simp only [Service.issue] at hs ⊢
    rcases concat_split hs with ⟨rfl, hev⟩ | ⟨suf', hpre⟩
    · cases hev
      refine ⟨_, List.getElem?_set_self hlt, ?_⟩
      rw [replay_concat, ← h.world]
      exact hg
    · obtain ⟨t, hj, hG⟩ := h.events pre j ev suf' hpre
      by_cases hji : i = j
      · subst hji
        rw [hi] at hj
        cases hj
        exact ⟨_, List.getElem?_set_self hlt, hG⟩
      · exact ⟨t, by rwa [List.getElem?_set_ne hji], hG⟩

/-- A turn. The induction follows the coroutine; its own promise is known for the present world
only, until it yields or ends. -/
theorem Promised.advance (hbody : ∀ op w e, S.Keeps mon G post op (S.body op) ⟨w, e, m op⟩)
    {i : ℕ} {op : Op} {e : Env} (p : Coro C R E Out) (n : ℕ) (s : Config C R E Env σ Op Out)
    (hi : s.threads[i]? = some ⟨op, p⟩) (h : S.Promised mon m G post w₀ (· = i) s)
    (hp : S.Keeps mon G post op p ⟨s.world, e, monitored mon (m op) i s.trace⟩) :
    S.Promised mon m G post w₀ (fun _ => False) (S.advance i op e p n s) := by
  induction p generalizing n s with
  | done r =>
    have hrest : S.Promised mon m G post w₀ (fun _ => False) s := by
      refine ⟨h.world, h.owners, fun j t hj _ w e' => ?_, h.events⟩
      by_cases hji : j = i
      · subst hji
        rw [hi] at hj
        cases hj
        exact hp
      · exact h.threads j t hj hji w e'
    cases r with
    | ok out => exact hrest.append hbody (S.spawns out)
    | error x => exact hrest
  | call c k ih =>
    have hlt : i < s.threads.length := (List.getElem?_eq_some_iff.1 hi).1
    set r := (S.respond e n s.world c).1 with hr
    -- the step of the view, for any world and environment after a yield
    have hstep : ∀ w' e', (S.yields c = false → w' = (S.respond e n s.world c).2 ∧ e' = e) →
        let v' : View σ Env μ := ⟨w', e', monitored mon (m op) i (S.issue s i op e n c k).trace⟩
        G op ⟨s.world, e, monitored mon (m op) i s.trace⟩ c r v' ∧
          S.Keeps mon G post op (k r) v' := fun w' e' hy =>
      hp r ⟨w', e', _⟩ ⟨n, hr, by simp only [Service.issue, monitored_concat_self, ← hr], hy⟩
    have hself : (S.issue s i op e n c k).threads[i]? = some ⟨op, k r⟩ :=
      List.getElem?_set_self hlt
    have hmid := h.issue hi (hstep _ _ fun _ => ⟨rfl, rfl⟩).1
    simp only [Service.advance]
    split
    · rename_i hy
      have hyc : S.yields c = true := (Bool.and_eq_true_iff.1 hy).1
      refine ⟨hmid.world, hmid.owners, fun j t hj _ w' e' => ?_, hmid.events⟩
      by_cases hji : j = i
      · subst hji
        rw [hself] at hj
        cases hj
        exact (hstep w' e' fun hn => by simp [hyc] at hn).2
      · exact hmid.threads j t hj hji w' e'
    · exact ih r (n + 1) _ hself hmid (hstep _ _ fun _ => ⟨rfl, rfl⟩).2

variable (S) in
/-- The rule of runs: what every coroutine keeps, for all it can see, holds at every thread and
every executed command of every run. -/
theorem run_spec (hbody : ∀ op w e, S.Keeps mon G post op (S.body op) ⟨w, e, m op⟩) (w₀ : σ)
    (acts : List (Act Env In)) :
    S.Promised mon m G post w₀ (fun _ => False) (S.run (Config.initial w₀) acts) := by
  induction acts using List.reverseRecOn with
  | nil =>
    refine ⟨rfl, fun x hx => ?_, fun i t hi => ?_, fun pre i ev suf hs => ?_⟩
    · simp [run, Config.initial] at hx
    · simp [run, Config.initial] at hi
    · simp [run, Config.initial] at hs
  | append_singleton as a ih =>
    rw [run_concat]
    generalize S.run (Config.initial w₀) as = t at ih ⊢
    cases a with
    | arrive x => exact ih.append hbody [S.entry x]
    | turn i e =>
      simp only [step]
      split
      · rename_i op c k hi
        exact Promised.advance hbody _ 0 t hi
          ⟨ih.world, ih.owners, fun j t hj _ => ih.threads j t hj not_false, ih.events⟩
          (ih.threads i _ hi not_false t.world e)
      · exact ih

/-- A coroutine that has ended keeps its postcondition. -/
theorem Promised.ended (h : S.Promised mon m G post w₀ (fun _ => False) s) {i : ℕ} {op : Op}
    {r : Except E Out} (hi : s.threads[i]? = some ⟨op, .done r⟩) (e : Env) :
    post op r (monitored mon (m op) i s.trace) :=
  h.threads i _ hi not_false s.world e

/-- The notes of a thread are the first ones or those after its last command. -/
theorem monitored_cases (mon : μ → Event C R E Env → μ) (m₀ : μ) (i : ℕ)
    (tr : List (ℕ × Event C R E Env)) :
    monitored mon m₀ i tr = m₀ ∨ ∃ pre ev suf, tr = pre ++ (i, ev) :: suf ∧
      monitored mon m₀ i tr = monitored mon m₀ i (pre ++ [(i, ev)]) := by
  induction tr using List.reverseRecOn with
  | nil => exact .inl rfl
  | append_singleton tr x ih =>
    obtain ⟨j, ev⟩ := x
    by_cases hji : j = i
    · subst hji
      exact .inr ⟨tr, ev, [], rfl, rfl⟩
    · rw [monitored_concat_ne mon _ hji]
      rcases ih with ih | ⟨pre, ev', suf, rfl, ih⟩
      · exact .inl ih
      · exact .inr ⟨pre, ev', suf ++ [(j, ev)], by simp, ih⟩

/-- What holds of the notes at the start and after each command holds of the notes of every thread
after every first part of the trace. -/
theorem Promised.invariant {I : Op → μ → Prop}
    (h : S.Promised mon m (fun op _ _ _ v => I op v.memory) post w₀ (fun _ => False) s)
    (hm : ∀ op, I op (m op)) {i : ℕ} {t : Thread C R E Op Out} (hi : s.threads[i]? = some t)
    {pre suf : List (ℕ × Event C R E Env)} (hs : s.trace = pre ++ suf) :
    I t.op (monitored mon (m t.op) i pre) := by
  rcases monitored_cases mon (m t.op) i pre with heq | ⟨pre', ev, suf', rfl, heq⟩
  · rw [heq]
    exact hm t.op
  · obtain ⟨t', hi', hI⟩ := h.events pre' i ev (suf' ++ suf) (by simpa using hs)
    cases hi.symm.trans hi'
    rw [heq]
    exact hI

end RunSpec

end Service

end Coroutine
