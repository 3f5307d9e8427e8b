import OtpVoice.Coroutine.Service

/-!
# Notes: facts about single threads

`note f` is the monitor that keeps the list of the events that `f` picks. `Noting I post p l` says
that `p`, with the notes `l` at its start, keeps its notes in `I` and ends in `post`, whatever the
other threads do. `run_noting_prefix` and `run_noting_ended` lift this to the threads of a run.
`Justified D` is the invariant that every note is allowed by the notes before it (`run_justified`).
-/

set_option autoImplicit false

namespace Coroutine

namespace Service

variable {C : Type} {R : C → Type} {E Env σ In Op Out μ ν α β : Type}
variable (S : Service C R E Env σ In Op Out)

/-! ## Monitors that ignore the world -/

/-- The steps of a monitor that ignores the world. -/
def watch (mon : μ → Event C R E Env → μ) (m : μ) (c : C) (r : Except E (R c)) (m' : μ) : Prop :=
  ∃ e n w, r = (S.respond e n w c).1 ∧ m' = mon m ⟨e, n, c, r⟩

/-- A promise about the notes alone. -/
theorem Keeps.of_watch {mon : μ → Event C R E Env → μ}
    {G : Op → μ → (c : C) → Except E (R c) → μ → Prop} {post : Op → Except E Out → μ → Prop}
    {op : Op} {p : Coro C R E Out} {v : View σ Env μ}
    (h : Coro.Sat (S.watch mon) (G op) (post op) p v.memory) :
    S.Keeps mon (fun op v c r v' => G op v.memory c r v'.memory) post op p v :=
  h.comap fun v _ _ _ ⟨n, hr, hm, _⟩ => ⟨v.env, n, v.world, hr, hm⟩

/-- The monitor that keeps a list of the events that `f` picks. -/
def note (f : Event C R E Env → Option ν) (l : List ν) (ev : Event C R E Env) : List ν :=
  l ++ (f ev).toList

theorem monitored_note (f : Event C R E Env → Option ν) (i : ℕ)
    (tr : List (ℕ × Event C R E Env)) :
    monitored (note f) [] i tr = (ownEvents i tr).filterMap f := by
  unfold monitored
  induction ownEvents i tr using List.reverseRecOn with
  | nil => rfl
  | append_singleton l ev ih =>
    rw [List.foldl_append, List.filterMap_append, ih]
    cases h : f ev <;> simp [note, h]


section Noting

variable (f : Event C R E Env → Option ν)

/-- From the notes `l` on, `p` keeps its notes in `I` and ends in `post`. -/
def Noting (I : List ν → Prop) (post : Except E α → List ν → Prop) (p : Coro C R E α)
    (l : List ν) : Prop :=
  Coro.Sat (S.watch (note f)) (fun _ _ _ l' => I l') post p l

variable {S f} {I : List ν → Prop} {post : Except E α → List ν → Prop} {l : List ν}

theorem Noting.mono {post' : Except E α → List ν → Prop} {p : Coro C R E α}
    (h : S.Noting f I post p l) (hpost : ∀ r l, post r l → post' r l) : S.Noting f I post' p l :=
  Coro.Sat.mono hpost h

theorem Noting.bind {Q : Except E β → List ν → Prop} {p : Coro C R E β} {g : β → Coro C R E α}
    (hp : S.Noting f I Q p l) (hok : ∀ a l', Q (.ok a) l' → S.Noting f I post (g a) l')
    (herror : ∀ x l', Q (.error x) l' → post (.error x) l') : S.Noting f I post (p >>= g) l := by
  refine (Coro.sat_bind post g p l).2 (Coro.Sat.mono (fun r l' hQ => ?_) hp)
  cases r with
  | ok a => exact hok a l' hQ
  | error x => exact herror x l' hQ

theorem Noting.tryCatch {Q : Except E α → List ν → Prop} {p : Coro C R E α} {h : E → Coro C R E α}
    (hp : S.Noting f I Q p l) (hok : ∀ a l', Q (.ok a) l' → post (.ok a) l')
    (herror : ∀ x l', Q (.error x) l' → S.Noting f I post (h x) l') :
    S.Noting f I post (tryCatch p h) l := by
  refine (Coro.sat_tryCatch post h p l).2 (Coro.Sat.mono (fun r l' hQ => ?_) hp)
  cases r with
  | ok a => exact hok a l' hQ
  | error x => exact herror x l' hQ

theorem Noting.tryFinally {Q : Except E α → List ν → Prop} {p : Coro C R E α}
    {q : Coro C R E Unit} (hp : S.Noting f I Q p l)
    (hq : ∀ r l', Q r l' → S.Noting f I post (q >>= fun _ => .done r) l') :
    S.Noting f I post (p.tryFinally q) l :=
  (Coro.sat_tryFinally post q p l).2 (Coro.Sat.mono hq hp)

/-- A coroutine that starts with its notes in `I` ends with its notes in `I`. -/
theorem Noting.keeps {p : Coro C R E α} (h : S.Noting f I post p l) (hl : I l) :
    S.Noting f I (fun r l' => I l' ∧ post r l') p l := by
  induction p generalizing l with
  | done r => exact ⟨hl, h⟩
  | call c k ih =>
    intro r l' hmove
    obtain ⟨hl', hrest⟩ := h r l' hmove
    exact ⟨hl', ih r hrest hl'⟩

/-- One command: the notes grow by what `f` picks. -/
theorem noting_perform {c : C} {post : Except E (R c) → List ν → Prop}
    (h : ∀ e n w, I (l ++ (f ⟨e, n, c, (S.respond e n w c).1⟩).toList) ∧
      post (S.respond e n w c).1 (l ++ (f ⟨e, n, c, (S.respond e n w c).1⟩).toList)) :
    S.Noting f I post (Coro.perform c) l := by
  rintro r l' ⟨e, n, w, rfl, rfl⟩
  exact h e n w

/-- A coroutine of which `f` picks nothing leaves the notes as they are. -/
theorem noting_of_uses {P : C → Prop} {p : Coro C R E α} (hp : Coro.Uses P p)
    (hP : ∀ c, P c → ∀ e n r, f ⟨e, n, c, r⟩ = none) (hI : I l) :
    S.Noting f I (fun _ l' => l' = l) p l := by
  refine Coro.Sat.of_uses (I := fun l' => l' = l) ?_ hp rfl
  rintro s c r s' hc rfl ⟨e, n, w, hr, rfl⟩
  simp only [note, hP c hc, Option.toList_none, List.append_nil]
  exact ⟨hI, trivial⟩

variable {J : Op → List ν → Prop} {posts : Op → Except E Out → List ν → Prop}

section Runs

variable (hbody : ∀ op, S.Noting f (J op) (posts op) (S.body op) []) (w₀ : σ)
  (acts : List (Act Env In))

include hbody

theorem promised_noting : S.Promised (note f) (fun _ => []) (fun op _ _ _ v' => J op v'.memory)
    posts w₀ (fun _ => False) (S.run (Config.initial w₀) acts) :=
  S.run_spec (fun op _ _ => Keeps.of_watch S (G := fun op _ _ _ l' => J op l') (hbody op)) w₀ acts

/-- What the coroutines keep of their notes holds of the own events of every thread, after every
first part of the trace of a run. -/
theorem run_noting_prefix (hstart : ∀ op, J op []) {i : ℕ} {op : Op}
    (hi : (S.run (Config.initial w₀) acts).opOf i = some op)
    {pre suf : List (ℕ × Event C R E Env)}
    (hs : (S.run (Config.initial w₀) acts).trace = pre ++ suf) :
    J op ((ownEvents i pre).filterMap f) := by
  obtain ⟨p, hi⟩ := Config.opOf_eq_some_iff.1 hi
  rw [← monitored_note]
  exact (promised_noting hbody w₀ acts).invariant hstart hi hs

/-- The postcondition holds of the own events of every thread that has ended. -/
theorem run_noting_ended [Nonempty Env] {i : ℕ} {op : Op} {r : Except E Out}
    (hi : (S.run (Config.initial w₀) acts).outcome i = some (op, r)) :
    posts op r ((ownEvents i (S.run (Config.initial w₀) acts).trace).filterMap f) := by
  rw [← monitored_note]
  exact (promised_noting hbody w₀ acts).ended (Config.outcome_eq_some_iff.1 hi)
    (Classical.arbitrary Env)

end Runs

end Noting

/-! ## Justified notes -/

/-- Every note is allowed by the notes before it. -/
def Justified (D : List ν → ν → Prop) (l : List ν) : Prop :=
  ∀ pre y suf, l = pre ++ y :: suf → D pre y

theorem Justified.nil (D : List ν → ν → Prop) : Justified D [] := by
  intro pre y suf h
  cases pre <;> cases h

theorem Justified.concat {D : List ν → ν → Prop} {l : List ν} {y : ν} (h : Justified D l)
    (hy : D l y) : Justified D (l ++ [y]) := by
  intro pre z suf hsplit
  -- the split is at the new note or before it
  rcases concat_split hsplit with ⟨rfl, rfl⟩ | ⟨suf', hpre⟩
  · exact hy
  · exact h pre z suf' hpre

/-- The notes of a thread after one more of its commands. -/
theorem notes_take_succ {f : Event C R E Env → Option ν} {tr : List (ℕ × Event C R E Env)} {n i : ℕ}
    {ev : Event C R E Env} (hx : tr[n]? = some (i, ev)) :
    (ownEvents i (tr.take (n + 1))).filterMap f =
      (ownEvents i (tr.take n)).filterMap f ++ (f ev).toList := by
  rw [List.take_add_one, hx, Option.toList_some, ownEvents_concat_self, List.filterMap_append]
  cases hev : f ev <;> simp [hev]

/-- A note of a thread was made at a position of the trace. -/
theorem exists_of_mem_notes {f : Event C R E Env → Option ν} {tr : List (ℕ × Event C R E Env)}
    {i : ℕ} {y : ν} (h : y ∈ (ownEvents i tr).filterMap f) :
    ∃ (m : ℕ) (ev : Event C R E Env), tr[m]? = some (i, ev) ∧ f ev = some y := by
  obtain ⟨ev, hev, hy⟩ := List.mem_filterMap.1 h
  obtain ⟨m, hm⟩ := List.mem_iff_getElem?.1 (mem_ownEvents.1 hev)
  exact ⟨m, ev, hm, hy⟩

/-- A note that a thread has made among the first `n` commands was made at one of them. -/
theorem exists_lt_of_mem_notes {f : Event C R E Env → Option ν}
    {tr : List (ℕ × Event C R E Env)} {n i : ℕ} {y : ν}
    (h : y ∈ (ownEvents i (tr.take n)).filterMap f) :
    ∃ m ev, m < n ∧ tr[m]? = some (i, ev) ∧ f ev = some y := by
  obtain ⟨m, ev, hm, hy⟩ := exists_of_mem_notes h
  rw [List.getElem?_take] at hm
  split at hm
  · rename_i hmn
    exact ⟨m, ev, hmn, hm, hy⟩
  · cases hm

theorem mem_notes {f : Event C R E Env → Option ν} {tr : List (ℕ × Event C R E Env)} {m n i : ℕ}
    {ev : Event C R E Env} {y : ν} (hmn : m < n) (hx : tr[m]? = some (i, ev)) (hy : f ev = some y) :
    y ∈ (ownEvents i (tr.take n)).filterMap f := by
  refine List.mem_filterMap.2 ⟨ev, mem_ownEvents.2 ?_, hy⟩
  exact List.mem_of_getElem? ((List.getElem?_take_of_lt hmn).trans hx)

/-- Every executed command of a thread is one that its coroutine uses. -/
theorem run_uses {P : Op → C → Prop} (hbody : ∀ op, Coro.Uses (P op) (S.body op)) (w₀ : σ)
    (acts : List (Act Env In)) {i : ℕ} {ev : Event C R E Env}
    (h : (i, ev) ∈ (S.run (Config.initial w₀) acts).trace) :
    ∃ op, (S.run (Config.initial w₀) acts).opOf i = some op ∧ P op ev.cmd := by
  -- no memory is needed: the monitor is the unit type
  have hkeeps : ∀ op w e, S.Keeps (fun (_ : Unit) _ => ()) (fun op _ c _ _ => P op c)
      (fun _ _ _ => True) op (S.body op) ⟨w, e, ()⟩ := fun op _ _ =>
    Coro.Sat.of_uses (I := fun _ => True) (fun _ c _ _ hc _ _ => ⟨hc, trivial⟩) (hbody op) trivial
  have hrun := S.run_spec hkeeps w₀ acts
  obtain ⟨pre, suf, hs⟩ := List.append_of_mem h
  obtain ⟨t, ht, hP⟩ := hrun.events pre i ev suf hs
  exact ⟨t.op, Config.opOf_eq_some_iff.2 ⟨t.prog, ht⟩, hP⟩

variable {S} in
/-- Every note of a run is allowed by the operation of its thread, after the notes that the thread
has made before. -/
theorem run_justified {f : Event C R E Env → Option ν} {D : Op → List ν → ν → Prop}
    {posts : Op → Except E Out → List ν → Prop}
    (hbody : ∀ op, S.Noting f (Justified (D op)) (posts op) (S.body op) []) (w₀ : σ)
    (acts : List (Act Env In)) {n i : ℕ} {ev : Event C R E Env} {y : ν}
    (hx : (S.run (Config.initial w₀) acts).trace[n]? = some (i, ev)) (hy : f ev = some y) :
    ∃ op, (S.run (Config.initial w₀) acts).opOf i = some op ∧
      D op ((ownEvents i ((S.run (Config.initial w₀) acts).trace.take n)).filterMap f) y := by
  obtain ⟨op, hop, -⟩ := S.run_uses (P := fun _ _ => True) (fun op => Coro.uses_true (S.body op))
    w₀ acts (List.mem_of_getElem? hx)
  -- the invariant after the event, at the split before its note
  have hnotes := run_noting_prefix hbody w₀ acts (fun op => Justified.nil (D op)) hop
    (List.take_append_drop (n + 1) _).symm
  rw [notes_take_succ hx, hy] at hnotes
  exact ⟨op, hop, hnotes _ y [] rfl⟩

/-- Every executed command belongs to a thread. -/
theorem run_owners (w₀ : σ) (acts : List (Act Env In)) :
    ∀ x ∈ (S.run (Config.initial w₀) acts).trace,
      x.1 < (S.run (Config.initial w₀) acts).threads.length := by
  rintro ⟨i, ev⟩ hx
  obtain ⟨op, hop, -⟩ := S.run_uses (P := fun _ _ => True)
    (fun op => Coro.uses_true (S.body op)) w₀ acts hx
  obtain ⟨p, hp⟩ := Config.opOf_eq_some_iff.1 hop
  exact (List.getElem?_eq_some_iff.1 hp).1

end Service

end Coroutine
