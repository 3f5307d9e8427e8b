import OtpVoice.Coroutine.Turns
import OtpVoice.Service.Footprint
import OtpVoice.Service.Statements

/-!
# Turns of the service

When each message is handled to completion, an input is handled in one turn, as if its coroutine ran
alone.

- `Handles`: the `k`-th decision of a run handles an input.
- `turn_cases`: every other decision leaves the tables as they are, or is a turn of a background
  task.
- `exists_in_turn`: a record that a turn finds and leaves is there all the time.
-/

set_option autoImplicit false

namespace OtpVoice

open Coroutine

section Turns

variable (o : CallOriginator) (w₀ : World) (acts : List Turn)

/-- The tables before the `k`-th decision of a run. -/
def storeAt (k : ℕ) : Store := ((sequential o).confAt w₀ acts k).world.store

/-- The record of a request id before the `k`-th decision of a run. -/
def rowAt (k : ℕ) (requestId : String) : Option CallRecord :=
  (storeAt o w₀ acts k).calls.find requestId

/-- The `k`-th decision of a run handles the input `x` in the environment `e`. -/
def Handles (k : ℕ) (x : Input) (e : Env) : Prop :=
  ∃ i, acts[k]? = some (.turn i e) ∧
    ((sequential o).confAt w₀ acts k).threads[i]? = some ((sequential o).start (.input x))

/-- The operation that the `k`-th decision of a run goes on with. -/
def turnOp (k : ℕ) : Option Op :=
  match acts[k]? with
  | some (.turn i _) => ((sequential o).confAt w₀ acts k).opOf i
  | _ => none

variable {o w₀ acts} {k i : ℕ} {e : Env} {x : Input}

/-- An input never waits for Asterisk. -/
theorem atomic_input (o : CallOriginator) (x : Input) :
    (sequential o).Atomic ((sequential o).body (.input x)) :=
  (touches_input x).not_waits rfl

/-- An input is handled as if it were alone. -/
theorem Handles.world (h : Handles o w₀ acts k x e) :
    ((sequential o).confAt w₀ acts (k + 1)).world =
      (x.body.complete (World.respond e) 0 ((sequential o).confAt w₀ acts k).world).2.2 := by
  obtain ⟨i, hact, hi⟩ := h
  rw [Service.confAt_succ _ hact]
  exact ((sequential o).step_atomic (atomic_input o x) hi e).1

/-- A message is handled by the handler of its kind. -/
theorem Handles.dispatch {kind : EventKind} {message : Message}
    (h : Handles o w₀ acts k (.amiEvent kind message) e) {r : Except Exc Unit} {m : ℕ} {w' : World}
    (hrun : (dispatch kind message).complete (World.respond e) 0
      ((sequential o).confAt w₀ acts k).world = (r, m, w')) :
    ((sequential o).confAt w₀ acts (k + 1)).world = w' := by
  rw [h.world, Input.body, Coro.complete_bind, hrun]
  cases r <;> rfl

/-- If nothing rolls back in the run, nothing does while a message is handled. -/
theorem Handles.noRollback (h : Handles o w₀ acts k x e) (hkeeps : NoRollbacks acts) :
    e.NoRollback := by
  obtain ⟨i, hact, -⟩ := h
  exact hkeeps.of_turn hact

/-- The outcome of a handled input stays the outcome of its thread. -/
theorem Handles.outcome (h : Handles o w₀ acts k x e) :
    ∃ i, ((sequential o).run (Config.initial w₀) acts).outcome i = some (.input x,
      (x.body.complete (World.respond e) 0 ((sequential o).confAt w₀ acts k).world).1) := by
  obtain ⟨i, hact, hi⟩ := h
  have hdone := ((sequential o).step_atomic (atomic_input o x) hi e).2
  rw [← Service.confAt_succ _ hact] at hdone
  exact ⟨i, Service.confAt_outcome _ hdone⟩

/-- The input of a thread has arrived. -/
theorem arrived_of_opOf
    (h : ((sequential o).run (Config.initial w₀) acts).opOf i = some (.input x)) :
    Act.arrive x ∈ acts := by
  obtain ⟨p, hi⟩ := Config.opOf_eq_some_iff.1 h
  refine (sequential o).run_ops (P := fun op => ∀ y, op = .input y → Act.arrive y ∈ acts) ?_ ?_ w₀ _
    (List.mem_of_getElem? hi) x rfl
  · rintro y hy _ ⟨⟩
    exact hy
  · intro answer op hop y hy
    obtain ⟨task, -, rfl⟩ := List.mem_map.1 hop
    cases hy

/-- An input that is handled has arrived. -/
theorem Handles.arrived (h : Handles o w₀ acts k x e) : Act.arrive x ∈ acts := by
  obtain ⟨i, -, hi⟩ := h
  exact List.mem_of_mem_take (arrived_of_opOf (Config.opOf_eq_some_iff.2 ⟨_, hi⟩))

theorem Handles.turnOp (h : Handles o w₀ acts k x e) : turnOp o w₀ acts k = some (.input x) := by
  obtain ⟨i, hact, hi⟩ := h
  simp only [OtpVoice.turnOp, hact]
  exact Config.opOf_eq_some_iff.2 ⟨_, hi⟩

theorem storeAt_of_arrive {y : Input} (hact : acts[k]? = some (.arrive y)) :
    storeAt o w₀ acts (k + 1) = storeAt o w₀ acts k := by
  rw [storeAt, Service.confAt_succ _ hact]
  rfl

theorem storeAt_of_none (hact : acts[k]? = none) :
    storeAt o w₀ acts (k + 1) = storeAt o w₀ acts k := by
  rw [storeAt, Service.confAt_succ_of_none _ hact]
  rfl

/-- A decision handles an input, goes on with a background task, or leaves the tables as they
are. -/
theorem turn_cases (o : CallOriginator) (w₀ : World) (acts : List Turn) (k : ℕ) :
    storeAt o w₀ acts (k + 1) = storeAt o w₀ acts k ∨ (∃ x e, Handles o w₀ acts k x e) ∨
      ∃ i e task, acts[k]? = some (.turn i e) ∧ turnOp o w₀ acts k = some (.execute task) := by
  cases hact : acts[k]? with
  | none => exact .inl (storeAt_of_none hact)
  | some a =>
    cases a with
    | arrive y => exact .inl (storeAt_of_arrive hact)
    | turn i e =>
      cases hi : ((sequential o).confAt w₀ acts k).threads[i]? with
      | none =>
        left
        rw [storeAt, Service.confAt_succ _ hact]
        simp only [Service.step, hi]
        rfl
      | some t =>
        obtain ⟨op, p⟩ := t
        cases op with
        | execute task =>
          refine .inr (.inr ⟨i, e, task, rfl, ?_⟩)
          simp only [OtpVoice.turnOp, hact]
          exact Config.opOf_eq_some_iff.2 ⟨p, hi⟩
        | input x =>
          -- the thread has not begun, or its turn does nothing
          rcases (sequential o).run_atomic (q := fun op => ∃ x, op = .input x)
            (by rintro _ ⟨x, rfl⟩; exact atomic_input o x) w₀ _ hi ⟨x, rfl⟩ with hfresh | ⟨r, hr⟩
          · refine .inr (.inl ⟨x, e, i, hact, hi.trans ?_⟩)
            rw [Service.start, ← hfresh]
          · left
            obtain rfl : p = .done r := hr
            rw [storeAt, Service.confAt_succ _ hact]
            simp only [Service.step, hi]
            rfl

/-! ## The commands of a turn -/

/-- A turn belongs to the operation that it finds. -/
theorem opOf_succ (hact : acts[k]? = some (.turn i e)) :
    ((sequential o).confAt w₀ acts (k + 1)).opOf i = turnOp o w₀ acts k := by
  simp only [turnOp, hact, Service.confAt_succ _ hact]
  cases hi : ((sequential o).confAt w₀ acts k).threads[i]? with
  | none => simp only [Service.step, hi, Config.opOf]
  | some t => simp only [Config.opOf, hi, ((sequential o).step_suspend hi e).2, Option.map_some]

/-- The tables after the first `n` commands of a run up to its `k`-th decision. -/
def storeAfter (o : CallOriginator) (w₀ : World) (acts : List Turn) (k n : ℕ) : Store :=
  ((sequential o).worldAfter w₀ ((sequential o).confAt w₀ acts k).trace n).store

/-- The positions of the commands of the `k`-th decision. -/
def Within (o : CallOriginator) (w₀ : World) (acts : List Turn) (k n : ℕ) : Prop :=
  ((sequential o).confAt w₀ acts k).trace.length ≤ n ∧
    n ≤ ((sequential o).confAt w₀ acts (k + 1)).trace.length

theorem NoRollbacks.held_confAt (h : NoRollbacks acts) (k : ℕ) :
    NothingUndone ((sequential o).confAt w₀ acts k).trace :=
  (h.mono (List.take_subset k acts)).held

/-- The rule of turns: what each command of the operation of a turn keeps holds during the turn, in
a run in which nothing rolls back. -/
theorem turn_rule {P : Cmd → Prop} {I : ℕ → Prop} (hkeeps : NoRollbacks acts)
    (hact : acts[k]? = some (.turn i e))
    (hop : ∀ op, turnOp o w₀ acts k = some op → Coro.Uses P (op.body o))
    (hstart : I ((sequential o).confAt w₀ acts k).trace.length)
    (hkeep : ∀ n, storeAfter o w₀ acts (k + 1) (n + 1) = storeAfter o w₀ acts (k + 1) n →
      I n → I (n + 1))
    (hstep : ∀ n s, Within o w₀ acts k n → Within o w₀ acts k (n + 1) → P (.execute s) →
      storeAfter o w₀ acts (k + 1) (n + 1) = (s.exec (storeAfter o w₀ acts (k + 1) n)).2 →
        I n → I (n + 1))
    {n : ℕ} (hn : Within o w₀ acts k n) : I n := by
  refine (sequential o).turn_induction hact hstart ?_ hn.1 hn.2
  · intro n ev hn hx ih
    have hlen : n < ((sequential o).confAt w₀ acts (k + 1)).trace.length :=
      (List.getElem?_eq_some_iff.1 hx).1
    -- the command belongs to the operation of the turn
    obtain ⟨op, hopOf, hP⟩ := (sequential o).run_uses
      (P := fun op c => turnOp o w₀ acts k = some op → P c) (fun op => by
        by_cases h : turnOp o w₀ acts k = some op
        · exact Coro.Uses.mono (fun c hc _ => hc) (hop op h)
        · exact Coro.Uses.mono (fun c _ h' => absurd h' h) (Coro.uses_true _))
      w₀ _ (List.mem_of_getElem? hx)
    rw [← Service.confAt, opOf_succ hact] at hopOf
    have hafter : storeAfter o w₀ acts (k + 1) (n + 1) =
        (World.respond ev.env ev.index ((sequential o).worldAfter w₀
          ((sequential o).confAt w₀ acts (k + 1)).trace n) ev.cmd).2.store := by
      rw [storeAfter, Service.worldAfter_succ _ _ hx]
      rfl
    rcases World.respond_store ev.env ev.index ((sequential o).worldAfter w₀
      ((sequential o).confAt w₀ acts (k + 1)).trace n) ev.cmd with
      h | ⟨s, hcmd, -, h⟩ | ⟨hundone, -⟩
    · exact hkeep n (hafter.trans h) ih
    · have hs : P (.execute s) := by
        rw [← hcmd]
        exact hP hopOf
      exact hstep n s ⟨hn, hlen.le⟩ ⟨hn.trans (Nat.le_succ n), hlen⟩ hs (hafter.trans h) ih
    · cases (hkeeps.held_confAt (k + 1) _ (List.mem_of_getElem? hx)).symm.trans hundone

theorem storeAfter_start (hact : acts[k]? = some (.turn i e)) :
    storeAfter o w₀ acts (k + 1) ((sequential o).confAt w₀ acts k).trace.length =
      storeAt o w₀ acts k := by
  rw [storeAfter, Service.worldAfter_start _ hact]
  rfl

theorem storeAfter_end (k : ℕ) :
    storeAfter o w₀ acts k ((sequential o).confAt w₀ acts k).trace.length =
      storeAt o w₀ acts k := by
  rw [storeAfter, Service.worldAfter_end]
  rfl

theorem within_end (hact : acts[k]? = some (.turn i e)) :
    Within o w₀ acts k ((sequential o).confAt w₀ acts (k + 1)).trace.length :=
  ⟨Service.turn_length _ hact, Nat.le_refl _⟩

/-- The pass of the cleanup is the only operation that deletes records. -/
theorem uses_no_deletion (o : CallOriginator) {op : Op} (hop : op ≠ .input .cleanup) :
    Coro.Uses (fun c => c.kind ≠ .delete) (op.body o) := by
  have hmono : ∀ {ks : List Kind} {p : Prog Answer}, Touches ks p → ks.elem .delete = false →
      Coro.Uses (fun c => c.kind ≠ .delete) p := by
    intro ks p hp hks
    refine Coro.Uses.mono ?_ hp
    intro c hc h
    rw [List.elem_iff.2 (h ▸ hc)] at hks
    cases hks
  cases op with
  | execute task => exact hmono ((touches_executeCall o task).bind fun _ => touches_pure _) rfl
  | input x =>
    cases x with
    | otpCall request => exact hmono (touches_sendOtpCall request) rfl
    | retry requestId body => exact hmono (touches_retryCall requestId body) rfl
    | status requestId => exact hmono (touches_getCallStatus requestId) rfl
    | health => exact hmono touches_healthCheck rfl
    | amiEvent kind message =>
      exact hmono ((touches_dispatch kind message).bind fun _ => touches_pure _) rfl
    | cleanup => exact absurd rfl hop

theorem uses_no_insertion (o : CallOriginator) :
    Coro.Uses (fun c => c.kind ≠ .insertCall) (Op.body o (.input .cleanup)) := by
  refine Coro.Uses.mono ?_ (touches_periodicCleanup.bind fun _ => touches_pure _)
  intro c hc h
  exact absurd (h ▸ hc) (by decide)

/-- A record that is there before and after a turn is there all the time if nothing rolls back: no
operation deletes and inserts records. -/
theorem exists_in_turn (hkeeps : NoRollbacks acts)
    (hact : acts[k]? = some (.turn i e)) {requestId : String}
    (hbefore : (rowAt o w₀ acts k requestId).isSome = true)
    (hafter : (rowAt o w₀ acts (k + 1) requestId).isSome = true) {n : ℕ}
    (hn : Within o w₀ acts k n) :
    ((storeAfter o w₀ acts (k + 1) n).calls.find requestId).isSome = true := by
  by_cases hop : turnOp o w₀ acts k = some (.input .cleanup)
  · -- a cleanup: a row that is missing at one position stays missing
    by_contra hgone
    rw [Bool.not_eq_true, Option.isSome_eq_false_iff, Option.isNone_iff_eq_none] at hgone
    have hmissing : ∀ m, Within o w₀ acts k m → n ≤ m →
        (storeAfter o w₀ acts (k + 1) m).calls.find requestId = none := by
      intro m hm
      refine turn_rule hkeeps (P := fun c => c.kind ≠ .insertCall)
        (I := fun m => n ≤ m → (storeAfter o w₀ acts (k + 1) m).calls.find requestId = none)
        hact ?_ ?_ ?_ ?_ hm
      · intro op h
        cases hop.symm.trans h
        exact uses_no_insertion o
      · intro hle
        rw [Nat.le_antisymm hn.1 hle]
        exact hgone
      · intro m hstore ih hnm
        rcases Nat.le_succ_iff.1 hnm with hnm | rfl
        · rw [hstore]
          exact ih hnm
        · exact hgone
      · intro m s _ _ hs hstore ih hnm
        rcases Nat.le_succ_iff.1 hnm with hnm | rfl
        · rw [hstore]
          cases hfind : (s.exec (storeAfter o w₀ acts (k + 1) m)).2.calls.find requestId with
          | none => rfl
          | some row =>
            obtain rfl := find_exec_new (ih hnm) hfind
            exact absurd rfl hs
        · exact hgone
    have hend := hmissing _ (within_end hact) hn.2
    rw [storeAfter_end] at hend
    rw [rowAt, hend] at hafter
    cases hafter
  · -- any other operation deletes nothing
    refine turn_rule hkeeps (P := fun c => c.kind ≠ .delete)
      (I := fun n => ((storeAfter o w₀ acts (k + 1) n).calls.find requestId).isSome = true)
      hact ?_ ?_ ?_ ?_ hn
    · intro op h
      exact uses_no_deletion o (by rintro rfl; exact hop h)
    · rw [storeAfter_start hact]
      exact hbefore
    · intro m hstore ih
      rw [hstore]
      exact ih
    · intro m s _ _ hs hstore ih
      rw [hstore]
      obtain ⟨row, hrow⟩ := Option.isSome_iff_exists.1 ih
      cases hfind : (s.exec (storeAfter o w₀ acts (k + 1) m)).2.calls.find requestId with
      | some row' => rfl
      | none =>
        obtain ⟨now, rfl, -⟩ := find_exec_gone hrow hfind
        exact absurd rfl hs

end Turns

end OtpVoice
