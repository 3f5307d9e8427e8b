import OtpVoice.Service.System
import OtpVoice.Storage.Rows

/-!
# Executed statements

`Ran` says that a statement was executed at a position of a trace and raised nothing. `store_step`:
nothing but executed statements changes the tables, whatever service runs the coroutines, as long as
nothing rolls back. `store_keeps`: what every statement keeps also survives the rollbacks.
-/

set_option autoImplicit false

namespace OtpVoice

open Coroutine

/-- The `n`-th command of a trace is the statement `s` of thread `i`, and it raises nothing. -/
def Ran (tr : List (ℕ × Ev)) (n i : ℕ) (s : Stmt) : Prop :=
  ∃ ev : Ev, tr[n]? = some (i, ev) ∧ ev.cmd = .execute s ∧ ev.env.fault ev.index = none

/-- One position of a trace holds one statement of one thread. -/
theorem Ran.unique {tr : List (ℕ × Ev)} {n i j : ℕ} {s s' : Stmt} (h : Ran tr n i s)
    (h' : Ran tr n j s') : i = j ∧ s = s' := by
  obtain ⟨ev, hx, hcmd, -⟩ := h
  obtain ⟨ev', hx', hcmd', -⟩ := h'
  cases hx.symm.trans hx'
  exact ⟨rfl, Cmd.execute.inj (hcmd.symm.trans hcmd')⟩

/-- Nothing rolls back in the trace. -/
def NothingUndone (tr : List (ℕ × Ev)) : Prop :=
  ∀ x ∈ tr, x.2.env.rollsBack x.2.index x.2.cmd = false

section Held

variable {σ In Op Out : Type} {S : Service Cmd Cmd.Resp Exc Env σ In Op Out} {w : σ}
  {acts : List (Act Env In)}

theorem NoRollbacks.held (h : NoRollbacks acts) :
    NothingUndone (S.run (Config.initial w) acts).trace :=
  fun x hx => (h x.1 x.2.env (S.run_turns w acts x hx)).rollsBack _ _

end Held

section Traces

variable {In Op Out : Type} {S : Service Cmd Cmd.Resp Exc Env World In Op Out}
  (hS : S.respond = World.respond) (w₀ : World) {tr : List (ℕ × Ev)} {n i : ℕ} {s : Stmt}

include hS

theorem Ran.store (h : Ran tr n i s) :
    (S.worldAfter w₀ tr (n + 1)).store = (s.exec (S.worldAfter w₀ tr n).store).2 := by
  obtain ⟨⟨e, k, c, r⟩, hx, hcmd, hfault⟩ := h
  obtain rfl : c = .execute s := hcmd
  rw [Service.worldAfter_succ _ _ hx, hS]
  exact (congrArg (fun x => x.2.store) (World.respond_execute hfault _ s)).trans
    (World.answer_execute _ _ _ _)

/-- The tables change only by executed statements. -/
theorem store_step {tr : List (ℕ × Ev)} (hkept : NothingUndone tr) (n : ℕ) :
    (S.worldAfter w₀ tr (n + 1)).store = (S.worldAfter w₀ tr n).store ∨ ∃ i s, Ran tr n i s ∧
      (S.worldAfter w₀ tr (n + 1)).store = (s.exec (S.worldAfter w₀ tr n).store).2 := by
  cases hx : tr[n]? with
  | none =>
    rw [Service.worldAfter_succ_of_none _ _ hx]
    exact .inl rfl
  | some x =>
    obtain ⟨i, e, k, c, r⟩ := x
    have hworld : S.worldAfter w₀ tr (n + 1) =
        (World.respond e k (S.worldAfter w₀ tr n) c).2 := by
      rw [Service.worldAfter_succ _ _ hx, hS]
    rcases World.respond_store e k (S.worldAfter w₀ tr n) c with
      h | ⟨s, rfl, hfault, -⟩ | ⟨hundone, -⟩
    · exact .inl (hworld ▸ h)
    · have hran : Ran tr n i s := ⟨_, hx, rfl, hfault⟩
      exact .inr ⟨i, s, hran, hran.store hS w₀⟩
    · cases (hkept _ (List.mem_of_getElem? hx)).symm.trans hundone

/-- What holds of the tables at the start and of those of the last commit, goes on to hold, and is
kept by every executed statement, holds after every command, also when it rolls back. -/
theorem store_keeps {I : ℕ → Store → Prop} (h₀ : I 0 w₀.store ∧ I 0 w₀.committed)
    (hlater : ∀ n st, I n st → I (n + 1) st)
    (hexec : ∀ n i s, Ran tr n i s → I n (S.worldAfter w₀ tr n).store →
      I (n + 1) (s.exec (S.worldAfter w₀ tr n).store).2) (n : ℕ) :
    I n (S.worldAfter w₀ tr n).store ∧ I n (S.worldAfter w₀ tr n).committed := by
  induction n with
  | zero => exact h₀
  | succ n ih =>
    cases hx : tr[n]? with
    | none =>
      rw [Service.worldAfter_succ_of_none _ _ hx]
      exact ⟨hlater n _ ih.1, hlater n _ ih.2⟩
    | some x =>
      obtain ⟨i, e, k, c, r⟩ := x
      rw [Service.worldAfter_succ _ _ hx, hS]
      exact World.respond_keeps ⟨hlater n _ ih.1, hlater n _ ih.2⟩
        fun s hc hfault => hexec n i s ⟨_, hx, hc, hfault⟩ ih.1

end Traces

end OtpVoice
