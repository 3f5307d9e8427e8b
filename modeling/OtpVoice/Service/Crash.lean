import OtpVoice.Service.Commits

/-!
# What a killed process leaves

All statements go through one connection, so a commit makes the writes of every coroutine durable.
What no commit has followed is lost with the process, and at once when the connection rolls back.
`World.committed` is what the next process finds. A write can be missing from it only while its
operation is under way, or when the database has raised an exception in it since, or any operation
has rolled back since (`crash_loses_open_writes`).
-/

set_option autoImplicit false

namespace OtpVoice

open Coroutine

/-- A process that has opened its database: the tables are those of the last commit. -/
def World.opened (w : World) : World := { w with committed := w.store }

/-- A run of a process from the tables that it has opened. -/
abbrev durableRun (o : CallOriginator) (yields : Cmd → Bool) (w : World) (acts : List Turn) :
    Config Cmd Cmd.Resp Exc Env World Op Answer :=
  (otpService o yields).run (Config.initial w.opened) acts

variable (o : CallOriginator) (yields : Cmd → Bool)

/-! ## The last commit -/

/-- The tables of the last commit are those after the last commit that raised nothing. -/
theorem respond_durable (e : Env) (n : ℕ) (w : World) (c : Cmd) :
    (World.respond e n w c).2.committed =
      if c.commits (World.respond e n w c).1 then (World.respond e n w c).2.store
      else w.committed := by
  rcases World.respond_committed e n w c with h | ⟨rfl, hfault, -⟩
  · cases hcommit : c.commits (World.respond e n w c).1 with
    | false => exact h
    | true =>
      cases c with
      | commit =>
        cases hfault : e.commitFault n with
        | none =>
          rw [World.respond_commit hfault]
          rfl
        | some text =>
          rw [World.respond_commitFault hfault] at hcommit
          cases hcommit
      | _ => cases hcommit
  · rw [World.respond_commit hfault]
    rfl

/-- A command that neither writes nor raises keeps the tables. -/
theorem respond_reads {e : Env} {n : ℕ} {w : World} {c : Cmd} (hwrites : c.writes = false)
    (hraises : c.raises (World.respond e n w c).1 = false) :
    (World.respond e n w c).2.store = w.store := by
  rcases World.respond_store e n w c with h | ⟨s, rfl, -, h⟩ | ⟨hundone, -⟩
  · exact h
  · rw [h]
    cases s <;> first | rfl | cases hwrites
  · obtain ⟨text, hraised⟩ := World.respond_rollsBack hundone w
    rw [hraised, Cmd.raises, Env.mayRaise_of_rollsBack hundone] at hraises
    cases hraises

/-- The durable tables are those after a first part of the trace, and no commit has succeeded
since. They are those that the coroutines see if since then nothing has been written or raised. -/
theorem durable_prefix (w : World) (acts : List Turn) : ∃ pre suf,
    (durableRun o yields w acts).trace = pre ++ suf ∧
    (durableRun o yields w acts).world.committed =
      ((otpService o yields).replay w.opened pre).store ∧
    (∀ x ∈ suf, x.2.cmd.commits x.2.res = false) ∧
    ((∀ x ∈ suf, x.2.cmd.writes = false ∧ x.2.cmd.raises x.2.res = false) →
      (durableRun o yields w acts).world.store = (durableRun o yields w acts).world.committed) := by
  rw [Service.run_world]
  refine Service.run_prefix_induction (S := otpService o yields)
    (P := fun tr v => ∃ pre suf, tr = pre ++ suf ∧
      v.committed = ((otpService o yields).replay w.opened pre).store ∧
      (∀ x ∈ suf, x.2.cmd.commits x.2.res = false) ∧
      ((∀ x ∈ suf, x.2.cmd.writes = false ∧ x.2.cmd.raises x.2.res = false) →
        v.store = v.committed))
    ⟨[], [], rfl, rfl, fun _ hx => absurd hx List.not_mem_nil, fun _ => rfl⟩ ?_
    (List.append_nil _).symm
  rintro tr i ev rest - hres ⟨pre, suf, rfl, hdurable, hsuf, hsame⟩
  have hanswer : ((otpService o yields).respond ev.env ev.index
      ((otpService o yields).replay w.opened (pre ++ suf)) ev.cmd).2.committed =
      if ev.cmd.commits ev.res then
        ((otpService o yields).replay w.opened (pre ++ suf ++ [(i, ev)])).store
      else ((otpService o yields).replay w.opened (pre ++ suf)).committed := by
    rw [Service.replay_concat, hres]
    exact respond_durable _ _ _ _
  rw [hanswer]
  cases hcommit : ev.cmd.commits ev.res with
  | true =>
    refine ⟨_, [], (List.append_nil _).symm, rfl, fun _ hx => absurd hx List.not_mem_nil,
      fun _ => ?_⟩
    rw [Service.replay_concat]
    rfl
  | false =>
    refine ⟨pre, suf ++ [(i, ev)], List.append_assoc _ _ _, hdurable, ?_, fun hquiet => ?_⟩
    · intro x hx
      rcases List.mem_append.1 hx with hx | hx
      · exact hsuf x hx
      · obtain rfl := List.mem_singleton.1 hx
        exact hcommit
    · obtain ⟨hwrites, hraises⟩ :=
        hquiet _ (List.mem_append_right suf (List.mem_singleton_self (i, ev)))
      have hraises' : ev.cmd.raises ((otpService o yields).respond ev.env ev.index
          ((otpService o yields).replay w.opened (pre ++ suf)) ev.cmd).1 = false := by
        rw [← hres]
        exact hraises
      exact (respond_reads hwrites hraises').trans
        (hsame fun x hx => hquiet x (List.mem_append_left _ hx))

/-- A commit follows the `m`-th command of the trace, and nothing has rolled back in between. -/
def KeptAfter (tr : List (ℕ × Ev)) (m : ℕ) : Prop :=
  ∃ n i ev, m < n ∧ tr[n]? = some (i, ev) ∧ ev.cmd.commits ev.res = true ∧
    ∀ k j ev', m < k → k < n → tr[k]? = some (j, ev') → ev'.env.rollsBack ev'.index ev'.cmd = false

/-! ## The writes after it -/

/-- A write waits until a commit succeeds or something is raised. -/
theorem settle_waits {l : List Ev} (hcommits : ∀ ev ∈ l, ev.cmd.commits ev.res = false)
    (hraises : ∀ ev ∈ l, ev.cmd.raises ev.res = false) :
    l.foldl (fun b ev => ev.cmd.settle b ev.res) true = true := by
  induction l with
  | nil => rfl
  | cons ev l ih =>
    have hev : ev.cmd.settle true ev.res = true := by
      simp only [Cmd.settle, hcommits ev List.mem_cons_self, hraises ev List.mem_cons_self,
        Bool.false_eq_true, if_false, Bool.not_false, Bool.and_self, ite_self]
    rw [List.foldl_cons, hev]
    exact ih (fun x hx => hcommits x (List.mem_cons_of_mem _ hx))
      fun x hx => hraises x (List.mem_cons_of_mem _ hx)

/-- A write without a commit after it, in a thread for which none waits at the end, has been
followed by an exception of this thread. -/
theorem raised_of_uncommitted {pre suf : List (ℕ × Ev)} {m i : ℕ} {ev : Ev}
    (hcommits : ∀ x ∈ suf, x.2.cmd.commits x.2.res = false) (hx : suf[m]? = some (i, ev))
    (hwrites : ev.cmd.writes = true) (hraises : ev.cmd.raises ev.res = false)
    (hend : Service.monitored (fun b ev => ev.cmd.settle b ev.res) false i (pre ++ suf) = false) :
    ∃ n, ∃ ev' : Ev, m < n ∧ suf[n]? = some (i, ev') ∧ ev'.cmd.raises ev'.res = true := by
  by_contra hno
  have hself : ∀ b, ev.cmd.settle b ev.res = true := by
    intro b
    simp only [Cmd.settle, hwrites, hraises, Bool.false_eq_true, if_false, if_true]
  have hlater : ∀ ev' ∈ ownEvents i (suf.drop (m + 1)),
      ev'.cmd.commits ev'.res = false ∧ ev'.cmd.raises ev'.res = false := by
    intro ev' hev'
    have hmem := mem_ownEvents.1 hev'
    refine ⟨hcommits _ (List.mem_of_mem_drop hmem), ?_⟩
    obtain ⟨k, hk⟩ := List.mem_iff_getElem?.1 hmem
    rw [List.getElem?_drop] at hk
    refine Bool.eq_false_iff.2 fun h => hno ⟨_, ev', ?_, hk, h⟩
    omega
  have htrue := settle_waits (fun ev' h => (hlater ev' h).1) fun ev' h => (hlater ev' h).2
  rw [Service.monitored, ownEvents_append, ownEvents_split hx] at hend
  simp only [List.foldl_append, List.foldl_cons, hself] at hend
  rw [htrue] at hend
  cases hend

section Ended

variable {o yields} {w : World} {acts : List Turn}

/-- No write of a thread that has ended waits. -/
theorem settled_of_ended {i : ℕ} {op : Op} {r : Except Exc Answer}
    (hi : (durableRun o yields w acts).outcome i = some (op, r)) :
    Service.monitored (fun b ev => ev.cmd.settle b ev.res) false i
      (durableRun o yields w acts).trace = false := by
  have hbody : ∀ op v e, (otpService o yields).Keeps
      (fun b ev => ev.cmd.settle b ev.res) (fun _ _ _ _ _ => True) (fun _ _ b => b = false) op
      ((otpService o yields).body op) ⟨v, e, false⟩ := by
    intro op v e
    have hsat : Coro.Sat (fun b c r b' => b' = c.settle b r) (fun _ _ _ _ => True)
        (fun _ b => b = false) (op.body o)
        (⟨v, e, false⟩ : Service.View World Env Bool).memory := Op.tidy o op
    exact hsat.comap fun _ _ _ _ ⟨_, _, hmemory, _⟩ => hmemory
  exact (Service.run_spec (otpService o yields) (m := fun _ => false) hbody w.opened acts).ended
    (Config.outcome_eq_some_iff.1 hi) (.calm 0 firstId [])

/-- A write after which no commit succeeds belongs to an operation that is under way, or in which
the database has raised an exception since. -/
theorem uncommitted_open {pre suf : List (ℕ × Ev)}
    (hs : (durableRun o yields w acts).trace = pre ++ suf)
    (hcommits : ∀ x ∈ suf, x.2.cmd.commits x.2.res = false) {m i : ℕ} {ev : Ev}
    (hx : suf[m]? = some (i, ev)) (hwrites : ev.cmd.writes = true)
    (hraises : ev.cmd.raises ev.res = false) :
    (durableRun o yields w acts).outcome i = none ∨
      ∃ n, ∃ ev' : Ev, m < n ∧ suf[n]? = some (i, ev') ∧ ev'.cmd.raises ev'.res = true := by
  cases hi : (durableRun o yields w acts).outcome i with
  | none => exact .inl rfl
  | some out =>
    have hend := settled_of_ended hi
    rw [hs] at hend
    exact .inr (raised_of_uncommitted hcommits hx hwrites hraises hend)

/-- A write that is lost belongs to an operation that is under way, or in which the database has
raised an exception since, or the connection has rolled back since. -/
theorem lost_open {m i : ℕ} {ev : Ev}
    (hx : (durableRun o yields w acts).trace[m]? = some (i, ev)) (hwrites : ev.cmd.writes = true)
    (hraises : ev.cmd.raises ev.res = false)
    (hlost : ¬ KeptAfter (durableRun o yields w acts).trace m) :
    (durableRun o yields w acts).outcome i = none ∨
      (∃ n, ∃ ev' : Ev, m < n ∧ (durableRun o yields w acts).trace[n]? = some (i, ev') ∧
        ev'.cmd.raises ev'.res = true) ∨
      ∃ n j, ∃ ev' : Ev, m < n ∧ (durableRun o yields w acts).trace[n]? = some (j, ev') ∧
        ev'.env.rollsBack ev'.index ev'.cmd = true := by
  by_cases hrollback : ∃ n j, ∃ ev' : Ev, m < n ∧
      (durableRun o yields w acts).trace[n]? = some (j, ev') ∧
        ev'.env.rollsBack ev'.index ev'.cmd = true
  · exact .inr (.inr hrollback)
  -- as nothing rolls back afterwards, no commit follows at all
  have hcommits : ∀ x ∈ (durableRun o yields w acts).trace.drop m,
      x.2.cmd.commits x.2.res = false := by
    rintro ⟨j, ev'⟩ hmem
    obtain ⟨n, hn⟩ := List.mem_iff_getElem?.1 hmem
    rw [List.getElem?_drop] at hn
    refine Bool.eq_false_iff.2 fun hcommit => hlost ⟨m + n, j, ev', ?_, hn, hcommit, ?_⟩
    · -- the write itself is no commit
      rcases Nat.eq_zero_or_pos n with rfl | hpos
      · cases hx.symm.trans hn
        obtain ⟨e, k, c, r⟩ := ev
        cases c <;> first | cases hwrites | cases hcommit
      · omega
    · exact fun k j' ev'' hk _ hk' =>
        Bool.eq_false_iff.2 fun h => hrollback ⟨k, j', ev'', hk, hk', h⟩
  have hfirst : ((durableRun o yields w acts).trace.drop m)[0]? = some (i, ev) := by
    rw [List.getElem?_drop]
    exact hx
  rcases uncommitted_open (List.take_append_drop m _).symm hcommits hfirst hwrites hraises with
    hopen | ⟨n, ev', hn, hn', hraised⟩
  · exact .inl hopen
  · rw [List.getElem?_drop] at hn'
    exact .inr (.inl ⟨m + n, ev', by omega, hn', hraised⟩)

end Ended

/-- If the process is killed at any moment, the next one finds the tables of an earlier moment of
the run, and no commit has succeeded since. A write that no commit has followed, before a rollback,
belongs to an operation that is under way, or in which the database has raised an exception after
the write, or the connection has rolled back since in any operation. If all operations have ended
and the database has raised nothing, nothing is missing. -/
theorem crash_loses_open_writes (w : World) (acts : List Turn) :
    (∃ pre suf, (durableRun o yields w acts).trace = pre ++ suf ∧
      (durableRun o yields w acts).world.committed =
        ((otpService o yields).replay w.opened pre).store ∧
      ∀ x ∈ suf, x.2.cmd.commits x.2.res = false) ∧
    (∀ (m i : ℕ) (ev : Ev), (durableRun o yields w acts).trace[m]? = some (i, ev) →
      ev.cmd.writes = true → ev.cmd.raises ev.res = false →
      ¬ KeptAfter (durableRun o yields w acts).trace m →
        (durableRun o yields w acts).outcome i = none ∨
          (∃ n, ∃ ev' : Ev, m < n ∧ (durableRun o yields w acts).trace[n]? = some (i, ev') ∧
            ev'.cmd.raises ev'.res = true) ∨
          ∃ n j, ∃ ev' : Ev, m < n ∧ (durableRun o yields w acts).trace[n]? = some (j, ev') ∧
            ev'.env.rollsBack ev'.index ev'.cmd = true) ∧
    ((∀ i < (durableRun o yields w acts).threads.length,
        (durableRun o yields w acts).outcome i ≠ none) →
      (∀ x ∈ (durableRun o yields w acts).trace,
        x.2.cmd.raises x.2.res = false) →
      (durableRun o yields w acts).world.committed =
        (durableRun o yields w acts).world.store) := by
  obtain ⟨pre, suf, hs, hdurable, hcommits, hsame⟩ := durable_prefix o yields w acts
  refine ⟨⟨pre, suf, hs, hdurable, hcommits⟩, fun m i ev => lost_open, ?_⟩
  intro hended hcalm
  have hmem : ∀ x ∈ suf, x ∈ (durableRun o yields w acts).trace := by
    rw [hs]
    exact fun x hx => List.mem_append_right _ hx
  refine (hsame ?_).symm
  rintro ⟨i, ev⟩ hx
  refine ⟨?_, hcalm _ (hmem _ hx)⟩
  -- a write after the last commit would be one of a thread that has not ended
  obtain ⟨m, hm⟩ := List.mem_iff_getElem?.1 hx
  refine Bool.eq_false_iff.2 fun hwrites => ?_
  rcases uncommitted_open hs hcommits hm hwrites (hcalm _ (hmem _ hx)) with hopen | hraised
  · exact hended i (Service.run_owners _ _ _ _ (hmem _ hx)) hopen
  · obtain ⟨n, ev', -, hn, hraises⟩ := hraised
    have hcalm' := hcalm _ (hmem _ (List.mem_of_getElem? hn))
    rw [hcalm'] at hraises
    cases hraises

/-- A request that is killed between its `INSERT` and its commit. -/
def killedRun : List Turn :=
  .arrive (.otpCall sampleRequest) ::
    ([0, 1, 2] : List ℕ).map fun now => .turn 0 (.calm now firstId [])

/-- A hangup that is handled to its end. -/
def handledRun : List Turn :=
  [.arrive (.amiEvent .hangup (hangup sampleChannel "17")), .turn 0 (.calm 3 firstId [])]

/-- The record of a killed request is missing, and the request is under way; after a handled hangup
nothing is missing. -/
theorem crash_loses_open_writes_killed :
    let killed := durableRun sampleOriginator Cmd.awaited sampleWorld killedRun
    let handled := durableRun sampleOriginator Cmd.waitsForAsterisk answeredWorld handledRun
    (killed.world.store.calls.rows.length = 1 ∧ killed.world.committed.calls.rows = [] ∧
        killed.outcome 0 = none) ∧
      handled.world.committed = handled.world.store ∧
        handled.world.store.calls.rows.map CallRecord.status = [.busy] := by
  intro killed handled
  refine ⟨⟨by decide +kernel, by decide +kernel, ?_⟩, ?_, by decide +kernel⟩
  · -- the `INSERT` is the last command, and nothing has been raised
    have hlength : killed.trace.length = 6 := by decide +kernel
    have hcalm : ∀ x ∈ killed.trace, x.2.cmd.raises x.2.res = false ∧
        x.2.env.rollsBack x.2.index x.2.cmd = false := by decide +kernel
    obtain ⟨⟨i, ev⟩, hx⟩ := Option.isSome_iff_exists.1
      (by decide +kernel : killed.trace[5]?.isSome = true)
    have hwrite : ∀ x ∈ killed.trace[5]?, x.1 = 0 ∧ x.2.cmd.writes = true := by decide +kernel
    obtain ⟨rfl, hwrites⟩ := hwrite _ hx
    have hnone : ¬ KeptAfter killed.trace 5 := by
      rintro ⟨n, j, ev', hlt, hn, -⟩
      have hle := (List.getElem?_eq_some_iff.1 hn).1
      omega
    rcases (crash_loses_open_writes sampleOriginator Cmd.awaited sampleWorld killedRun).2.1
      5 0 ev hx hwrites (hcalm _ (List.mem_of_getElem? hx)).1 hnone
      with hopen | ⟨n, ev', -, hn, hraises⟩ | ⟨n, j, ev', -, hn, hraises⟩
    · exact hopen
    · cases hraises.symm.trans (hcalm _ (List.mem_of_getElem? hn)).1
    · cases hraises.symm.trans (hcalm _ (List.mem_of_getElem? hn)).2
  · refine (crash_loses_open_writes sampleOriginator Cmd.waitsForAsterisk answeredWorld
      handledRun).2.2 ?_ ?_
    · decide +kernel
    · decide +kernel

end OtpVoice
