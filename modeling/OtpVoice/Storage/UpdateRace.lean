import OtpVoice.Service.Overlap

/-!
# Overlapping calls of `update_call_status`

`update_call_status` reads the old status and writes the new one in two statements, with an await
between them. `dbRun` runs any number of its calls and of `cleanup_expired` on the shared
connection, from any tables.

- `record_step` : the only things that change a record are an `UPDATE` of a call and the `DELETE` of
  a cleanup.
- `update_contract_iff` : no terminal status is replaced by a non-terminal one exactly in the runs
  where no call with a non-terminal status is overtaken by a terminal one between its two
  statements; and every `True` stands for a changed row exactly in the runs where no record is
  removed between the two statements of such a call.
- `update_contract_broken` : one run of each kind where it is otherwise.
-/

set_option autoImplicit false

namespace OtpVoice

open Coroutine

deriving instance DecidableEq for StatusFields

/-- The concurrent calls. -/
inductive DbCall where
  | update (requestId : String) (status : Status) (u : StatusFields)
  | cleanup
  deriving DecidableEq

/-- What a call returns. -/
inductive DbResult where
  | changed (b : Bool)
  | removed (count : ℕ)
  deriving DecidableEq

/-- The coroutine of a call. -/
def DbCall.body : DbCall → Prog DbResult
  | .update requestId status u => do
    let changed ← updateCallStatus requestId status u
    return .changed changed
  | .cleanup => do
    let count ← cleanupExpired
    return .removed count

/-- The configurations of such runs. -/
abbrev DbConf : Type := Config Cmd Cmd.Resp Exc Env World DbCall DbResult

/-- A run of concurrent calls from the world `w₀`. -/
abbrev dbRun (w₀ : World) (acts : List (Act Env DbCall)) : DbConf :=
  (overlapping DbCall.body).run (Config.initial w₀) acts

/-- Call `i` executes the `SELECT` of the record at position `m`. -/
def Reads (s : DbConf) (m i : ℕ) (requestId : String) : Prop :=
  Ran s.trace m i (.selectCall requestId)

/-- Call `i`, which asks for `status`, executes its `UPDATE` at position `n`. -/
def Sets (s : DbConf) (n i : ℕ) (requestId : String) (status : Status) : Prop :=
  ∃ u now, s.opOf i = some (.update requestId status u) ∧
    Ran s.trace n i (.updateCall (updateFields u) (updateValues status now u) requestId)

/-- The `UPDATE` of call `i` at position `n` changes the row. -/
def ChangesRow (w₀ : World) (s : DbConf) (n i : ℕ) (requestId : String) (status : Status)
    (u : StatusFields) : Prop :=
  ∃ now row, Ran s.trace n i (.updateCall (updateFields u) (updateValues status now u) requestId) ∧
    recordAt DbCall.body w₀ s.trace n requestId = some row ∧
      recordAt DbCall.body w₀ s.trace (n + 1) requestId = some (row.updated status now u)

/-- A `DELETE` of expired records removes the record at position `k`. -/
def Removes (w₀ : World) (s : DbConf) (k : ℕ) (requestId : String) : Prop :=
  ∃ j now row, Ran s.trace k j (.deleteExpired now) ∧
    recordAt DbCall.body w₀ s.trace k requestId = some row ∧ expired now row = true

/-! ## The notes of a call -/

/-- A call writes what its arguments say, and only after it has read a record that its guard lets
through. -/
def DbCall.Justifies : DbCall → List RowNote → RowNote → Prop
  | .update requestId status u, l, .wrote fields values key =>
    key = requestId ∧ ∃ row now, l = [.read requestId (some row)] ∧
      row.status.goesBack status = false ∧ fields = updateFields u ∧
        values = updateValues status now u
  | .cleanup, _, .wrote _ _ _ => False
  | _, _, _ => True

/-- The notes of an ended call. -/
def DbCall.Ends (c : DbCall) (r : Except Exc DbResult) (l : List RowNote) : Prop :=
  ∀ requestId status u, c = .update requestId status u → r = .ok (.changed true) →
    UpdateNotes requestId status u [] true l

theorem noting_call (c : DbCall) :
    (overlapping DbCall.body).Noting rowNote (Service.Justified c.Justifies) c.Ends c.body [] := by
  cases c with
  | update requestId status u =>
    have hread : ∀ record, Service.Justified (DbCall.update requestId status u).Justifies
        ([] ++ [.read requestId record]) := by
      intro record
      exact (Service.Justified.nil _).concat trivial
    have hwrite : ∀ (row : CallRecord) (now : Time), row.status.goesBack status = false →
        Service.Justified (DbCall.update requestId status u).Justifies
          ([] ++ [.read requestId (some row)] ++
            [.wrote (updateFields u) (updateValues status now u) requestId]) := by
      intro row now hguard
      exact (hread (some row)).concat ⟨rfl, row, now, rfl, hguard, rfl, rfl⟩
    refine (noting_updateCallStatus requestId status u (Service.Justified.nil _) hread
      hwrite).bind ?_ ?_
    · intro b l hl requestId' status' u' hc hr
      cases hc
      cases hr
      exact hl true rfl
    · intro x l _ requestId' status' u' _ hr
      cases hr
  | cleanup =>
    refine (noting_blind touches_cleanupExpired (by decide) (Service.Justified.nil _)).bind ?_ ?_
    · intro count l _ requestId status u hc
      cases hc
    · intro x l _ requestId status u hc
      cases hc

/-! ## The steps of a run -/

section Runs

variable {w₀ : World} {acts : List (Act Env DbCall)} {m n i : ℕ} {requestId : String}
variable {status : Status}

theorem calls_kinds : ∀ x ∈ (dbRun w₀ acts).trace,
    x.2.cmd.kind ∉ [Kind.insertCall, .countRetry] := by
  have hbody : ∀ c : DbCall,
      Touches [.read, .clock, .updateCall, .commit, .delete, .log] c.body := by
    intro c
    cases c with
    | update requestId status u =>
      exact ((touches_updateCallStatus requestId status u).mono (by decide)).bind
        fun _ => touches_pure _
    | cleanup => exact (touches_cleanupExpired.mono (by decide)).bind fun _ => touches_pure _
  rintro ⟨i, ev⟩ hx hinsert
  obtain ⟨c, -, hkind⟩ := Service.run_uses (overlapping DbCall.body) hbody w₀ acts hx
  revert hkind hinsert
  cases ev.cmd.kind <;> simp

/-- An executed `UPDATE` belongs to a call with these arguments, which before has read the record
and done nothing else to it. -/
theorem call_of_ran {fields : List Column} {values : List SqlValue}
    (h : Ran (dbRun w₀ acts).trace n i (.updateCall fields values requestId)) :
    ∃ status u now row, (dbRun w₀ acts).opOf i = some (.update requestId status u) ∧
      fields = updateFields u ∧ values = updateValues status now u ∧
      row.status.goesBack status = false ∧
      (ownEvents i ((dbRun w₀ acts).trace.take n)).filterMap rowNote =
        [.read requestId (some row)] := by
  obtain ⟨ev, hx, hnote⟩ := rowNote_of_ran h
  obtain ⟨c, hop, hjust⟩ := Service.run_justified noting_call w₀ acts hx hnote
  cases c with
  | update key status u =>
    obtain ⟨rfl, row, now, hnotes, hguard, rfl, rfl⟩ := hjust
    exact ⟨status, u, now, row, hop, rfl, rfl, hguard, hnotes⟩
  | cleanup => exact hjust.elim

theorem Removes.absent {k : ℕ} (h : Removes w₀ (dbRun w₀ acts) k requestId) :
    recordAt DbCall.body w₀ (dbRun w₀ acts).trace (k + 1) requestId = none := by
  obtain ⟨j, now, row, hran, hrow, hexpired⟩ := h
  unfold recordAt at hrow ⊢
  rw [hran.store (S := overlapping DbCall.body) rfl w₀]
  simp only [Stmt.exec, Table.find_delete]
  rw [hrow]
  simp [hexpired]

/-- The two statements of a call: it reads a record that its guard lets through, and then writes. -/
theorem Sets.read (h : Sets (dbRun w₀ acts) n i requestId status) :
    ∃ m row, m < n ∧ Reads (dbRun w₀ acts) m i requestId ∧
      recordAt DbCall.body w₀ (dbRun w₀ acts).trace m requestId = some row ∧
      row.status.goesBack status = false := by
  obtain ⟨u, now, hop, hran⟩ := h
  obtain ⟨status', u', now', row, hop', -, -, hguard, hnotes⟩ := call_of_ran hran
  cases hop.symm.trans hop'
  have hmem : .read requestId (some row) ∈
      (ownEvents i ((dbRun w₀ acts).trace.take n)).filterMap rowNote := by simp [hnotes]
  obtain ⟨m, ev, hmn, hx, hnote⟩ := Service.exists_lt_of_mem_notes hmem
  obtain ⟨hreads, hrow⟩ := ran_of_read hx hnote
  exact ⟨m, row, hmn, hreads, hrow.symm, hguard⟩

/-- A call writes at most once. -/
theorem Sets.unique {n' : ℕ} {status' : Status}
    (h : Sets (dbRun w₀ acts) n i requestId status)
    (h' : Sets (dbRun w₀ acts) n' i requestId status') : n = n' := by
  have hfirst : ∀ {n n' status status'}, Sets (dbRun w₀ acts) n i requestId status →
      Sets (dbRun w₀ acts) n' i requestId status' → ¬ n' < n := by
    rintro n n' status status' ⟨u, now, -, hran⟩ ⟨u', now', -, hran'⟩ hlt
    obtain ⟨-, -, -, row, -, -, -, -, hnotes⟩ := call_of_ran hran
    obtain ⟨ev, hx, hnote⟩ := rowNote_of_ran hran'
    have hmem := Service.mem_notes hlt hx hnote
    rw [hnotes, List.mem_singleton] at hmem
    cases hmem
  exact Nat.le_antisymm (Nat.not_lt.1 (hfirst h h')) (Nat.not_lt.1 (hfirst h' h))

/-- The executed `UPDATE` of a call. -/
theorem Sets.step (h : Sets (dbRun w₀ acts) n i requestId status) {row : CallRecord}
    (hrow : recordAt DbCall.body w₀ (dbRun w₀ acts).trace n requestId = some row) :
    ∃ row', recordAt DbCall.body w₀ (dbRun w₀ acts).trace (n + 1) requestId = some row' ∧
      row'.status = status := by
  obtain ⟨u, now, -, hran⟩ := h
  exact ⟨_, hran.updates hrow, rfl⟩

/-- What one command does to a record if nothing rolls back: nothing, the `UPDATE` of a call, or its
removal. -/
theorem record_step (hkeeps : NoRollbacks acts) (n : ℕ) (requestId : String) :
    let s := dbRun w₀ acts
    recordAt DbCall.body w₀ s.trace (n + 1) requestId =
        recordAt DbCall.body w₀ s.trace n requestId ∨
      (∃ i status u now, Sets s n i requestId status ∧
        recordAt DbCall.body w₀ s.trace (n + 1) requestId =
          (recordAt DbCall.body w₀ s.trace n requestId).map fun row =>
            row.updated status now u) ∨
      (Removes w₀ s n requestId ∧ recordAt DbCall.body w₀ s.trace (n + 1) requestId = none) := by
  intro s
  rcases recordAt_step (NoRollbacks.held hkeeps) calls_kinds n requestId with
    h | ⟨i, fields, values, hran, h⟩ | ⟨i, now, row, hran, hrow, hexpired, h⟩
  · exact .inl h
  · obtain ⟨status, u, now, -, hop, rfl, rfl, -, -⟩ := call_of_ran hran
    simp only [funext (updateRow_eq_updated status now u)] at h
    exact .inr (.inl ⟨i, status, u, now, ⟨u, now, hop, hran⟩, h⟩)
  · exact .inr (.inr ⟨⟨i, now, row, hran, hrow, hexpired⟩, h⟩)

/-- No call brings a removed record back. -/
theorem absent_later (hkeeps : NoRollbacks acts) {k : ℕ} (hkn : k ≤ n)
    (h : recordAt DbCall.body w₀ (dbRun w₀ acts).trace k requestId = none) :
    recordAt DbCall.body w₀ (dbRun w₀ acts).trace n requestId = none := by
  induction n, hkn using Nat.le_induction with
  | base => exact h
  | succ n hkn ih =>
    rcases record_step hkeeps n requestId with hstep | ⟨i, status, u, now, -, hstep⟩ | ⟨-, hstep⟩
    · exact hstep.trans ih
    · rw [hstep, ih, Option.map_none]
    · exact hstep

/-- Between the two statements of a call with a non-terminal status, the record is in progress as
long as it exists and no `UPDATE` gives it a terminal status. The induction starts at the `SELECT`,
which the guard has let through. -/
theorem in_progress_between (hkeeps : NoRollbacks acts) {row : CallRecord} {k : ℕ}
    (hmk : m ≤ k)
    (hreads : Reads (dbRun w₀ acts) m i requestId)
    (hrow : recordAt DbCall.body w₀ (dbRun w₀ acts).trace m requestId = some row)
    (hprogress : row.status.terminal = false)
    (hno : ∀ k' j status', m < k' → k' < k → Sets (dbRun w₀ acts) k' j requestId status' →
      status'.terminal = false) {row' : CallRecord}
    (hrow' : recordAt DbCall.body w₀ (dbRun w₀ acts).trace k requestId = some row') :
    row'.status.terminal = false := by
  induction k, hmk using Nat.le_induction generalizing row' with
  | base =>
    cases hrow.symm.trans hrow'
    exact hprogress
  | succ k hmk ih =>
    have hbefore : ∀ {row₁ : CallRecord},
        recordAt DbCall.body w₀ (dbRun w₀ acts).trace k requestId = some row₁ →
          row₁.status.terminal = false :=
      ih fun k' j status' hmk' hk' => hno k' j status' hmk' (Nat.lt_succ_of_lt hk')
    rcases record_step hkeeps k requestId with
      hstep | ⟨j, status', u, now, hsets, hstep⟩ | ⟨-, hstep⟩
    · exact hbefore (hstep.symm.trans hrow')
    · rw [hstep, Option.map_eq_some_iff] at hrow'
      obtain ⟨row₁, hrow₁, rfl⟩ := hrow'
      rcases Nat.eq_or_lt_of_le hmk with rfl | hlt
      · -- position `m` holds the `SELECT`
        obtain ⟨u', now', -, hran⟩ := hsets
        cases (hreads.unique hran).2
      · exact hno k j status' hlt (Nat.lt_succ_self k) hsets
    · cases hstep.symm.trans hrow'

/-- The record stays from the `SELECT` to the `UPDATE` of a call, unless a cleanup removes it. -/
theorem present_between (hkeeps : NoRollbacks acts) {row : CallRecord} {k : ℕ} (hmk : m ≤ k)
    (hreads : Reads (dbRun w₀ acts) m i requestId)
    (hrow : recordAt DbCall.body w₀ (dbRun w₀ acts).trace m requestId = some row)
    (hno : ∀ k', m < k' → k' < k → ¬ Removes w₀ (dbRun w₀ acts) k' requestId) :
    ∃ row', recordAt DbCall.body w₀ (dbRun w₀ acts).trace k requestId = some row' := by
  induction k, hmk using Nat.le_induction with
  | base => exact ⟨row, hrow⟩
  | succ k hmk ih =>
    obtain ⟨row₁, hrow₁⟩ := ih fun k' hmk' hk' => hno k' hmk' (Nat.lt_succ_of_lt hk')
    rcases record_step hkeeps k requestId with hstep | ⟨j, status', u, now, -, hstep⟩ | ⟨hrem, -⟩
    · exact ⟨row₁, hstep.trans hrow₁⟩
    · exact ⟨row₁.updated status' now u, by rw [hstep, hrow₁, Option.map_some]⟩
    · rcases Nat.eq_or_lt_of_le hmk with rfl | hlt
      · obtain ⟨j, now, row₂, hran, -, -⟩ := hrem
        cases (hreads.unique hran).2
      · exact absurd hrem (hno k hlt (Nat.lt_succ_self k))

/-! ## The contract -/

/-- No command replaces a terminal status by a non-terminal one. -/
def KeepsTerminal (w₀ : World) (s : DbConf) : Prop :=
  ∀ n requestId row row', recordAt DbCall.body w₀ s.trace n requestId = some row →
    recordAt DbCall.body w₀ s.trace (n + 1) requestId = some row' →
      row.status.terminal = true → row'.status.terminal = true

/-- Between the two statements of a call with a non-terminal status whose record still exists, no
other call has given the record a terminal status. -/
def NotOvertaken (w₀ : World) (s : DbConf) : Prop :=
  ∀ m n i requestId status, Reads s m i requestId → Sets s n i requestId status → m < n →
    status.terminal = false → (recordAt DbCall.body w₀ s.trace n requestId).isSome →
      ∀ k j status', m < k → k < n → Sets s k j requestId status' → status'.terminal = false

/-- Every call that has returned `True` has changed a row. -/
def ChangedIfTrue (w₀ : World) (s : DbConf) : Prop :=
  ∀ i requestId status u, s.outcome i = some (.update requestId status u, .ok (.changed true)) →
    ∃ n, ChangesRow w₀ s n i requestId status u

/-- Between the two statements of a call that has returned `True`, its record is not removed. -/
def NotRemoved (w₀ : World) (s : DbConf) : Prop :=
  ∀ i requestId status u, s.outcome i = some (.update requestId status u, .ok (.changed true)) →
    ∀ m n, Reads s m i requestId → Sets s n i requestId status → m < n →
      ∀ k, m < k → k < n → ¬ Removes w₀ s k requestId

theorem keepsTerminal_of_notOvertaken (hkeeps : NoRollbacks acts)
    (h : NotOvertaken w₀ (dbRun w₀ acts)) :
    KeepsTerminal w₀ (dbRun w₀ acts) := by
  intro n requestId row row' hbefore hafter hterminal
  rcases record_step hkeeps n requestId with
    hstep | ⟨i, status, u, now, hsets, hstep⟩ | ⟨-, hstep⟩
  · cases hbefore.symm.trans (hstep.symm.trans hafter)
    exact hterminal
  · rw [hstep, hbefore, Option.map_some] at hafter
    cases hafter
    by_contra hstatus
    have hstatus : status.terminal = false := Bool.not_eq_true _ ▸ hstatus
    obtain ⟨m, row₀, hmn, hreads, hrow₀, hguard⟩ := hsets.read
    have hprogress : row₀.status.terminal = false := by
      simpa [Status.goesBack, hstatus] using hguard
    have hrow := in_progress_between hkeeps hmn.le hreads hrow₀ hprogress
      (fun k j status' hmk hkn => h m n i requestId status hreads hsets hmn hstatus
        (by rw [hbefore]; rfl) k j status' hmk hkn) hbefore
    cases hrow.symm.trans hterminal
  · cases hstep.symm.trans hafter

/-- After a terminal status, a run that keeps terminal statuses has no other ones. -/
theorem KeepsTerminal.later (h : KeepsTerminal w₀ (dbRun w₀ acts)) (hkeeps : NoRollbacks acts)
    {k : ℕ} (hkn : k ≤ n)
    {row : CallRecord}
    (hrow : recordAt DbCall.body w₀ (dbRun w₀ acts).trace k requestId = some row)
    (hterminal : row.status.terminal = true) {row' : CallRecord}
    (hrow' : recordAt DbCall.body w₀ (dbRun w₀ acts).trace n requestId = some row') :
    row'.status.terminal = true := by
  have hexists : ∀ l, k ≤ l → l ≤ n →
      (recordAt DbCall.body w₀ (dbRun w₀ acts).trace l requestId).isSome = true := by
    intro l _ hln
    by_contra hgone
    cases (absent_later hkeeps hln (by simpa using hgone)).symm.trans hrow'
  apply Table.row_induction (t := fun l => ((overlapping DbCall.body).worldAfter w₀
    (dbRun w₀ acts).trace l).store.calls) hkn hexists _ _ hrow'
  · intro r hr
    rw [Option.some.inj (hr.symm.trans hrow), hterminal]
  · intro l r r' _ _ hr hr' hbefore
    exact h l requestId r r' hr hr' hbefore

theorem notOvertaken_of_keepsTerminal (hkeeps : NoRollbacks acts)
    (h : KeepsTerminal w₀ (dbRun w₀ acts)) :
    NotOvertaken w₀ (dbRun w₀ acts) := by
  intro m n i requestId status hreads hsets hmn hstatus hexists k j status' hmk hkn hother
  by_contra hterminal
  rw [Bool.not_eq_false] at hterminal
  obtain ⟨row, hrow⟩ := Option.isSome_iff_exists.1 hexists
  -- the record is there at position `k`, where the other call makes it terminal
  obtain ⟨row₁, hrow₁⟩ : ∃ row₁,
      recordAt DbCall.body w₀ (dbRun w₀ acts).trace k requestId = some row₁ := by
    cases hmid : recordAt DbCall.body w₀ (dbRun w₀ acts).trace k requestId with
    | none => cases (absent_later hkeeps hkn.le hmid).symm.trans hrow
    | some row₁ => exact ⟨row₁, rfl⟩
  obtain ⟨row₂, hrow₂, rfl⟩ := hother.step hrow₁
  have hrowTerminal : row.status.terminal = true := h.later hkeeps hkn hrow₂ hterminal hrow
  -- and the call itself then writes its non-terminal status over it
  obtain ⟨row₃, hrow₃, rfl⟩ := hsets.step hrow
  have hafter : row₃.status.terminal = true := h n requestId row row₃ hrow hrow₃ hrowTerminal
  cases hstatus.symm.trans hafter

theorem changedIfTrue_of_notRemoved (hkeeps : NoRollbacks acts)
    (h : NotRemoved w₀ (dbRun w₀ acts)) :
    ChangedIfTrue w₀ (dbRun w₀ acts) := by
  intro i requestId status u hended
  have hnotes : ∃ row now, (ownEvents i (dbRun w₀ acts).trace).filterMap rowNote =
      [.read requestId (some row),
        .wrote (updateFields u) (updateValues status now u) requestId] := by
    have hends := Service.run_noting_ended noting_call w₀ acts hended requestId status u rfl rfl
    generalize (ownEvents i (dbRun w₀ acts).trace).filterMap rowNote = l at hends ⊢
    cases hends with
    | written hguard => exact ⟨_, _, rfl⟩
  obtain ⟨row, now, hnotes⟩ := hnotes
  have hmem : .wrote (updateFields u) (updateValues status now u) requestId ∈
      (ownEvents i (dbRun w₀ acts).trace).filterMap rowNote := by simp [hnotes]
  obtain ⟨n, ev, hx, hnote⟩ := Service.exists_of_mem_notes hmem
  have hop : (dbRun w₀ acts).opOf i = some (.update requestId status u) :=
    Config.opOf_eq_some_iff.2 ⟨_, Config.outcome_eq_some_iff.1 hended⟩
  have hran := ran_of_wrote hx hnote
  have hsets : Sets (dbRun w₀ acts) n i requestId status := ⟨u, now, hop, hran⟩
  obtain ⟨m, row₀, hmn, hreads, hrow₀, -⟩ := hsets.read
  obtain ⟨row₁, hrow₁⟩ := present_between hkeeps hmn.le hreads hrow₀
    (h i requestId status u hended m n hreads hsets hmn)
  exact ⟨n, now, row₁, hran, hrow₁, hran.updates hrow₁⟩

theorem notRemoved_of_changedIfTrue (hkeeps : NoRollbacks acts)
    (h : ChangedIfTrue w₀ (dbRun w₀ acts)) :
    NotRemoved w₀ (dbRun w₀ acts) := by
  intro i requestId status u hended m n hreads hsets hmn k hmk hkn hremoves
  obtain ⟨n', now, row, hran, hrow, -⟩ := h i requestId status u hended
  have hop : (dbRun w₀ acts).opOf i = some (.update requestId status u) :=
    Config.opOf_eq_some_iff.2 ⟨_, Config.outcome_eq_some_iff.1 hended⟩
  -- the row that the call has changed is the one that was removed
  obtain rfl : n = n' := hsets.unique ⟨u, now, hop, hran⟩
  have habsent : recordAt DbCall.body w₀ (dbRun w₀ acts).trace (k + 1) requestId = none :=
    hremoves.absent
  cases (absent_later hkeeps hkn habsent).symm.trans hrow

/-- `update_call_status` keeps its contract in a run of overlapping calls and cleanups in which
nothing rolls back exactly as far as no statement comes between its `SELECT` and its `UPDATE`: an
`UPDATE` of the record with a terminal status, when its own status is not terminal, or the removal
of the record. -/
theorem update_contract_iff (w₀ : World) (acts : List (Act Env DbCall))
    (hkeeps : NoRollbacks acts) :
    (KeepsTerminal w₀ (dbRun w₀ acts) ↔ NotOvertaken w₀ (dbRun w₀ acts)) ∧
      (ChangedIfTrue w₀ (dbRun w₀ acts) ↔ NotRemoved w₀ (dbRun w₀ acts)) := by
  constructor
  · exact ⟨notOvertaken_of_keepsTerminal hkeeps, keepsTerminal_of_notOvertaken hkeeps⟩
  · exact ⟨notRemoved_of_changedIfTrue hkeeps, changedIfTrue_of_notRemoved hkeeps⟩

end Runs

/-! ## Two runs that break the contract -/

/-- The start of the playback is written after its end. -/
def overtakenRun : List (Act Env DbCall) :=
  [.arrive (.update firstId.text .playing {}), .arrive (.update firstId.text .completed {}),
    .turn 0 (.calm 1 firstId []), .turn 1 (.calm 2 firstId []), .turn 1 (.calm 2 firstId []),
    .turn 1 (.calm 2 firstId []), .turn 0 (.calm 3 firstId [])]

/-- The record expires while a call is between its two statements. -/
def removedRun : List (Act Env DbCall) :=
  [.arrive (.update firstId.text .playing {}), .arrive .cleanup, .turn 0 (.calm 300 firstId []),
    .turn 1 (.calm 301 firstId []), .turn 0 (.calm 301 firstId []), .turn 0 (.calm 301 firstId [])]

/-- Neither part of the contract holds in every run: `playing` replaces `completed`, and a call
returns `True` though its `UPDATE` has met no row. -/
theorem update_contract_broken :
    ¬ KeepsTerminal answeredWorld (dbRun answeredWorld overtakenRun) ∧
      ¬ ChangedIfTrue answeredWorld (dbRun answeredWorld removedRun) := by
  constructor
  · intro h
    have hbefore : (recordAt DbCall.body answeredWorld (dbRun answeredWorld overtakenRun).trace 6
        firstId.text).map CallRecord.status = some .completed := by decide +kernel
    have hafter : (recordAt DbCall.body answeredWorld (dbRun answeredWorld overtakenRun).trace 7
        firstId.text).map CallRecord.status = some .playing := by decide +kernel
    obtain ⟨row, hrow, hstatus⟩ := Option.map_eq_some_iff.1 hbefore
    obtain ⟨row', hrow', hstatus'⟩ := Option.map_eq_some_iff.1 hafter
    have hkept := h 6 firstId.text row row' hrow hrow' (by rw [hstatus]; rfl)
    rw [hstatus'] at hkept
    cases hkept
  · intro h
    have hended : (dbRun answeredWorld removedRun).outcome 0 =
        some (.update firstId.text .playing {}, .ok (.changed true)) := by decide +kernel
    have habsent : ∀ n < (dbRun answeredWorld removedRun).trace.length,
        ((dbRun answeredWorld removedRun).trace[n]?.map fun x => x.2.cmd.kind) =
          some .updateCall → recordAt DbCall.body answeredWorld
            (dbRun answeredWorld removedRun).trace n firstId.text = none := by decide +kernel
    obtain ⟨n, now, row, ⟨ev, hx, hcmd, -⟩, hrow, -⟩ := h 0 firstId.text .playing {} hended
    have hnone := habsent n (List.getElem?_eq_some_iff.1 hx).1
      (by rw [hx, Option.map_some, hcmd]; rfl)
    cases hnone.symm.trans hrow

/-- The equivalences in a run that breaks the first part. -/
theorem update_contract_iff_overtaken :
    (KeepsTerminal answeredWorld (dbRun answeredWorld overtakenRun) ↔
        NotOvertaken answeredWorld (dbRun answeredWorld overtakenRun)) ∧
      (ChangedIfTrue answeredWorld (dbRun answeredWorld overtakenRun) ↔
        NotRemoved answeredWorld (dbRun answeredWorld overtakenRun)) :=
  update_contract_iff answeredWorld overtakenRun (by simp [overtakenRun])

end OtpVoice
