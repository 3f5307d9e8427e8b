import OtpVoice.Api.Lineage
import OtpVoice.Api.Quota

/-!
# The children of a record

- `children_counted`: under every interleaving the children of a record are its `retry_count` and
  the retries that have inserted their record and have not counted it yet, and a child outlives its
  parent.

The invariant behind it is an order of the expiries: a child is created after its parent, so that no
cleanup drops a child and keeps its parent.
-/

set_option autoImplicit false

namespace OtpVoice

open Coroutine

/-! ## Statements -/

/-- The record is a retry of `p`. -/
def CallRecord.childOf (p : String) (row : CallRecord) : Bool := row.parentRequestId = some p

/-- The statement inserts a child of `p`. -/
def Stmt.createsChild (p : String) : Stmt → Bool
  | .insertCall row => row.childOf p
  | _ => false

/-- The statement counts a retry of `p`. -/
def Stmt.countsRetry (p : String) : Stmt → Bool
  | .incrementRetry _ requestId => requestId = p
  | _ => false

theorem countP_modify {t : CallTable} {k : String} {f : CallRecord → CallRecord}
    (hf : ∀ v, (f v).requestId = v.requestId) {q : CallRecord → Bool} (hq : ∀ v, q (f v) = q v) :
    (t.modify k f hf).rows.countP q = t.rows.countP q := by
  rw [Table.modify, List.countP_map]
  apply List.countP_congr
  intro v _
  simp only [Function.comp_apply]
  split
  · rw [hq]
  · exact Iff.rfl

/-- What a statement does to the children of a record and to its count, as long as no child has an
earlier expiry. -/
theorem family_exec {st : Store} {s : Stmt} {p : String} {row row' : CallRecord}
    (hbefore : st.calls.find p = some row) (hafter : (s.exec st).2.calls.find p = some row')
    (hok : (s.exec st).1.isOk = true)
    (hexpiry : ∀ c ∈ st.calls.rows, c.childOf p = true → row.expiresAt ≤ c.expiresAt) :
    (s.exec st).2.calls.rows.countP (·.childOf p) =
        st.calls.rows.countP (·.childOf p) + (if s.createsChild p then 1 else 0) ∧
      row'.retryCount = row.retryCount + if s.countsRetry p then 1 else 0 := by
  cases s with
  | insertCall new =>
    cases hinsert : st.calls.insert new with
    | none => simp [Stmt.exec, hinsert, Except.isOk, Except.toBool] at hok
    | some calls =>
      -- the new row is the only row that can add a child
      simp only [Stmt.exec, hinsert] at hafter ⊢
      obtain ⟨-, hrows⟩ := Table.insert_eq_some_iff.1 hinsert
      constructor
      · rw [hrows, List.countP_append, List.countP_singleton]
        rfl
      · rcases Table.find_of_insert hinsert hafter with h | ⟨-, h⟩
        · rw [Option.some.inj (h.symm.trans hbefore)]
          rfl
        · cases h.symm.trans hbefore
  | updateCall fields values key =>
    have hparent : ∀ v, CallRecord.childOf p (updateRow fields values v) = v.childOf p := by
      intro v
      simp only [CallRecord.childOf, updateRow_kept CallRecord.assign_parentRequestId]
    -- no `UPDATE` binds the parent or the count
    refine ⟨countP_modify (updateRow_requestId fields values) hparent, ?_⟩
    rcases find_exec hbefore hafter with rfl | ⟨now, h, -⟩ | ⟨fields', values', -, rfl⟩
    · rfl
    · cases h
    · exact updateRow_kept CallRecord.assign_retryCount _ _ _
  | incrementRetry now key =>
    -- the count grows on the row with this id, and on no other
    refine ⟨countP_modify (f := CallRecord.retried now) (fun _ => rfl) fun _ => rfl, ?_⟩
    replace hafter := (st.calls.find_modify key (CallRecord.retried now) (fun _ => rfl)
      p).symm.trans hafter
    rw [hbefore, Option.map_some] at hafter
    split at hafter
    · rename_i hkey
      rw [← Option.some.inj hafter]
      simp [Stmt.countsRetry, CallRecord.retried, hkey]
    · rename_i hkey
      rw [← Option.some.inj hafter]
      simp [Stmt.countsRetry, Ne.symm hkey]
  | deleteExpired now =>
    simp only [Stmt.exec, Table.find_delete, hbefore, Option.filter_some] at hafter
    split at hafter
    · -- the row is kept, so no child has expired
      rename_i hstays
      have hlive : ¬ row.expiresAt < now := by simpa [expired] using hstays
      constructor
      · show (st.calls.rows.filter fun v => !expired now v).countP _ = _
        rw [List.countP_filter]
        apply List.countP_congr
        intro c hc
        simp only [Bool.and_eq_true, and_iff_left_iff_imp, Bool.not_eq_true', expired,
          decide_eq_false_iff_not]
        intro hchild
        exact fun hlt => hlive ((hexpiry c hc hchild).trans_lt hlt)
      · rw [Option.some.inj hafter]
        rfl
    · cases hafter
  | _ =>
    -- a read, a line of the timeline or the deletion of lines: the records stay
    rw [Option.some.inj (hafter.symm.trans hbefore)]
    exact ⟨rfl, rfl⟩

/-! ## Counting notes -/

/-- The note of such an insert. -/
def FamilyNote.createsChild (p : String) : FamilyNote → Bool
  | .inserted row => row.childOf p
  | _ => false

/-- The note of such a count. -/
def FamilyNote.countsRetry (p : String) : FamilyNote → Bool
  | .counted requestId => requestId = p
  | _ => false

/-- The note of any insert. -/
def FamilyNote.isInserted : FamilyNote → Bool
  | .inserted _ => true
  | _ => false

/-- The note of any count. -/
def FamilyNote.isCounted : FamilyNote → Bool
  | .counted _ => true
  | _ => false

/-- The notes of a thread that has inserted a child of `p` and has not counted it yet. -/
def PendingNotes (op : Op) (p : String) (l : List FamilyNote) : Prop :=
  op.parent = some p ∧ l.any FamilyNote.isInserted = true ∧ l.any FamilyNote.isCounted = false

instance (op : Op) (p : String) (l : List FamilyNote) : Decidable (PendingNotes op p l) :=
  inferInstanceAs (Decidable (_ ∧ _))

/-- A thread creates at most one child, and counts it at most once, after its creation. -/
theorem created_eq_counted {op : Op} {p : String} {l : List FamilyNote}
    (h : Service.Justified op.Follows l) : l.countP (·.createsChild p) =
      l.countP (·.countsRetry p) + if PendingNotes op p l then 1 else 0 := by
  induction l using List.reverseRecOn with
  | nil => simp [PendingNotes]
  | append_singleton l y ih =>
    have hl : Service.Justified op.Follows l := fun pre z suf hsplit =>
      h pre z (suf ++ [y]) (by simp [hsplit])
    have hy : op.Follows l y := h l y [] rfl
    rw [List.countP_append, List.countP_append, List.countP_singleton, List.countP_singleton, ih hl]
    cases y with
    | inserted row =>
      obtain ⟨-, -, -, -, hparent, hfirst⟩ := hy
      have hno : l.any FamilyNote.isInserted = false := by
        rw [List.any_eq_false]
        rintro (_ | _ | _ | row' | _) hmem <;> first
          | exact absurd hmem (hfirst row')
          | simp [FamilyNote.isInserted]
      -- nothing is counted before the insertion
      have hno' : l.any FamilyNote.isCounted = false := by
        rw [List.any_eq_false]
        rintro (_ | _ | _ | _ | q) hmem <;> first
          | simp [FamilyNote.isCounted]
        obtain ⟨pre, suf, rfl⟩ := List.append_of_mem hmem
        obtain ⟨-, ⟨row', hrow'⟩, -⟩ := hl pre _ suf rfl
        exact absurd (List.mem_append_left _ hrow') (hfirst row')
      simp [PendingNotes, hno, hno', FamilyNote.createsChild, FamilyNote.countsRetry,
        FamilyNote.isInserted, FamilyNote.isCounted, CallRecord.childOf, hparent]
    | counted q =>
      obtain ⟨hparent, ⟨row, hrow⟩, hfirst⟩ := hy
      have hyes : l.any FamilyNote.isInserted = true := List.any_eq_true.2 ⟨_, hrow, rfl⟩
      have hno : l.any FamilyNote.isCounted = false := by
        rw [List.any_eq_false]
        rintro (_ | _ | _ | _ | q') hmem <;> first
          | exact absurd hmem (hfirst q')
          | simp [FamilyNote.isCounted]
      simp [PendingNotes, hyes, hno, FamilyNote.createsChild, FamilyNote.countsRetry,
        FamilyNote.isInserted, FamilyNote.isCounted, hparent]
    | _ =>
      simp [PendingNotes, FamilyNote.createsChild, FamilyNote.countsRetry, FamilyNote.isInserted,
        FamilyNote.isCounted]

/-- The events of a trace whose notes satisfy `q`. -/
def countNotes (q : FamilyNote → Bool) (tr : List (ℕ × Ev)) : ℕ :=
  tr.countP fun x => ((familyNote x.2).map q).getD false

theorem countNotes_concat (q : FamilyNote → Bool) (tr : List (ℕ × Ev)) (x : ℕ × Ev) :
    countNotes q (tr ++ [x]) =
      countNotes q tr + if ((familyNote x.2).map q).getD false then 1 else 0 := by
  rw [countNotes, List.countP_append, List.countP_singleton]
  rfl

/-- Notes are not counted if none of the first commands makes one. -/
theorem countNotes_eq_zero {q : FamilyNote → Bool} {tr : List (ℕ × Ev)} {m : ℕ}
    (hq : ∀ k j ev, k ≤ m → tr[k]? = some (j, ev) → ((familyNote ev).map q).getD false = false) :
    countNotes q (tr.take (m + 1)) = 0 := by
  rw [countNotes, List.countP_eq_zero]
  rintro ⟨j, ev⟩ hmem
  obtain ⟨k, hk⟩ := List.mem_iff_getElem?.1 hmem
  rw [List.getElem?_take] at hk
  split at hk
  · rename_i hkm
    rw [hq k j ev (Nat.le_of_lt_succ hkm) hk]
    exact Bool.false_ne_true
  · cases hk

theorem countNotes_eq_sum {n : ℕ} {tr : List (ℕ × Ev)} (h : ∀ x ∈ tr, x.1 < n)
    (q : FamilyNote → Bool) : countNotes q tr =
      ∑ i ∈ Finset.range n, ((ownEvents i tr).filterMap familyNote).countP q := by
  refine (Service.countP_trace (fun ev => ((familyNote ev).map q).getD false) h).trans ?_
  exact Finset.sum_congr rfl fun i _ => List.countP_filterMap.symm

/-- The note of a statement that has succeeded. -/
theorem counts_of_execute {ev : Ev} {st : Stmt} (hcmd : ev.cmd = .execute st)
    (hok : ev.res.isOk = true) (p : String) :
    ((familyNote ev).map (·.createsChild p)).getD false = st.createsChild p ∧
      ((familyNote ev).map (·.countsRetry p)).getD false = st.countsRetry p := by
  obtain ⟨e, n, c, r⟩ := ev
  obtain rfl : c = .execute st := hcmd
  cases r with
  | error x => cases hok
  | ok a =>
    cases st with
    | selectCall requestId => cases a <;> exact ⟨rfl, rfl⟩
    | _ => exact ⟨rfl, rfl⟩

theorem counts_of_other {ev : Ev} (hcmd : ¬ ∃ st, ev.cmd = .execute st) (p : String) :
    ((familyNote ev).map (·.createsChild p)).getD false = false ∧
      ((familyNote ev).map (·.countsRetry p)).getD false = false := by
  obtain ⟨e, n, c, r⟩ := ev
  cases c with
  | execute st => exact absurd ⟨st, rfl⟩ hcmd
  | _ => cases r <;> exact ⟨rfl, rfl⟩

/-- A retry of `p` has inserted its record and has not counted it yet. -/
def pendingRetry (s : Conf) (p : String) (i : ℕ) : Prop :=
  ∃ op ∈ s.opOf i, PendingNotes op p ((ownEvents i s.trace).filterMap familyNote)

instance (s : Conf) (p : String) (i : ℕ) : Decidable (pendingRetry s p i) :=
  inferInstanceAs (Decidable (∃ op ∈ s.opOf i, _))

/-- The number of retries of `p` between their insert and their count. -/
def pendingRetries (s : Conf) (p : String) : ℕ :=
  ((Finset.range s.threads.length).filter (pendingRetry s p)).card

/-! ## The order of the notes of a run -/

/-- The clock reading of a command. -/
def clockReading (ev : Ev) : Option Time :=
  match familyNote ev with
  | some (.clock t) => some t
  | _ => none

/-- The id that a command draws. -/
def drawnId (ev : Ev) : Option String :=
  match familyNote ev with
  | some (.drawn requestId) => some requestId
  | _ => none

/-- A run without database errors, with a clock that never goes back, in which no id is drawn
twice. -/
structure Orderly (tr : List (ℕ × Ev)) : Prop where
  errors : ∀ x ∈ tr, x.2.cmd.mayRaise = true → x.2.res.isOk = true
  clock : (tr.filterMap fun x => clockReading x.2).Pairwise (· ≤ ·)
  ids : (tr.filterMap fun x => drawnId x.2).Nodup

theorem rel_of_pairwise_filterMap {α β : Type} {R : β → β → Prop} {f : α → Option β} {l : List α}
    (h : (l.filterMap f).Pairwise R) {m n : ℕ} (hmn : m < n) {x y : α} (hm : l[m]? = some x)
    (hn : l[n]? = some y) {a b : β} (ha : f x = some a) (hb : f y = some b) : R a b := by
  obtain ⟨hlm, rfl⟩ := List.getElem?_eq_some_iff.1 hm
  obtain ⟨hln, rfl⟩ := List.getElem?_eq_some_iff.1 hn
  exact List.pairwise_iff_getElem.1 (List.pairwise_filterMap.1 h) m n hlm hln hmn a ha b hb

/-- A record that has been found is in the table. -/
theorem find_of_note {w : World} {ev : Ev} {p : String} (h : familyNote ev = some (.found p))
    (hanswer : ev.res = (World.respond ev.env ev.index w ev.cmd).1) :
    ∃ row, w.store.calls.find p = some row := by
  obtain ⟨e, n, c, r⟩ := ev
  simp only [familyNote] at h hanswer
  unfold FamilyNote.of at h
  split at h <;> cases h
  rename_i row
  cases hfault : e.fault n with
  | some text =>
    rw [World.respond_fault hfault] at hanswer
    cases hanswer
  | none =>
    rw [World.respond_execute hfault] at hanswer
    exact ⟨row, (Except.ok.inj hanswer).symm⟩

theorem noted_insert {tr : List (ℕ × Ev)} (h : Orderly tr) {n i : ℕ} {ev : Ev} {row : CallRecord}
    (hx : tr[n]? = some (i, ev)) (hcmd : ev.cmd = .execute (.insertCall row)) :
    familyNote ev = some (.inserted row) := by
  have hok := h.errors _ (List.mem_of_getElem? hx)
  obtain ⟨e, k, c, r⟩ := ev
  obtain rfl : c = .execute (.insertCall row) := hcmd
  cases r with
  | error x => cases hok rfl
  | ok a => rfl

section Runs

variable {o : CallOriginator} {yields : Cmd → Bool} {w₀ : World} {acts : List Turn} {s : Conf}
  (hs : s = (otpService o yields).run (Config.initial w₀) acts)

include hs

/-- A note of a run comes after what `Op.Follows` asks for. -/
theorem follows_at {n i : ℕ} {ev : Ev} {y : FamilyNote} (hx : s.trace[n]? = some (i, ev))
    (hy : familyNote ev = some y) : ∃ op, s.opOf i = some op ∧
      op.Follows ((ownEvents i (s.trace.take n)).filterMap familyNote) y := by
  subst hs
  exact Service.run_justified family_notes w₀ acts hx hy

/-- A statement of a run that raises nothing takes effect. -/
theorem ran_of_isOk {n i : ℕ} {ev : Ev} {st : Stmt} (hx : s.trace[n]? = some (i, ev))
    (hcmd : ev.cmd = .execute st) (hok : ev.res.isOk = true) :
    Ran s.trace n i st ∧
      (st.exec ((otpService o yields).worldAfter w₀ s.trace n).store).1.isOk = true := by
  subst hs
  have hanswer := Service.trace_answers (otpService o yields) w₀ acts hx
  obtain ⟨e, k, c, r⟩ := ev
  obtain rfl : c = .execute st := hcmd
  replace hok : r.isOk = true := hok
  replace hanswer : r = (World.respond e k _ (.execute st)).1 := hanswer
  cases hfault : e.fault k with
  | some text =>
    rw [hanswer, World.respond_fault hfault] at hok
    cases hok
  | none =>
    refine ⟨⟨_, hx, rfl, hfault⟩, ?_⟩
    rw [hanswer, World.respond_execute hfault] at hok
    simp only [World.answer] at hok
    split at hok
    · rename_i hexec
      rw [hexec]
      rfl
    · cases hok

/-- The command of a run that is a statement takes effect, if no database command raises. -/
theorem ran_of_execute (h : Orderly s.trace) {n i : ℕ} {ev : Ev} {st : Stmt}
    (hx : s.trace[n]? = some (i, ev)) (hcmd : ev.cmd = .execute st) :
    Ran s.trace n i st ∧
      (st.exec ((otpService o yields).worldAfter w₀ s.trace n).store).1.isOk = true :=
  ran_of_isOk hs hx hcmd (h.errors _ (List.mem_of_getElem? hx) (by rw [hcmd]; rfl))

theorem nothingUndone_of_orderly (h : Orderly s.trace) : NothingUndone s.trace := by
  rintro ⟨i, e, k, c, r⟩ hmem
  obtain ⟨n, hx⟩ := List.mem_iff_getElem?.1 hmem
  subst hs
  have hanswer : r = (World.respond e k _ c).1 :=
    Service.trace_answers (otpService o yields) w₀ acts hx
  refine Bool.eq_false_iff.2 fun hundone => ?_
  have hok : r.isOk = true := h.errors _ hmem (Env.mayRaise_of_rollsBack hundone)
  obtain ⟨text, hraised⟩ := World.respond_rollsBack hundone
    ((otpService o yields).worldAfter w₀
      ((otpService o yields).run (Config.initial w₀) acts).trace n)
  rw [hanswer, hraised] at hok
  cases hok

/-- The insertion that brings a record up is noted as such: the id was free, so it succeeds. -/
theorem noted_of_new {n i : ℕ} {row : CallRecord} (h : Ran s.trace n i (.insertCall row))
    (hnone : ((otpService o yields).worldAfter w₀ s.trace n).store.calls.find row.requestId =
      none) : ∃ ev, s.trace[n]? = some (i, ev) ∧ familyNote ev = some (.inserted row) := by
  subst hs
  obtain ⟨⟨e, k, c, r⟩, hx, hcmd, hfault⟩ := h
  obtain rfl : c = .execute (.insertCall row) := hcmd
  have hanswer := Service.trace_answers (otpService o yields) w₀ acts hx
  refine ⟨_, hx, ?_⟩
  replace hanswer : r = (World.respond e k _ (.execute (.insertCall row))).1 := hanswer
  rw [World.respond_execute hfault] at hanswer
  generalize (otpService o yields).worldAfter w₀ _ n = w at hnone hanswer
  cases hcalls : w.store.calls.insert row with
  | none =>
    have hthere := Table.find_isSome_of_insert_eq_none hcalls
    rw [hnone] at hthere
    cases hthere
  | some calls =>
    simp only [World.answer, Stmt.exec, hcalls] at hanswer
    rw [hanswer]
    rfl

/-- Two insertions of one id are one. -/
theorem insert_unique (hids : (s.trace.filterMap fun x => drawnId x.2).Nodup) {m n i j : ℕ}
    {ev ev' : Ev} {row row' : CallRecord}
    (hm : s.trace[m]? = some (i, ev)) (hn : s.trace[n]? = some (j, ev'))
    (hrow : familyNote ev = some (.inserted row)) (hrow' : familyNote ev' = some (.inserted row'))
    (hid : row.requestId = row'.requestId) : m = n := by
  -- both ids have been drawn, so by one command, and a thread inserts only once
  have hthread : i = j := by
    obtain ⟨op, -, hdrawn, -⟩ := follows_at hs hm hrow
    obtain ⟨op', -, hdrawn', -⟩ := follows_at hs hn hrow'
    obtain ⟨a, eva, -, ha, hnote⟩ := Service.exists_lt_of_mem_notes hdrawn
    obtain ⟨b, evb, -, hb, hnote'⟩ := Service.exists_lt_of_mem_notes hdrawn'
    have hida : drawnId eva = some row.requestId := by simp [drawnId, hnote]
    have hidb : drawnId evb = some row.requestId := by simp [drawnId, hnote', hid]
    rcases Nat.lt_trichotomy a b with hab | rfl | hab
    · exact absurd rfl (rel_of_pairwise_filterMap hids hab ha hb hida hidb)
    · exact (Prod.mk.inj (Option.some.inj (ha.symm.trans hb))).1
    · exact absurd rfl (rel_of_pairwise_filterMap hids hab hb ha hidb hida)
  subst hthread
  have honce : ∀ {a b : ℕ} {eva evb : Ev} {rowa rowb : CallRecord}, s.trace[a]? = some (i, eva) →
      s.trace[b]? = some (i, evb) → familyNote eva = some (.inserted rowa) →
      familyNote evb = some (.inserted rowb) → ¬ a < b := by
    intro a b eva evb rowa rowb ha hb hnote hnote' hab
    obtain ⟨op, -, -, -, -, -, -, hfirst⟩ := follows_at hs hb hnote'
    exact hfirst rowa (Service.mem_notes hab ha hnote)
  rcases Nat.lt_trichotomy m n with hmn | hmn | hmn
  · exact absurd hmn (honce hm hn hrow hrow')
  · exact hmn
  · exact absurd hmn (honce hn hm hrow' hrow)

/-- A record in the table has been inserted with its expiry and its parent, and has been there
since. -/
theorem origin (hempty : w₀.store = .empty) (h : Orderly s.trace) {n : ℕ} {requestId : String}
    {row : CallRecord} (hrow : ((otpService o yields).worldAfter w₀ s.trace n).store.calls.find
      requestId = some row) :
    ∃ m i ev new, m < n ∧ s.trace[m]? = some (i, ev) ∧ familyNote ev = some (.inserted new) ∧
      new.requestId = requestId ∧ row.expiresAt = new.expiresAt ∧
      row.parentRequestId = new.parentRequestId ∧ ∀ k, m < k → k ≤ n →
        (((otpService o yields).worldAfter w₀ s.trace k).store.calls.find requestId).isSome := by
  induction n generalizing row with
  | zero =>
    replace hrow : w₀.store.calls.find requestId = some row := hrow
    rw [hempty] at hrow
    cases hrow
  | succ n ih =>
    have hlast : (((otpService o yields).worldAfter w₀ s.trace (n + 1)).store.calls.find
        requestId).isSome := by
      rw [hrow]
      rfl
    have hextend : ∀ {m}, (∀ k, m < k → k ≤ n → (((otpService o yields).worldAfter w₀ s.trace
        k).store.calls.find requestId).isSome) → ∀ k, m < k → k ≤ n + 1 →
          (((otpService o yields).worldAfter w₀ s.trace k).store.calls.find requestId).isSome := by
      intro m hall k hmk hk
      rcases Nat.le_succ_iff.1 hk with hk | rfl
      · exact hall k hmk hk
      · exact hlast
    rcases store_step (S := otpService o yields) rfl w₀ (nothingUndone_of_orderly hs h) n
      with hkeep | ⟨i, st, hran, hstore⟩
    · rw [hkeep] at hrow
      obtain ⟨m, i, ev, new, hm, hx, hnote, hid, hexpiry, hparent, hall⟩ := ih hrow
      exact ⟨m, i, ev, new, Nat.lt_succ_of_lt hm, hx, hnote, hid, hexpiry, hparent, hextend hall⟩
    · rw [hstore] at hrow
      cases hbefore :
          ((otpService o yields).worldAfter w₀ s.trace n).store.calls.find requestId with
      | none =>
        obtain rfl := find_exec_new hbefore hrow
        obtain ⟨ev, hx, hcmd, -⟩ := hran
        refine ⟨n, i, ev, row, Nat.lt_succ_self n, hx, noted_insert h hx hcmd,
          (Table.find_eq_some_iff.1 hrow).2, rfl, rfl, fun k hnk hk => ?_⟩
        obtain rfl : k = n + 1 := by omega
        exact hlast
      | some row₁ =>
        obtain ⟨m, i, ev, new, hm, hx, hnote, hid, hexpiry, hparent, hall⟩ := ih hbefore
        refine ⟨m, i, ev, new, Nat.lt_succ_of_lt hm, hx, hnote, hid, ?_, ?_, hextend hall⟩
        · exact (find_exec_kept CallRecord.assign_expiresAt (fun _ _ => rfl) hbefore hrow).trans
            hexpiry
        · exact (find_exec_kept CallRecord.assign_parentRequestId (fun _ _ => rfl) hbefore
            hrow).trans hparent

/-- The parent of an inserted record has been inserted before, at an earlier time. -/
theorem parent_before (hempty : w₀.store = .empty) (h : Orderly s.trace) {n i : ℕ} {ev : Ev}
    {row : CallRecord} {p : String} (hx : s.trace[n]? = some (i, ev))
    (hnote : familyNote ev = some (.inserted row)) (hparent : row.parentRequestId = some p) :
    ∃ m j ev' parent, m < n ∧ s.trace[m]? = some (j, ev') ∧
      familyNote ev' = some (.inserted parent) ∧ parent.requestId = p ∧
      parent.expiresAt ≤ row.expiresAt := by
  obtain ⟨op, hop, -, hclock, hexpiry, -, hop', -⟩ := follows_at hs hx hnote
  obtain ⟨a, eva, han, ha, hreading⟩ := Service.exists_lt_of_mem_notes hclock
  -- the retry has found its parent before it has read the clock
  obtain ⟨op₁, hop₁, hfound⟩ := follows_at hs ha hreading
  obtain rfl := Option.some.inj (hop.symm.trans hop₁)
  obtain ⟨b, evb, hba, hb, hread⟩ :=
    Service.exists_lt_of_mem_notes (hfound p (hop'.symm.trans hparent))
  obtain ⟨found, hfind⟩ := find_of_note hread (hs ▸ Service.trace_answers (otpService o yields) w₀
    acts (hs ▸ hb))
  obtain ⟨m, j, ev', parent, hmb, hm, hnote', hid, -⟩ := origin hs hempty h hfind
  refine ⟨m, j, ev', parent, hmb.trans (hba.trans han), hm, hnote', hid, ?_⟩
  obtain ⟨op', -, -, hclock', hexpiry', -⟩ := follows_at hs hm hnote'
  obtain ⟨c, evc, hcm, hc, hreading'⟩ := Service.exists_lt_of_mem_notes hclock'
  have hle : parent.createdAt ≤ row.createdAt :=
    rel_of_pairwise_filterMap h.clock (hcm.trans (hmb.trans hba)) hc ha
      (by simp [clockReading, hreading']) (by simp [clockReading, hreading])
  rw [hexpiry, hexpiry']
  exact add_le_add_left hle ttlSeconds

/-- A child does not expire before its parent. -/
theorem expiry_le (hempty : w₀.store = .empty) (h : Orderly s.trace) {n : ℕ} {p : String}
    {row child : CallRecord}
    (hrow : ((otpService o yields).worldAfter w₀ s.trace n).store.calls.find p = some row)
    (hchild : child ∈ ((otpService o yields).worldAfter w₀ s.trace n).store.calls.rows)
    (hparent : child.childOf p = true) : row.expiresAt ≤ child.expiresAt := by
  obtain ⟨a, i, ev, new, -, ha, hnote, -, hexpiry, hnew, -⟩ :=
    origin hs hempty h (Table.find_mem hchild)
  have hparent : new.parentRequestId = some p := hnew.symm.trans (of_decide_eq_true hparent)
  obtain ⟨b, j, ev', parent, -, hb, hnote', hid, hle⟩ := parent_before hs hempty h ha hnote hparent
  obtain ⟨c, k, ev'', row', -, hc, hnote'', hid', hexpiry', -⟩ := origin hs hempty h hrow
  -- both insertions of `p` are one
  obtain rfl := insert_unique hs h.ids hb hc hnote' hnote'' (hid.trans hid'.symm)
  cases hb.symm.trans hc
  cases hnote'.symm.trans hnote''
  rw [hexpiry, hexpiry']
  exact hle

/-- Before a record is inserted nothing is created or counted for it. -/
theorem nothing_before (hempty : w₀.store = .empty) (h : Orderly s.trace) {n i : ℕ} {ev : Ev}
    {row : CallRecord} (hx : s.trace[n]? = some (i, ev))
    (hnote : familyNote ev = some (.inserted row)) {m j : ℕ} {ev' : Ev} (hmn : m ≤ n)
    (hm : s.trace[m]? = some (j, ev')) :
    ((familyNote ev').map (·.createsChild row.requestId)).getD false = false ∧
      ((familyNote ev').map (·.countsRetry row.requestId)).getD false = false := by
  -- a child of the record is inserted after the record
  have hlater : ∀ {k l : ℕ} {ev'' : Ev} {new : CallRecord}, s.trace[k]? = some (l, ev'') →
      familyNote ev'' = some (.inserted new) → new.parentRequestId = some row.requestId →
        n < k := by
    intro k l ev'' new hk hnote' hparent
    obtain ⟨a, b, eva, parent, hak, ha, hnotea, hid, -⟩ :=
      parent_before hs hempty h hk hnote' hparent
    rw [← insert_unique hs h.ids ha hx hnotea hnote hid]
    exact hak
  cases hy : familyNote ev' with
  | none => exact ⟨rfl, rfl⟩
  | some y =>
    cases y with
    | inserted new =>
      refine ⟨?_, rfl⟩
      by_contra hcreates
      have hparent : new.parentRequestId = some row.requestId := by
        simpa [FamilyNote.createsChild, CallRecord.childOf] using hcreates
      exact absurd (hlater hm hy hparent) (Nat.not_lt.2 hmn)
    | counted q =>
      refine ⟨rfl, ?_⟩
      by_contra hcounts
      obtain rfl : q = row.requestId := by simpa [FamilyNote.countsRetry] using hcounts
      obtain ⟨op, hop, hparent, ⟨new, hnew⟩, -⟩ := follows_at hs hm hy
      obtain ⟨k, evk, hkm, hk, hnotek⟩ := Service.exists_lt_of_mem_notes hnew
      obtain ⟨op', hop', -, -, -, -, hparent', -⟩ := follows_at hs hk hnotek
      obtain rfl := Option.some.inj (hop.symm.trans hop')
      exact absurd (hlater hk hnotek (hparent'.trans hparent)) (Nat.not_lt.2 (hkm.le.trans hmn))
    | _ => exact ⟨rfl, rfl⟩

/-- One command of a run and the children and the count of a record. -/
theorem family_step (hempty : w₀.store = .empty) (h : Orderly s.trace) {n i : ℕ} {ev : Ev}
    (hx : s.trace[n]? = some (i, ev)) {p : String} {row row' : CallRecord}
    (hbefore : ((otpService o yields).worldAfter w₀ s.trace n).store.calls.find p = some row)
    (hafter : ((otpService o yields).worldAfter w₀ s.trace (n + 1)).store.calls.find p =
      some row') :
    let w := (otpService o yields).worldAfter w₀ s.trace
    (w (n + 1)).store.calls.rows.countP (·.childOf p) =
        (w n).store.calls.rows.countP (·.childOf p) +
          (if ((familyNote ev).map (·.createsChild p)).getD false then 1 else 0) ∧
      row'.retryCount =
        row.retryCount + if ((familyNote ev).map (·.countsRetry p)).getD false then 1 else 0 := by
  intro w
  by_cases hexec : ∃ st, ev.cmd = .execute st
  · obtain ⟨st, hcmd⟩ := hexec
    obtain ⟨hran, hok⟩ := ran_of_execute hs h hx hcmd
    have hstore : (w (n + 1)).store = (st.exec (w n).store).2 :=
      hran.store (S := otpService o yields) rfl w₀
    have hres : ev.res.isOk = true :=
      h.errors _ (List.mem_of_getElem? hx) (by rw [hcmd]; rfl)
    obtain ⟨hcreates, hcounts⟩ := counts_of_execute hcmd hres p
    rw [hcreates, hcounts, hstore]
    exact family_exec hbefore (hstore ▸ hafter) hok fun c hc hparent =>
      expiry_le hs hempty h hbefore hc hparent
  · obtain ⟨hcreates, hcounts⟩ := counts_of_other hexec p
    have hstore : (w (n + 1)).store = (w n).store := by
      rcases store_step (S := otpService o yields) rfl w₀ (nothingUndone_of_orderly hs h) n
        with hkeep | ⟨j, st, ⟨ev', hx', hcmd, -⟩, -⟩
      · exact hkeep
      · cases hx.symm.trans hx'
        exact absurd ⟨st, hcmd⟩ hexec
    have hrow : row' = row := by
      have hafter : (w (n + 1)).store.calls.find p = some row' := hafter
      rw [hstore] at hafter
      exact Option.some.inj (hafter.symm.trans hbefore)
    rw [hcreates, hcounts, hstore, hrow]
    exact ⟨rfl, rfl⟩

/-- A record that has just been inserted has no child, and no retry of it has been counted. -/
theorem family_new (hempty : w₀.store = .empty) (h : Orderly s.trace) {m i : ℕ} {ev : Ev}
    {new row : CallRecord} (hx : s.trace[m]? = some (i, ev))
    (hnote : familyNote ev = some (.inserted new))
    (hbefore :
      ((otpService o yields).worldAfter w₀ s.trace m).store.calls.find new.requestId = none)
    (hrow : ((otpService o yields).worldAfter w₀ s.trace (m + 1)).store.calls.find new.requestId =
      some row) :
    ((otpService o yields).worldAfter w₀ s.trace (m + 1)).store.calls.rows.countP
        (·.childOf new.requestId) =
        countNotes (·.createsChild new.requestId) (s.trace.take (m + 1)) ∧
      row.retryCount = countNotes (·.countsRetry new.requestId) (s.trace.take (m + 1)) := by
  -- the note of the insertion is the first note about the record
  have hnothing := fun (k j : ℕ) (ev' : Ev) (hk : k ≤ m) (hx' : s.trace[k]? = some (j, ev')) =>
    nothing_before hs hempty h hx hnote hk hx'
  rw [countNotes_eq_zero fun k j ev' hk hx' => (hnothing k j ev' hk hx').1,
    countNotes_eq_zero fun k j ev' hk hx' => (hnothing k j ev' hk hx').2, List.countP_eq_zero]
  constructor
  · -- a child in the table would have been inserted before its parent
    intro c hc hchild
    obtain ⟨k, l, evk, child, hkm, hk, hnotek, -, -, hparent, -⟩ :=
      origin hs hempty h (Table.find_mem hc)
    have hno := (hnothing k l evk (Nat.le_of_lt_succ hkm) hk).1
    rw [hnotek] at hno
    simp only [Option.map_some, Option.getD_some, FamilyNote.createsChild,
      CallRecord.childOf, ← hparent] at hno
    cases hno.symm.trans hchild
  · -- it is the inserted record itself
    obtain ⟨op, -, -, -, -, hcount, -, -⟩ := follows_at hs hx hnote
    have hnew : row = new := by
      rcases store_step (S := otpService o yields) rfl w₀ (nothingUndone_of_orderly hs h) m with
        hkeep | ⟨j', st, hran, hstore⟩
      · rw [hkeep, hbefore] at hrow
        cases hrow
      · rw [hstore] at hrow
        obtain rfl := find_exec_new hbefore hrow
        obtain ⟨ev', hx', hcmd, -⟩ := hran
        cases hx.symm.trans hx'
        cases (noted_insert h hx hcmd).symm.trans hnote
        rfl
    rw [hnew, hcount]

/-- The children of a record are those that have been created, and its count is the number of the
increments. The induction is on the commands of the run. -/
theorem family_counts (hempty : w₀.store = .empty) (h : Orderly s.trace) {n : ℕ} {p : String}
    {row : CallRecord}
    (hrow : ((otpService o yields).worldAfter w₀ s.trace n).store.calls.find p = some row) :
    ((otpService o yields).worldAfter w₀ s.trace n).store.calls.rows.countP (·.childOf p) =
        countNotes (·.createsChild p) (s.trace.take n) ∧
      row.retryCount = countNotes (·.countsRetry p) (s.trace.take n) := by
  induction n generalizing row with
  | zero =>
    replace hrow : w₀.store.calls.find p = some row := hrow
    rw [hempty] at hrow
    cases hrow
  | succ n ih =>
    cases hx : s.trace[n]? with
    | none =>
      rw [Service.worldAfter_succ_of_none _ _ hx] at hrow ⊢
      rw [List.take_add_one, hx, Option.toList_none, List.append_nil]
      exact ih hrow
    | some x =>
      obtain ⟨i, ev⟩ := x
      cases hbefore : ((otpService o yields).worldAfter w₀ s.trace n).store.calls.find p with
      | some row₁ =>
        obtain ⟨hchildren, hcount⟩ := ih hbefore
        obtain ⟨hchildren', hcount'⟩ := family_step hs hempty h hx hbefore hrow
        rw [List.take_add_one, hx, Option.toList_some, countNotes_concat, countNotes_concat,
          hchildren', hcount', hchildren, hcount]
        exact ⟨rfl, rfl⟩
      | none =>
        -- the record is new, and has been inserted by this command
        obtain ⟨m, j, evm, new, hmn, hm, hnote, rfl, -, -, hall⟩ := origin hs hempty h hrow
        obtain rfl : m = n := by
          by_contra hne
          have hthere := hall n (by omega) (Nat.le_succ n)
          rw [hbefore] at hthere
          cases hthere
        cases hx.symm.trans hm
        exact family_new hs hempty h hx hnote hbefore hrow

/-- A child stays as long as its parent does. -/
theorem child_stays (hempty : w₀.store = .empty) (h : Orderly s.trace) {n : ℕ} {p : String}
    {child : CallRecord}
    (hchild : child ∈ ((otpService o yields).worldAfter w₀ s.trace n).store.calls.rows)
    (hparent : child.childOf p = true) {m : ℕ} (hnm : n ≤ m) {row : CallRecord}
    (hrow : ((otpService o yields).worldAfter w₀ s.trace m).store.calls.find p = some row) :
    ∃ c, ((otpService o yields).worldAfter w₀ s.trace m).store.calls.find child.requestId = some c ∧
      c.childOf p = true := by
  induction m, hnm using Nat.le_induction generalizing row with
  | base => exact ⟨child, Table.find_mem hchild, hparent⟩
  | succ m hnm ih =>
    obtain ⟨row₁, hrow₁⟩ : ∃ row₁, ((otpService o yields).worldAfter w₀ s.trace m).store.calls.find
        p = some row₁ := by
      -- the parent has been inserted before the child
      obtain ⟨a, i, eva, new, han, ha, hnote, -, -, hnew, -⟩ :=
        origin hs hempty h (Table.find_mem hchild)
      obtain ⟨b, j, evb, parent, hba, hb, hnoteb, hid, -⟩ := parent_before hs hempty h ha hnote
        (hnew.symm.trans (of_decide_eq_true hparent))
      obtain ⟨c, k, evc, row', -, hc, hnotec, hid', -, -, hall⟩ := origin hs hempty h hrow
      obtain rfl := insert_unique hs h.ids hb hc hnoteb hnotec (hid.trans hid'.symm)
      exact Option.isSome_iff_exists.1 (hall m (by omega) (Nat.le_succ m))
    obtain ⟨c, hc, hcparent⟩ := ih hrow₁
    rcases store_step (S := otpService o yields) rfl w₀ (nothingUndone_of_orderly hs h) m
      with hkeep | ⟨i, st, hran, hstore⟩
    · rw [hkeep]
      exact ⟨c, hc, hcparent⟩
    · rw [hstore] at hrow ⊢
      cases hafter : (st.exec ((otpService o yields).worldAfter w₀ s.trace m).store).2.calls.find
          child.requestId with
      | some c' =>
        refine ⟨c', rfl, ?_⟩
        simp only [CallRecord.childOf] at hcparent ⊢
        rw [find_exec_kept CallRecord.assign_parentRequestId (fun _ _ => rfl) hc hafter]
        exact hcparent
      | none =>
        -- the cleanup that drops the child drops the parent, too
        obtain ⟨now, rfl, hlt⟩ := find_exec_gone hc hafter
        have hle := expiry_le hs hempty h hrow₁ (Table.find_eq_some_iff.1 hc).1 hcparent
        cases (find_deleteExpired hrow₁ (hle.trans_lt hlt)).symm.trans hrow

end Runs

/-- Under every interleaving without database errors, with a clock that does not go back and ids
that are not drawn twice: the children of a record are its `retry_count` and the retries that have
inserted their record and have not run the increment yet. A child that has been there is still there
as long as its parent is. -/
theorem children_counted (o : CallOriginator) (yields : Cmd → Bool) (w₀ : World)
    (acts : List Turn) (hempty : w₀.store = .empty) :
    let s := (otpService o yields).run (Config.initial w₀) acts
    Orderly s.trace → ∀ row ∈ s.world.store.calls.rows,
      s.world.store.calls.rows.countP (·.childOf row.requestId) =
          row.retryCount + pendingRetries s row.requestId ∧
        ∀ n, ∀ child ∈ ((otpService o yields).worldAfter w₀ s.trace n).store.calls.rows,
          child.childOf row.requestId = true →
            (s.world.store.calls.find child.requestId).isSome = true := by
  intro s h row hrow
  have hs : s = (otpService o yields).run (Config.initial w₀) acts := rfl
  have hend : (otpService o yields).worldAfter w₀ s.trace s.trace.length = s.world :=
    Service.worldAfter_length _ _ _
  have hfind : ((otpService o yields).worldAfter w₀ s.trace s.trace.length).store.calls.find
      row.requestId = some row := by
    rw [hend]
    exact Table.find_mem hrow
  constructor
  · obtain ⟨hchildren, hcount⟩ := family_counts hs hempty h hfind
    rw [hend, List.take_length] at hchildren
    rw [List.take_length] at hcount
    have hown : ∀ x ∈ s.trace, x.1 < s.threads.length := (otpService o yields).run_owners w₀ acts
    rw [hchildren, hcount, countNotes_eq_sum hown, countNotes_eq_sum hown, pendingRetries,
      Finset.card_filter, ← Finset.sum_add_distrib]
    apply Finset.sum_congr rfl
    intro i hi
    obtain ⟨⟨op, prog⟩, ht⟩ : ∃ t, s.threads[i]? = some t :=
      ⟨_, List.getElem?_eq_getElem (Finset.mem_range.1 hi)⟩
    have hop : s.opOf i = some op := Config.opOf_eq_some_iff.2 ⟨prog, ht⟩
    have hjustified : Service.Justified op.Follows ((ownEvents i s.trace).filterMap familyNote) :=
      Service.run_noting_prefix family_notes w₀ acts (fun op => .nil _) hop (List.append_nil _).symm
    rw [created_eq_counted hjustified]
    simp [pendingRetry, hop]
  · intro n child hchild hparent
    have hlast : ∀ m, s.trace.length ≤ m →
        (otpService o yields).worldAfter w₀ s.trace m = s.world := by
      intro m hm
      rw [← hend, Service.worldAfter, Service.worldAfter, List.take_of_length_le hm,
        List.take_length]
    obtain ⟨c, hc, -⟩ := child_stays hs hempty h hchild hparent (Nat.le_max_left n s.trace.length)
      (by rw [hlast _ (Nat.le_max_right _ _)]; exact Table.find_mem hrow)
    rw [hlast _ (Nat.le_max_right _ _)] at hc
    rw [hc]
    rfl

/-- The third id that the concrete runs draw. -/
def thirdId : Uuid4 := ⟨"2f2e2d2c-2b2a-4928-a726-252423222120", by decide⟩

/-- A call that fails because the AMI connection is down, and two retries of it. Both retries have
inserted their records, and the first one has run the increment. -/
def twoRetriesRun : List Turn :=
  oneCallRun ++ (List.replicate 12 (.turn 1 (.disconnected 7 firstId))) ++
    [.arrive (.retry firstId.text plainRetry), .arrive (.retry firstId.text plainRetry)] ++
    ([8, 9, 10, 11] : List ℕ).flatMap (fun now =>
      [.turn 2 (.calm now secondId []), .turn 3 (.calm now thirdId [])]) ++
    ([12, 13, 14, 15] : List ℕ).map fun now => .turn 2 (.calm now secondId [])

theorem children_counted_twoRetries :
    let s := (interleaved sampleOriginator).run (Config.initial sampleWorld) twoRetriesRun
    ∃ row ∈ s.world.store.calls.rows, row.requestId = firstId.text ∧ row.retryCount = 1 ∧
      pendingRetries s firstId.text = 1 ∧
      s.world.store.calls.rows.countP (·.childOf firstId.text) = 2 := by
  intro s
  have hfind : (s.world.store.calls.find firstId.text).map CallRecord.retryCount = some 1 := by
    decide +kernel
  obtain ⟨row, hrow, hcount⟩ := Option.map_eq_some_iff.1 hfind
  obtain ⟨hmem, hid⟩ := Table.find_eq_some_iff.1 hrow
  have hpending : pendingRetries s firstId.text = 1 := by decide +kernel
  have h := (children_counted sampleOriginator Cmd.awaited sampleWorld twoRetriesRun rfl
    ⟨by decide +kernel, by decide +kernel, by decide +kernel⟩ row hmem).1
  -- the second retry is still to be counted
  rw [hid, hcount] at h
  refine ⟨row, hmem, hid, hcount, hpending, ?_⟩
  exact h.trans (congrArg (1 + ·) hpending)

end OtpVoice
