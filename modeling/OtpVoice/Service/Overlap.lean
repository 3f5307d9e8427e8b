import OtpVoice.Service.Footprint
import OtpVoice.Service.Statements

/-!
# Overlapping coroutines on the database connection

`overlapping` runs any number of coroutines of one family; the event loop switches at every await.
`RowNote` lists what a coroutine has read of the records and written to them: `UpdateNotes` are the
notes of a finished `update_call_status`, whose `SELECT` and `UPDATE` are two awaits apart.
-/

set_option autoImplicit false

namespace OtpVoice

open Coroutine

variable {Op Out : Type}

/-- Any number of coroutines of one family. The end of a coroutine starts no other. -/
def overlapping (body : Op → Prog Out) : Service Cmd Cmd.Resp Exc Env World Op Op Out where
  respond := World.respond
  yields := Cmd.awaited
  entry := id
  body := body
  spawns _ := []

/-- What a statement other than an insertion and the count of a retry does to a record. -/
theorem find_exec_running {st : Store} {s : Stmt} (hkind : s.kind ∉ [Kind.insertCall, .countRetry])
    (requestId : String) :
    (s.exec st).2.calls.find requestId = st.calls.find requestId ∨
      (∃ fields values, s = .updateCall fields values requestId ∧
        (s.exec st).2.calls.find requestId =
          (st.calls.find requestId).map (updateRow fields values)) ∨
      ∃ now row, s = .deleteExpired now ∧ st.calls.find requestId = some row ∧
        expired now row = true ∧ (s.exec st).2.calls.find requestId = none := by
  cases s with
  | insertCall row => exact absurd (by simp [Stmt.kind]) hkind
  | incrementRetry now key => exact absurd (by simp [Stmt.kind]) hkind
  | updateCall fields values key =>
    simp only [Stmt.exec, Table.find_modify]
    split
    · rename_i hkey
      subst hkey
      exact .inr (.inl ⟨fields, values, rfl, rfl⟩)
    · exact .inl rfl
  | deleteExpired now =>
    simp only [Stmt.exec, Table.find_delete]
    cases hrow : st.calls.find requestId with
    | none => exact .inl rfl
    | some row =>
      cases hexpired : expired now row with
      | false => exact .inl (by simp [hexpired])
      | true => exact .inr (.inr ⟨now, row, rfl, rfl, hexpired, by simp [hexpired]⟩)
  | _ => exact .inl rfl

/-- The record of a request id after the first `n` commands of a trace. -/
def recordAt (body : Op → Prog Out) (w₀ : World) (tr : List (ℕ × Ev)) (n : ℕ)
    (requestId : String) : Option CallRecord :=
  ((overlapping body).worldAfter w₀ tr n).store.calls.find requestId

/-- An executed `UPDATE` of a record that is there. -/
theorem Ran.updates {body : Op → Prog Out} {w₀ : World} {tr : List (ℕ × Ev)} {n i : ℕ}
    {status : Status} {now : Time} {u : StatusFields} {requestId : String} {row : CallRecord}
    (h : Ran tr n i (.updateCall (updateFields u) (updateValues status now u) requestId))
    (hrow : recordAt body w₀ tr n requestId = some row) :
    recordAt body w₀ tr (n + 1) requestId = some (row.updated status now u) := by
  unfold recordAt at hrow ⊢
  rw [h.store (S := overlapping body) rfl w₀]
  simp only [Stmt.exec, Table.find_modify, if_true]
  rw [hrow, Option.map_some, updateRow_eq_updated]

/-- Where nothing rolls back and nothing inserts a record or counts a retry, a record changes only
by an `UPDATE` with its request id, and disappears only by the `DELETE` of expired records. -/
theorem recordAt_step {body : Op → Prog Out} {w₀ : World} {tr : List (ℕ × Ev)}
    (hkept : NothingUndone tr) (hkinds : ∀ x ∈ tr, x.2.cmd.kind ∉ [Kind.insertCall, .countRetry])
    (n : ℕ) (requestId : String) :
    recordAt body w₀ tr (n + 1) requestId = recordAt body w₀ tr n requestId ∨
      (∃ i fields values, Ran tr n i (.updateCall fields values requestId) ∧
        recordAt body w₀ tr (n + 1) requestId =
          (recordAt body w₀ tr n requestId).map (updateRow fields values)) ∨
      ∃ i now row, Ran tr n i (.deleteExpired now) ∧
        recordAt body w₀ tr n requestId = some row ∧ expired now row = true ∧
        recordAt body w₀ tr (n + 1) requestId = none := by
  rcases store_step (S := overlapping body) rfl w₀ hkept n with hkeep | ⟨i, s, hran, hstore⟩
  · exact .inl (congrArg (fun st : Store => st.calls.find requestId) hkeep)
  have hkind : s.kind ∉ [Kind.insertCall, .countRetry] := by
    obtain ⟨ev, hx, hcmd, -⟩ := hran
    have hmem := hkinds _ (List.mem_of_getElem? hx)
    rwa [hcmd] at hmem
  unfold recordAt
  rw [hstore]
  rcases find_exec_running hkind requestId with
    h | ⟨fields, values, rfl, h⟩ | ⟨now, row, rfl, hrow, hexpired, h⟩
  · exact .inl h
  · exact .inr (.inl ⟨i, fields, values, hran, h⟩)
  · exact .inr (.inr ⟨i, now, row, hran, hrow, hexpired, h⟩)

/-! ## What a coroutine knows of the records -/

/-- The answers of the two `SELECT`s of a record, and the executed `UPDATE`s. -/
inductive RowNote where
  | found (record : Option CallRecord)
  | read (requestId : String) (record : Option CallRecord)
  | wrote (fields : List Column) (values : List SqlValue) (requestId : String)

/-- The note of a command with its answer. -/
def RowNote.of : (c : Cmd) → Except Exc c.Resp → Option RowNote
  | .execute (.selectByChannel _), .ok record => some (.found record)
  | .execute (.selectCall requestId), .ok record => some (.read requestId record)
  | .execute (.updateCall fields values requestId), .ok _ => some (.wrote fields values requestId)
  | _, _ => none

/-- The note of an event. -/
def rowNote (ev : Ev) : Option RowNote := RowNote.of ev.cmd ev.res

/-- The notes of a finished `update_call_status` that has started with the notes `l`. -/
inductive UpdateNotes (requestId : String) (status : Status) (u : StatusFields)
    (l : List RowNote) : Bool → List RowNote → Prop
  | absent : UpdateNotes requestId status u l false (l ++ [.read requestId none])
  | refused {row : CallRecord} (h : row.status.goesBack status = true) :
    UpdateNotes requestId status u l false (l ++ [.read requestId (some row)])
  | written {row : CallRecord} {now : Time} (h : row.status.goesBack status = false) :
    UpdateNotes requestId status u l true (l ++ [.read requestId (some row)] ++
      [.wrote (updateFields u) (updateValues status now u) requestId])

section Noting

variable {α β : Type} {body : Op → Prog Out} {I : List RowNote → Prop}
variable {post : Except Exc α → List RowNote → Prop} {l : List RowNote}

theorem RowNote.of_eq_none {c : Cmd} (hc : c.kind ∉ [Kind.read, .updateCall])
    (r : Except Exc c.Resp) : RowNote.of c r = none := by
  unfold RowNote.of
  split <;> first
    | rfl
    | exact absurd (by simp [Cmd.kind, Stmt.kind]) hc

/-- A coroutine that neither reads nor updates records. -/
theorem noting_blind {ks : List Kind} {p : Prog α} (hp : Touches ks p)
    (hks : ks.all (fun k => k ∉ [Kind.read, .updateCall]) = true) (hl : I l) :
    (overlapping body).Noting rowNote I (fun _ l' => l' = l) p l :=
  Service.noting_of_uses hp (fun _ hc _ _ r => RowNote.of_eq_none
    (of_decide_eq_true (List.all_eq_true.1 hks _ hc)) r) hl

theorem noting_blind_bind {ks : List Kind} {p : Prog β} {g : β → Prog α} (hp : Touches ks p)
    (hks : ks.all (fun k => k ∉ [Kind.read, .updateCall]) = true) (hl : I l)
    (hok : ∀ a, (overlapping body).Noting rowNote I post (g a) l)
    (herror : ∀ x, post (.error x) l) : (overlapping body).Noting rowNote I post (p >>= g) l := by
  refine (noting_blind hp hks hl).bind ?_ ?_
  · rintro a _ rfl
    exact hok a
  · rintro x _ rfl
    exact herror x

/-- One command that makes at most one note, when it does not raise. -/
theorem noting_one {c : Cmd} {y : c.Resp → RowNote} (hy : ∀ a, RowNote.of c (.ok a) = some (y a))
    (hraise : ∀ x, RowNote.of c (.error x) = none) (hl : I l) (hI : ∀ a, I (l ++ [y a])) :
    (overlapping body).Noting rowNote I (fun r l' => ∀ a, r = .ok a → l' = l ++ [y a])
      (issue c) l := by
  apply Service.noting_perform
  intro e n w
  simp only [rowNote]
  cases ((overlapping body).respond e n w c).1 with
  | error x =>
    rw [hraise x, Option.toList_none, List.append_nil]
    exact ⟨hl, fun a h => by cases h⟩
  | ok a =>
    rw [hy a]
    exact ⟨hI a, fun b h => by cases h; rfl⟩

theorem noting_updateCallStatus (requestId : String) (status : Status) (u : StatusFields)
    (hl : I l) (hread : ∀ record, I (l ++ [.read requestId record]))
    (hwrite : ∀ (row : CallRecord) (now : Time), row.status.goesBack status = false →
      I (l ++ [.read requestId (some row)] ++
        [.wrote (updateFields u) (updateValues status now u) requestId])) :
    (overlapping body).Noting rowNote I
      (fun r l' => ∀ b, r = .ok b → UpdateNotes requestId status u l b l')
      (updateCallStatus requestId status u) l := by
  have hselect : (overlapping body).Noting rowNote I
      (fun r l' => ∀ record, r = .ok record → l' = l ++ [.read requestId record])
      (getCallRecord requestId) l :=
    noting_one (fun _ => rfl) (fun _ => rfl) hl hread
  refine hselect.bind (fun record l' hl' => ?_) fun x l' _ b h => by cases h
  obtain rfl := hl' record rfl
  cases record with
  | none => exact fun b h => by cases h; exact .absent
  | some row =>
    dsimp only
    split
    · rename_i hguard
      exact fun b h => by cases h; exact .refused hguard
    · rename_i hguard
      rw [Bool.not_eq_true] at hguard
      -- from here on the row that was read decides, whatever the table holds by now
      refine noting_blind_bind touches_time (by decide) (hread _) (fun now => ?_)
        fun x b h => by cases h
      have hupdate : (overlapping body).Noting rowNote I
          (fun r l' => ∀ k, r = .ok k → l' = l ++ [.read requestId (some row)] ++
            [.wrote (updateFields u) (updateValues status now u) requestId])
          (execute (.updateCall (updateFields u) (updateValues status now u) requestId))
          (l ++ [.read requestId (some row)]) :=
        noting_one (fun _ => rfl) (fun _ => rfl) (hread _) fun _ => hwrite row now hguard
      refine hupdate.bind (fun k l' hl' => ?_) fun x l' _ b h => by cases h
      obtain rfl := hl' k rfl
      refine noting_blind_bind touches_commit (by decide) (hwrite row now hguard) (fun _ => ?_)
        fun x b h => by cases h
      exact fun b h => by cases h; exact .written hguard

end Noting

section Runs

variable {body : Op → Prog Out} {w₀ : World} {acts : List (Act Env Op)} {n i : ℕ}

theorem rowNote_of_ran {fields : List Column} {values : List SqlValue} {requestId : String}
    (h : Ran ((overlapping body).run (Config.initial w₀) acts).trace n i
      (.updateCall fields values requestId)) :
    ∃ ev, ((overlapping body).run (Config.initial w₀) acts).trace[n]? = some (i, ev) ∧
      rowNote ev = some (.wrote fields values requestId) := by
  obtain ⟨⟨e, k, c, r⟩, hx, hcmd, hfault⟩ := h
  obtain rfl : c = .execute (.updateCall fields values requestId) := hcmd
  have hres := (overlapping body).trace_answers w₀ acts hx
  refine ⟨_, hx, ?_⟩
  -- a statement that ran without a fault has answered
  have hok : r = .ok _ := hres.trans (congrArg Prod.fst (World.respond_execute hfault _ _))
  rw [hok]
  rfl

/-- A statement that gave rows or a row count raised nothing. -/
theorem ran_of_ok {e : Env} {k : ℕ} {s : Stmt} {a : s.Result}
    (hx : ((overlapping body).run (Config.initial w₀) acts).trace[n]? =
      some (i, ⟨e, k, .execute s, .ok a⟩)) :
    Ran ((overlapping body).run (Config.initial w₀) acts).trace n i s ∧
      (s.exec ((overlapping body).worldAfter w₀
        ((overlapping body).run (Config.initial w₀) acts).trace n).store).1 = .ok a := by
  have hres := (overlapping body).trace_answers w₀ acts hx
  generalize (overlapping body).worldAfter w₀
    ((overlapping body).run (Config.initial w₀) acts).trace n = w at hres ⊢
  have hanswer : Except.ok a = (World.respond e k w (.execute s)).1 := hres
  cases hfault : e.fault k with
  | none =>
    refine ⟨⟨_, hx, rfl, hfault⟩, ?_⟩
    rw [World.respond_execute hfault] at hanswer
    simp only [World.answer] at hanswer
    split at hanswer
    · rename_i r st hexec
      cases hanswer
      rw [hexec]
    · cases hanswer
  | some text =>
    rw [World.respond_fault hfault] at hanswer
    cases hanswer

theorem ran_of_wrote {ev : Ev} {fields : List Column} {values : List SqlValue} {requestId : String}
    (hx : ((overlapping body).run (Config.initial w₀) acts).trace[n]? = some (i, ev))
    (hy : rowNote ev = some (.wrote fields values requestId)) :
    Ran ((overlapping body).run (Config.initial w₀) acts).trace n i
      (.updateCall fields values requestId) := by
  obtain ⟨e, k, c, r⟩ := ev
  simp only [rowNote, RowNote.of] at hy
  split at hy <;> cases hy
  exact (ran_of_ok hx).1

theorem ran_of_read {ev : Ev} {requestId : String} {record : Option CallRecord}
    (hx : ((overlapping body).run (Config.initial w₀) acts).trace[n]? = some (i, ev))
    (hy : rowNote ev = some (.read requestId record)) :
    Ran ((overlapping body).run (Config.initial w₀) acts).trace n i (.selectCall requestId) ∧
      record = recordAt body w₀ ((overlapping body).run (Config.initial w₀) acts).trace n
        requestId := by
  obtain ⟨e, k, c, r⟩ := ev
  simp only [rowNote, RowNote.of] at hy
  split at hy <;> cases hy
  obtain ⟨hran, hrows⟩ := ran_of_ok hx
  exact ⟨hran, (Except.ok.inj hrows).symm⟩

theorem ran_of_found {ev : Ev} {record : Option CallRecord}
    (hx : ((overlapping body).run (Config.initial w₀) acts).trace[n]? = some (i, ev))
    (hy : rowNote ev = some (.found record)) :
    ∃ channel, Ran ((overlapping body).run (Config.initial w₀) acts).trace n i
        (.selectByChannel channel) ∧
      record = newestOfChannel ((overlapping body).worldAfter w₀
        ((overlapping body).run (Config.initial w₀) acts).trace n).store.calls channel := by
  obtain ⟨e, k, c, r⟩ := ev
  simp only [rowNote, RowNote.of] at hy
  split at hy <;> cases hy
  obtain ⟨hran, hrows⟩ := ran_of_ok hx
  exact ⟨_, hran, (Except.ok.inj hrows).symm⟩

end Runs

end OtpVoice
