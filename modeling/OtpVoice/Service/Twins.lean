import OtpVoice.Ami.Variable
import OtpVoice.Coroutine.Relational
import OtpVoice.Storage.Rows

/-!
# Worlds that differ in their codes

Two codes are alike if they are equal, or both have 4 to 8 digits, the same length and the same
ends: `maskCode` shows the same of both. Records, tasks, requests and answers are alike if nothing
but their codes differs, and these are alike. Worlds are alike if their tables are, row by row, and
their limiters and log lines are equal; what has been sent to Asterisk may differ.

`respond_alike` is the step lemma: alike commands on alike worlds have alike answers and leave alike
worlds.
-/

set_option autoImplicit false

namespace OtpVoice

open Coroutine

/-! ## Codes -/

/-- Equal codes, or codes of 4 to 8 digits with the same length, first digit and last digit. -/
def CodesAlike (code code' : String) : Prop :=
  code = code' ∨ isCode code = true ∧ isCode code' = true ∧
    code.toList.length = code'.toList.length ∧ code.toList.head? = code'.toList.head? ∧
    code.toList.getLast? = code'.toList.getLast?

theorem CodesAlike.refl (code : String) : CodesAlike code code := .inl rfl

theorem CodesAlike.length {code code' : String} (h : CodesAlike code code') :
    code.toList.length = code'.toList.length := by
  rcases h with rfl | ⟨-, -, h, -⟩
  · rfl
  · exact h

theorem drop_length_pred {α : Type} (l : List α) : l.drop (l.length - 1) = l.getLast?.toList := by
  rcases List.eq_nil_or_concat l with rfl | ⟨l, a, rfl⟩
  · rfl
  · simp

/-- The mask shows the length and the two ends. -/
theorem CodesAlike.maskCode {code code' : String} (h : CodesAlike code code') :
    maskCode code = maskCode code' := by
  rcases h with rfl | ⟨-, -, hlength, hhead, hlast⟩
  · rfl
  · have hshown : ∀ s : String, OtpVoice.maskCode s =
        if s.toList.length ≤ 2 then String.ofList (List.replicate s.toList.length '*')
        else String.ofList (s.toList.head?.toList ++ List.replicate (s.toList.length - 2) '*' ++
          s.toList.getLast?.toList) := by
      intro s
      simp only [OtpVoice.maskCode, List.take_one, drop_length_pred]
    rw [hshown, hshown, hlength, hhead, hlast]

theorem CodesAlike.empty_iff {code code' : String} (h : CodesAlike code code') :
    code = "" ↔ code' = "" := by
  have hnil : ∀ s : String, s = "" ↔ s.toList.length = 0 := fun s => by simp
  rw [hnil code, hnil code', h.length]

/-- Sanitizing changes no digit. -/
theorem CodesAlike.sanitize {code code' : String} (h : CodesAlike code code') :
    CodesAlike (sanitizeAmiValue code) (sanitizeAmiValue code') := by
  rcases h with rfl | h
  · exact .refl _
  · rw [sanitizeAmiValue_of_isCode h.1, sanitizeAmiValue_of_isCode h.2.1]
    exact .inr h

/-! ## Records, requests and answers -/

/-- Records that differ at most in their codes. -/
inductive CallRecord.Alike : CallRecord → CallRecord → Prop
  | mk (row : CallRecord) {code : String} (h : CodesAlike row.code code) :
    Alike row { row with code := code }

theorem CallRecord.Alike.refl (row : CallRecord) : row.Alike row := .mk row (.refl row.code)

theorem CallRecord.Alike.kept {α : Type} {g : CallRecord → α} {row row' : CallRecord}
    (h : row.Alike row') (hg : ∀ code, g { row with code := code } = g row) : g row = g row' := by
  cases h
  exact (hg _).symm

/-- Tasks that differ in alike codes only. -/
inductive CallTask.Alike : CallTask → CallTask → Prop
  | mk (task : CallTask) {code : String} (h : CodesAlike task.code code) :
    Alike task { task with code := code }

/-- Requests for the same number with alike codes. -/
structure OTPCallRequest.Alike (request request' : OTPCallRequest) : Prop where
  mobile : request.mobile = request'.mobile
  repeatCount : request.repeatCount = request'.repeatCount
  code : CodesAlike request.code request'.code

/-- Bodies with alike codes, or both without a code. -/
structure RetryRequest.Alike (body body' : RetryRequest) : Prop where
  repeatCount : body.repeatCount = body'.repeatCount
  code : Option.Rel CodesAlike body.code body'.code

/-- Inputs that differ in alike codes only. -/
inductive Input.Alike : Input → Input → Prop
  | otpCall {request request' : OTPCallRequest} (h : request.Alike request') :
    Alike (.otpCall request) (.otpCall request')
  | retry (requestId : String) {body body' : RetryRequest} (h : body.Alike body') :
    Alike (.retry requestId body) (.retry requestId body')
  | same (x : Input) : Alike x x

/-- Operations that differ in alike codes only. -/
inductive Op.Alike : Op → Op → Prop
  | input {x x' : Input} (h : x.Alike x') : Alike (.input x) (.input x')
  | execute {task task' : CallTask} (h : task.Alike task') : Alike (.execute task) (.execute task')

/-- Answers with the same response, and alike tasks. -/
inductive Answer.Alike : Answer → Answer → Prop
  | accepted (response : OTPCallResponse) {tasks tasks' : List CallTask}
    (h : List.Forall₂ CallTask.Alike tasks tasks') :
    Alike (.accepted response tasks) (.accepted response tasks')
  | same (answer : Answer) (h : answer.tasks = []) : Alike answer answer

/-- The retries choose alike codes: both the code of the body, or both the stored one. -/
theorem RetryRequest.Alike.chosenCode {body body' : RetryRequest} (h : body.Alike body')
    {row row' : CallRecord} (hrow : row.Alike row') :
    CodesAlike (body.chosenCode row) (body'.chosenCode row') := by
  obtain ⟨hstored⟩ := hrow
  have hcode := h.code
  simp only [RetryRequest.chosenCode]
  generalize body.code = text, body'.code = text' at hcode
  cases hcode with
  | none => exact hstored
  | @some code code' hcodes =>
    by_cases hempty : code = ""
    · simp only [orText, if_pos hempty, if_pos (hcodes.empty_iff.1 hempty)]
      exact hstored
    · simp only [orText, if_neg hempty, if_neg fun h => hempty (hcodes.empty_iff.2 h)]
      exact hcodes

/-! ## Commands and worlds -/

/-- Commands that differ at most in the code that they store or dial. -/
inductive Cmd.Alike : Cmd → Cmd → Prop
  | same (c : Cmd) : Alike c c
  | insert {row row' : CallRecord} (h : row.Alike row') :
    Alike (.execute (.insertCall row)) (.execute (.insertCall row'))
  | submit (a a' : Action) : Alike (.submitAction a) (.submitAction a')

/-- Answers that differ at most in the code of the record read. -/
inductive AnswersAlike : (c c' : Cmd) → Except Exc c.Resp → Except Exc c'.Resp → Prop
  | same (c : Cmd) (r : Except Exc c.Resp) : AnswersAlike c c r r
  | inserted {row row' : CallRecord} (r : Except Exc ℕ) :
    AnswersAlike (.execute (.insertCall row)) (.execute (.insertCall row')) r r
  | submitted {a a' : Action} (r : Except Exc Unit) :
    AnswersAlike (.submitAction a) (.submitAction a') r r
  | record (key : String) {row row' : CallRecord} (h : row.Alike row') :
    AnswersAlike (.execute (.selectCall key)) (.execute (.selectCall key)) (.ok (some row))
      (.ok (some row'))
  | found (channel : String) {row row' : CallRecord} (h : row.Alike row') :
    AnswersAlike (.execute (.selectByChannel channel)) (.execute (.selectByChannel channel))
      (.ok (some row)) (.ok (some row'))

/-- Tables whose records differ in alike codes only. -/
structure Store.Alike (st st' : Store) : Prop where
  calls : st.calls.RowWise CallRecord.Alike st'.calls
  events : st.events = st'.events

/-- States whose records differ in alike codes only. -/
structure World.Alike (w w' : World) : Prop where
  store : w.store.Alike w'.store
  committed : w.committed.Alike w'.committed
  limiter : w.limiter = w'.limiter
  logged : w.logged = w'.logged

theorem World.Alike.refl (w : World) : w.Alike w :=
  ⟨⟨.refl .refl w.store.calls, rfl⟩, ⟨.refl .refl w.committed.calls, rfl⟩, rfl, rfl⟩

section Stores

theorem CallRecord.Alike.requestId (row row' : CallRecord) (h : row.Alike row') :
    row.requestId = row'.requestId := h.kept fun _ => rfl

theorem CallRecord.Alike.expired (now : Time) (row row' : CallRecord) (h : row.Alike row') :
    expired now row = expired now row' := h.kept fun _ => rfl

/-- An `UPDATE` neither reads nor writes the code. -/
theorem updateRow_code (fields : List Column) (values : List SqlValue) (row : CallRecord)
    (code : String) : updateRow fields values { row with code := code } =
      { updateRow fields values row with code := code } := by
  have hassign : ∀ (row : CallRecord) x, CallRecord.assign { row with code := code } x =
      { row.assign x with code := code } := by
    rintro row ⟨column, value⟩
    cases column <;> cases value <;> rfl
  unfold updateRow
  induction fields.zip values generalizing row with
  | nil => rfl
  | cons x xs ih => rw [List.foldl_cons, List.foldl_cons, hassign, ih]

theorem CallRecord.Alike.updateRow (fields : List Column) (values : List SqlValue)
    (row row' : CallRecord) (h : row.Alike row') :
    (updateRow fields values row).Alike (updateRow fields values row') := by
  cases h with
  | @mk code hcodes =>
    rw [updateRow_code fields values row code]
    apply CallRecord.Alike.mk
    rw [updateRow_kept CallRecord.assign_code]
    exact hcodes

theorem CallRecord.Alike.retried (now : Time) (row row' : CallRecord) (h : row.Alike row') :
    (row.retried now).Alike (row'.retried now) := by
  cases h with
  | mk hcodes => exact .mk (row.retried now) hcodes

variable {st st' : Store} (h : st.Alike st')

include h

theorem Store.Alike.find (requestId : String) :
    Option.Rel CallRecord.Alike (st.calls.find requestId) (st'.calls.find requestId) :=
  h.calls.find CallRecord.Alike.requestId requestId

theorem Store.Alike.isSome_find (requestId : String) :
    (st.calls.find requestId).isSome = (st'.calls.find requestId).isSome := by
  have hfind := h.find requestId
  generalize st.calls.find requestId = x, st'.calls.find requestId = x' at hfind
  cases hfind <;> rfl

theorem Store.Alike.matched (requestId : String) :
    matched st.calls requestId = matched st'.calls requestId := by
  simp only [OtpVoice.matched, h.isSome_find]

/-- An `INSERT` on both sides: the id is free on both, or on neither. -/
theorem Store.Alike.insert {row row' : CallRecord} (hrow : row.Alike row') :
    ∃ (r : Except String ℕ) (st₁ st₁' : Store), (Stmt.insertCall row).exec st = (r, st₁) ∧
      (Stmt.insertCall row').exec st' = (r, st₁') ∧ st₁.Alike st₁' := by
  have hinsert := h.calls.insert CallRecord.Alike.requestId hrow
  simp only [Stmt.exec]
  generalize st.calls.insert row = calls, st'.calls.insert row' = calls' at hinsert
  cases hinsert with
  | none => exact ⟨_, st, st', rfl, rfl, h⟩
  | some hcalls => exact ⟨_, _, _, rfl, rfl, hcalls, h.events⟩

/-- A statement that reads no record has the same result, and leaves alike tables. -/
theorem Store.Alike.exec (s : Stmt) (hs : ∀ key, s ≠ .selectCall key)
    (hs' : ∀ channel, s ≠ .selectByChannel channel) :
    (s.exec st).1 = (s.exec st').1 ∧ (s.exec st).2.Alike (s.exec st').2 := by
  have hdeleted : ∀ now, List.Forall₂ CallRecord.Alike (st.calls.rows.filter (expired now))
      (st'.calls.rows.filter (expired now)) := by
    intro now
    refine List.rel_filter (R := CallRecord.Alike) (fun row row' hrow => ?_) h.calls
    simp only [CallRecord.Alike.expired now row row' hrow]
  cases s with
  | insertCall row =>
    obtain ⟨r, st₁, st₁', hexec, hexec', hstore⟩ := h.insert (.refl row)
    rw [hexec, hexec']
    exact ⟨rfl, hstore⟩
  | updateCall fields values key =>
    refine ⟨congrArg Except.ok (h.matched key), ?_, h.events⟩
    exact h.calls.modify CallRecord.Alike.requestId key (updateRow_requestId fields values)
      (updateRow_requestId fields values) (CallRecord.Alike.updateRow fields values)
  | incrementRetry now key =>
    refine ⟨congrArg Except.ok (h.matched key), ?_, h.events⟩
    have hkeeps : ∀ row, (CallRecord.retried now row).requestId = row.requestId := fun _ => rfl
    exact h.calls.modify CallRecord.Alike.requestId key hkeeps hkeeps (CallRecord.Alike.retried now)
  | selectCall key => exact absurd rfl (hs key)
  | selectByChannel channel => exact absurd rfl (hs' channel)
  | insertEvent row => exact ⟨rfl, h.calls, by simp only [Stmt.exec, h.events]⟩
  | selectEvents key => exact ⟨by simp only [Stmt.exec, h.events], h⟩
  | deleteExpired now =>
    refine ⟨congrArg Except.ok (hdeleted now).length_eq, ?_, h.events⟩
    exact h.calls.delete (CallRecord.Alike.expired now)
  | deleteOrphanEvents =>
    have hfilter : (fun ev : EventRow => (st.calls.find ev.requestId).isSome) =
        fun ev => (st'.calls.find ev.requestId).isSome := funext fun ev => h.isSome_find _
    have hnone : (fun ev : EventRow => (st.calls.find ev.requestId).isNone) =
        fun ev => (st'.calls.find ev.requestId).isNone :=
      funext fun ev => by rw [← Option.not_isSome, h.isSome_find, Option.not_isSome]
    refine ⟨?_, h.calls, ?_⟩
    · simp only [Stmt.exec, h.events, hnone]
    · simp only [Stmt.exec, h.events, hfilter]

end Stores

/-- A statement on alike worlds. -/
theorem answer_execute_alike {w w' : World} (h : w.Alike w') (e : Env) (n : ℕ) (s : Stmt) :
    AnswersAlike (.execute s) (.execute s) (w.answer e n (.execute s)).1
        (w'.answer e n (.execute s)).1 ∧
      (w.answer e n (.execute s)).2.Alike (w'.answer e n (.execute s)).2 := by
  have hother : (∀ key, s ≠ .selectCall key) → (∀ channel, s ≠ .selectByChannel channel) →
      AnswersAlike (.execute s) (.execute s) (w.answer e n (.execute s)).1
          (w'.answer e n (.execute s)).1 ∧
        (w.answer e n (.execute s)).2.Alike (w'.answer e n (.execute s)).2 := by
    intro hs hs'
    obtain ⟨hresult, hstore⟩ := h.store.exec s hs hs'
    simp only [World.answer]
    generalize s.exec w.store = x, s.exec w'.store = x' at hresult hstore
    obtain ⟨r, st⟩ := x
    obtain ⟨r', st'⟩ := x'
    obtain rfl : r = r' := hresult
    cases r with
    | ok a => exact ⟨.same _ _, hstore, h.committed, h.limiter, h.logged⟩
    | error text => exact ⟨.same _ _, h⟩
  cases s with
  | selectCall key =>
    refine ⟨?_, h⟩
    have hfind := h.store.find key
    simp only [World.answer, Stmt.exec]
    generalize w.store.calls.find key = x, w'.store.calls.find key = x' at hfind
    cases hfind with
    | none => exact .same _ _
    | some hrow => exact .record key hrow
  | selectByChannel channel =>
    refine ⟨?_, h⟩
    have hfind := newestOfChannel_rel (fun _ _ hrow => hrow.kept fun _ => rfl)
      (fun _ _ hrow => hrow.kept fun _ => rfl) h.store.calls channel
    simp only [World.answer, Stmt.exec]
    generalize newestOfChannel w.store.calls channel = x,
      newestOfChannel w'.store.calls channel = x' at hfind
    cases hfind with
    | none => exact .same _ _
    | some hrow => exact .found channel hrow
  | _ => exact hother (fun _ h => by cases h) fun _ h => by cases h

/-- A command that touches no table, on alike worlds. -/
theorem answer_same_alike {w w' : World} (h : w.Alike w') (e : Env) (n : ℕ) {c : Cmd}
    (hc : ∀ s, c ≠ .execute s) : AnswersAlike c c (w.answer e n c).1 (w'.answer e n c).1 ∧
      (w.answer e n c).2.Alike (w'.answer e n c).2 := by
  obtain ⟨store, committed, limiter, sent, logged⟩ := w
  obtain ⟨store', committed', limiter', sent', logged'⟩ := w'
  obtain rfl : limiter = limiter' := h.limiter
  obtain rfl : logged = logged' := h.logged
  cases c with
  | execute s => exact absurd rfl (hc s)
  | checkNumberLimit mobile =>
    simp only [World.answer]
    split <;> exact ⟨.same _ _, h.store, h.committed, rfl, rfl⟩
  | getAmiClient =>
    simp only [World.answer]
    split <;> exact ⟨.same _ _, h.store, h.committed, rfl, rfl⟩
  | commit => exact ⟨.same _ _, h.store, h.store, rfl, rfl⟩
  | _ => exact ⟨.same _ _, h.store, h.committed, rfl, rfl⟩

/-- A statement that raises leaves alike worlds. -/
theorem World.Alike.undo {w w' : World} (h : w.Alike w') (e : Env) (n : ℕ) {s s' : Stmt}
    (hs : s.writes = s'.writes) : (w.undo e n s).Alike (w'.undo e n s') := by
  simp only [World.undo, hs]
  cases s'.writes && e.undoes n with
  | true => exact ⟨h.committed, h.committed, h.limiter, h.logged⟩
  | false => exact ⟨h.store, h.committed, h.limiter, h.logged⟩

/-- The step lemma: alike commands on alike worlds have alike answers and leave alike worlds. -/
theorem respond_alike {w w' : World} (h : w.Alike w') (e : Env) (n : ℕ) {c c' : Cmd}
    (hc : c.Alike c') : AnswersAlike c c' (World.respond e n w c).1 (World.respond e n w' c').1 ∧
      (World.respond e n w c).2.Alike (World.respond e n w' c').2 := by
  cases hc with
  | same =>
    have hanswer : AnswersAlike c c (w.answer e n c).1 (w'.answer e n c).1 ∧
        (w.answer e n c).2.Alike (w'.answer e n c).2 := by
      by_cases hexec : ∃ s, c = .execute s
      · obtain ⟨s, rfl⟩ := hexec
        exact answer_execute_alike h e n s
      · exact answer_same_alike h e n fun s hs => hexec ⟨s, hs⟩
    cases c with
    | execute s =>
      simp only [World.respond]
      split
      · exact ⟨.same _ _, h.undo e n rfl⟩
      · exact hanswer
    | commit =>
      simp only [World.respond]
      split
      · exact ⟨.same _ _, h.committed, h.committed, h.limiter, h.logged⟩
      · exact hanswer
    | _ => exact hanswer
  | @insert row row' hrow =>
    cases hfault : e.fault n with
    | some text =>
      rw [World.respond_fault hfault, World.respond_fault hfault]
      exact ⟨.inserted _, h.undo e n rfl⟩
    | none =>
      rw [World.respond_execute hfault, World.respond_execute hfault]
      obtain ⟨r, st, st', hexec, hexec', hstore⟩ := h.store.insert hrow
      simp only [World.answer, hexec, hexec']
      cases r with
      | ok k => exact ⟨.inserted _, hstore, h.committed, h.limiter, h.logged⟩
      | error text => exact ⟨.inserted _, h⟩
  | submit a a' =>
    rw [World.respond_of_not_mayRaise rfl, World.respond_of_not_mayRaise rfl]
    exact ⟨.submitted _, h.store, h.committed, h.limiter, h.logged⟩

end OtpVoice
