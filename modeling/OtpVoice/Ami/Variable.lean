import OtpVoice.Ami.Submission
import OtpVoice.Api.Admission
import OtpVoice.Library.Assignments

/-!
# The channel variables of a call

The Originate action passes the code, the repeat count and the request id to the dialplan in its
header `Variable`, as a list of assignments. `exactHeader_iff` says when this list is read back as
the three assignments that were meant, and `variable_header_exact` follows a request from its
endpoint to the submitted action. Digits and request ids contain no separator, so everything turns
on the code: `POST /otp/call` validates it, the retry endpoint does not.
-/

set_option autoImplicit false

namespace OtpVoice

open Coroutine

/-- A header `Variable`, cut at every comma and each piece at its first `=`. -/
def assignments (header : String) : List (String × String) :=
  (Assignments.decode ',' '=' header.toList).map fun x => (String.ofList x.1, String.ofList x.2)

/-- The header assigns the stored code, a repeat count and the request id of a record, and nothing
else. -/
def ExactHeader (header : String) (row : CallRecord) : Prop :=
  ∃ n : ℤ, assignments header = [("OTP_CODE", row.code), ("OTP_REPEAT", toString n),
      ("OTP_REQUEST_ID", row.requestId)] ∧
    isCode row.code = true ∧ 1 ≤ n ∧ n ≤ 3 ∧ isUuid4 row.requestId = true

/-! ## Texts without separators -/

theorem isDecimal_ne {c d : Char} (hc : isDecimal c = true) (hd : isDecimal d = false) : c ≠ d := by
  rintro rfl
  simp [hc] at hd

theorem isCode_all {s : String} (h : isCode s = true) : ∀ c ∈ s.toList, isDecimal c = true := by
  simp only [isCode, Bool.and_eq_true, List.all_eq_true] at h
  exact h.2

theorem isCode_notMem {s : String} (h : isCode s = true) {d : Char} (hd : isDecimal d = false) :
    d ∉ s.toList :=
  fun hmem => isDecimal_ne (isCode_all h d hmem) hd rfl

theorem sanitizeAmiValue_of_isCode {s : String} (h : isCode s = true) : sanitizeAmiValue s = s := by
  have hall : ∀ c ∈ s.toList, (!amiDangerous c) = true := by
    intro c hc
    have hdec := isCode_all h c hc
    simp [amiDangerous, isDecimal_ne hdec (d := '\r') (by decide),
      isDecimal_ne hdec (d := '\n') (by decide), isDecimal_ne hdec (d := '\x00') (by decide)]
  rw [sanitizeAmiValue, List.filter_eq_self.2 hall, String.ofList_toList]

theorem isUuid4_notMem_comma {s : String} (h : isUuid4 s = true) : ',' ∉ s.toList := by
  simp only [isUuid4, Bool.and_eq_true, List.all_eq_true] at h
  -- each place of a UUID holds a dash, a fixed digit or a hexadecimal digit
  intro hmem
  obtain ⟨i, hi, hc⟩ := List.mem_iff_getElem.1 hmem
  have hat := h.2 (',', i) (List.mem_zipIdx_iff_getElem?.2 (by simp [hi, hc]))
  split at hat
  · simp at hat
  · split at hat
    · simp at hat
    · split at hat <;> simp at hat

/-! ## Reading the header back -/

theorem clampRepeat_of_le {n : ℤ} (h : 1 ≤ n ∧ n ≤ 3) : CallOriginator.clampRepeat n = n := by
  unfold CallOriginator.clampRepeat
  omega

theorem comma_notMem_repeat {n : ℤ} (h : 1 ≤ n ∧ n ≤ 3) : ',' ∉ (toString n).toList := by
  have hn : n = 1 ∨ n = 2 ∨ n = 3 := by omega
  rcases hn with rfl | rfl | rfl <;> decide

/-- The header of `originate` is the encoding of its three assignments. -/
theorem toList_variableHeader (code : String) (n : ℤ) (requestId : String) :
    (CallOriginator.variableHeader code n requestId).toList =
      Assignments.encode ',' '=' [("OTP_CODE".toList, code.toList),
        ("OTP_REPEAT".toList, (toString n).toList),
        ("OTP_REQUEST_ID".toList, requestId.toList)] := by
  simp [CallOriginator.variableHeader, Assignments.encode, Assignments.piece, List.intercalate]

theorem assignments_variableHeader {code : String} {n : ℤ} {requestId : String}
    (hcode : ',' ∉ code.toList) (hn : 1 ≤ n ∧ n ≤ 3) (hid : ',' ∉ requestId.toList) :
    assignments (CallOriginator.variableHeader code n requestId) =
      [("OTP_CODE", code), ("OTP_REPEAT", toString n), ("OTP_REQUEST_ID", requestId)] := by
  rw [assignments, toList_variableHeader, Assignments.decode_encode (by decide) (by simp)]
  · simp
  · have hkeys : ∀ key ∈ ["OTP_CODE".toList, "OTP_REPEAT".toList, "OTP_REQUEST_ID".toList],
        ',' ∉ key ∧ '=' ∉ key := by decide
    simp only [List.mem_cons, List.not_mem_nil, or_false, forall_eq_or_imp, forall_eq] at hkeys ⊢
    obtain ⟨h₁, h₂, h₃⟩ := hkeys
    exact ⟨⟨h₁.1, h₁.2, hcode⟩, ⟨h₂.1, h₂.2, comma_notMem_repeat hn⟩, ⟨h₃.1, h₃.2, hid⟩⟩

/-- The header of a call is exact if and only if its code consists of 4 to 8 digits. -/
theorem exactHeader_iff {row : CallRecord} {n : ℤ} (hn : 1 ≤ n ∧ n ≤ 3)
    (hid : isUuid4 row.requestId = true) :
    ExactHeader (CallOriginator.variableHeader (sanitizeAmiValue row.code)
      (CallOriginator.clampRepeat n) row.requestId) row ↔ isCode row.code = true := by
  refine ⟨fun ⟨_, _, hcode, _⟩ => hcode, fun hcode => ⟨n, ?_, hcode, hn.1, hn.2, hid⟩⟩
  rw [sanitizeAmiValue_of_isCode hcode, clampRepeat_of_le hn]
  exact assignments_variableHeader (isCode_notMem hcode (by decide)) hn (isUuid4_notMem_comma hid)

/-! ## From the endpoint to the action -/

/-- The code that a request chooses: its own, or for a retry without one that of the parent record,
which is the first record that it reads. -/
def Input.Chooses (x : Input) (notes : List RequestNote) (code : String) : Prop :=
  match x with
  | .otpCall request => code = request.code
  | .retry _ body =>
    ∃ parent, notes.head? = some (.read (some parent)) ∧ code = body.chosenCode parent
  | _ => False

/-- For every accepted request: it has created one record and scheduled one task for it, and the
header `Variable` of every action that this task submits assigns exactly the stored code, the repeat
count and the request id if and only if the chosen code consists of 4 to 8 digits. For
`POST /otp/call` it does. -/
theorem variable_header_exact (o : CallOriginator) (yields : Cmd → Bool) (w₀ : World)
    (acts : List Turn) {i : ℕ} {x : Input} {response : OTPCallResponse} {tasks : List CallTask}
    (hi : ((otpService o yields).run (Config.initial w₀) acts).outcome i =
      some (.input x, .ok (.accepted response tasks))) :
    let s := (otpService o yields).run (Config.initial w₀) acts
    let notes := (ownEvents i s.trace).filterMap requestNote
    ∃ row n code, .created row ∈ notes ∧ tasks = [row.task n] ∧ row.code = code ∧
      x.Chooses notes code ∧ (∀ request, x = .otpCall request → isCode code = true) ∧
      ∀ j ev a, s.opOf j = some (.execute (row.task n)) → (j, ev) ∈ s.trace →
        ev.cmd = .submitAction a →
          ∃ header, a.lookup "Variable" = some header ∧
            (ExactHeader header row ↔ isCode code = true) := by
  intro s notes
  have haccepts := Service.run_noting_ended admission_notes w₀ acts hi
  have hsubmit : ∀ (row : CallRecord) (n : ℤ), (1 ≤ n ∧ n ≤ 3) → isUuid4 row.requestId = true →
      ∀ j ev a, s.opOf j = some (.execute (row.task n)) → (j, ev) ∈ s.trace →
        ev.cmd = .submitAction a →
          ∃ header, a.lookup "Variable" = some header ∧
            (ExactHeader header row ↔ isCode row.code = true) := by
    intro row n hn hid j ev a hj hev hcmd
    obtain ⟨op, hop, hsub⟩ := (otpService o yields).run_uses (Op.uses_submits o) w₀ acts hev
    cases hj.symm.trans hop
    rw [hcmd] at hsub
    cases hsub
    exact ⟨_, rfl, exactHeader_iff hn hid⟩
  -- the validated code of the request, or the unchecked code of the retry
  cases x with
  | otpCall request =>
    obtain ⟨t, t', row, hnotes, hid, hcode, rfl⟩ := haccepts
    have hnotes : notes = _ := hnotes
    refine ⟨row, request.repeatCount, request.code, by simp [hnotes], rfl, hcode, rfl, ?_, ?_⟩
    · exact fun _ _ => request.isCode_code
    · rw [← hcode]
      exact hsubmit row _ request.repeat_ok hid
  | retry requestId body =>
    obtain ⟨parent, t, t', row, record, hnotes, hid, hcode, rfl⟩ := haccepts
    have hnotes : notes = _ := hnotes
    refine ⟨row, body.repeatCount.getD 2, body.chosenCode parent, by simp [hnotes], rfl, hcode,
      ⟨parent, by simp [hnotes], rfl⟩, (fun _ h => by cases h), ?_⟩
    rw [← hcode]
    refine hsubmit row _ ?_ hid
    cases hrepeat : body.repeatCount with
    | none => decide
    | some n => exact body.repeat_ok n hrepeat
  | _ => exact haccepts.elim

/-- The retry of a call that failed because the AMI connection was down, with a code that carries an
assignment of its own. -/
def injectingBody : RetryRequest := ⟨some "1234,OTP_REPEAT=9", none, repeat_absent⟩

/-- A call that fails, and its retry with a code that holds a comma. -/
def injectionRun : List Turn :=
  [.arrive (.otpCall sampleRequest), .turn 0 (.calm 0 firstId []),
    .turn 1 (.disconnected 1 firstId),
    .arrive (.retry firstId.text injectingBody), .turn 2 (.calm 2 secondId []),
    .turn 3 (.calm 3 secondId [success])]

theorem variable_header_exact_retry :
    let s := (sequential sampleOriginator).run (Config.initial sampleWorld) injectionRun
    ∃ (row : CallRecord) (n : ℤ), row.code = "1234,OTP_REPEAT=9" ∧
      ∀ j ev a, s.opOf j = some (.execute (row.task n)) → (j, ev) ∈ s.trace →
        ev.cmd = .submitAction a → ∃ header, a.lookup "Variable" = some header ∧
          (ExactHeader header row ↔ isCode "1234,OTP_REPEAT=9" = true) := by
  intro s
  have hi : s.outcome 2 = some (.input (.retry firstId.text injectingBody),
      .ok (.accepted ⟨secondId.text, .queued, 5⟩
        [⟨secondId.text, "09120000000", "1234,OTP_REPEAT=9", 2⟩])) := by decide +kernel
  obtain ⟨row, n, code, -, htask, hcode, -, -, hheader⟩ :=
    variable_header_exact sampleOriginator Cmd.waitsForAsterisk sampleWorld injectionRun hi
  obtain rfl : code = "1234,OTP_REPEAT=9" := by
    rw [← hcode]
    exact (congrArg CallTask.code (List.singleton_inj.1 htask)).symm
  exact ⟨row, n, hcode, hheader⟩

/-- The retry is accepted, and its action sets `OTP_REPEAT` twice, first to a value of the
client. -/
theorem retry_adds_variable :
    let s := (sequential sampleOriginator).run (Config.initial sampleWorld) injectionRun
    s.outcome 2 = some (.input (.retry firstId.text injectingBody),
        .ok (.accepted ⟨secondId.text, .queued, 5⟩
          [⟨secondId.text, "09120000000", "1234,OTP_REPEAT=9", 2⟩])) ∧
      (s.world.sent.map fun a => (a.lookup "Variable").map assignments) =
        [some [("OTP_CODE", "1234"), ("OTP_REPEAT", "9"), ("OTP_REPEAT", "2"),
          ("OTP_REQUEST_ID", secondId.text)]] ∧
      ∀ a ∈ s.world.sent, ∀ header row, a.lookup "Variable" = some header →
        ¬ ExactHeader header row := by
  intro s
  have hsent : (s.world.sent.map fun a => (a.lookup "Variable").map assignments) =
      [some [("OTP_CODE", "1234"), ("OTP_REPEAT", "9"), ("OTP_REPEAT", "2"),
        ("OTP_REQUEST_ID", secondId.text)]] := by decide +kernel
  refine ⟨by decide +kernel, hsent, ?_⟩
  rintro a ha header row hheader ⟨n, hexact, -⟩
  have hmem := List.mem_map_of_mem (f := fun a : Action => (a.lookup "Variable").map assignments) ha
  rw [hsent, List.mem_singleton, hheader, Option.map_some, hexact] at hmem
  simp at hmem

end OtpVoice
