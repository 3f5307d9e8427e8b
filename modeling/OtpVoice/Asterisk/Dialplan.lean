import Mathlib
import OtpVoice.Ami.Originator
import OtpVoice.Library.WhileLines

/-!
# The dialplan of `asterisk/extensions_custom.conf`

The contexts `otp-playback` and `otp-playback-custom`, line by line, on a channel of Asterisk: its
variables and what has been heard and reported so far. `Text` is the language of the substitutions
in the arguments, `App` the applications; `While` and `EndWhile` are the loops of `Script`.

Both contexts follow the same `script`: the announcement of the call, `OTP_REPEAT` rounds with the
digits of the code, and the end of the call (`contexts_agree`). The custom context spells the code
digit by digit in a loop of its own (`ends_customRound`).

The lemmas of `Std` on the texts of integers come with `Mathlib` as a whole only.
-/

set_option autoImplicit false

namespace OtpVoice

open Script

/-! ## Variables and substitutions -/

/-- The channel variables of the contexts, and the functions `CALLERID(num)` and
`CHANNEL(language)`. -/
inductive Var where
  | otpRequestId | otpCode | otpRepeat | otpCounter | otpCodeCopy | otpLen | otpJ | otpDigit
  | channel | hangupCause | callerIdNum | channelLanguage
  deriving DecidableEq

/-- An argument: text, `${x}`, `${LEN(t)}`, `${x:offset:length}`, `$[a < b]`, `$[a + b]`, and one
after the other. -/
inductive Text where
  | lit (s : String)
  | var (x : Var)
  | len (t : Text)
  | substring (x : Var) (offset : Text) (length : ℤ)
  | less (a b : Text)
  | plus (a b : Text)
  | cat (a b : Text)

/-- `${x:offset:length}`: a negative offset counts from the end, and a negative length leaves
characters off at the end. -/
def substring (s : String) (offset length : ℤ) : String :=
  let chars := s.toList
  let start := if offset < 0 then max 0 (chars.length + offset) else offset
  let rest := chars.drop start.toNat
  if 0 ≤ length then String.ofList (rest.take length.toNat)
  else String.ofList (rest.take (rest.length + length).toNat)

/-- The number that a text stands for. -/
def number (s : String) : ℤ := s.toInt?.getD 0

/-- `$[a < b]` compares integers, and other texts by their characters. -/
def lessThan (a b : String) : Bool :=
  match a.toInt?, b.toInt? with
  | some i, some j => i < j
  | _, _ => a < b

/-- The value of a text with the variables of a channel. -/
def Text.eval (vars : Var → String) : Text → String
  | .lit s => s
  | .var x => vars x
  | .len t => toString (t.eval vars).toList.length
  | .substring x offset length => OtpVoice.substring (vars x) (number (offset.eval vars)) length
  | .less a b => if lessThan (a.eval vars) (b.eval vars) then "1" else "0"
  | .plus a b => toString (number (a.eval vars) + number (b.eval vars))
  | .cat a b => a.eval vars ++ b.eval vars

/-- A condition is true unless it is empty or zero. -/
def conditionTrue (s : String) : Bool := s ≠ "" && s.toInt? ≠ some 0

/-! ## Applications -/

/-- The applications of the dialplan, with their arguments. -/
inductive App where
  | noOp (t : Text)
  | answer
  | userEvent (name : String) (body : List (String × Text))
  | wait (seconds : ℕ)
  | set (x : Var) (value : Text)
  | playback (file : Text)
  | sayDigits (digits : Text)
  | hangup

/-- What the callee and the AMI clients observe. -/
inductive Observed where
  | answer
  | userEvent (name : String) (body : List (String × String))
  | wait (seconds : ℕ)
  | play (file : String)
  | say (digit : Char)
  | hangup
  deriving DecidableEq

/-- A channel in the dialplan. -/
structure PbxChannel where
  vars : Var → String
  observed : List Observed := []

/-- The sound of a file: the files `otp/digits/0` to `otp/digits/9` say a digit. -/
def soundOf (file : String) : Observed :=
  match "0123456789".toList.find? fun d => file = "otp/digits/" ++ String.singleton d with
  | some d => .say d
  | none => .play file

/-- What an application does that is observed. -/
def App.shows (vars : Var → String) : App → List Observed
  | .answer => [.answer]
  | .userEvent name body => [.userEvent name (body.map fun x => (x.1, x.2.eval vars))]
  | .wait seconds => [.wait seconds]
  | .playback file => [soundOf (file.eval vars)]
  -- one sound for each digit, in their order
  | .sayDigits digits => (digits.eval vars).toList.map .say
  | .hangup => [.hangup]
  | _ => []

/-- What an application does to the variables. -/
def App.sets (vars : Var → String) : App → Var → String
  | .set x value => Function.update vars x (value.eval vars)
  | _ => vars

/-- An application on a channel. -/
def App.exec (app : App) (ch : PbxChannel) : PbxChannel :=
  ⟨app.sets ch.vars, ch.observed ++ app.shows ch.vars⟩

/-- The test of a `While`. -/
def whileTest (condition : Text) (ch : PbxChannel) : Bool := conditionTrue (condition.eval ch.vars)

/-! ## The contexts -/

/-- The lines of the extensions `s` and `h`. -/
structure Context where
  s : List (Line App Text)
  h : List (Line App Text)

/-- The body `RequestID:${OTP_REQUEST_ID}` of a `UserEvent`. -/
def requestIdField : String × Text := ("RequestID", .var .otpRequestId)

/-- `[otp-playback]`. -/
def otpPlayback : Context where
  s := [
    .action (.noOp (.cat (.lit "OTP Call Start - mobile=") (.cat (.var .callerIdNum)
      (.cat (.lit " req=") (.var .otpRequestId))))),
    .action .answer,
    .action (.userEvent "OTPCallStart" [requestIdField, ("Channel", .var .channel)]),
    .action (.wait 1),
    .action (.set .channelLanguage (.lit "fa")),
    .action (.userEvent "OTPPlaybackStart" [requestIdField]),
    .action (.set .otpCounter (.lit "0")),
    .openLoop (.less (.var .otpCounter) (.var .otpRepeat)),
    .action (.playback (.lit "otp/otp-intro")),
    .action (.sayDigits (.var .otpCode)),
    .action (.wait 1),
    .action (.set .otpCounter (.plus (.var .otpCounter) (.lit "1"))),
    .closeLoop,
    .action (.playback (.lit "otp/otp-goodbye")),
    .action (.userEvent "OTPPlaybackComplete" [requestIdField]),
    .exit .hangup]
  h := [.action (.noOp (.cat (.lit "OTP Hangup: ") (.var .hangupCause)))]

/-- `[otp-playback-custom]`. -/
def otpPlaybackCustom : Context where
  s := [
    .action (.noOp (.cat (.lit "OTP Call Custom - mobile=") (.cat (.var .callerIdNum)
      (.cat (.lit " req=") (.var .otpRequestId))))),
    .action .answer,
    .action (.userEvent "OTPCallStart" [requestIdField, ("Channel", .var .channel)]),
    .action (.wait 1),
    .action (.userEvent "OTPPlaybackStart" [requestIdField]),
    .action (.set .otpCounter (.lit "0")),
    .openLoop (.less (.var .otpCounter) (.var .otpRepeat)),
    .action (.playback (.lit "otp/otp-intro")),
    .action (.set .otpCodeCopy (.var .otpCode)),
    .action (.set .otpLen (.len (.var .otpCodeCopy))),
    .action (.set .otpJ (.lit "0")),
    .openLoop (.less (.var .otpJ) (.var .otpLen)),
    .action (.set .otpDigit (.substring .otpCodeCopy (.var .otpJ) 1)),
    .action (.playback (.cat (.lit "otp/digits/") (.var .otpDigit))),
    .action (.set .otpJ (.plus (.var .otpJ) (.lit "1"))),
    .closeLoop,
    .action (.wait 1),
    .action (.set .otpCounter (.plus (.var .otpCounter) (.lit "1"))),
    .closeLoop,
    .action (.playback (.lit "otp/otp-goodbye")),
    .action (.userEvent "OTPPlaybackComplete" [requestIdField]),
    .exit .hangup]
  h := [.action (.noOp (.cat (.lit "OTP Custom Hangup: ") (.var .hangupCause)))]

/-- The contexts by their names. -/
def dialplan (context : String) : Option Context :=
  if context = "otp-playback" then some otpPlayback
  else if context = "otp-playback-custom" then some otpPlaybackCustom
  else none

/-- A call with the given variables runs through the extension `s`, hangs up, and runs through the
extension `h`; this is what is observed of it. -/
def Context.Plays (c : Context) (vars : Var → String) (observed : List Observed) : Prop :=
  ∃ ch ch', Halts App.exec whileTest c.s ⟨vars, []⟩ ch ∧ Halts App.exec whileTest c.h ch ch' ∧
    ch'.observed = observed

/-- A call is observed in one way only. -/
theorem Context.Plays.unique {c : Context} {vars : Var → String} {l l' : List Observed}
    (h : c.Plays vars l) (h' : c.Plays vars l') : l = l' := by
  obtain ⟨ch, end₁, hs, hh, rfl⟩ := h
  obtain ⟨ch', end₂, hs', hh', rfl⟩ := h'
  obtain rfl := hs.unique hs'
  rw [hh.unique hh']

/-! ## What the substitutions give -/

theorem toInt?_toString (n : ℕ) : (toString n).toInt? = some (n : ℤ) := Nat.toInt?_repr n

/-- The test of a counting loop. -/
theorem whileTest_less {ch : PbxChannel} {a b : Text} {i n : ℕ} (ha : a.eval ch.vars = toString i)
    (hb : b.eval ch.vars = toString n) : whileTest (.less a b) ch = decide (i < n) := by
  have hless : lessThan (toString i) (toString n) = decide (i < n) := by
    simp only [lessThan, toInt?_toString, Int.ofNat_lt]
  simp only [whileTest, Text.eval, ha, hb, hless]
  have hone : conditionTrue "1" = true := by
    simp [conditionTrue, show "1".toInt? = some 1 from toInt?_toString 1]
  have hzero : conditionTrue "0" = false := by
    simp [conditionTrue, show "0".toInt? = some 0 from toInt?_toString 0]
  by_cases h : i < n <;> simp [h, hone, hzero]

/-- The increment of a counter. -/
theorem eval_plus_one {vars : Var → String} {x : Var} {i : ℕ} (hx : vars x = toString i) :
    (Text.plus (.var x) (.lit "1")).eval vars = toString (i + 1) := by
  have hone : number "1" = 1 := by
    simp [number, show "1".toInt? = some 1 from toInt?_toString 1]
  have hsum : number (toString i) + 1 = ((i + 1 : ℕ) : ℤ) := by
    simp only [number, toInt?_toString, Option.getD_some, Nat.cast_add, Nat.cast_one]
  simp only [Text.eval, hx, hone, hsum]
  rfl

/-- One character of a text. -/
theorem eval_substring {vars : Var → String} {x y : Var} {j : ℕ} (hy : vars y = toString j)
    (hj : j < (vars x).toList.length) :
    (Text.substring x (.var y) 1).eval vars = String.singleton ((vars x).toList[j]) := by
  have hstart : number (toString j) = j := by
    simp only [number, toInt?_toString, Option.getD_some]
  have hneg : ¬ (j : ℤ) < 0 := by omega
  simp only [Text.eval, substring, hy, hstart, hneg, if_false, Int.toNat_natCast,
    Int.one_nonneg, if_true, Int.toNat_one]
  rw [List.drop_eq_getElem_cons hj, String.singleton_eq_ofList]
  rfl

/-- The files of the digits say the digits. -/
theorem soundOf_digit {d : Char} (hd : d.isDigit = true) :
    soundOf ("otp/digits/" ++ String.singleton d) = .say d := by
  obtain ⟨hlo, hhi⟩ := Char.isDigit_iff_toNat.1 hd
  have hcodes : "0123456789".toList.map Char.toNat = List.range' 48 10 := by decide
  have hcode : d.toNat ∈ "0123456789".toList.map Char.toNat := by
    rw [hcodes, List.mem_range'_1]
    simp only [Char.reduceToNat] at hlo hhi
    omega
  obtain ⟨c, hc, hcd⟩ := List.mem_map.1 hcode
  obtain rfl := Char.toNat_inj.1 hcd
  have hsame : (fun d : Char => decide ("otp/digits/" ++ String.singleton c =
      "otp/digits/" ++ String.singleton d)) = fun d => decide (c = d) := by
    funext d
    simp only [String.append_right_inj, String.singleton_inj]
  simp only [soundOf, hsame]
  cases hfind : "0123456789".toList.find? fun d => decide (c = d) with
  | none => exact absurd (decide_eq_true rfl) (List.find?_eq_none.1 hfind c hc)
  | some d =>
    obtain rfl : c = d := by simpa using List.find?_some hfind
    rfl

/-! ## The script of a call -/

/-- One round: the introduction, every digit of the code, and a pause. -/
def round (code : List Char) : List Observed :=
  .play "otp/otp-intro" :: (code.map .say ++ [.wait 1])

/-- What both contexts are for: the announcement of the call, the rounds, and the end. -/
def script (vars : Var → String) (n : ℕ) : List Observed :=
  [.answer, .userEvent "OTPCallStart" [("RequestID", vars .otpRequestId),
      ("Channel", vars .channel)], .wait 1,
    .userEvent "OTPPlaybackStart" [("RequestID", vars .otpRequestId)]] ++
  (List.replicate n (round (vars .otpCode).toList)).flatten ++
  [.play "otp/otp-goodbye", .userEvent "OTPPlaybackComplete" [("RequestID", vars .otpRequestId)]] ++
  [.hangup]

/-- The variables that a context is given and does not set. -/
structure Given (vars : Var → String) (ch : PbxChannel) : Prop where
  requestId : ch.vars .otpRequestId = vars .otpRequestId
  code : ch.vars .otpCode = vars .otpCode
  repeatCount : ch.vars .otpRepeat = vars .otpRepeat
  channel : ch.vars .channel = vars .channel

/-- The state after `i` rounds. -/
structure Played (vars : Var → String) (before : List Observed) (i : ℕ) (ch : PbxChannel) : Prop
    extends Given vars ch where
  counter : ch.vars .otpCounter = toString i
  observed : ch.observed = before ++ (List.replicate i (round (vars .otpCode).toList)).flatten

/-- The state after `j` digits of a round that has begun after the observations `start`. -/
structure Said (vars : Var → String) (start : List Observed) (i j : ℕ) (ch : PbxChannel) : Prop
    extends Given vars ch where
  counter : ch.vars .otpCounter = toString i
  copy : ch.vars .otpCodeCopy = vars .otpCode
  length : ch.vars .otpLen = toString (vars .otpCode).toList.length
  position : ch.vars .otpJ = toString j
  observed : ch.observed = start ++ ((vars .otpCode).toList.take j).map .say

/-! ## The rounds of the two contexts -/

/-- The body of the loop of `otp-playback`. -/
def playbackRound : Block App Text :=
  .act (.playback (.lit "otp/otp-intro")) <| .act (.sayDigits (.var .otpCode)) <|
  .act (.wait 1) <| .act (.set .otpCounter (.plus (.var .otpCounter) (.lit "1"))) .done

/-- The body of the inner loop of `otp-playback-custom`. -/
def customDigit : Block App Text :=
  .act (.set .otpDigit (.substring .otpCodeCopy (.var .otpJ) 1)) <|
  .act (.playback (.cat (.lit "otp/digits/") (.var .otpDigit))) <|
  .act (.set .otpJ (.plus (.var .otpJ) (.lit "1"))) .done

/-- The body of the outer loop of `otp-playback-custom`. -/
def customRound : Block App Text :=
  .act (.playback (.lit "otp/otp-intro")) <| .act (.set .otpCodeCopy (.var .otpCode)) <|
  .act (.set .otpLen (.len (.var .otpCodeCopy))) <| .act (.set .otpJ (.lit "0")) <|
  .loop (.less (.var .otpJ) (.var .otpLen)) customDigit <|
  .act (.wait 1) <| .act (.set .otpCounter (.plus (.var .otpCounter) (.lit "1"))) .done

/-- The loop of the rounds, and the end of the call but for the hangup. -/
def rounds (body : Block App Text) : Block App Text :=
  .act (.set .otpCounter (.lit "0")) <| .loop (.less (.var .otpCounter) (.var .otpRepeat)) body <|
  .act (.playback (.lit "otp/otp-goodbye")) <|
  .act (.userEvent "OTPPlaybackComplete" [requestIdField]) .done

section Rounds

variable {vars : Var → String} {before : List Observed} {i n : ℕ} {ch : PbxChannel}

theorem soundOf_intro : soundOf "otp/otp-intro" = .play "otp/otp-intro" := by decide

theorem soundOf_goodbye : soundOf "otp/otp-goodbye" = .play "otp/otp-goodbye" := by decide

theorem played_succ {code : List Char} : (List.replicate (i + 1) (round code)).flatten =
    (List.replicate i (round code)).flatten ++ round code := by
  rw [List.replicate_succ', List.flatten_append, List.flatten_singleton]

/-- Setting another variable keeps what the context is given. -/
theorem Given.set (h : Given vars ch) {x : Var} (hx : x ≠ .otpRequestId ∧ x ≠ .otpCode ∧
    x ≠ .otpRepeat ∧ x ≠ .channel) (value : String) (observed : List Observed) :
    Given vars ⟨Function.update ch.vars x value, observed⟩ where
  requestId := (Function.update_of_ne hx.1.symm _ _).trans h.requestId
  code := (Function.update_of_ne hx.2.1.symm _ _).trans h.code
  repeatCount := (Function.update_of_ne hx.2.2.1.symm _ _).trans h.repeatCount
  channel := (Function.update_of_ne hx.2.2.2.symm _ _).trans h.channel

/-- The end of a round: the counter goes up by one. -/
theorem played_next {ch' : PbxChannel} (h : Given vars ch')
    (hcounter : ch'.vars .otpCounter = toString i) (hobserved : ch'.observed =
      before ++ (List.replicate (i + 1) (round (vars .otpCode).toList)).flatten) :
    Played vars before (i + 1)
      (App.exec (.set .otpCounter (.plus (.var .otpCounter) (.lit "1"))) ch') where
  toGiven := h.set (by decide) _ _
  counter := by simp only [App.exec, App.sets, Function.update_self, eval_plus_one hcounter]
  observed := (List.append_nil _).trans hobserved

/-- `SayDigits` says the code. -/
theorem ends_playbackRound (h : Played vars before i ch) :
    Ends App.exec whileTest playbackRound (Played vars before (i + 1)) ch := by
  refine ends_act (ends_act (ends_act (ends_act (ends_done ?_))))
  refine played_next ⟨h.requestId, h.code, h.repeatCount, h.channel⟩ h.counter ?_
  rw [played_succ]
  simp only [App.exec, App.sets, App.shows, Text.eval, h.observed, h.code, soundOf_intro, round,
    List.append_assoc, List.cons_append, List.nil_append]

/-- One round of the inner loop says the digit at its position. -/
theorem ends_customDigit {start : List Observed} {j : ℕ}
    (hcode : ∀ d ∈ (vars .otpCode).toList, d.isDigit = true)
    (hj : j < (vars .otpCode).toList.length) (h : Said vars start i j ch) :
    Ends App.exec whileTest customDigit (Said vars start i (j + 1)) ch := by
  have hdigit : (Text.substring .otpCodeCopy (.var .otpJ) 1).eval ch.vars =
      String.singleton ((vars .otpCode).toList[j]) := by
    have hcopy : j < (ch.vars .otpCodeCopy).toList.length := by rwa [h.copy]
    rw [eval_substring h.position hcopy]
    simp only [h.copy]
  simp only [Text.eval] at hdigit
  refine ends_act (ends_act (ends_act (ends_done ?_)))
  refine ⟨(h.set (by decide) _ _).set (by decide) _ _, ?_, ?_, ?_, ?_, ?_⟩
  · exact h.counter
  · exact h.copy
  · exact h.length
  · simp only [App.exec, App.sets, Function.update_self]
    exact eval_plus_one h.position
  · -- the digit at the position is the next one of the code
    rw [List.take_succ_eq_append_getElem hj, List.map_append, ← List.append_assoc, ← h.observed]
    simp only [App.exec, App.sets, App.shows, hdigit, Text.eval, Function.update_self,
      soundOf_digit (hcode _ (List.getElem_mem hj)), List.append_nil, List.map_cons, List.map_nil]

/-- The inner loop spells the code. -/
theorem ends_customRound (hcode : ∀ d ∈ (vars .otpCode).toList, d.isDigit = true)
    (h : Played vars before i ch) :
    Ends App.exec whileTest customRound (Played vars before (i + 1)) ch := by
  refine ends_act (ends_act (ends_act (ends_act ?_)))
  have hstart : ch.observed =
      before ++ (List.replicate i (round (vars .otpCode).toList)).flatten := h.observed
  refine ends_loop (Said vars (ch.observed ++ [.play "otp/otp-intro"]) i)
    (n := (vars .otpCode).toList.length) ?_ ?_ ?_ (Nat.zero_le _) ?_
  · intro j ch hj
    exact whileTest_less hj.position hj.length
  · intro j ch hj hspelled
    exact ends_customDigit hcode hj hspelled
  · intro ch hspelled
    refine ends_act (ends_act (ends_done ?_))
    refine played_next ⟨hspelled.requestId, hspelled.code, hspelled.repeatCount, hspelled.channel⟩
      hspelled.counter ?_
    rw [played_succ]
    simp only [App.exec, App.sets, App.shows, hspelled.observed, hstart, List.take_length, round,
      List.append_assoc, List.cons_append, List.nil_append]
  · refine ⟨?_, ?_, ?_, ?_, ?_, ?_⟩
    · exact ((h.set (by decide) _ _).set (by decide) _ _).set (by decide) _ _
    · exact h.counter
    · exact h.code
    · simp [App.exec, App.sets, Text.eval, h.code]
    · rfl
    · simp only [App.exec, App.sets, App.shows, Text.eval, soundOf_intro, List.append_nil,
        List.take_zero, List.map_nil]

/-- `OTP_REPEAT` rounds and the end of the call, for any body that plays a round. -/
theorem ends_rounds {body : Block App Text} (hrepeat : vars .otpRepeat = toString n)
    (hbody : ∀ before i ch, Played vars before i ch →
      Ends App.exec whileTest body (Played vars before (i + 1)) ch)
    (h : Given vars ch) :
    Ends App.exec whileTest (rounds body) (fun ch' => ch'.observed = ch.observed ++
      (List.replicate n (round (vars .otpCode).toList)).flatten ++ [.play "otp/otp-goodbye",
        .userEvent "OTPPlaybackComplete" [("RequestID", vars .otpRequestId)]]) ch := by
  refine ends_act ?_
  refine ends_loop (Played vars ch.observed) (n := n) ?_ ?_ ?_ (Nat.zero_le n) ?_
  · intro i ch' hplayed
    exact whileTest_less hplayed.counter (hplayed.repeatCount.trans hrepeat)
  · intro i ch' _ hplayed
    exact hbody _ _ _ hplayed
  · intro ch' hplayed
    refine ends_act (ends_act (ends_done ?_))
    simp only [App.exec, App.sets, App.shows, Text.eval, hplayed.observed, hplayed.requestId,
      soundOf_goodbye, requestIdField, List.map_cons, List.map_nil, List.append_assoc,
      List.cons_append, List.nil_append]
  · exact ⟨h.set (by decide) _ _, rfl, rfl⟩

end Rounds

/-! ## The two contexts follow the script -/

/-- `[otp-playback]` up to the hangup. -/
def playbackBlock : Block App Text :=
  .act (.noOp (.cat (.lit "OTP Call Start - mobile=") (.cat (.var .callerIdNum)
    (.cat (.lit " req=") (.var .otpRequestId))))) <|
  .act .answer <| .act (.userEvent "OTPCallStart" [requestIdField, ("Channel", .var .channel)]) <|
  .act (.wait 1) <| .act (.set .channelLanguage (.lit "fa")) <|
  .act (.userEvent "OTPPlaybackStart" [requestIdField]) <| rounds playbackRound

/-- `[otp-playback-custom]` up to the hangup. -/
def customBlock : Block App Text :=
  .act (.noOp (.cat (.lit "OTP Call Custom - mobile=") (.cat (.var .callerIdNum)
    (.cat (.lit " req=") (.var .otpRequestId))))) <|
  .act .answer <| .act (.userEvent "OTPCallStart" [requestIdField, ("Channel", .var .channel)]) <|
  .act (.wait 1) <| .act (.userEvent "OTPPlaybackStart" [requestIdField]) <| rounds customRound

theorem otpPlayback_lines : otpPlayback.s = playbackBlock.lines ++ [.exit .hangup] := rfl

theorem otpPlaybackCustom_lines : otpPlaybackCustom.s = customBlock.lines ++ [.exit .hangup] := rfl

/-- What a block observes before the hangup is what is observed of the call: the extension `h` only
logs a line. -/
theorem plays_of_ends {c : Context} {vars : Var → String} {p : Block App Text} {t : Text}
    {observed : List Observed} (hs : c.s = p.lines ++ [.exit .hangup])
    (hh : c.h = [.action (.noOp t)])
    (h : Ends App.exec whileTest p (fun ch => ch.observed = observed) ⟨vars, []⟩) :
    c.Plays vars (observed ++ [.hangup]) := by
  obtain ⟨ch, hrun, hch⟩ := h
  refine ⟨App.exec .hangup ch, App.exec (.noOp t) (App.exec .hangup ch), ?_, ?_, ?_⟩
  · rw [hs]
    exact hrun.halts .hangup
  · rw [hh]
    refine ⟨[], Reaches.head (step_act [] [] rfl rfl) ?_⟩
    exact Relation.ReflTransGen.refl
  · simp only [App.exec, App.shows, App.sets, hch, List.append_nil]

section Contexts

variable {vars : Var → String} {n : ℕ}

theorem otpPlayback_plays (hrepeat : vars .otpRepeat = toString n) :
    otpPlayback.Plays vars (script vars n) := by
  refine plays_of_ends otpPlayback_lines rfl ?_
  refine ends_act (ends_act (ends_act (ends_act (ends_act (ends_act ?_)))))
  exact ends_rounds hrepeat (fun _ _ _ hplayed => ends_playbackRound hplayed) ⟨rfl, rfl, rfl, rfl⟩

theorem otpPlaybackCustom_plays (hrepeat : vars .otpRepeat = toString n)
    (hcode : ∀ d ∈ (vars .otpCode).toList, d.isDigit = true) :
    otpPlaybackCustom.Plays vars (script vars n) := by
  refine plays_of_ends otpPlaybackCustom_lines rfl ?_
  refine ends_act (ends_act (ends_act (ends_act (ends_act ?_))))
  exact ends_rounds hrepeat (fun _ _ _ hplayed => ends_customRound hcode hplayed)
    ⟨rfl, rfl, rfl, rfl⟩

/-- For every code of ASCII digits and every repeat count, whatever the other variables hold: both
contexts come to their end, and what is observed of them is the script of the call, whichever of
them `_build_context` chooses. -/
theorem contexts_agree (vars : Var → String) (n : ℕ)
    (hcode : ∀ d ∈ (vars .otpCode).toList, d.isDigit = true)
    (hrepeat : vars .otpRepeat = toString n) :
    (∀ observed, otpPlayback.Plays vars observed ↔ observed = script vars n) ∧
      (∀ observed, otpPlaybackCustom.Plays vars observed ↔ observed = script vars n) ∧
      ∀ o : CallOriginator, ∃ c, dialplan o.buildContext = some c ∧
        ∀ observed, c.Plays vars observed ↔ observed = script vars n := by
  have hiff : ∀ {c : Context}, c.Plays vars (script vars n) →
      ∀ observed, c.Plays vars observed ↔ observed = script vars n := by
    intro c hplays observed
    constructor
    · intro h
      exact h.unique hplays
    · rintro rfl
      exact hplays
  have hplayback := hiff (otpPlayback_plays hrepeat)
  have hcustom := hiff (otpPlaybackCustom_plays hrepeat hcode)
  refine ⟨hplayback, hcustom, ?_⟩
  intro o
  cases h : o.useSystemDigits with
  | true =>
    refine ⟨otpPlayback, ?_, hplayback⟩
    simp only [CallOriginator.buildContext, h, if_true, dialplan]
  | false =>
    refine ⟨otpPlaybackCustom, ?_, hcustom⟩
    have hname : "otp-playback-custom" ≠ "otp-playback" := by decide
    simp only [CallOriginator.buildContext, h, Bool.false_eq_true, if_false, dialplan, hname,
      if_true]

end Contexts

/-- The variables of a call that says `305` twice. -/
def sampleVars : Var → String
  | .otpRequestId => "0f0e0d0c-0b0a-4908-8706-050403020100"
  | .otpCode => "305"
  | .otpRepeat => "2"
  | .channel => "SIP/trunk-00000001"
  | _ => ""

theorem contexts_agree_sample :
    otpPlayback.Plays sampleVars (script sampleVars 2) ∧
      otpPlaybackCustom.Plays sampleVars (script sampleVars 2) ∧
      (script sampleVars 2).filter (fun x => x matches .say _) =
        [.say '3', .say '0', .say '5', .say '3', .say '0', .say '5'] := by
  have hdigits : (sampleVars .otpCode).toList = ['3', '0', '5'] := rfl
  obtain ⟨hplayback, hcustom, -⟩ := contexts_agree sampleVars 2 (by simp [hdigits]) rfl
  refine ⟨(hplayback _).2 rfl, (hcustom _).2 rfl, ?_⟩
  simp [script, round, hdigits]

end OtpVoice
