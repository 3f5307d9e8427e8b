import OtpVoice.Service.System

/-!
# The spelling of accepted requests

The class `\d` of the validators holds the decimal digits of every script. This module compares what
`POST /otp/call` accepts with what the dialplan and the rate limiter rely on.

- `accepted_regular_iff`: an accepted mobile number is `09` and nine digits `0` to `9`, and an
  accepted code is 4 to 8 such digits with an installed sound file each, exactly when the two texts
  hold no digit of another script; such numbers have one spelling.
- `persian_digits_accepted`: a request in Persian digits is accepted.
-/

set_option autoImplicit false

namespace OtpVoice

/-! ## The regular spelling -/

/-- The digits `0` to `9`. -/
def isAsciiDigit (c : Char) : Bool := '0' ≤ c && c ≤ '9'

/-- `09` and exactly nine digits `0` to `9`. -/
def regularMobile (s : String) : Bool :=
  s.toList.take 2 = ['0', '9'] && s.toList.length = 11 && s.toList.all isAsciiDigit

/-- 4 to 8 digits `0` to `9`. -/
def regularCode (s : String) : Bool :=
  4 ≤ s.toList.length && s.toList.length ≤ 8 && s.toList.all isAsciiDigit

/-- The text holds no decimal digit of another script. -/
def plainDigits (s : String) : Bool := s.toList.all fun c => !isDecimal c || isAsciiDigit c

/-- The digit files among the installed sounds. -/
def soundFiles : List String :=
  ["digits/0", "digits/1", "digits/2", "digits/3", "digits/4", "digits/5", "digits/6", "digits/7",
    "digits/8", "digits/9"]

/-- The file that `Playback(otp/digits/${OTP_DIGIT})` asks for. -/
def soundFile (c : Char) : String := "digits/" ++ c.toString

/-- The subscriber number that a text spells: the values of its digits. -/
def subscriber (mobile : String) : List (Option ℕ) := mobile.toList.map decimalValue

theorem isAsciiDigit_iff (c : Char) : isAsciiDigit c = true ↔ c ∈ "0123456789".toList := by
  constructor
  · intro h
    simp only [isAsciiDigit, Bool.and_eq_true, decide_eq_true_eq, Char.le_def,
      UInt32.le_iff_toNat_le] at h
    have hval : ∀ n < 58, 48 ≤ n → Char.ofNat n ∈ "0123456789".toList := by decide
    rw [← Char.ofNat_toNat c]
    exact hval c.toNat (Nat.lt_succ_of_le h.2) h.1
  · intro h
    have hall : "0123456789".toList.all isAsciiDigit = true := by decide
    exact List.all_eq_true.1 hall c h

/-- Exactly the digits `0` to `9` have a sound file. -/
theorem soundFile_mem_iff (c : Char) : soundFile c ∈ soundFiles ↔ isAsciiDigit c = true := by
  rw [isAsciiDigit_iff]
  constructor
  · intro h
    -- the file name ends with the digit
    have hall : ∀ f ∈ soundFiles, f ∈ "0123456789".toList.map soundFile := by decide
    obtain ⟨d, hd, heq⟩ := List.mem_map.1 (hall _ h)
    have hlist := congrArg String.toList heq.symm
    simp only [soundFile, String.toList_append, List.append_cancel_left_eq] at hlist
    obtain rfl : c = d := by simpa using hlist
    exact hd
  · intro h
    have hall : ∀ f ∈ "0123456789".toList.map soundFile, f ∈ soundFiles := by decide
    exact hall _ (List.mem_map_of_mem h)

/-- On the digits `0` to `9` the value determines the character. -/
theorem decimalValue_inj {c d : Char} (hc : isAsciiDigit c = true) (hd : isAsciiDigit d = true)
    (h : decimalValue c = decimalValue d) : c = d := by
  have hnodup : ("0123456789".toList.map decimalValue).Nodup := by decide
  exact List.inj_on_of_nodup_map hnodup ((isAsciiDigit_iff c).1 hc) ((isAsciiDigit_iff d).1 hd) h

/-! ## Texts around their digits -/

theorem plainDigits_iff (s : String) :
    plainDigits s = true ↔ ∀ c ∈ s.toList, isDecimal c = true → isAsciiDigit c = true := by
  simp [plainDigits, List.all_eq_true, imp_iff_not_or]

/-- Stripping drops no digit. -/
theorem plainDigits_strip (s : String) : plainDigits (strip s) = plainDigits s := by
  rw [Bool.eq_iff_iff, plainDigits_iff, plainDigits_iff, strip, String.toList_ofList]
  constructor
  · intro h c hc hdec
    refine h c ?_ hdec
    -- the stripped characters on both sides are spaces, and no space is a digit
    rw [← List.takeWhile_append_dropWhile (p := isSpace) (l := s.toList), List.mem_append] at hc
    have hspace : ∀ l : List Char, (∀ d ∈ l, isSpace d = true) → c ∉ l := by
      intro l hl hmem
      rw [isDecimal_of_isSpace (hl c hmem)] at hdec
      cases hdec
    have hc := hc.resolve_left (hspace _ fun d hd => List.mem_takeWhile_imp hd)
    rw [← List.rdropWhile_append_rtakeWhile (p := isSpace) (l := s.toList.dropWhile isSpace),
      List.mem_append] at hc
    exact hc.resolve_right (hspace _ fun d hd => List.mem_rtakeWhile_imp hd)
  · intro h c hc
    exact h c ((List.dropWhile_sublist _).mem ((List.rdropWhile_prefix _ _).mem hc))

/-- An accepted mobile number is regular exactly when its text is. -/
theorem regularMobile_iff {raw mobile : String} (h : normalizeMobile raw = (true, mobile)) :
    regularMobile mobile = true ↔ plainDigits raw = true := by
  obtain ⟨lit, hlit, ds, hraw, hmobile, hlen, hdec⟩ := digits_of_normalizeMobile h
  have hplain : ∀ lit ∈ ["09", "+989", "00989", "989"], plainDigits lit = true := by decide
  rw [← plainDigits_strip, plainDigits_iff, hraw]
  simp only [regularMobile, hmobile, Bool.and_eq_true, decide_eq_true_eq, List.all_eq_true]
  constructor
  · rintro ⟨-, hall⟩ c hc hdecimal
    rcases List.mem_append.1 hc with hc | hc
    · exact (plainDigits_iff lit).1 (hplain lit hlit) c hc hdecimal
    · exact hall c (List.mem_cons_of_mem _ (List.mem_cons_of_mem _ hc))
  · intro hall
    refine ⟨⟨rfl, by simp [hlen]⟩, fun c hc => ?_⟩
    rcases List.mem_cons.1 hc with rfl | hc
    · rfl
    · rcases List.mem_cons.1 hc with rfl | hc
      · rfl
      · exact hall c (List.mem_append_right _ hc) (List.all_eq_true.1 hdec c hc)

/-- An accepted code is regular exactly when its text is. -/
theorem regularCode_iff {raw : String} (h : isCode (strip raw) = true) :
    regularCode (strip raw) = true ↔ plainDigits raw = true := by
  simp only [isCode, Bool.and_eq_true, List.all_eq_true] at h
  rw [← plainDigits_strip, plainDigits_iff]
  simp only [regularCode, Bool.and_eq_true, List.all_eq_true, h.1, true_and]
  constructor
  · intro hall c hc _
    exact hall c hc
  · intro hall c hc
    exact hall c hc (h.2 c hc)

theorem eq_of_subscriber_eq {a b : String} (ha : regularMobile a = true)
    (hb : regularMobile b = true) (h : subscriber a = subscriber b) : a = b := by
  simp only [regularMobile, Bool.and_eq_true, List.all_eq_true] at ha hb
  have hlist : ∀ l l' : List Char, (∀ c ∈ l, isAsciiDigit c = true) →
      (∀ c ∈ l', isAsciiDigit c = true) → l.map decimalValue = l'.map decimalValue → l = l' := by
    intro l
    induction l with
    | nil =>
      intro l' _ _ h
      exact (List.map_eq_nil_iff.1 h.symm).symm
    | cons c l ih =>
      rintro (_ | ⟨d, l'⟩) hl hl' h
      · cases h
      · obtain ⟨hcd, hrest⟩ := List.cons.inj h
        rw [decimalValue_inj (hl c List.mem_cons_self) (hl' d List.mem_cons_self) hcd,
          ih l' (fun x hx => hl x (List.mem_cons_of_mem _ hx))
            (fun x hx => hl' x (List.mem_cons_of_mem _ hx)) hrest]
  exact String.toList_inj.1 (hlist _ _ ha.2 hb.2 h)

/-! ## Accepted requests -/

theorem OTPCallRequest.parse_ok {mobile code : String} {repeatCount : Option ℤ}
    {request : OTPCallRequest} (h : OTPCallRequest.parse mobile code repeatCount = .ok request) :
    normalizeMobile mobile = (true, request.mobile) ∧ request.code = strip code := by
  unfold OTPCallRequest.parse at h
  by_cases hmobile : (normalizeMobile mobile).1 = true
  · rw [dif_pos hmobile] at h
    split at h
    · split at h
      · rw [← Except.ok.inj h]
        dsimp only
        exact ⟨normalizeMobile_eq hmobile, rfl⟩
      · simp only [reduceCtorEq] at h
    · simp only [reduceCtorEq] at h
  · rw [dif_neg hmobile] at h
    simp only [reduceCtorEq] at h

/-- The values that are passed on have the documented form. -/
def OTPCallRequest.Regular (request : OTPCallRequest) : Prop :=
  regularMobile request.mobile = true ∧ regularCode request.code = true ∧
    ∀ c ∈ request.code.toList, soundFile c ∈ soundFiles

/-- An accepted request has the documented form if and only if its texts hold no digit of another
script; among such requests a subscriber number has one spelling. -/
theorem accepted_regular_iff {mobile code : String} {repeatCount : Option ℤ}
    {request : OTPCallRequest} (h : OTPCallRequest.parse mobile code repeatCount = .ok request) :
    (request.Regular ↔ plainDigits mobile = true ∧ plainDigits code = true) ∧
      ∀ mobile' code' repeatCount' request',
        OTPCallRequest.parse mobile' code' repeatCount' = .ok request' →
        plainDigits mobile = true → plainDigits mobile' = true →
        subscriber request.mobile = subscriber request'.mobile →
          request.mobile = request'.mobile := by
  obtain ⟨hmobile, hcode⟩ := OTPCallRequest.parse_ok h
  have hcode' : regularCode request.code = true ↔ plainDigits code = true := by
    have hdigits := request.isCode_code
    rw [hcode] at hdigits ⊢
    exact regularCode_iff hdigits
  constructor
  · rw [← regularMobile_iff hmobile, ← hcode']
    constructor
    · rintro ⟨hm, hc, -⟩
      exact ⟨hm, hc⟩
    · rintro ⟨hm, hc⟩
      refine ⟨hm, hc, fun c hmem => (soundFile_mem_iff c).2 ?_⟩
      simp only [regularCode, Bool.and_eq_true, List.all_eq_true] at hc
      exact hc.2 c hmem
  · intro mobile' code' repeatCount' request' h' hplain hplain' heq
    obtain ⟨hmobile', -⟩ := OTPCallRequest.parse_ok h'
    exact eq_of_subscriber_eq ((regularMobile_iff hmobile).2 hplain)
      ((regularMobile_iff hmobile').2 hplain') heq

theorem accepted_regular_iff_sample :
    OTPCallRequest.parse " +989120000000 " "1234" none = .ok sampleRequest ∧
      sampleRequest.Regular := by
  have hparse : OTPCallRequest.parse " +989120000000 " "1234" none = .ok sampleRequest := by
    decide +kernel
  exact ⟨hparse, (accepted_regular_iff hparse).1.2 (by decide +kernel)⟩

/-- A request in Persian digits: it is accepted as it stands, its digits have no sound file, and the
rate limiter takes its number for another one than the same number in the digits `0` to `9`. -/
theorem persian_digits_accepted :
    ∃ request, OTPCallRequest.parse "09۱۲۰۰۰۰۰۰۰" "۱۲۳۴" none = .ok request ∧
      request.mobile = "09۱۲۰۰۰۰۰۰۰" ∧ request.code = "۱۲۳۴" ∧ ¬ request.Regular ∧
      (∀ c ∈ request.code.toList, soundFile c ∉ soundFiles) ∧
      subscriber request.mobile = subscriber sampleRequest.mobile ∧
      let limiter := ((RateLimiter.init 1 10 20 500).checkNumberLimit sampleRequest.mobile 0).2
      (limiter.checkNumberLimit sampleRequest.mobile 1).1 =
          .ok (false, some "حداکثر 1 تماس در 10 دقیقه - 599 ثانیه صبر کنید") ∧
        (limiter.checkNumberLimit request.mobile 1).1 = .ok (true, none) := by
  have hparse : ∃ request, OTPCallRequest.parse "09۱۲۰۰۰۰۰۰۰" "۱۲۳۴" none = .ok request ∧
      request.mobile = "09۱۲۰۰۰۰۰۰۰" ∧ request.code = "۱۲۳۴" := by
    refine ⟨⟨"09۱۲۰۰۰۰۰۰۰", "۱۲۳۴", 2, ⟨"09۱۲۰۰۰۰۰۰۰", by decide +kernel⟩,
      ⟨"۱۲۳۴", by decide +kernel⟩, by decide⟩, by decide +kernel, rfl, rfl⟩
  obtain ⟨request, hok, hmobile, hcode⟩ := hparse
  have hsound : ∀ f ∈ "۱۲۳۴".toList.map soundFile, f ∉ soundFiles := by decide +kernel
  refine ⟨request, hok, hmobile, hcode, ?_, ?_, ?_⟩
  · rintro ⟨hregular, -⟩
    rw [hmobile] at hregular
    exact absurd hregular (by decide +kernel)
  · rw [hcode]
    exact fun c hc => hsound _ (List.mem_map_of_mem hc)
  · rw [hmobile]
    decide +kernel

end OtpVoice
