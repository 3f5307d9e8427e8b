import Mathlib.Data.List.DropRight

/-!
# Text, input validation and masking

The functions of `src/core/validator.py`, the masks of `src/core/logger.py` and the request bodies
of `src/api/schemas.py`, over the text functions of Python that they use. A `String` stands for a
Python `str`; the character classes are those of Unicode 12.1, the version of Python 3.8.

`OTPCallRequest` and `RetryRequest` carry what their validators establish as fields
(`OTPCallRequest.code_ok`, `RetryRequest.repeat_ok`), and `OTPCallRequest.parse` and
`RetryRequest.parse` are the only way from a raw body to them.
-/

set_option autoImplicit false

namespace OtpVoice

/-! ## Python text -/

/-- The zeros of the blocks of ten consecutive decimal digits (category Nd). -/
def digitZeros : List ℕ :=
  [0x30, 0x660, 0x6F0, 0x7C0, 0x966, 0x9E6, 0xA66, 0xAE6, 0xB66, 0xBE6, 0xC66, 0xCE6, 0xD66, 0xDE6,
    0xE50, 0xED0, 0xF20, 0x1040, 0x1090, 0x17E0, 0x1810, 0x1946, 0x19D0, 0x1A80, 0x1A90, 0x1B50,
    0x1BB0, 0x1C40, 0x1C50, 0xA620, 0xA8D0, 0xA900, 0xA9D0, 0xA9F0, 0xAA50, 0xABF0, 0xFF10, 0x104A0,
    0x10D30, 0x11066, 0x110F0, 0x11136, 0x111D0, 0x112F0, 0x11450, 0x114D0, 0x11650, 0x116C0,
    0x11730, 0x118E0, 0x11C50, 0x11D50, 0x11DA0, 0x16A60, 0x16B50, 0x1D7CE, 0x1D7D8, 0x1D7E2,
    0x1D7EC, 0x1D7F6, 0x1E140, 0x1E2F0, 0x1E950]

/-- The value of a decimal digit. -/
def decimalValue (c : Char) : Option ℕ :=
  (digitZeros.find? fun z => z ≤ c.toNat && c.toNat ≤ z + 9).map (c.toNat - ·)

/-- The class `\d` of a `str` pattern. -/
def isDecimal (c : Char) : Bool := (decimalValue c).isSome

/-- `str.isspace` of one character. -/
def isSpace (c : Char) : Bool :=
  c.toNat ∈ [0x9, 0xA, 0xB, 0xC, 0xD, 0x1C, 0x1D, 0x1E, 0x1F, 0x20, 0x85, 0xA0, 0x1680, 0x2000,
    0x2001, 0x2002, 0x2003, 0x2004, 0x2005, 0x2006, 0x2007, 0x2008, 0x2009, 0x200A, 0x2028, 0x2029,
    0x202F, 0x205F, 0x3000]

/-- `str.strip()`. -/
def strip (s : String) : String :=
  String.ofList ((s.toList.dropWhile isSpace).rdropWhile isSpace)

/-- `str.lower()`; outside ASCII no character has a lower-case form that is an ASCII word. -/
def lower (s : String) : String := String.ofList (s.toList.map Char.toLower)

/-- `re.match` with the pattern `^…\d{lo,hi}$` and the literal prefix `lit`. The `$` also matches
before a newline that ends the text. -/
def matchDigits (lit : String) (lo hi : ℕ) (s : String) : Bool :=
  let rest := s.toList.drop lit.toList.length
  let tail := rest.dropWhile isDecimal
  lit.toList.isPrefixOf s.toList && lo ≤ (rest.takeWhile isDecimal).length &&
    (rest.takeWhile isDecimal).length ≤ hi && (tail == [] || tail == ['\n'])

/-- The digits of `int(str)`, single underscores between digits allowed. -/
def parseDigits : Bool → ℕ → List Char → Option ℕ
  | afterDigit, acc, [] => if afterDigit then some acc else none
  | afterDigit, acc, c :: cs =>
    match decimalValue c with
    | some d => parseDigits true (acc * 10 + d) cs
    | none => if c = '_' && afterDigit then parseDigits false acc cs else none

/-- A character that `int(str)` skips at both ends of a text: the separators U+001C to U+001F count
as spaces for `str.strip` only. -/
def intSpace (c : Char) : Bool := isSpace c && !(0x1C ≤ c.toNat && c.toNat ≤ 0x1F)

/-- `int(str)`; `none` is a `ValueError`. -/
def parseInt (s : String) : Option ℤ :=
  match (s.toList.dropWhile intSpace).rdropWhile intSpace with
  | '-' :: ds => (parseDigits false 0 ds).map fun n => -(n : ℤ)
  | '+' :: ds => (parseDigits false 0 ds).map fun n => (n : ℤ)
  | ds => (parseDigits false 0 ds).map fun n => (n : ℤ)

/-- No space is a digit. -/
theorem isDecimal_of_isSpace {c : Char} (h : isSpace c = true) : isDecimal c = false := by
  have hall : ∀ n ∈ [0x9, 0xA, 0xB, 0xC, 0xD, 0x1C, 0x1D, 0x1E, 0x1F, 0x20, 0x85, 0xA0, 0x1680,
      0x2000, 0x2001, 0x2002, 0x2003, 0x2004, 0x2005, 0x2006, 0x2007, 0x2008, 0x2009, 0x200A,
      0x2028, 0x2029, 0x202F, 0x205F, 0x3000],
      (digitZeros.find? fun z => z ≤ n && n ≤ z + 9) = none := by
    decide
  rw [isDecimal, decimalValue, hall c.toNat (by simpa [isSpace] using h)]
  rfl

/-! ## `src/core/validator.py` -/

/-- The character class of `_AMI_DANGEROUS`. -/
def amiDangerous (c : Char) : Bool := c == '\r' || c == '\n' || c == '\x00'

/-- `_AMI_DANGEROUS.search` finds nothing. -/
def amiSafe (s : String) : Bool := s.toList.all fun c => !amiDangerous c

/-- `normalize_mobile`. -/
def normalizeMobile (mobile : String) : Bool × String :=
  let mobile := strip mobile
  if !amiSafe mobile then (false, "")
  else if matchDigits "09" 9 9 mobile then (true, mobile)
  else if matchDigits "+989" 9 9 mobile then (true, "0" ++ String.ofList (mobile.toList.drop 3))
  else if matchDigits "00989" 9 9 mobile then (true, "0" ++ String.ofList (mobile.toList.drop 4))
  else if matchDigits "989" 9 9 mobile then (true, "0" ++ String.ofList (mobile.toList.drop 2))
  else (false, "")

theorem normalizeMobile_eq {s : String} (h : (normalizeMobile s).1 = true) :
    normalizeMobile s = (true, (normalizeMobile s).2) := by
  generalize normalizeMobile s = result at h ⊢
  exact Prod.ext h rfl

/-- `validate_code`. -/
def validateCode (code : String) : Bool × String :=
  let code := strip code
  if !amiSafe code then (false, "کد حاوی کاراکتر غیرمجاز است")
  else if !matchDigits "" 4 8 code then (false, "کد باید بین ۴ تا ۸ رقم عددی باشد")
  else (true, "")

/-- `sanitize_ami_value`. -/
def sanitizeAmiValue (value : String) : String :=
  String.ofList (value.toList.filter fun c => !amiDangerous c)

/-! ## `src/core/logger.py` -/

/-- `mask_code`. -/
def maskCode (code : String) : String :=
  let cs := code.toList
  if cs.length ≤ 2 then String.ofList (List.replicate cs.length '*')
  else String.ofList (cs.take 1 ++ List.replicate (cs.length - 2) '*' ++ cs.drop (cs.length - 1))

/-- `mask_mobile`. -/
def maskMobile (mobile : String) : String :=
  let cs := mobile.toList
  if cs.length ≤ 7 then mobile
  else String.ofList (cs.take 4) ++ "***" ++ String.ofList (cs.drop (cs.length - 4))

/-! ## The request bodies of `src/api/schemas.py` -/

/-- A code of 4 to 8 decimal digits. -/
def isCode (s : String) : Bool :=
  4 ≤ s.toList.length && s.toList.length ≤ 8 && s.toList.all isDecimal

/-- A validated body of `POST /otp/call`; its `caller_id` is read by no function. -/
structure OTPCallRequest where
  mobile : String
  code : String
  repeatCount : ℤ
  mobile_ok : ∃ raw, normalizeMobile raw = (true, mobile)
  code_ok : ∃ raw, (validateCode raw).1 = true ∧ code = strip raw
  repeat_ok : 1 ≤ repeatCount ∧ repeatCount ≤ 3
  deriving DecidableEq

/-- A validated body of `POST /otp/call/{request_id}/retry`. -/
structure RetryRequest where
  code : Option String
  repeatCount : Option ℤ
  repeat_ok : ∀ n, repeatCount = some n → 1 ≤ n ∧ n ≤ 3
  deriving DecidableEq

/-- An absent repeat count is not checked. -/
theorem repeat_absent (n : ℤ) (h : none = some n) : 1 ≤ n ∧ n ≤ 3 := by
  cases h

/-- A rejected field and its message. -/
structure FieldError where
  loc : String
  msg : String
  deriving DecidableEq, Repr

/-- The message of the `ValueError` about a mobile number. -/
def mobileError : FieldError := ⟨"mobile", "شماره موبایل معتبر نیست (فرمت صحیح: 09XXXXXXXXX)"⟩

/-- The messages of `Field(ge=1, le=3)`. -/
def repeatErrors (n : ℤ) : List FieldError :=
  if n < 1 then [⟨"repeat", "ensure this value is greater than or equal to 1"⟩]
  else if 3 < n then [⟨"repeat", "ensure this value is less than or equal to 3"⟩]
  else []

theorem repeatErrors_eq_nil {n : ℤ} (h : repeatErrors n = []) : 1 ≤ n ∧ n ≤ 3 := by
  unfold repeatErrors at h
  split at h
  · simp at h
  · split at h
    · simp at h
    · omega

/-- Validation of a body of `POST /otp/call`; every field is checked and all errors are
reported. -/
def OTPCallRequest.parse (mobile code : String) (repeatCount : Option ℤ) :
    Except (List FieldError) OTPCallRequest :=
  if hm : (normalizeMobile mobile).1 = true then
    if hc : (validateCode code).1 = true then
      if hr : repeatErrors (repeatCount.getD 2) = [] then
        .ok ⟨(normalizeMobile mobile).2, strip code, repeatCount.getD 2,
          ⟨mobile, Prod.ext hm rfl⟩, ⟨code, hc, rfl⟩, repeatErrors_eq_nil hr⟩
      else .error (repeatErrors (repeatCount.getD 2))
    else .error (⟨"code", (validateCode code).2⟩ :: repeatErrors (repeatCount.getD 2))
  else .error (mobileError ::
    ((if (validateCode code).1 then [] else [⟨"code", (validateCode code).2⟩]) ++
      repeatErrors (repeatCount.getD 2)))

/-- Validation of a body of the retry endpoint: the code is not looked at. -/
def RetryRequest.parse (code : Option String) (repeatCount : Option ℤ) :
    Except (List FieldError) RetryRequest :=
  match repeatCount with
  | none => .ok ⟨code, none, repeat_absent⟩
  | some n =>
    if hr : repeatErrors n = [] then
      .ok ⟨code, some n, fun _ h => Option.some.inj h ▸ repeatErrors_eq_nil hr⟩
    else .error (repeatErrors n)

/-! ## What the validators accept -/

/-- A matched text without control characters is the literal prefix and digits only: the newline
that `$` allows is a control character. -/
theorem digits_of_matchDigits {lit s : String} {lo hi : ℕ} (hsafe : amiSafe s = true)
    (hmatch : matchDigits lit lo hi s = true) : ∃ ds, s.toList = lit.toList ++ ds ∧
      lo ≤ ds.length ∧ ds.length ≤ hi ∧ ds.all isDecimal = true := by
  simp only [matchDigits, Bool.and_eq_true, Bool.or_eq_true, beq_iff_eq, decide_eq_true_eq]
    at hmatch
  obtain ⟨⟨⟨hlit, hlo⟩, hhi⟩, htail⟩ := hmatch
  obtain ⟨ds, hds⟩ := List.isPrefixOf_iff_prefix.1 hlit
  rw [← hds, List.drop_left] at hlo hhi htail
  have hnil : ds.dropWhile isDecimal = [] := by
    apply htail.resolve_right
    intro hnl
    have hmem : '\n' ∈ s.toList := by
      rw [← hds, ← List.takeWhile_append_dropWhile (p := isDecimal) (l := ds), hnl]
      simp
    simpa [amiDangerous] using List.all_eq_true.1 hsafe '\n' hmem
  have hall := List.dropWhile_eq_nil_iff.1 hnil
  rw [List.takeWhile_eq_self_iff.2 hall] at hlo hhi
  exact ⟨ds, hds.symm, hlo, hhi, List.all_eq_true.2 hall⟩

theorem isCode_of_matchDigits {s : String} (hsafe : amiSafe s = true)
    (hmatch : matchDigits "" 4 8 s = true) : isCode s = true := by
  obtain ⟨ds, hds, hlo, hhi, hall⟩ := digits_of_matchDigits hsafe hmatch
  rw [String.toList_empty, List.nil_append] at hds
  simp only [isCode, hds, Bool.and_eq_true, decide_eq_true_eq]
  exact ⟨⟨hlo, hhi⟩, hall⟩

/-- A validated code of `POST /otp/call` consists of 4 to 8 digits. -/
theorem OTPCallRequest.isCode_code (request : OTPCallRequest) : isCode request.code = true := by
  obtain ⟨raw, hraw, hcode⟩ := request.code_ok
  simp only [validateCode] at hraw
  split at hraw
  · cases hraw
  · rename_i hsafe
    split at hraw
    · cases hraw
    · rename_i hmatch
      rw [hcode]
      exact isCode_of_matchDigits (by simpa using hsafe) (by simpa using hmatch)

/-- An accepted mobile number is `09` and the last nine digits of the text. -/
theorem digits_of_normalizeMobile {raw mobile : String} (h : normalizeMobile raw = (true, mobile)) :
    ∃ lit ∈ ["09", "+989", "00989", "989"], ∃ ds, (strip raw).toList = lit.toList ++ ds ∧
      mobile.toList = '0' :: '9' :: ds ∧ ds.length = 9 ∧ ds.all isDecimal = true := by
  simp only [normalizeMobile] at h
  split at h
  · cases h
  · rename_i hsafe
    have hsafe : amiSafe (strip raw) = true := by simpa using hsafe
    -- the four spellings, each cut after its literal prefix
    have hcut : ∀ lit n, lit ∈ ["+989", "00989", "989"] → lit.toList.length = n + 1 →
        matchDigits lit 9 9 (strip raw) = true →
        mobile = "0" ++ String.ofList ((strip raw).toList.drop n) →
        lit.toList.drop n = ['9'] → ∃ ds, (strip raw).toList = lit.toList ++ ds ∧
          mobile.toList = '0' :: '9' :: ds ∧ ds.length = 9 ∧ ds.all isDecimal = true := by
      intro lit n _ hlen hmatch hmobile hlast
      obtain ⟨ds, hds, hlo, hhi, hall⟩ := digits_of_matchDigits hsafe hmatch
      refine ⟨ds, hds, ?_, by omega, hall⟩
      rw [hmobile, hds, List.drop_append_of_le_length (by omega), hlast]
      simp
    split at h
    · rename_i hmatch
      obtain ⟨ds, hds, hlo, hhi, hall⟩ := digits_of_matchDigits hsafe hmatch
      have hmobile : mobile = strip raw := (Prod.mk.inj h).2.symm
      exact ⟨"09", by simp, ds, hds, by rw [hmobile, hds]; rfl, by omega, hall⟩
    · split at h
      · rename_i hmatch
        exact ⟨"+989", by simp, hcut _ 3 (by simp) rfl hmatch (Prod.mk.inj h).2.symm rfl⟩
      · split at h
        · rename_i hmatch
          exact ⟨"00989", by simp, hcut _ 4 (by simp) rfl hmatch (Prod.mk.inj h).2.symm rfl⟩
        · split at h
          · rename_i hmatch
            exact ⟨"989", by simp, hcut _ 2 (by simp) rfl hmatch (Prod.mk.inj h).2.symm rfl⟩
          · cases h

end OtpVoice
