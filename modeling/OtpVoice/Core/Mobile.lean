import OtpVoice.Core.Validator

/-!
# Canonical mobile numbers

The result of `normalize_mobile` is the key under which the rate limiter counts. `Spelled` says that
a text is one of the four prefixes and nine digits; `normalizeMobile_canonical` says that exactly
these texts are accepted, that the result depends on their last ten characters only, and that a
result is its own normal form.
-/

set_option autoImplicit false

namespace OtpVoice

/-- The literal prefixes of the four patterns. -/
def mobilePrefixes : List String := ["09", "+989", "00989", "989"]

/-- The text is the prefix `lit` and exactly nine characters of the class `\d`. -/
def Spelled (lit u : String) : Prop :=
  ∃ ds, u.toList = lit.toList ++ ds ∧ ds.length = 9 ∧ ds.all isDecimal = true

/-- The last ten characters of a text. -/
def lastTen (u : String) : List Char := u.toList.drop (u.toList.length - 10)

/-! ## Texts without spaces -/

theorem strip_eq_self {u : String} (h : ∀ c ∈ u.toList, isSpace c = false) : strip u = u := by
  have hleft : u.toList.dropWhile isSpace = u.toList := by
    rw [List.dropWhile_eq_self_iff]
    intro hpos
    simp [h _ (List.getElem_mem hpos)]
  have hright : u.toList.rdropWhile isSpace = u.toList := by
    rw [List.rdropWhile_eq_self_iff]
    intro hne
    simp [h _ (List.getLast_mem hne)]
  rw [strip, hleft, hright, String.ofList_toList]

theorem isSpace_of_isDecimal {c : Char} (h : isDecimal c = true) : isSpace c = false := by
  by_contra hspace
  rw [Bool.not_eq_false] at hspace
  rw [isDecimal_of_isSpace hspace] at h
  cases h

/-- A character that is dangerous for AMI is a space or the null character, and no digit. -/
theorem isDecimal_of_amiDangerous {c : Char} (h : amiDangerous c = true) :
    isDecimal c = false := by
  simp only [amiDangerous, Bool.or_eq_true, beq_iff_eq] at h
  obtain (rfl | rfl) | rfl := h <;> rfl

/-! ## The four spellings -/

section Spellings

variable {lit lit' u : String}

/-- The four spellings have different lengths. -/
theorem Spelled.unique (hlit : lit ∈ mobilePrefixes) (hlit' : lit' ∈ mobilePrefixes)
    (h : Spelled lit u) (h' : Spelled lit' u) : lit = lit' := by
  obtain ⟨ds, hu, hlen, -⟩ := h
  obtain ⟨ds', hu', hlen', -⟩ := h'
  have heq : lit.toList.length = lit'.toList.length := by
    have htotal := congrArg List.length (hu.symm.trans hu')
    simp only [List.length_append, hlen, hlen'] at htotal
    omega
  have hinj : ∀ a ∈ mobilePrefixes, ∀ b ∈ mobilePrefixes,
      a.toList.length = b.toList.length → a = b := by decide
  exact hinj lit hlit lit' hlit' heq

/-- No spelling holds a character that is dangerous for AMI. -/
theorem amiSafe_of_spelled (hlit : lit ∈ mobilePrefixes) (h : Spelled lit u) :
    amiSafe u = true := by
  obtain ⟨ds, hu, -, hall⟩ := h
  have hprefix : ∀ a ∈ mobilePrefixes, amiSafe a = true := by decide
  simp only [amiSafe, hu, List.all_append, Bool.and_eq_true]
  constructor
  · exact hprefix lit hlit
  · -- a dangerous character is no digit
    rw [List.all_eq_true] at hall ⊢
    intro c hc
    cases hdanger : amiDangerous c with
    | false => rfl
    | true => cases (hall c hc).symm.trans (isDecimal_of_amiDangerous hdanger)

/-- On a safe text, a pattern with the prefix `lit` matches the spelling with that prefix only. -/
theorem matchDigits_iff (hsafe : amiSafe u = true) :
    matchDigits lit 9 9 u = true ↔ Spelled lit u := by
  constructor
  · intro hmatch
    obtain ⟨ds, hu, hlo, hhi, hall⟩ := digits_of_matchDigits hsafe hmatch
    exact ⟨ds, hu, Nat.le_antisymm hhi hlo, hall⟩
  · rintro ⟨ds, hu, hlen, hall⟩
    have htake : ds.takeWhile isDecimal = ds := by
      rw [List.takeWhile_eq_self_iff]
      exact List.all_eq_true.1 hall
    have hdrop : ds.dropWhile isDecimal = [] := by
      rw [List.dropWhile_eq_nil_iff]
      exact List.all_eq_true.1 hall
    simp [matchDigits, hu, htake, hdrop, hlen]

/-- The last ten characters of a spelling are its last prefix character and its digits. -/
theorem lastTen_of_spelled (hlit : lit ∈ mobilePrefixes) {ds : List Char}
    (hu : u.toList = lit.toList ++ ds) (hlen : ds.length = 9) :
    lastTen u = '9' :: ds := by
  have hlast : ∀ a ∈ mobilePrefixes, a.toList ≠ [] ∧
      a.toList.drop (a.toList.length - 1) = ['9'] := by decide
  obtain ⟨hne, hdrop⟩ := hlast lit hlit
  have hpos : 0 < lit.toList.length := List.length_pos_iff.2 hne
  rw [lastTen, hu, List.length_append, hlen,
    List.drop_append_of_le_length (by omega)]
  have hcut : lit.toList.length + 9 - 10 = lit.toList.length - 1 := by omega
  rw [hcut, hdrop]
  rfl

/-- The characters of a spelling's result are no spaces. -/
theorem isSpace_result {ds : List Char} (hall : ds.all isDecimal = true) :
    ∀ c ∈ '0' :: '9' :: ds, isSpace c = false := by
  intro c hc
  rcases List.mem_cons.1 hc with rfl | hc
  · rfl
  · rcases List.mem_cons.1 hc with rfl | hc
    · rfl
    · exact isSpace_of_isDecimal (List.all_eq_true.1 hall c hc)

end Spellings

/-! ## Acceptance and results -/

/-- What is accepted is one of the four spellings. -/
theorem spelled_of_normalizeMobile {s : String} (h : (normalizeMobile s).1 = true) :
    ∃ lit ∈ mobilePrefixes, Spelled lit (strip s) := by
  obtain ⟨lit, hlit, ds, hu, -, hlen, hall⟩ := digits_of_normalizeMobile (normalizeMobile_eq h)
  exact ⟨lit, hlit, ds, hu, hlen, hall⟩

/-- Every spelling is accepted, and its result is `0` before its last ten characters. -/
theorem normalizeMobile_of_spelled {s lit : String} (hlit : lit ∈ mobilePrefixes)
    (h : Spelled lit (strip s)) :
    normalizeMobile s = (true, "0" ++ String.ofList (lastTen (strip s))) := by
  have hsafe := amiSafe_of_spelled hlit h
  have haccepted : (normalizeMobile s).1 = true := by
    have hmatch := (matchDigits_iff hsafe).2 h
    simp only [mobilePrefixes, List.mem_cons, List.not_mem_nil, or_false] at hlit
    simp only [normalizeMobile, hsafe, Bool.not_true, Bool.false_eq_true, if_false]
    -- each test that comes before the one of this prefix either fails or accepts as well
    rcases hlit with rfl | rfl | rfl | rfl
    · rw [if_pos hmatch]
    · split <;> rfl
    · split
      · rfl
      · split <;> rfl
    · split
      · rfl
      · split
        · rfl
        · split <;> rfl
  have hpair := normalizeMobile_eq haccepted
  obtain ⟨lit', hlit', ds, hu, hresult, hlen, -⟩ := digits_of_normalizeMobile hpair
  rw [hpair, lastTen_of_spelled hlit' hu hlen, Prod.mk.injEq]
  constructor
  · rfl
  · rw [← String.toList_inj, hresult]
    simp

/-- `09` and nine digits are their own normal form. -/
theorem normalizeMobile_digits {m : String} {ds : List Char} (hm : m.toList = '0' :: '9' :: ds)
    (hlen : ds.length = 9) (hall : ds.all isDecimal = true) : normalizeMobile m = (true, m) := by
  have hlit : "09" ∈ mobilePrefixes := List.mem_cons_self
  have hu : m.toList = "09".toList ++ ds := hm
  have hstrip : strip m = m := by
    apply strip_eq_self
    rw [hm]
    exact isSpace_result hall
  have hspelled : Spelled "09" (strip m) := by
    rw [hstrip]
    exact ⟨ds, hu, hlen, hall⟩
  have hlast : "0" ++ String.ofList (lastTen m) = m := by
    rw [lastTen_of_spelled hlit hu hlen, ← String.toList_inj, hm]
    simp
  rw [normalizeMobile_of_spelled hlit hspelled, hstrip, hlast]

/-- A result is its own normal form. -/
theorem normalizeMobile_result {s : String} (h : (normalizeMobile s).1 = true) :
    normalizeMobile (normalizeMobile s).2 = (true, (normalizeMobile s).2) := by
  obtain ⟨m, hm⟩ : ∃ m, normalizeMobile s = (true, m) := ⟨_, normalizeMobile_eq h⟩
  obtain ⟨-, -, ds, -, hresult, hlen, hall⟩ := digits_of_normalizeMobile hm
  rw [hm]
  exact normalizeMobile_digits hresult hlen hall

/-- A text is accepted exactly when, stripped, it is one of four prefixes and nine digits. The
result is `0` and the last ten characters, so it identifies inputs exactly up to these; no text has
two of the four spellings; and a result is accepted and returned unchanged. -/
theorem normalizeMobile_canonical (s : String) :
    ((normalizeMobile s).1 = true ↔ ∃ lit ∈ mobilePrefixes, Spelled lit (strip s)) ∧
      ((normalizeMobile s).1 = true →
        (normalizeMobile s).2 = "0" ++ String.ofList (lastTen (strip s))) ∧
      (∀ s', (normalizeMobile s).1 = true → (normalizeMobile s').1 = true →
        ((normalizeMobile s).2 = (normalizeMobile s').2 ↔
          lastTen (strip s) = lastTen (strip s'))) ∧
      (∀ u, ∀ lit ∈ mobilePrefixes, ∀ lit' ∈ mobilePrefixes,
        Spelled lit u → Spelled lit' u → lit = lit') ∧
      ((normalizeMobile s).1 = true →
        normalizeMobile (normalizeMobile s).2 = (true, (normalizeMobile s).2)) := by
  have hresult : ∀ t, (normalizeMobile t).1 = true →
      (normalizeMobile t).2 = "0" ++ String.ofList (lastTen (strip t)) := by
    intro t ht
    obtain ⟨lit, hlit, hspelled⟩ := spelled_of_normalizeMobile ht
    rw [normalizeMobile_of_spelled hlit hspelled]
  refine ⟨⟨spelled_of_normalizeMobile, ?_⟩, hresult s, ?_, ?_, normalizeMobile_result⟩
  · rintro ⟨lit, hlit, hspelled⟩
    rw [normalizeMobile_of_spelled hlit hspelled]
  · -- the leading zero is the same in both results
    intro s' h h'
    rw [hresult s h, hresult s' h', String.append_right_inj]
    exact ⟨fun heq => String.ofList_injective heq, fun heq => by rw [heq]⟩
  · intro u lit hlit lit' hlit' h h'
    exact h.unique hlit hlit' h'

end OtpVoice
