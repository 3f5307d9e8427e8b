import OtpVoice.Ami.Submission
import OtpVoice.Library.HeaderLines

/-!
# The Originate action on the wire

An action is written as one line for each header and an empty line. `originate_roundtrip` says that
the action of `originate` is read back as one action with the same ten headers, whatever the
configured texts and the arguments are: the trunk and the caller id are sanitized in the
constructor, the mobile number and the code in `originate`, and the other values hold no control
characters of their own.
-/

set_option autoImplicit false

namespace OtpVoice

open Coroutine

/-- The wire form of an action. -/
def wire (action : Action) : String :=
  String.ofList (HeaderLines.write (action.map fun h => (h.1.toList, h.2.toList)))

/-- The actions that are read from a text. -/
def parseWire (w : String) : Option (List Action) :=
  (HeaderLines.parse w.toList).map fun ms =>
    ms.map fun m => m.map fun h => (String.ofList h.1, String.ofList h.2)

/-- The keys of the Originate action. -/
def actionKeys : List String :=
  ["Action", "ActionID", "Channel", "Context", "Exten", "Priority", "CallerID", "Timeout", "Async",
    "Variable"]

/-! ## Safe texts -/

@[simp] theorem amiSafe_append (a b : String) : amiSafe (a ++ b) = (amiSafe a && amiSafe b) := by
  simp [amiSafe]

theorem amiDangerous_of_isDigit {c : Char} (h : c.isDigit = true) : amiDangerous c = false := by
  cases hdanger : amiDangerous c with
  | false => rfl
  | true =>
    simp only [amiDangerous, Bool.or_eq_true, beq_iff_eq] at hdanger
    obtain (rfl | rfl) | rfl := hdanger <;> cases h

theorem amiSafe_natRepr (n : ℕ) : amiSafe n.repr = true := by
  rw [amiSafe, Nat.toList_repr, List.all_eq_true]
  intro c hc
  rw [amiDangerous_of_isDigit (Nat.isDigit_of_mem_toDigits (by decide) (by decide) hc)]
  rfl

/-- The text of a number holds no control character. -/
theorem amiSafe_toString (n : ℤ) : amiSafe (toString n) = true := by
  cases n with
  | ofNat n => exact amiSafe_natRepr n
  | negSucc n =>
    have hrepr : toString (Int.negSucc n) = "-" ++ (n + 1).repr := rfl
    rw [hrepr, amiSafe_append, amiSafe_natRepr]
    rfl

/-! ## The round trip -/

/-- An action whose keys are plain and whose values are safe is read back. -/
theorem parseWire_wire {action : Action}
    (h : ∀ x ∈ action, ':' ∉ x.1.toList ∧ amiSafe x.1 = true ∧ amiSafe x.2 = true) :
    parseWire (wire action) = some [action] := by
  have hclean : ∀ x ∈ action.map fun h => (h.1.toList, h.2.toList), HeaderLines.Clean x := by
    intro x hx
    obtain ⟨y, hy, rfl⟩ := List.mem_map.1 hx
    obtain ⟨hcolon, hkey, hvalue⟩ := h y hy
    exact ⟨hcolon, hkey, hvalue⟩
  rw [parseWire, wire, String.toList_ofList, HeaderLines.parse_write hclean]
  simp [Function.comp_def]

/-- Every header of the action is safe if the request id is. -/
theorem amiSafe_action (o : CallOriginator) {requestId mobile code : String}
    (hid : amiSafe requestId = true) (hmobile : amiSafe mobile = true) (hcode : amiSafe code = true)
    (repeatCount timeout : ℤ) :
    ∀ x ∈ o.action requestId mobile code repeatCount timeout, amiSafe x.2 = true := by
  have hcontext : amiSafe o.buildContext = true := by
    unfold CallOriginator.buildContext
    split <;> decide
  have hvariable : amiSafe (CallOriginator.variableHeader code repeatCount requestId) = true := by
    simp only [CallOriginator.variableHeader, amiSafe_append, hcode, hid, amiSafe_toString,
      Bool.and_true]
    decide
  have htimeout : amiSafe (timeout * 1000).repr = true := amiSafe_toString _
  have hliterals : ∀ a ∈ ["Originate", "otp-", "SIP/", "/", "s", "1", "true"],
      amiSafe a = true := by decide
  simp only [List.mem_cons, List.not_mem_nil, or_false, forall_eq_or_imp, forall_eq] at hliterals
  -- one case for each of the ten headers
  intro x hx
  simp only [CallOriginator.action, actionIdPrefix, List.mem_cons, List.not_mem_nil, or_false]
    at hx
  rcases hx with rfl | rfl | rfl | rfl | rfl | rfl | rfl | rfl | rfl | rfl <;>
    simp [hliterals, hid, hmobile, hcontext, hvariable, htimeout, o.trunk_safe, o.callerId_safe]

theorem clampRepeat_bounds (n : ℤ) :
    1 ≤ CallOriginator.clampRepeat n ∧ CallOriginator.clampRepeat n ≤ 3 := by
  unfold CallOriginator.clampRepeat
  omega

/-- The action of `originate`, written to the wire, is read back as one action with the same ten
headers, and its repeat count is between 1 and 3; no other action is submitted. -/
theorem originate_roundtrip (trunk callerId : String) (useSystemDigits : Bool)
    (requestId mobile code : String) (repeatCount timeout : ℤ) (hid : amiSafe requestId = true) :
    let o := CallOriginator.init trunk callerId useSystemDigits
    let action := o.action requestId (sanitizeAmiValue mobile) (sanitizeAmiValue code)
      (CallOriginator.clampRepeat repeatCount) timeout
    Coro.Uses (fun c => ∀ a, c = .submitAction a → a = action)
        (o.originate requestId mobile code repeatCount timeout) ∧
      parseWire (wire action) = some [action] ∧ action.map Prod.fst = actionKeys ∧
      ∃ n : ℤ, 1 ≤ n ∧ n ≤ 3 ∧ action.lookup "Variable" =
        some (CallOriginator.variableHeader (sanitizeAmiValue code) n requestId) := by
  intro o action
  have hsubmits : Coro.Uses (fun c => ∀ a, c = .submitAction a → a = action)
      (o.originate requestId mobile code repeatCount timeout) := by
    apply uses_originate
    · rintro c hc a rfl
      exact absurd rfl hc
    · intro a ha
      exact (Cmd.submitAction.inj ha).symm
  have hparse : parseWire (wire action) = some [action] := by
    apply parseWire_wire
    intro x hx
    -- the keys are constants, and each value is a constant, sanitized, or a number
    have hkey : ∀ k ∈ actionKeys, ':' ∉ k.toList ∧ amiSafe k = true := by decide
    obtain ⟨hcolon, hsafe⟩ := hkey x.1 (List.mem_map_of_mem (f := Prod.fst) hx)
    exact ⟨hcolon, hsafe, amiSafe_action o hid (amiSafe_sanitizeAmiValue _)
      (amiSafe_sanitizeAmiValue _) _ _ x hx⟩
  obtain ⟨hlo, hhi⟩ := clampRepeat_bounds repeatCount
  exact ⟨hsubmits, hparse, rfl, _, hlo, hhi, rfl⟩

/-- Control characters in every text that a caller may choose. -/
theorem originate_roundtrip_sample :
    let action := (CallOriginator.init "trunk\r\nAction: Logoff" "100\n" false).action "id"
      (sanitizeAmiValue "0912\r\n\r\nAction: Hangup") (sanitizeAmiValue "12\x0034")
      (CallOriginator.clampRepeat 9) 30
    amiSafe "id" = true ∧ parseWire (wire action) = some [action] := by
  refine ⟨by decide, ?_⟩
  exact (originate_roundtrip "trunk\r\nAction: Logoff" "100\n" false "id"
    "0912\r\n\r\nAction: Hangup" "12\x0034" 9 30 (by decide)).2.1

end OtpVoice
