import OtpVoice.Ami.Client

/-!
# The flag of the AMI connection

`is_connected` reads one flag, which the callbacks of every Manager ever built write. The flag
agrees with the Manager in place as long as no other Manager, no new Manager, no failed attempt and
no `close` interferes with a Manager that is logged in. `close` cancels nothing: it is final when no
attempt is left to go on and no Manager calls back.

- `connected_iff_online`: in every state of a run the flag says whether the Manager in place is
  logged in, if and only if each event of the run is `Undisturbed`.
- `connected_without_login`: a Manager that reconnects by itself and the scheduled reconnect.
- `close_final_iff`: no later event builds a Manager or connects the client, if and only if every
  attempt has returned at the time of `close` and no built Manager calls back.
- `close_not_final`: a reconnect that sleeps, and the disconnect that `close` brings about.
-/

set_option autoImplicit false

namespace OtpVoice.Link

/-! ## Logins of the Managers -/

/-- Whether Manager `m` is logged in after an event, from whether it was before. -/
def session (l : Link) (m : ℕ) (up : Bool) : LinkEvent → Bool
  | .login k => if k = m ∧ k < l.built then true else up
  | .disconnect k _ => if k = m ∧ k < l.built then false else up
  | _ => up

/-- Manager `m` has logged in during the first `n` events, and has not disconnected since. -/
def online (es : List LinkEvent) : ℕ → ℕ → Bool
  | 0, _ => false
  | n + 1, m =>
    match es[n]? with
    | some ev => session (after es n) m (online es n m) ev
    | none => online es n m

/-- The Manager in place is logged in. -/
def CurrentOnline (es : List LinkEvent) (n : ℕ) : Prop :=
  ∃ m, (after es n).client.manager = some m ∧ online es n m = true

/-- The `n`-th event leaves the flag right: a login or a disconnect is one of the Manager in place,
or finds it in the state that the flag takes; an attempt that goes on or fails, and `close`, find it
logged out. -/
def Undisturbed (es : List LinkEvent) (n : ℕ) : Prop :=
  match es[n]? with
  | some (.build i _) => (after es n).attempts[i]? = some .pending → ¬ CurrentOnline es n
  | some (.connectEnds i raises) =>
    (∃ m, (after es n).attempts[i]? = some (.connecting m)) → raises = true → ¬ CurrentOnline es n
  | some (.login m) =>
    m < (after es n).built → (after es n).client.manager = some m ∨ CurrentOnline es n
  | some (.disconnect m _) =>
    m < (after es n).built → (after es n).client.manager = some m ∨ ¬ CurrentOnline es n
  | some .close => ¬ CurrentOnline es n
  | none => True

section Flag

variable {es : List LinkEvent} {n : ℕ}

/-- Managers are not taken back. -/
theorem built_le_step (l : Link) (ev : LinkEvent) : l.built ≤ (l.step ev).built := by
  have heffect := l.step_effect ev
  generalize l.step ev = l' at heffect
  cases heffect with
  | connects i hev ha => exact Nat.le_succ _
  | returns i m ha =>
    simp only [Link.connectReturns, initEventHandler]
    split
    · split <;> exact le_rfl
    · exact le_rfl
  | _ => exact le_rfl

theorem online_succ {ev : LinkEvent} (h : es[n]? = some ev) (m : ℕ) :
    online es (n + 1) m = session (after es n) m (online es n m) ev := by
  simp only [online, h]

theorem online_succ_of_none (h : es[n]? = none) (m : ℕ) :
    online es (n + 1) m = online es n m := by
  simp only [online, h]

/-- Only built Managers log in. -/
theorem online_lt {m : ℕ} (h : online es n m = true) : m < (after es n).built := by
  induction n with
  | zero => cases h
  | succ n ih =>
    cases hev : es[n]? with
    | none =>
      rw [online_succ_of_none hev] at h
      rw [after_succ_of_none hev]
      exact ih h
    | some ev =>
      rw [online_succ hev] at h
      rw [after_succ hev]
      have hbefore : m < (after es n).built := by
        cases ev with
        | login k =>
          simp only [session] at h
          split at h
          · rename_i hk
            rw [← hk.1]
            exact hk.2
          · exact ih h
        | disconnect k loopRunning =>
          simp only [session] at h
          split at h
          · cases h
          · exact ih h
        | _ => exact ih h
      exact hbefore.trans_le (built_le_step _ ev)

/-- An event that calls back for no Manager and leaves the one in place. -/
theorem currentOnline_succ {ev : LinkEvent} (hev : es[n]? = some ev)
    (hsession : ∀ m up, session (after es n) m up ev = up)
    (hmanager : ((after es n).step ev).client.manager = (after es n).client.manager) :
    CurrentOnline es (n + 1) ↔ CurrentOnline es n := by
  simp only [CurrentOnline, online_succ hev, after_succ hev, hsession, hmanager]

/-- An event that does nothing. -/
theorem flag_idle {ev : LinkEvent} (hev : es[n]? = some ev)
    (hsession : ∀ m up, session (after es n) m up ev = up)
    (hstep : (after es n).step ev = after es n) :
    ((after es (n + 1)).client.connected = true ↔ CurrentOnline es (n + 1)) ↔
      ((after es n).client.connected = true ↔ CurrentOnline es n) := by
  rw [currentOnline_succ hev hsession (by rw [hstep]), after_succ hev, hstep]

/-- A new Manager is not logged in. -/
theorem not_currentOnline_build {i : ℕ} (hev : es[n]? = some (.build i false))
    (hpending : (after es n).attempts[i]? = some .pending) : ¬ CurrentOnline es (n + 1) := by
  rintro ⟨m, hm, hup⟩
  rw [after_succ hev] at hm
  simp only [step, hpending, if_true, Bool.false_eq_true, if_false, doConnect,
    Option.some.injEq] at hm
  rw [online_succ hev] at hup
  exact absurd (online_lt hup) (by omega)

theorem currentOnline_login {k : ℕ} (hev : es[n]? = some (.login k)) (hk : k < (after es n).built) :
    CurrentOnline es (n + 1) ↔ (after es n).client.manager = some k ∨ CurrentOnline es n := by
  simp only [CurrentOnline, online_succ hev, after_succ hev, step, hk, if_true, onLogin, session,
    and_true]
  constructor
  · rintro ⟨m, hm, hup⟩
    -- the Manager in place is the one that calls back, or its session is as before
    by_cases hkm : k = m
    · exact .inl (hkm ▸ hm)
    · rw [if_neg hkm] at hup
      exact .inr ⟨m, hm, hup⟩
  · rintro (hm | ⟨m, hm, hup⟩)
    · exact ⟨k, hm, if_pos rfl⟩
    · exact ⟨m, hm, by simp [hup]⟩

theorem currentOnline_disconnect {k : ℕ} {loopRunning : Bool}
    (hev : es[n]? = some (.disconnect k loopRunning)) (hk : k < (after es n).built) :
    CurrentOnline es (n + 1) ↔ (after es n).client.manager ≠ some k ∧ CurrentOnline es n := by
  simp only [CurrentOnline, online_succ hev, after_succ hev, step, hk, if_true, onDisconnect,
    session, and_true]
  constructor
  · rintro ⟨m, hm, hup⟩
    by_cases hkm : k = m
    · simp [hkm] at hup
    · rw [if_neg hkm] at hup
      refine ⟨?_, m, hm, hup⟩
      rw [hm]
      exact fun h => hkm (Option.some.inj h).symm
  · rintro ⟨hne, m, hm, hup⟩
    have hkm : k ≠ m := by
      rintro rfl
      exact hne hm
    exact ⟨m, hm, by rw [if_neg hkm]; exact hup⟩

/-- A right flag stays right over one event if and only if the event is undisturbed. The cases are
the parts of the code that the event can run. -/
theorem flag_succ (h : (after es n).client.connected = true ↔ CurrentOnline es n) :
    ((after es (n + 1)).client.connected = true ↔ CurrentOnline es (n + 1)) ↔
      Undisturbed es n := by
  cases hev : es[n]? with
  | none =>
    have hsame : CurrentOnline es (n + 1) ↔ CurrentOnline es n := by
      simp only [CurrentOnline, online_succ_of_none hev, after_succ_of_none hev]
    simp only [Undisturbed, hev, after_succ_of_none hev, hsame, h]
  | some ev =>
    simp only [Undisturbed, hev]
    cases ev with
    | build i raises =>
      by_cases hpending : (after es n).attempts[i]? = some .pending
      · cases raises with
        | true =>
          -- the constructor raises, and the old Manager stays in place
          rw [currentOnline_succ hev (fun m up => rfl)
            (by simp [step, hpending, connectionFailed]), after_succ hev]
          simp [step, hpending, connectionFailed]
        | false =>
          -- the new Manager takes the place of the old one, and the flag stays as it is
          have hnew := not_currentOnline_build hev hpending
          rw [after_succ hev]
          simp [step, hpending, doConnect, hnew, h]
      · rw [flag_idle hev (fun m up => rfl) (by simp [step, hpending])]
        simp [hpending, h]
    | connectEnds i raises =>
      by_cases hconnecting : ∃ m, (after es n).attempts[i]? = some (.connecting m)
      · obtain ⟨m, ha⟩ := hconnecting
        cases raises with
        | true =>
          -- a failed attempt clears the flag
          rw [currentOnline_succ hev (fun m up => rfl) (by simp [step, ha, connectionFailed]),
            after_succ hev]
          simp [step, ha, connectionFailed]
        | false =>
          rw [currentOnline_succ hev (fun m up => rfl) (by simp [step, ha, client_connectReturns]),
            after_succ hev]
          simp [step, ha, client_connectReturns, h]
      · have hidle : (after es n).step (.connectEnds i raises) = after es n := by
          simp only [step]
          split
          · rename_i m ha
            exact absurd ⟨m, ha⟩ hconnecting
          · rfl
        rw [flag_idle hev (fun m up => rfl) hidle]
        simp [hconnecting, h]
    | login k =>
      by_cases hk : k < (after es n).built
      · rw [currentOnline_login hev hk, after_succ hev]
        simp [step, hk, onLogin]
      · rw [flag_idle hev (fun m up => by simp [session, hk]) (by simp [step, hk])]
        simp [hk, h]
    | disconnect k loopRunning =>
      by_cases hk : k < (after es n).built
      · -- the flag is cleared, whichever Manager calls back
        rw [currentOnline_disconnect hev hk, after_succ hev]
        simp only [step, hk, if_true, onDisconnect, Bool.false_eq_true, false_iff, true_imp_iff]
        tauto
      · rw [flag_idle hev (fun m up => by simp [session, hk]) (by simp [step, hk])]
        simp [hk, h]
    | close =>
      rw [currentOnline_succ hev (fun m up => rfl) rfl, after_succ hev]
      simp [step, Link.close]

/-- In every state of a run the client says that it is connected exactly when the Manager in place
has logged in and has not disconnected since, if and only if every event is undisturbed. -/
theorem connected_iff_online (es : List LinkEvent) :
    (∀ n, (after es n).client.connected = true ↔ CurrentOnline es n) ↔ ∀ n, Undisturbed es n := by
  constructor
  · intro h n
    exact (flag_succ (h n)).1 (h (n + 1))
  · intro h n
    induction n with
    | zero =>
      constructor
      · intro hconn
        cases hconn
      · rintro ⟨m, hm, -⟩
        cases hm
    | succ n ih => exact (flag_succ ih).2 (h n)

end Flag

/-! ## The shutdown -/

/-- The state at the end of a run. -/
def final (es : List LinkEvent) : Link := es.foldl step initial

/-- Only the Managers that are `alive` call back. -/
def CallsBack (alive : ℕ → Prop) : LinkEvent → Prop
  | .login m => alive m
  | .disconnect m _ => alive m
  | _ => True

/-- Nothing can go on: every attempt has returned, and no built Manager is alive. -/
structure AtRest (alive : ℕ → Prop) (l : Link) : Prop where
  returned : ∀ a ∈ l.attempts, a = .returned
  silent : ∀ m < l.built, ¬ alive m

section Close

variable {alive : ℕ → Prop} {l : Link}

/-- At rest, no event but `close` does anything. -/
theorem AtRest.step_eq (h : AtRest alive l) {ev : LinkEvent} (hev : CallsBack alive ev) :
    l.step ev = l ∨ l.step ev = l.close := by
  cases ev with
  | build i raises =>
    left
    simp only [step]
    split
    · rename_i ha
      cases h.returned _ (List.mem_of_getElem? ha)
    · rfl
  | connectEnds i raises =>
    left
    simp only [step]
    split
    · rename_i m ha
      cases h.returned _ (List.mem_of_getElem? ha)
    · rfl
  | login m => exact .inl (if_neg fun hm => h.silent m hm hev)
  | disconnect m loopRunning => exact .inl (if_neg fun hm => h.silent m hm hev)
  | close => exact .inr rfl

/-- A closed client at rest stays as it is. -/
theorem AtRest.foldl (h : AtRest alive l) (hclosed : l.client.connected = false)
    {later : List LinkEvent} (hlater : ∀ ev ∈ later, CallsBack alive ev) :
    (later.foldl step l).built = l.built ∧ (later.foldl step l).client.connected = false := by
  induction later generalizing l with
  | nil => exact ⟨rfl, hclosed⟩
  | cons ev later ih =>
    have hrest : ∀ ev ∈ later, CallsBack alive ev :=
      fun ev hmem => hlater ev (List.mem_cons_of_mem _ hmem)
    rw [List.foldl_cons]
    rcases h.step_eq (hlater ev List.mem_cons_self) with heq | heq
    · rw [heq]
      exact ih h hclosed hrest
    · rw [heq]
      exact ih (l := l.close) ⟨h.returned, h.silent⟩ rfl hrest

/-- An attempt in its sleep builds a Manager when it wakes up. -/
theorem built_build {i : ℕ} (hpending : l.attempts[i]? = some .pending) :
    (l.step (.build i false)).built = l.built + 1 := by
  simp [step, hpending, doConnect]

/-- The `connect` of an attempt fails, and the attempt sleeps. -/
theorem pending_connectEnds {i m : ℕ} (ha : l.attempts[i]? = some (.connecting m)) :
    (l.step (.connectEnds i true)).built = l.built ∧
      (l.step (.connectEnds i true)).attempts[i]? = some .pending := by
  have hlt : i < l.attempts.length := (List.getElem?_eq_some_iff.1 ha).1
  have heq : l.step (.connectEnds i true) = l.connectionFailed i := by simp only [step, ha, if_true]
  rw [heq]
  exact ⟨rfl, List.getElem?_set_self hlt⟩

/-- A disconnect starts one more attempt. -/
theorem pending_disconnect {m : ℕ} (hm : m < l.built) :
    (l.step (.disconnect m true)).built = l.built ∧
      (l.step (.disconnect m true)).attempts[l.attempts.length]? = some .pending := by
  simp [step, hm, onDisconnect]

/-- Where something can go on, some continuation builds a Manager. -/
theorem exists_builds (h : ¬ AtRest alive l) :
    ∃ later : List LinkEvent, (∀ ev ∈ later, CallsBack alive ev) ∧
      (later.foldl step l).built = l.built + 1 := by
  by_cases hreturned : ∀ a ∈ l.attempts, a = .returned
  · -- some Manager is alive, and disconnects
    have hsilent : ¬ ∀ m < l.built, ¬ alive m := fun hsilent => h ⟨hreturned, hsilent⟩
    push Not at hsilent
    obtain ⟨m, hm, halive⟩ := hsilent
    obtain ⟨hbuilt, hpending⟩ := pending_disconnect hm
    refine ⟨[.disconnect m true, .build l.attempts.length false], ?_, ?_⟩
    · simp [CallsBack, halive]
    · rw [List.foldl_cons, List.foldl_cons, List.foldl_nil, built_build hpending, hbuilt]
  · push Not at hreturned
    obtain ⟨a, ha, hne⟩ := hreturned
    obtain ⟨i, hi⟩ := List.mem_iff_getElem?.1 ha
    cases a with
    | pending =>
      refine ⟨[.build i false], ?_, built_build hi⟩
      simp [CallsBack]
    | connecting m =>
      obtain ⟨hbuilt, hpending⟩ := pending_connectEnds hi
      refine ⟨[.connectEnds i true, .build i false], ?_, ?_⟩
      · simp [CallsBack]
      · rw [List.foldl_cons, List.foldl_cons, List.foldl_nil, built_build hpending, hbuilt]
    | returned => exact absurd rfl hne

/-- No continuation of a run after `close`, whatever the order of the pending steps and of the
callbacks of the Managers that are alive, builds a Manager or connects the client, if and only if at
the time of `close` every attempt has returned and no built Manager is alive. -/
theorem close_final_iff (es : List LinkEvent) (alive : ℕ → Prop) :
    (∀ later, (∀ ev ∈ later, CallsBack alive ev) →
        (final (es ++ .close :: later)).built = (final es).built ∧
          (final (es ++ .close :: later)).client.connected = false) ↔
      (∀ a ∈ (final es).attempts, a = .returned) ∧ ∀ m < (final es).built, ¬ alive m := by
  have hsplit : ∀ later, final (es ++ .close :: later) = later.foldl step (final es).close := by
    intro later
    rw [final, List.foldl_append, List.foldl_cons]
    rfl
  simp only [hsplit]
  constructor
  · intro h
    by_contra hnot
    have hbusy : ¬ AtRest alive (final es).close :=
      fun hrest => hnot ⟨hrest.returned, hrest.silent⟩
    obtain ⟨later, hlater, hbuilt⟩ := exists_builds hbusy
    have hsame := (h later hlater).1
    rw [hbuilt] at hsame
    exact absurd hsame (Nat.succ_ne_self _)
  · rintro ⟨hreturned, hsilent⟩ later hlater
    have hrest : AtRest alive (final es).close := ⟨hreturned, hsilent⟩
    exact hrest.foldl rfl hlater

end Close

end OtpVoice.Link

namespace OtpVoice

/-- The first Manager logs in, loses its connection and makes it again by itself, before the
scheduled reconnect builds the second one. -/
def selfReconnectRun : List LinkEvent :=
  [.build 0 false, .connectEnds 0 false, .login 0, .disconnect 0 true, .login 0, .build 1 false]

/-- The client is connected, through a Manager that is not logged in. -/
theorem connected_without_login :
    (Link.after selfReconnectRun 6).client = ⟨some 1, true⟩ ∧
      Link.online selfReconnectRun 6 1 = false ∧
      ¬ ∀ n, (Link.after selfReconnectRun n).client.connected = true ↔
        Link.CurrentOnline selfReconnectRun n := by
  refine ⟨rfl, rfl, fun h => ?_⟩
  obtain ⟨m, hm, hup⟩ := (h 6).1 rfl
  obtain rfl : 1 = m := Option.some.inj hm
  cases hup

/-- The client is connected, and no attempt is under way. -/
def connectedRun : List LinkEvent := [.build 0 false, .connectEnds 0 false, .login 0]

/-- A reconnect that sleeps while the client is closed goes on; and the disconnect of a closed
Manager schedules one. -/
theorem close_not_final :
    (Link.final (connectedRun ++ [.disconnect 0 true])).built = 1 ∧
      (Link.final (connectedRun ++ [.disconnect 0 true] ++
        [.close, .build 1 false, .login 1])).built = 2 ∧
      (Link.final (connectedRun ++ [.disconnect 0 true] ++
        [.close, .build 1 false, .login 1])).client = ⟨some 1, true⟩ ∧
      (Link.final connectedRun).attempts = [.returned] ∧
      (Link.final (connectedRun ++
        [.close, .disconnect 0 true, .build 1 false, .login 1])).client = ⟨some 1, true⟩ :=
  ⟨rfl, rfl, rfl, rfl, rfl⟩

end OtpVoice
