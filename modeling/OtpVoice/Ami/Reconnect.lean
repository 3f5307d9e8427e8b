import OtpVoice.Ami.Client

/-!
# The attempts of the AMI client

`_schedule_reconnect` is started by every disconnect of any Manager, and restarted by every failed
attempt; nothing cancels it or joins two of them. So the attempts under way can be counted, and the
client can only rest once a `connect` has returned.

- `ledger_step`: what one event does to the number of attempts under way.
- `trying_step`: a client that is not connected goes on, or waits for a login.
- `client_keeps_trying`: both over whole runs.
-/

set_option autoImplicit false

namespace OtpVoice

/-- The attempt has not returned. -/
def Attempt.underWay : Attempt → Bool
  | .returned => false
  | _ => true

/-- The client is not closed, and its event loop runs when it meets a disconnect. -/
def LinkEvent.Running : LinkEvent → Prop
  | .disconnect _ loopRunning => loopRunning = true
  | .close => False
  | _ => True

namespace Link

/-- The number of attempts under way. -/
def underWay (l : Link) : ℕ := l.attempts.countP Attempt.underWay

/-- The attempt is awaiting the `connect` of a Manager. -/
def connects (l : Link) (i : ℕ) : Bool :=
  match l.attempts[i]? with
  | some (.connecting _) => true
  | _ => false

/-- 1 for an event with which the `connect` of an attempt returns. -/
def returned (l : Link) : LinkEvent → ℕ
  | .connectEnds i false => if l.connects i then 1 else 0
  | _ => 0

/-- 1 for a disconnect that schedules a reconnect. -/
def rescheduled (l : Link) : LinkEvent → ℕ
  | .disconnect manager true => if manager < l.built then 1 else 0
  | _ => 0

/-- The sum of a quantity over the first `n` events. -/
def tally (f : Link → LinkEvent → ℕ) (es : List LinkEvent) : ℕ → ℕ
  | 0 => 0
  | n + 1 => tally f es n + es[n]?.elim 0 (f (after es n))

/-- Whether a `connect` has returned after the last failure, disconnect or `close`, from whether it
had before the event. -/
def establishes (l : Link) (before : Bool) : LinkEvent → Bool
  | .build i true => if l.attempts[i]? = some .pending then false else before
  | .connectEnds i raises => if l.connects i then !raises else before
  | .disconnect manager _ => if manager < l.built then false else before
  | .close => false
  | _ => before

/-- Whether a `connect` has returned after the last failure, disconnect or `close`. -/
def established (es : List LinkEvent) : ℕ → Bool
  | 0 => false
  | n + 1 => es[n]?.elim (established es n) (establishes (after es n) (established es n))

/-- The client is connected, an attempt is under way, or a Manager has been connected and waits for
its login. -/
def Trying (l : Link) (waits : Bool) : Prop :=
  l.client.connected = true ∨ 0 < l.underWay ∨ waits = true

section Steps

variable {l : Link} {i : ℕ}

theorem connects_iff : l.connects i = true ↔ ∃ m, l.attempts[i]? = some (.connecting m) := by
  simp only [connects]
  split
  · rename_i m ha
    exact iff_of_true rfl ⟨m, ha⟩
  · rename_i hno
    exact iff_of_false Bool.false_ne_true fun ⟨m, ha⟩ => hno m ha

/-- One attempt moves on. -/
theorem countP_set_attempt {a : Attempt} (ha : l.attempts[i]? = some a) (b : Attempt) :
    (l.attempts.set i b).countP Attempt.underWay + a.underWay.toNat =
      l.underWay + b.underWay.toNat := by
  obtain ⟨hi, rfl⟩ := List.getElem?_eq_some_iff.1 ha
  have hpos : l.attempts[i].underWay = true → 0 < l.attempts.countP Attempt.underWay := fun h =>
    List.countP_pos_iff.2 ⟨_, List.getElem_mem hi, h⟩
  rw [List.countP_set hi, underWay]
  cases hold : l.attempts[i].underWay <;> cases b.underWay <;> simp_all

/-- A failed attempt goes on. -/
theorem underWay_connectionFailed {a : Attempt} (ha : l.attempts[i]? = some a)
    (hunderWay : a.underWay = true) : (l.connectionFailed i).underWay = l.underWay := by
  have hset := countP_set_attempt ha .pending
  rw [hunderWay] at hset
  exact Nat.add_right_cancel hset

theorem underWay_doConnect (ha : l.attempts[i]? = some .pending) :
    (l.doConnect i).underWay = l.underWay :=
  Nat.add_right_cancel (countP_set_attempt ha (.connecting l.built))

/-- The end of an attempt. -/
theorem underWay_connectReturns {m : ℕ} (ha : l.attempts[i]? = some (.connecting m)) :
    (l.connectReturns i).underWay + 1 = l.underWay := by
  have hattempts : (l.connectReturns i).attempts = l.attempts.set i .returned := by
    simp only [connectReturns, initEventHandler]
    split
    · split <;> rfl
    · rfl
  rw [underWay, hattempts]
  exact countP_set_attempt ha .returned

theorem underWay_onDisconnect (l : Link) (loopRunning : Bool) :
    (l.onDisconnect loopRunning).underWay = l.underWay + loopRunning.toNat := by
  cases loopRunning <;> simp [underWay, onDisconnect, Attempt.underWay]

/-- An attempt under way is counted. -/
theorem underWay_pos {a : Attempt} (ha : l.attempts[i]? = some a) (hunderWay : a.underWay = true) :
    0 < l.underWay :=
  List.countP_pos_iff.2 ⟨a, List.mem_of_getElem? ha, hunderWay⟩

/-- Attempts begin with a disconnect and end with the return of a `connect`. -/
theorem ledger_step (l : Link) (ev : LinkEvent) :
    (l.step ev).underWay + l.returned ev = l.underWay + l.rescheduled ev := by
  cases ev with
  | build i raises =>
    simp only [step, returned, rescheduled]
    split
    · rename_i ha
      cases raises with
      | true => exact underWay_connectionFailed ha rfl
      | false => exact underWay_doConnect ha
    · rfl
  | connectEnds i raises =>
    simp only [step]
    split
    · rename_i m ha
      cases raises with
      | true => exact underWay_connectionFailed ha rfl
      | false =>
        rw [returned, if_pos (connects_iff.2 ⟨m, ha⟩)]
        exact underWay_connectReturns ha
    · rename_i hno
      have hconnects : ¬ l.connects i = true := fun h => (connects_iff.1 h).elim hno
      cases raises with
      | true => rfl
      | false => simp only [returned, if_neg hconnects, rescheduled]
  | login m =>
    simp only [step, returned, rescheduled]
    split <;> rfl
  | disconnect m loopRunning =>
    simp only [step, returned]
    split
    · rename_i hm
      rw [underWay_onDisconnect]
      cases loopRunning <;> simp [rescheduled, hm]
    · rename_i hm
      cases loopRunning <;> simp [rescheduled, hm]
  | close => rfl

/-- A client that goes on or waits does so after an event. -/
theorem trying_step {ev : LinkEvent} (hev : ev.Running) {waits : Bool} (h : l.Trying waits) :
    (l.step ev).Trying (l.establishes waits ev) := by
  cases ev with
  | build i raises =>
    by_cases ha : l.attempts[i]? = some .pending
    · -- the attempt is still under way, whether the constructor raises or not
      have hpos := underWay_pos ha rfl
      refine .inr (.inl ?_)
      simp only [step, if_pos ha]
      cases raises with
      | true => exact (underWay_connectionFailed ha rfl).symm ▸ hpos
      | false => exact (underWay_doConnect ha).symm ▸ hpos
    · simp only [step, if_neg ha]
      cases raises with
      | true => rwa [establishes, if_neg ha]
      | false => exact h
  | connectEnds i raises =>
    by_cases hconnects : l.connects i = true
    · obtain ⟨m, ha⟩ := connects_iff.1 hconnects
      cases raises with
      | true =>
        refine .inr (.inl ?_)
        simp only [step, ha, if_true]
        exact (underWay_connectionFailed ha rfl).symm ▸ underWay_pos ha rfl
      | false =>
        -- the login of the Manager comes next
        exact .inr (.inr (by rw [establishes, if_pos hconnects]; rfl))
    · have hidle : l.step (.connectEnds i raises) = l := by
        simp only [step]
        split
        · rename_i m ha
          exact absurd (connects_iff.2 ⟨m, ha⟩) hconnects
        · rfl
      rwa [hidle, establishes, if_neg hconnects]
  | login m =>
    simp only [step, establishes]
    split
    · exact .inl rfl
    · exact h
  | disconnect m loopRunning =>
    obtain rfl : loopRunning = true := hev
    simp only [step, establishes]
    split
    · refine .inr (.inl ?_)
      rw [underWay_onDisconnect]
      exact Nat.succ_pos _
    · exact h
  | close => exact absurd hev id

end Steps

/-! ## Runs -/

section Runs

variable (es : List LinkEvent)

theorem connect_ledger (n : ℕ) :
    (after es n).underWay + tally returned es n = 1 + tally rescheduled es n := by
  induction n with
  | zero => rfl
  | succ n ih =>
    cases hev : es[n]? with
    | none =>
      simp only [tally, hev, Option.elim_none, after_succ_of_none hev, Nat.add_zero]
      exact ih
    | some ev =>
      have hstep := ledger_step (after es n) ev
      simp only [tally, hev, Option.elim_some, after_succ hev]
      omega

variable {es} in
theorem trying_after {n : ℕ} (h : ∀ ev ∈ es.take n, ev.Running) :
    (after es n).Trying (established es n) := by
  induction n with
  | zero => exact .inr (.inl Nat.one_pos)
  | succ n ih =>
    have hbefore := ih fun ev hev => h ev (List.take_subset_take_left es (Nat.le_succ n) hev)
    cases hev : es[n]? with
    | none => simpa only [established, hev, Option.elim_none, after_succ_of_none hev] using hbefore
    | some ev =>
      rw [after_succ hev, established, hev]
      refine trying_step (h ev ?_) hbefore
      rw [List.take_add_one, hev]
      exact List.mem_append_right _ (List.mem_singleton_self ev)

/-- In every state of every run, the attempts under way and those whose `connect` has returned are
the one of `startup` and one for each disconnect that found the event loop running; and as long as
the loop runs and nobody closes the client, a client that is not connected has an attempt under way,
or a `connect` has returned since the last failure or disconnect, and its login is to come. -/
theorem client_keeps_trying :
    (∀ n, (after es n).underWay + tally returned es n = 1 + tally rescheduled es n) ∧
      ∀ n, (∀ ev ∈ es.take n, ev.Running) → (after es n).client.connected = false →
        0 < (after es n).underWay ∨ established es n = true := by
  refine ⟨connect_ledger es, fun n hrunning hconnected => ?_⟩
  exact (trying_after hrunning).resolve_left (by rw [hconnected]; exact Bool.false_ne_true)

end Runs

/-- After the disconnect of `reconnectRun` the attempt that it has scheduled is under way. -/
theorem client_keeps_trying_reconnect :
    (after reconnectRun 6).client.connected = false ∧
      (0 < (after reconnectRun 6).underWay ∨ established reconnectRun 6 = true) :=
  ⟨rfl, (client_keeps_trying reconnectRun).2 6 (by simp [reconnectRun, LinkEvent.Running]) rfl⟩

/-- Two disconnects of one Manager: two attempts are under way at the same time. -/
example : (after [.build 0 false, .connectEnds 0 false, .login 0, .disconnect 0 true, .login 0,
    .disconnect 0 true] 6).underWay = 2 := by decide

end Link

end OtpVoice
