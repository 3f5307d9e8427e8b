import OtpVoice.Core.Quota

/-!
# The limiter against its full log

`FullLog` is the rate limiter as it is meant: it keeps every accepted check for ever, and accepts a
check if fewer than its limit were accepted in the window. The limiter of the source prunes its logs
in both checks and in `cleanup`, and deletes keys. `Follows` relates the two at a time; each method
keeps it (`Follows.serve`), so every sequence of calls with a nondecreasing clock gets the same
decisions from both (`decisions_eq_fullLog`).
-/

set_option autoImplicit false

namespace OtpVoice

open SlidingWindow

deriving instance DecidableEq for LimiterOp

/-- The methods that decide by a log. -/
def LimiterOp.checks : LimiterOp → Bool
  | .hourly | .number _ => true
  | _ => false

/-- The methods that read or write a log. -/
def LimiterOp.logged (op : LimiterOp) : Bool := op.checks || op = .cleanup

/-- A limiter that keeps the times of all accepted checks, with the limit and the window of each
check. -/
structure FullLog where
  limit : LimiterOp → ℕ
  width : LimiterOp → Time
  entries : LimiterOp → List Time

namespace FullLog

/-- Fewer accepted checks than the limit lie in the window that ends at `now`. -/
def room (log : FullLog) (op : LimiterOp) (now : Time) : Bool :=
  (log.entries op).countP (fun t => now - log.width op < t) < log.limit op

/-- The decision of a check and its entry; nothing is ever dropped. -/
def serve (log : FullLog) (op : LimiterOp) (now : Time) : Option Bool × FullLog :=
  if op.checks then
    if log.room op now then
      (some true, { log with
        entries := Function.update log.entries op (log.entries op ++ [now]) })
    else (some false, log)
  else (none, log)

/-- The decisions of a sequence of calls with their times. -/
def decisions (log : FullLog) : List (LimiterOp × Time) → List (Option Bool)
  | [] => []
  | (op, now) :: rest => (log.serve op now).1 :: decisions (log.serve op now).2 rest

/-- The log after a sequence of calls. -/
def after (log : FullLog) (ops : List (LimiterOp × Time)) : FullLog :=
  ops.foldl (fun log x => (log.serve x.1 x.2).2) log

end FullLog

/-- The times of the accepted checks `op` in a sequence of calls with the given decisions. -/
def accepted (op : LimiterOp) (ops : List (LimiterOp × Time)) (answers : List (Option Bool)) :
    List Time :=
  ((ops.zip answers).filter fun x => x.1.1 = op ∧ x.2 = some true).map fun x => x.1.2

theorem accepted_cons (op : LimiterOp) (x : LimiterOp × Time) (ops : List (LimiterOp × Time))
    (answer : Option Bool) (answers : List (Option Bool)) :
    accepted op (x :: ops) (answer :: answers) =
      (if x.1 = op ∧ answer = some true then [x.2] else []) ++ accepted op ops answers := by
  unfold accepted
  rw [List.zip_cons_cons, List.filter_cons]
  by_cases h : x.1 = op ∧ answer = some true
  · simp [h.1, h.2]
  · simp [h]

/-- The accepted checks are some of the calls. -/
theorem accepted_sublist (op : LimiterOp) (ops : List (LimiterOp × Time))
    (answers : List (Option Bool)) : (accepted op ops answers).Sublist (ops.map Prod.snd) := by
  induction ops generalizing answers with
  | nil => simp [accepted]
  | cons x ops ih =>
    cases answers with
    | nil => simp [accepted]
    | cons answer answers =>
      rw [accepted_cons, List.map_cons]
      split
      · exact (ih answers).cons_cons x.2
      · exact (ih answers).cons x.2

namespace FullLog

variable {log log' : FullLog} {op : LimiterOp} {now : Time}

theorem room_iff : log.room op now = true ↔
    (prune (log.width op) now (log.entries op)).length < log.limit op := by
  rw [room, decide_eq_true_eq, List.countP_eq_length_filter, prune]

theorem serve_limit (log : FullLog) (op : LimiterOp) (now : Time) :
    (log.serve op now).2.limit = log.limit ∧ (log.serve op now).2.width = log.width := by
  unfold serve
  split
  · split <;> exact ⟨rfl, rfl⟩
  · exact ⟨rfl, rfl⟩

/-- A call adds its time to the entries of its own check, if it is accepted. -/
theorem serve_entries (log : FullLog) (op op' : LimiterOp) (now : Time) :
    (log.serve op now).2.entries op' = log.entries op' ++
      if op = op' ∧ (log.serve op now).1 = some true then [now] else [] := by
  unfold serve
  split
  · split
    · by_cases hop : op = op'
      · subst hop
        simp
      · simp [hop, Function.update_of_ne (Ne.symm hop)]
    · simp
  · simp

/-- The decision of a check depends on its own entries only. -/
theorem serve_congr (hlimit : log'.limit = log.limit) (hwidth : log'.width = log.width)
    (hentries : log'.entries op = log.entries op) :
    (log'.serve op now).1 = (log.serve op now).1 := by
  have hroom : log'.room op now = log.room op now := by
    simp only [room, hlimit, hwidth, hentries]
  simp only [serve, hroom]
  split
  · split <;> rfl
  · rfl

/-- The entries of a check are its accepted calls. -/
theorem entries_after (log : FullLog) (op : LimiterOp) (ops : List (LimiterOp × Time)) :
    (log.after ops).entries op = log.entries op ++ accepted op ops (log.decisions ops) := by
  induction ops generalizing log with
  | nil => simp [after, accepted]
  | cons x ops ih =>
    have hafter : log.after (x :: ops) = (log.serve x.1 x.2).2.after ops := rfl
    rw [hafter, ih, serve_entries, decisions, accepted_cons, List.append_assoc]

/-- The decision of a call, given the calls before it. -/
theorem decisions_getElem (log : FullLog) (pre post : List (LimiterOp × Time)) (op : LimiterOp)
    (now : Time) : (log.decisions (pre ++ (op, now) :: post))[pre.length]? =
      some ((log.after pre).serve op now).1 := by
  induction pre generalizing log with
  | nil => rfl
  | cons x pre ih => exact ih _

/-- A check is accepted if there is room for it. -/
theorem serve_check (hop : op.checks = true) :
    (log.serve op now).1 = some (log.room op now) := by
  rw [serve, if_pos hop]
  cases log.room op now <;> rfl

theorem after_limit (log : FullLog) (ops : List (LimiterOp × Time)) :
    (log.after ops).limit = log.limit ∧ (log.after ops).width = log.width := by
  induction ops generalizing log with
  | nil => exact ⟨rfl, rfl⟩
  | cons x ops ih =>
    obtain ⟨hlimit, hwidth⟩ := ih (log.serve x.1 x.2).2
    obtain ⟨hlimit', hwidth'⟩ := log.serve_limit x.1 x.2
    exact ⟨hlimit.trans hlimit', hwidth.trans hwidth'⟩

/-- The accepted calls of a check alone, in place of all calls, leave the same entries. -/
theorem entries_replay {ops : List (LimiterOp × Time)} (hlimit : log'.limit = log.limit)
    (hwidth : log'.width = log.width) (hentries : log'.entries op = log.entries op) :
    (log'.after ((accepted op ops (log.decisions ops)).map fun t => (op, t))).entries op =
      (log.after ops).entries op := by
  induction ops generalizing log log' with
  | nil => exact hentries
  | cons x ops ih =>
    obtain ⟨hlimit', hwidth'⟩ := log.serve_limit x.1 x.2
    have hafter : log.after (x :: ops) = (log.serve x.1 x.2).2.after ops := rfl
    rw [hafter, decisions, accepted_cons]
    by_cases h : x.1 = op ∧ (log.serve x.1 x.2).1 = some true
    · -- an accepted call of this check: both logs take it
      obtain ⟨rfl, hanswer⟩ := h
      have hsame := (serve_congr hlimit hwidth hentries).trans hanswer
      obtain ⟨hlimit₂, hwidth₂⟩ := log'.serve_limit x.1 x.2
      rw [if_pos ⟨rfl, hanswer⟩]
      refine ih (hlimit₂.trans (hlimit.trans hlimit'.symm))
        (hwidth₂.trans (hwidth.trans hwidth'.symm)) ?_
      rw [serve_entries, serve_entries, hentries, hsame, hanswer]
    · -- any other call leaves the entries as they are
      rw [if_neg h, List.nil_append]
      refine ih (hlimit.trans hlimit'.symm) (hwidth.trans hwidth'.symm) ?_
      rw [serve_entries, if_neg h, List.append_nil, hentries]

end FullLog

namespace RateLimiter

/-- The limits of the checks. -/
def limitOf (rl : RateLimiter) : LimiterOp → ℕ
  | .number _ => rl.perNumberCalls
  | _ => rl.hourlyLimit

/-- The windows of the checks. -/
def widthOf (rl : RateLimiter) : LimiterOp → Time
  | .number _ => rl.perNumberWindow
  | _ => 3600

/-- The full log with the limits of a limiter, and no accepted check. -/
def fullLog (rl : RateLimiter) : FullLog := ⟨rl.limitOf, rl.widthOf, fun _ => []⟩

/-- The limiter and the full log have the same limits and agree on every window from `now` on. -/
structure Follows (rl : RateLimiter) (log : FullLog) (now : Time) : Prop where
  positive : 1 ≤ rl.perNumberCalls
  limit : log.limit = rl.limitOf
  width : log.width = rl.widthOf
  audited : rl.Audited now (log.entries .hourly) fun mobile => log.entries (.number mobile)

theorem follows_init {perNumberCalls : ℕ} (hcalls : 1 ≤ perNumberCalls) (minutes : ℤ)
    (maxConcurrent hourlyLimit : ℕ) (now : Time) :
    (init perNumberCalls minutes maxConcurrent hourlyLimit).Follows
      (init perNumberCalls minutes maxConcurrent hourlyLimit).fullLog now :=
  ⟨hcalls, rfl, rfl, audited_init _ _ _ _ _⟩

variable {rl : RateLimiter} {log : FullLog} {now now' : Time}

theorem Follows.later (h : rl.Follows log now) (hle : now ≤ now') : rl.Follows log now' :=
  ⟨h.positive, h.limit, h.width, h.audited.later hle⟩

/-! ## One call -/

/-- The hourly check decides as the full log does. -/
theorem Follows.hourly_decision (h : rl.Follows log now) :
    (rl.checkHourlyLimit now).1.1 = log.room .hourly now := by
  rw [Bool.eq_iff_iff, FullLog.room_iff, h.limit, h.width]
  simp only [limitOf, widthOf]
  rw [← h.audited.hourly now le_rfl]
  rcases le_or_gt rl.hourlyLimit (prune 3600 now rl.hourlyCalls).length with hfull | hroom
  · rw [(rl.checkHourlyLimit_full now hfull).1]
    simpa using hfull
  · rw [rl.checkHourlyLimit_room now hroom]
    simpa using hroom

/-- The check of a number decides as the full log does. -/
theorem Follows.number_decision (h : rl.Follows log now) (mobile : String) :
    passes (rl.checkNumberLimit mobile now).1 = log.room (.number mobile) now := by
  rw [Bool.eq_iff_iff, FullLog.room_iff, h.limit, h.width]
  simp only [limitOf, widthOf]
  rw [← h.audited.number mobile now le_rfl]
  rcases le_or_gt rl.perNumberCalls
    (prune (rl.perNumberWindow : Time) now (rl.history mobile)).length with hfull | hroom
  · rw [(rl.checkNumberLimit_full mobile now hfull).1]
    simpa using hfull
  · rw [rl.checkNumberLimit_room mobile now hroom]
    simpa [passes] using hroom

/-- With a positive limit the check of a number always decides. -/
theorem toOption_checkNumberLimit (hcalls : 1 ≤ rl.perNumberCalls) (mobile : String) (now : Time) :
    (rl.checkNumberLimit mobile now).1.toOption.map Prod.fst =
      some (passes (rl.checkNumberLimit mobile now).1) := by
  simp only [checkNumberLimit]
  split
  · split
    · -- a full window that is empty: the limit would be 0
      rename_i hfull _ hnil
      rw [hnil, List.length_nil] at hfull
      omega
    · rfl
  · rfl

/-- No method changes a limit or a window. -/
theorem serve_limits (rl : RateLimiter) (op : LimiterOp) (now : Time) :
    (rl.serve op now).2.perNumberCalls = rl.perNumberCalls ∧
      (rl.serve op now).2.perNumberWindow = rl.perNumberWindow ∧
      (rl.serve op now).2.hourlyLimit = rl.hourlyLimit := by
  cases op with
  | hourly =>
    simp only [serve, checkHourlyLimit]
    split <;> exact ⟨rfl, rfl, rfl⟩
  | number mobile =>
    simp only [serve, checkNumberLimit]
    split
    · split <;> exact ⟨rfl, rfl, rfl⟩
    · exact ⟨rfl, rfl, rfl⟩
  | release =>
    simp only [serve, releaseSlot]
    split <;> exact ⟨rfl, rfl, rfl⟩
  | _ => exact ⟨rfl, rfl, rfl⟩

/-- The decision of a logged method. -/
theorem Follows.answer (h : rl.Follows log now) {op : LimiterOp} (hop : op.logged = true) :
    (rl.serve op now).1 = (log.serve op now).1 := by
  cases op with
  | hourly =>
    rw [FullLog.serve_check rfl, ← h.hourly_decision]
    rfl
  | number mobile =>
    rw [FullLog.serve_check rfl, ← h.number_decision]
    exact toOption_checkNumberLimit h.positive mobile now
  | cleanup => rfl
  | _ => cases hop

/-- The histories after a call are the entries of the full log after it. -/
theorem Follows.serve_audited (h : rl.Follows log now) (op : LimiterOp) :
    (rl.serve op now).2.Audited now ((log.serve op now).2.entries .hourly)
      fun mobile => (log.serve op now).2.entries (.number mobile) := by
  cases op with
  | hourly =>
    have hkeeps := h.audited.checkHourlyLimit
    rw [h.hourly_decision] at hkeeps
    simp only [RateLimiter.serve, FullLog.serve, LimiterOp.checks, if_true]
    cases hroom : log.room .hourly now with
    | true =>
      rw [hroom] at hkeeps
      simpa using hkeeps
    | false =>
      rw [hroom] at hkeeps
      simpa using hkeeps
  | number mobile =>
    have hkeeps := h.audited.checkNumberLimit mobile
    rw [h.number_decision] at hkeeps
    simp only [RateLimiter.serve, FullLog.serve, LimiterOp.checks, if_true]
    cases hroom : log.room (.number mobile) now with
    | true =>
      rw [hroom, if_pos rfl] at hkeeps
      -- an entry for the number is an entry of its history and of no other one
      have hnumbers : (fun m => Function.update log.entries (.number mobile)
          (log.entries (.number mobile) ++ [now]) (.number m)) =
            Function.update (fun m => log.entries (.number m)) mobile
              (log.entries (.number mobile) ++ [now]) := by
        funext m
        by_cases hm : m = mobile
        · subst hm
          simp
        · rw [Function.update_of_ne hm, Function.update_of_ne (by simpa using hm)]
      simpa [hnumbers] using hkeeps
    | false =>
      rw [hroom] at hkeeps
      simpa using hkeeps
  | cleanup => exact h.audited.cleanup
  | release =>
    simp only [RateLimiter.serve, releaseSlot]
    split
    · exact ⟨h.audited.hourly, h.audited.hourly_bounded, h.audited.number,
        h.audited.number_bounded⟩
    · exact h.audited
  | _ =>
    exact ⟨h.audited.hourly, h.audited.hourly_bounded, h.audited.number,
      h.audited.number_bounded⟩

/-- The two go on together. -/
theorem Follows.serve (h : rl.Follows log now) (op : LimiterOp) :
    (rl.serve op now).2.Follows (log.serve op now).2 now := by
  obtain ⟨hcalls, hwindow, hhourly⟩ := rl.serve_limits op now
  obtain ⟨hlimit, hwidth⟩ := log.serve_limit op now
  refine ⟨?_, ?_, ?_, h.serve_audited op⟩
  · rw [hcalls]
    exact h.positive
  · rw [hlimit, h.limit]
    funext x
    cases x <;> simp [limitOf, hcalls, hhourly]
  · rw [hwidth, h.width]
    funext x
    cases x <;> simp [widthOf, hwindow]

/-! ## Sequences of calls -/

/-- The times of the calls never decrease. -/
def Clocked (ops : List (LimiterOp × Time)) : Prop := ops.Pairwise fun x y => x.2 ≤ y.2

/-- A limiter that follows a full log decides as it does, as long as the clock does not go back. -/
theorem Follows.decisions (h : rl.Follows log now) {ops : List (LimiterOp × Time)}
    (hlogged : ∀ x ∈ ops, x.1.logged = true) (hnow : ∀ x ∈ ops, now ≤ x.2)
    (hclock : Clocked ops) : rl.decisions ops = log.decisions ops := by
  induction ops generalizing rl log now with
  | nil => rfl
  | cons x ops ih =>
    obtain ⟨hhead, htail⟩ := List.pairwise_cons.1 hclock
    have hx := h.later (hnow x List.mem_cons_self)
    have hanswer := hx.answer (hlogged x List.mem_cons_self)
    have hrest := ih (hx.serve x.1) (fun y hy => hlogged y (List.mem_cons_of_mem _ hy)) hhead htail
    rw [RateLimiter.decisions, FullLog.decisions, hanswer, hrest]

/-- The limiter after a sequence of calls. -/
def after (rl : RateLimiter) (ops : List (LimiterOp × Time)) : RateLimiter :=
  ops.foldl (fun rl x => (rl.serve x.1 x.2).2) rl

/-- A limiter goes on to follow a full log as long as the clock does not go back. -/
theorem Follows.after (h : rl.Follows log now) {ops : List (LimiterOp × Time)}
    (hnow : ∀ x ∈ ops, now ≤ x.2) (hclock : Clocked ops) (hle : now ≤ now')
    (hlast : ∀ x ∈ ops, x.2 ≤ now') : (rl.after ops).Follows (log.after ops) now' := by
  induction ops generalizing rl log now with
  | nil => exact h.later hle
  | cons x ops ih =>
    obtain ⟨hhead, htail⟩ := List.pairwise_cons.1 hclock
    have hx := h.later (hnow x List.mem_cons_self)
    exact ih (hx.serve x.1) hhead htail (hlast x List.mem_cons_self)
      fun y hy => hlast y (List.mem_cons_of_mem _ hy)

/-- The limiter and the full log accept the same checks. -/
theorem Follows.accepts (h : rl.Follows log now) {op : LimiterOp} (hop : op.checks = true)
    {ops : List (LimiterOp × Time)} (hnow : ∀ x ∈ ops, now ≤ x.2) (hclock : Clocked ops) :
    OtpVoice.accepted op ops (rl.decisions ops) =
      OtpVoice.accepted op ops (log.decisions ops) := by
  induction ops generalizing rl log now with
  | nil => rfl
  | cons x ops ih =>
    obtain ⟨hhead, htail⟩ := List.pairwise_cons.1 hclock
    have hx := h.later (hnow x List.mem_cons_self)
    rw [RateLimiter.decisions, FullLog.decisions, accepted_cons, accepted_cons,
      ih (hx.serve x.1) hhead htail]
    by_cases heq : x.1 = op
    · -- the call is the check itself, and both answer alike
      have hlogged : x.1.logged = true := by
        rw [heq, LimiterOp.logged, hop]
        rfl
      rw [hx.answer hlogged]
    · simp [heq]

/-- For every configuration with a positive limit for each number and every sequence of checks and
cleanups with a nondecreasing clock: each check is accepted if and only if fewer earlier checks of
the same kind than its limit were accepted in its window, the answer is the one after these accepted
checks alone, and the decisions are those of the limiter that keeps the full log. -/
theorem decisions_eq_fullLog {perNumberCalls : ℕ} (hcalls : 1 ≤ perNumberCalls) (minutes : ℤ)
    (maxConcurrent hourlyLimit : ℕ) {ops : List (LimiterOp × Time)}
    (hlogged : ∀ x ∈ ops, x.1.logged = true) (hclock : Clocked ops) :
    let rl := init perNumberCalls minutes maxConcurrent hourlyLimit
    rl.decisions ops = rl.fullLog.decisions ops ∧
      ∀ pre op now post, ops = pre ++ (op, now) :: post → op.checks = true →
        let earlier := accepted op pre (rl.decisions pre)
        (rl.decisions ops)[pre.length]? = some (some (decide
            (earlier.countP (fun t => now - rl.widthOf op < t) < rl.limitOf op))) ∧
          (rl.decisions (earlier.map (fun t => (op, t)) ++ [(op, now)]))[earlier.length]? =
            (rl.decisions ops)[pre.length]? := by
  intro rl
  have hsame : ∀ ops : List (LimiterOp × Time), (∀ x ∈ ops, x.1.logged = true) → Clocked ops →
      rl.decisions ops = rl.fullLog.decisions ops := by
    intro ops hlogged hclock
    cases ops with
    | nil => rfl
    | cons x ops =>
      have hstart : ∀ y ∈ x :: ops, x.2 ≤ y.2 := by
        intro y hy
        rcases List.mem_cons.1 hy with rfl | hy
        · exact le_rfl
        · exact (List.pairwise_cons.1 hclock).1 y hy
      exact (follows_init hcalls minutes maxConcurrent hourlyLimit x.2).decisions hlogged hstart
        hclock
  refine ⟨hsame ops hlogged hclock, ?_⟩
  rintro pre op now post rfl hop earlier
  obtain ⟨hclockPre, -, hbefore⟩ := List.pairwise_append.1 hclock
  have hearlier : earlier = accepted op pre (rl.fullLog.decisions pre) := by
    have hpre := hsame pre (fun x hx => hlogged x (List.mem_append_left _ hx)) hclockPre
    rw [← hpre]
  obtain ⟨hlimit, hwidth⟩ := rl.fullLog.after_limit pre
  have hentries : (rl.fullLog.after pre).entries op = earlier := by
    rw [FullLog.entries_after, ← hearlier]
    rfl
  have hanswer : (rl.decisions (pre ++ (op, now) :: post))[pre.length]? =
      some ((rl.fullLog.after pre).serve op now).1 := by
    rw [hsame _ hlogged hclock, FullLog.decisions_getElem]
  constructor
  · rw [hanswer, FullLog.serve_check hop, FullLog.room, hentries, hlimit, hwidth]
    rfl
  · -- the accepted checks alone leave the same entries in the full log
    have hreplay : rl.decisions (earlier.map (fun t => (op, t)) ++ [(op, now)]) =
        rl.fullLog.decisions (earlier.map (fun t => (op, t)) ++ [(op, now)]) := by
      apply hsame
      · intro x hx
        rcases List.mem_append.1 hx with hx | hx
        · obtain ⟨t, -, rfl⟩ := List.mem_map.1 hx
          simp [LimiterOp.logged, hop]
        · rw [List.mem_singleton.1 hx]
          simp [LimiterOp.logged, hop]
      · have htimes : earlier.Pairwise (· ≤ ·) :=
          (List.pairwise_map.2 hclockPre).sublist (accepted_sublist op pre _)
        refine List.pairwise_append.2 ⟨List.pairwise_map.2 htimes, List.pairwise_singleton _ _, ?_⟩
        intro x hx y hy
        obtain ⟨t, ht, rfl⟩ := List.mem_map.1 hx
        rw [List.mem_singleton.1 hy]
        obtain ⟨z, hz, rfl⟩ := List.mem_map.1 ((accepted_sublist op pre _).subset ht)
        exact hbefore z hz (op, now) List.mem_cons_self
    have hlength : earlier.length = (earlier.map fun t => (op, t)).length := by simp
    rw [hreplay, hanswer, hlength, FullLog.decisions_getElem]
    obtain ⟨hlimit', hwidth'⟩ := rl.fullLog.after_limit (earlier.map fun t => (op, t))
    have hentries' : (rl.fullLog.after (earlier.map fun t => (op, t))).entries op =
        (rl.fullLog.after pre).entries op := by
      rw [hearlier]
      exact FullLog.entries_replay rfl rfl rfl
    rw [FullLog.serve_congr (hlimit'.trans hlimit.symm) (hwidth'.trans hwidth.symm) hentries']

/-- Checks of two numbers, an hourly check and a cleanup. -/
def sampleCalls : List (LimiterOp × Time) :=
  [(.number "a", 0), (.number "b", 1), (.number "a", 2), (.hourly, 2), (.number "a", 3),
    (.cleanup, 60), (.number "a", 60), (.number "a", 61)]

theorem decisions_eq_fullLog_sample :
    let rl := init 2 1 20 500
    rl.decisions sampleCalls = rl.fullLog.decisions sampleCalls ∧
      (rl.decisions sampleCalls)[6]? = some (some (decide
        ((accepted (.number "a") (sampleCalls.take 6) (rl.decisions (sampleCalls.take 6))).countP
          (fun t => 60 - rl.widthOf (.number "a") < t) < rl.limitOf (.number "a")))) := by
  have hcalls : 1 ≤ 2 := by decide
  have hclock : Clocked sampleCalls := by
    unfold Clocked
    decide
  have h := decisions_eq_fullLog hcalls 1 20 500 (by decide) hclock
  exact ⟨h.1, (h.2 (sampleCalls.take 6) (.number "a") 60 _ rfl rfl).1⟩

end RateLimiter

end OtpVoice
