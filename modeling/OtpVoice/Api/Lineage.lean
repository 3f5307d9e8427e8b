import OtpVoice.Service.Footprint
import OtpVoice.Service.Statements

/-!
# Retries and their parents

A retry inserts its new record and increments the `retry_count` of its parent in two commits, and
the cleanup drops parents and children by their own expiry. `familyNote` picks the records found,
the ids drawn, the clock readings, the inserted records and the increments of a thread; `Op.Follows`
says which of them may come after which.
-/

set_option autoImplicit false

namespace OtpVoice

open Coroutine

/-! ## The notes of one thread -/

/-- What is noted of parents and children: reads, drawn ids, clock readings, inserts and counts. -/
inductive FamilyNote where
  | found (requestId : String)
  | drawn (requestId : String)
  | clock (t : Time)
  | inserted (row : CallRecord)
  | counted (requestId : String)
  deriving DecidableEq

/-- The note of a command with its answer. -/
def FamilyNote.of : (c : Cmd) → Except Exc c.Resp → Option FamilyNote
  | .execute (.selectCall requestId), .ok (some _) => some (.found requestId)
  | .uuid4, .ok id => some (.drawn id.text)
  | .time, .ok t => some (.clock t)
  | .execute (.insertCall row), .ok _ => some (.inserted row)
  | .execute (.incrementRetry _ requestId), .ok _ => some (.counted requestId)
  | _, _ => none

/-- The note of an event. -/
def familyNote (ev : Ev) : Option FamilyNote := FamilyNote.of ev.cmd ev.res

/-- The record that an operation retries. -/
def Op.parent : Op → Option String
  | .input (.retry requestId _) => some requestId
  | _ => none

/-- What an operation has noted before a note. -/
def Op.Follows (op : Op) (l : List FamilyNote) : FamilyNote → Prop
  | .clock _ => ∀ p, op.parent = some p → .found p ∈ l
  | .inserted row => .drawn row.requestId ∈ l ∧ .clock row.createdAt ∈ l ∧
      row.expiresAt = row.createdAt + ttlSeconds ∧ row.retryCount = 0 ∧
      row.parentRequestId = op.parent ∧ ∀ row', .inserted row' ∉ l
  | .counted p => op.parent = some p ∧ (∃ row, .inserted row ∈ l) ∧ ∀ q, .counted q ∉ l
  | _ => True

/-- Later notes without an insertion or an increment in between. -/
structure Extends (l l' : List FamilyNote) : Prop where
  subset : l ⊆ l'
  inserted : ∀ row, .inserted row ∈ l' → .inserted row ∈ l
  counted : ∀ q, .counted q ∈ l' → .counted q ∈ l

theorem Extends.refl (l : List FamilyNote) : Extends l l :=
  ⟨fun _ h => h, fun _ h => h, fun _ h => h⟩

theorem Extends.trans {l₁ l₂ l₃ : List FamilyNote} (h : Extends l₁ l₂) (h' : Extends l₂ l₃) :
    Extends l₁ l₃ :=
  ⟨List.Subset.trans h.subset h'.subset, fun row hrow => h.inserted row (h'.inserted row hrow),
    fun q hq => h.counted q (h'.counted q hq)⟩

section Noting

variable {α β : Type} {o : CallOriginator} {yields : Cmd → Bool} {op : Op}
variable {post : Except Exc α → List FamilyNote → Prop} {l : List FamilyNote}

/-- The notes of a part keep the order that `Op.Follows` asks for. -/
abbrev Follow (o : CallOriginator) (yields : Cmd → Bool) (op : Op)
    (post : Except Exc α → List FamilyNote → Prop) (p : Prog α) (l : List FamilyNote) : Prop :=
  (otpService o yields).Noting familyNote (Service.Justified op.Follows) post p l

/-- A command that neither inserts a record nor counts a retry notes something that may come at any
time, once a retry has found its record. -/
theorem extends_of_kind {c : Cmd} (hc : c.kind ∉ [Kind.insertCall, .countRetry])
    (r : Except Exc c.Resp) (hl : Service.Justified op.Follows l)
    (hfound : ∀ p, op.parent = some p → .found p ∈ l) :
    Service.Justified op.Follows (l ++ (FamilyNote.of c r).toList) ∧
      Extends l (l ++ (FamilyNote.of c r).toList) := by
  cases hx : FamilyNote.of c r with
  | none => simpa using ⟨hl, Extends.refl l⟩
  | some y =>
    have hy : op.Follows l y ∧ (∀ row, y ≠ .inserted row) ∧ ∀ q, y ≠ .counted q := by
      unfold FamilyNote.of at hx
      split at hx <;> cases hx
      · -- an id is drawn, or a record is found
        exact ⟨trivial, by rintro _ ⟨⟩, by rintro _ ⟨⟩⟩
      · exact ⟨trivial, by rintro _ ⟨⟩, by rintro _ ⟨⟩⟩
      · exact ⟨hfound, by rintro _ ⟨⟩, by rintro _ ⟨⟩⟩
      · exact absurd (by simp [Cmd.kind, Stmt.kind]) hc
      · exact absurd (by simp [Cmd.kind, Stmt.kind]) hc
    obtain ⟨hfollows, hrow, hq⟩ := hy
    refine ⟨hl.concat hfollows, List.subset_append_left _ _, ?_, ?_⟩
    · intro row hmem
      apply (List.mem_append.1 hmem).resolve_right
      intro h
      exact hrow row (List.mem_singleton.1 h).symm
    · intro q hmem
      apply (List.mem_append.1 hmem).resolve_right
      intro h
      exact hq q (List.mem_singleton.1 h).symm

/-- A part that neither inserts a record nor counts a retry. -/
theorem follow_quiet {ks : List Kind} {p : Prog α} (hp : Touches ks p)
    (hks : ks.all (fun k => k ∉ [Kind.insertCall, .countRetry]) = true)
    (hl : Service.Justified op.Follows l) (hfound : ∀ p, op.parent = some p → .found p ∈ l) :
    Follow o yields op (fun _ l' => Service.Justified op.Follows l' ∧ Extends l l') p l := by
  refine Coro.Sat.of_uses (I := fun l' => Service.Justified op.Follows l' ∧ Extends l l') ?_ hp
    ⟨hl, Extends.refl l⟩
  rintro l₁ c r _ hc ⟨hl₁, hext⟩ ⟨e, n, w, -, rfl⟩
  have hc' := of_decide_eq_true (List.all_eq_true.1 hks _ hc)
  obtain ⟨hl₂, hext'⟩ := extends_of_kind hc' r hl₁ fun p hp => hext.subset (hfound p hp)
  exact ⟨hl₂, hl₂, hext.trans hext'⟩

theorem follow_quiet_bind {ks : List Kind} {p : Prog β} {g : β → Prog α} (hp : Touches ks p)
    (hks : ks.all (fun k => k ∉ [Kind.insertCall, .countRetry]) = true)
    (hl : Service.Justified op.Follows l) (hfound : ∀ p, op.parent = some p → .found p ∈ l)
    (hok : ∀ a l', Service.Justified op.Follows l' → Extends l l' →
      Follow o yields op post (g a) l')
    (herror : ∀ x l', post (.error x) l') : Follow o yields op post (p >>= g) l :=
  (follow_quiet hp hks hl hfound).bind (fun a l' h => hok a l' h.1 h.2) fun x l' _ => herror x l'

variable (op) in
/-- The record is inserted after its id has been drawn and the clock has been read. -/
theorem follow_createCallRecord (mobile code codeMasked : String)
    (hl : Service.Justified op.Follows l) (hfound : ∀ p, op.parent = some p → .found p ∈ l)
    (hnone : ∀ row, .inserted row ∉ l) :
    Follow o yields op (fun r l' => ∀ id, r = .ok id → Service.Justified op.Follows l' ∧ l ⊆ l' ∧
        (∃ row, .inserted row ∈ l') ∧ ∀ q, .counted q ∈ l' → .counted q ∈ l)
      (createCallRecord mobile code codeMasked op.parent) l := by
  -- `uuid4` and the clock come first, and nothing else is noted in between
  have hdraw : Follow o yields op (fun r l₁ => ∀ id, r = .ok id → l₁ = l ++ [.drawn id.text])
      uuid4 l := by
    apply Service.noting_perform
    intro e n w
    have hanswer : (otpService o yields).respond e n w .uuid4 = (.ok e.uuid, w) := rfl
    rw [hanswer]
    exact ⟨hl.concat trivial, fun id hid => by rw [← Except.ok.inj hid]; rfl⟩
  refine hdraw.bind (fun id l₁ h₁ => ?_) fun x _ _ _ h => by cases h
  obtain rfl := h₁ id rfl
  have hdrawn : Service.Justified op.Follows (l ++ [.drawn id.text]) := hl.concat trivial
  have hread : Follow o yields op
      (fun r l₂ => ∀ now, r = .ok now → l₂ = l ++ [.drawn id.text] ++ [.clock now])
      time (l ++ [.drawn id.text]) := by
    apply Service.noting_perform
    intro e n w
    have hanswer : (otpService o yields).respond e n w .time = (.ok (e.now n), w) := rfl
    rw [hanswer]
    refine ⟨hdrawn.concat fun p hp => List.mem_append_left _ (hfound p hp), ?_⟩
    exact fun now hnow => by rw [← Except.ok.inj hnow]; rfl
  refine hread.bind (fun now l₂ h₂ => ?_) fun x _ _ _ h => by cases h
  obtain rfl := h₂ now rfl
  set row : CallRecord :=
    { requestId := id.text, mobile, code, codeMasked, parentRequestId := op.parent,
      createdAt := now, updatedAt := now, expiresAt := now + ttlSeconds } with hrow
  set l₂ := l ++ [FamilyNote.drawn id.text] ++ [.clock now] with hl₂
  have hread₂ : Service.Justified op.Follows l₂ :=
    hdrawn.concat fun p hp => List.mem_append_left _ (hfound p hp)
  have hsub : l ⊆ l₂ := by
    rw [hl₂]
    exact List.Subset.trans (List.subset_append_left _ _) (List.subset_append_left _ _)
  have hinserted : Service.Justified op.Follows (l₂ ++ [.inserted row]) := by
    refine hread₂.concat ⟨by simp [hl₂, hrow], by simp [hl₂, hrow], rfl, rfl, rfl, fun row' h => ?_⟩
    simp only [hl₂, List.mem_append, List.mem_singleton, reduceCtorEq, or_false] at h
    exact hnone row' h
  -- an `INSERT` that raises is not noted
  have hinsert : Follow o yields op (fun r l₃ => ∀ k, r = .ok k → l₃ = l₂ ++ [.inserted row])
      (execute (.insertCall row)) l₂ := by
    apply Service.noting_perform
    intro e n w
    generalize ((otpService o yields).respond e n w (.execute (.insertCall row))).1 = r
    rcases r with x | k
    · exact ⟨by simpa [familyNote, FamilyNote.of] using hread₂, fun _ h => by cases h⟩
    · exact ⟨hinserted, fun _ _ => rfl⟩
  refine hinsert.bind (fun k l₃ h₃ => ?_) fun x _ _ _ h => by cases h
  obtain rfl := h₃ k rfl
  -- the commits and the first line of the timeline note nothing of the family
  have hfound₃ : ∀ p, op.parent = some p → .found p ∈ l₂ ++ [.inserted row] := fun p hp =>
    List.mem_append_left _ (hsub (hfound p hp))
  refine follow_quiet_bind touches_commit (by decide) hinserted hfound₃ (fun _ l₄ h₄ hext => ?_)
    fun x _ _ h => by cases h
  refine follow_quiet_bind (touches_addEvent _ _ _) (by decide) h₄
    (fun p hp => hext.subset (hfound₃ p hp)) (fun _ l₅ h₅ hext' => ?_) fun x _ _ h => by cases h
  have hext₅ := hext.trans hext'
  refine fun _ _ => ⟨h₅, ?_, ⟨row, hext₅.subset (by simp)⟩, fun q hq => ?_⟩
  · exact List.Subset.trans (List.Subset.trans hsub (List.subset_append_left _ _)) hext₅.subset
  · have hq := hext₅.counted q hq
    simpa [hl₂] using hq

theorem follow_incrementRetry {requestId : String} (hop : op.parent = some requestId)
    (hl : Service.Justified op.Follows l) (hfound : .found requestId ∈ l)
    (hinserted : ∃ row, .inserted row ∈ l) (hnone : ∀ q, .counted q ∉ l) :
    Follow o yields op (fun r l' => ∀ k, r = .ok k → Service.Justified op.Follows l' ∧ l ⊆ l')
      (incrementRetry requestId) l := by
  have hfound' : ∀ {l'}, l ⊆ l' → ∀ p, op.parent = some p → FamilyNote.found p ∈ l' := by
    intro l' hsub p hp
    obtain rfl := Option.some.inj (hop.symm.trans hp)
    exact hsub hfound
  refine follow_quiet_bind touches_time (by decide) hl (hfound' (List.Subset.refl l))
    (fun now l₁ h₁ hext => ?_) fun x _ _ h => by cases h
  have hcounted : Service.Justified op.Follows (l₁ ++ [.counted requestId]) := by
    obtain ⟨row, hrow⟩ := hinserted
    exact h₁.concat ⟨hop, ⟨row, hext.subset hrow⟩, fun q hq => hnone q (hext.counted q hq)⟩
  -- an `UPDATE` that raises is not noted
  have hcount : Follow o yields op (fun r l₂ => ∀ k, r = .ok k → l₂ = l₁ ++ [.counted requestId])
      (execute (.incrementRetry now requestId)) l₁ := by
    apply Service.noting_perform
    intro e n w
    generalize
      ((otpService o yields).respond e n w (.execute (.incrementRetry now requestId))).1 = r
    rcases r with x | k
    · exact ⟨by simpa [familyNote, FamilyNote.of] using h₁, fun _ h => by cases h⟩
    · exact ⟨hcounted, fun _ _ => rfl⟩
  refine hcount.bind (fun k l₂ h₂ => ?_) fun x _ _ _ h => by cases h
  obtain rfl := h₂ k rfl
  have hsub : l ⊆ l₁ ++ [.counted requestId] :=
    List.Subset.trans hext.subset (List.subset_append_left _ _)
  refine follow_quiet_bind touches_commit (by decide) hcounted (hfound' hsub)
    (fun _ l₃ h₃ hext₃ => ?_) fun x _ _ h => by cases h
  refine follow_quiet_bind (touches_getCallRecord requestId) (by decide) h₃
    (hfound' (List.Subset.trans hsub hext₃.subset)) (fun record l₄ h₄ hext₄ => ?_)
    fun x _ _ h => by cases h
  have hend : Service.Justified op.Follows l₄ ∧ l ⊆ l₄ :=
    ⟨h₄, List.Subset.trans (List.Subset.trans hsub hext₃.subset) hext₄.subset⟩
  cases record <;> exact fun _ _ => hend

theorem follow_any {ks : List Kind} {p : Prog α} (hp : Touches ks p)
    (hks : ks.all (fun k => k ∉ [Kind.insertCall, .countRetry]) = true) (hop : op.parent = none)
    (hl : Service.Justified op.Follows l) : Follow o yields op (fun _ _ => True) p l := by
  refine (follow_quiet hp hks hl fun p h => ?_).mono fun _ _ _ => trivial
  cases hop.symm.trans h

theorem follow_sendOtpCall (request : OTPCallRequest) :
    Follow o yields (.input (.otpCall request)) (fun _ _ => True) (sendOtpCall request) [] := by
  have hno : ∀ (l : List FamilyNote) p, (Op.input (.otpCall request)).parent = some p →
      .found p ∈ l := by
    intro l p h
    cases h
  refine follow_quiet_bind (touches_checkLimits request.mobile) (by decide) (.nil _) (hno _)
    (fun _ l₁ h₁ hext => ?_) fun _ _ => trivial
  refine (follow_createCallRecord (.input (.otpCall request)) _ _ _ h₁ (hno _)
    fun row hrow => ?_).bind (fun id l₂ h₂ => ?_) fun _ _ _ => trivial
  · cases hext.inserted row hrow
  · exact (follow_any (touches_log _ _) (by decide) rfl (h₂ id rfl).1).bind
      (fun _ _ _ => trivial) fun _ _ _ => trivial

theorem follow_retryCall (requestId : String) (body : RetryRequest) :
    Follow o yields (.input (.retry requestId body)) (fun _ _ => True) (retryCall requestId body)
      [] := by
  have hread : Follow o yields (.input (.retry requestId body))
      (fun r l => ∀ record, r = .ok (some record) → l = [.found requestId])
      (getCallRecord requestId) [] := by
    apply Service.noting_perform
    intro e n w
    generalize ((otpService o yields).respond e n w (.execute (.selectCall requestId))).1 = r
    have hnil := Service.Justified.nil (Op.input (.retry requestId body)).Follows
    rcases r with x | _ | record
    · exact ⟨hnil, fun _ h => by cases h⟩
    · exact ⟨hnil, fun _ h => by cases h⟩
    · exact ⟨hnil.concat trivial, fun _ _ => rfl⟩
  refine hread.bind (fun record l₁ h₁ => ?_) fun _ _ _ => trivial
  cases record with
  -- the parent is missing, and the request ends with 404
  | none => trivial
  | some record =>
    obtain rfl := h₁ record rfl
    -- the parent is there: its checks and the three layers note nothing
    have hl : Service.Justified (Op.input (.retry requestId body)).Follows [.found requestId] :=
      (Service.Justified.nil _).concat trivial
    have hfound : ∀ {l}, [FamilyNote.found requestId] ⊆ l →
        ∀ p, (Op.input (.retry requestId body)).parent = some p → FamilyNote.found p ∈ l := by
      intro l hsub p hp
      cases hp
      exact hsub (List.mem_singleton_self _)
    refine follow_quiet_bind (touches_nothing_raiseUnless _ _) (by decide) hl
      (hfound (List.Subset.refl _)) (fun _ l₂ h₂ e₂ => ?_) fun _ _ => trivial
    refine follow_quiet_bind (touches_nothing_raiseUnless _ _) (by decide) h₂ (hfound e₂.subset)
      (fun _ l₃ h₃ e₃ => ?_) fun _ _ => trivial
    have e₃ := e₂.trans e₃
    refine follow_quiet_bind (touches_checkLimits _) (by decide) h₃ (hfound e₃.subset)
      (fun _ l₄ h₄ e₄ => ?_) fun _ _ => trivial
    have e₄ := e₃.trans e₄
    refine (follow_createCallRecord (.input (.retry requestId body)) _ _ _ h₄
      (hfound e₄.subset) fun row hrow => ?_).bind (fun id l₅ h₅ => ?_) fun _ _ _ => trivial
    · simpa using e₄.inserted row hrow
    · obtain ⟨h₅, hsub, hinserted, hcounted⟩ := h₅ id rfl
      refine (follow_incrementRetry rfl h₅ (hfound (List.Subset.trans e₄.subset hsub) requestId rfl)
        hinserted fun q hq => ?_).bind (fun k l₆ h₆ => ?_) fun _ _ _ => trivial
      · simpa using e₄.counted q (hcounted q hq)
      · obtain ⟨h₆, hsub₆⟩ := h₆ k rfl
        exact follow_quiet_bind (touches_log _ _) (by decide) h₆
          (hfound (List.Subset.trans (List.Subset.trans e₄.subset hsub) hsub₆))
          (fun _ _ _ _ => trivial) fun _ _ => trivial

/-- The notes of every operation. -/
theorem family_notes (op : Op) : Follow o yields op (fun _ _ => True) (op.body o) [] := by
  have hnil := Service.Justified.nil op.Follows
  cases op with
  | execute task =>
    exact (follow_any (touches_executeCall o task) (by decide) rfl hnil).bind
      (fun _ _ _ => trivial) fun _ _ _ => trivial
  | input x =>
    cases x with
    | otpCall request => exact follow_sendOtpCall request
    | retry requestId body => exact follow_retryCall requestId body
    | status requestId => exact follow_any (touches_getCallStatus _) (by decide) rfl hnil
    | health => exact follow_any touches_healthCheck (by decide) rfl hnil
    | amiEvent kind message =>
      exact (follow_any (touches_dispatch kind message) (by decide) rfl hnil).bind
        (fun _ _ _ => trivial) fun _ _ _ => trivial
    | cleanup =>
      exact (follow_any touches_periodicCleanup (by decide) rfl hnil).bind
        (fun _ _ _ => trivial) fun _ _ _ => trivial

end Noting

end OtpVoice
