import Mathlib.Data.List.Forall2
import Mathlib.Data.List.MinMax
import Mathlib.Data.List.Sort

/-!
# Sorted lists and related lists

Two lists that are related element by element stay so when both are sorted by comparisons that
agree on related elements. The first element after a stable descending sort is the `argmax` of the
list: of equal keys the earliest one.
-/

set_option autoImplicit false

namespace RelatedLists

variable {α β : Type} {P : α → β → Prop}

section Sorting

variable (r : α → α → Prop) (r' : β → β → Prop) [DecidableRel r] [DecidableRel r']

variable (hr : ∀ a a' b b', P a b → P a' b' → (r a a' ↔ r' b b'))

include hr

theorem orderedInsert {a : α} {b : β} (hab : P a b) {l : List α} {l' : List β}
    (h : List.Forall₂ P l l') : List.Forall₂ P (l.orderedInsert r a) (l'.orderedInsert r' b) := by
  induction h with
  | nil => exact .cons hab .nil
  | @cons c d l l' hcd h ih =>
    rw [List.orderedInsert, List.orderedInsert]
    by_cases hac : r a c
    · rw [if_pos hac, if_pos ((hr _ _ _ _ hab hcd).1 hac)]
      exact .cons hab (.cons hcd h)
    · rw [if_neg hac, if_neg fun hbd => hac ((hr _ _ _ _ hab hcd).2 hbd)]
      exact .cons hcd ih

theorem insertionSort {l : List α} {l' : List β} (h : List.Forall₂ P l l') :
    List.Forall₂ P (l.insertionSort r) (l'.insertionSort r') := by
  induction h with
  | nil => exact .nil
  | cons hab _ ih => exact orderedInsert r r' hr hab ih

end Sorting

theorem head? {l : List α} {l' : List β} (h : List.Forall₂ P l l') :
    Option.Rel P l.head? l'.head? := by
  cases h with
  | nil => exact .none
  | cons hab _ => exact .some hab

theorem exists_right {l : List α} {l' : List β} (h : List.Forall₂ P l l') :
    ∀ a ∈ l, ∃ b ∈ l', P a b := by
  induction h with
  | nil => exact fun a ha => absurd ha List.not_mem_nil
  | cons hab _ ih =>
    intro a ha
    rcases List.mem_cons.1 ha with rfl | ha
    · exact ⟨_, List.mem_cons_self, hab⟩
    · obtain ⟨b, hb, hab⟩ := ih a ha
      exact ⟨b, List.mem_cons_of_mem _ hb, hab⟩

theorem countP {p : α → Bool} {p' : β → Bool} (hp : ∀ a b, P a b → p a = p' b) {l : List α}
    {l' : List β} (h : List.Forall₂ P l l') : l.countP p = l'.countP p' := by
  induction h with
  | nil => rfl
  | cons hab _ ih => rw [List.countP_cons, List.countP_cons, ih, hp _ _ hab]

theorem any {p : α → Bool} {p' : β → Bool} (hp : ∀ a b, P a b → p a = p' b) {l : List α}
    {l' : List β} (h : List.Forall₂ P l l') : l.any p = l'.any p' := by
  induction h with
  | nil => rfl
  | cons hab _ ih => rw [List.any_cons, List.any_cons, ih, hp _ _ hab]

theorem filter {p : α → Bool} {p' : β → Bool} (hp : ∀ a b, P a b → p a = p' b) {l : List α}
    {l' : List β} (h : List.Forall₂ P l l') : List.Forall₂ P (l.filter p) (l'.filter p') :=
  List.rel_filter (R := P) (fun a b hab => Eq.to_iff (congrArg (· = true) (hp a b hab))) h

/-- What holds of every element on the right may be added to the relation. -/
theorem and_right {Q : β → Prop} {l : List α} {l' : List β} (h : List.Forall₂ P l l')
    (hQ : ∀ b ∈ l', Q b) : List.Forall₂ (fun a b => P a b ∧ Q b) l l' := by
  induction h with
  | nil => exact .nil
  | cons hab _ ih =>
    obtain ⟨hb, hrest⟩ := List.forall_mem_cons.1 hQ
    exact .cons ⟨hab, hb⟩ (ih hrest)

/-- Each element is read as its related one. -/
theorem mapM_eq_some {f : α → Option β} (hf : ∀ a b, P a b → f a = some b) {l : List α}
    {l' : List β} (h : List.Forall₂ P l l') : l.mapM f = some l' := by
  induction h with
  | nil => rfl
  | cons hab _ ih => simp only [List.mapM_cons, hf _ _ hab, ih, Option.bind_eq_bind,
      Option.bind_some, Option.pure_def]

/-- Sorted in descending order the list starts with its first largest element. -/
theorem head?_insertionSort_eq_argmax {γ : Type} [LinearOrder γ] (f : α → γ) (l : List α) :
    (l.insertionSort fun a b => f b ≤ f a).head? = l.argmax f := by
  induction l with
  | nil => rfl
  | cons a l ih =>
    rw [List.insertionSort_cons, List.argmax_cons, ← ih]
    cases l.insertionSort fun a b => f b ≤ f a with
    | nil => rfl
    | cons b rest =>
      rw [List.orderedInsert]
      by_cases hab : f b ≤ f a
      · rw [if_pos hab]
        simp [not_lt.2 hab]
      · rw [if_neg hab]
        simp [not_le.1 hab]

end RelatedLists
