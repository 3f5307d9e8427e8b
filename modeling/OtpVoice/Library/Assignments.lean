import Mathlib.Data.List.Basic

/-!
# Lists of assignments

A list of assignments is written as one word: `key eq value`, one after the other with `sep` between
them. `decode` cuts a word at every `sep` and each piece at its first `eq`. Writing and reading back
gives the same assignments (`decode_encode`) when no key contains a separator and no value contains
`sep`; the empty list is the only exception, since the empty word has one piece.
-/

set_option autoImplicit false

namespace Assignments

variable {α : Type} [DecidableEq α] (sep eq : α)

/-- One assignment. -/
def piece (x : List α × List α) : List α := x.1 ++ eq :: x.2

/-- The word of a list of assignments. -/
def encode (xs : List (List α × List α)) : List α := [sep].intercalate (xs.map (piece eq))

/-- Cut at the first `eq`; without one the value is empty. -/
def cut (w : List α) : List α × List α := (w.takeWhile (· ≠ eq), (w.dropWhile (· ≠ eq)).tail)

/-- Cut at every `sep`, and each piece at its first `eq`. -/
def decode (w : List α) : List (List α × List α) := (w.splitOn sep).map (cut eq)

variable {sep eq}

theorem cut_piece {x : List α × List α} (h : eq ∉ x.1) : cut eq (piece eq x) = x := by
  obtain ⟨key, value⟩ := x
  have hkey : ∀ a ∈ key, decide (a ≠ eq) = true := fun a ha => by
    simpa using fun heq : a = eq => h (heq ▸ ha)
  rw [cut, piece, List.takeWhile_append_of_pos hkey, List.dropWhile_append_of_pos hkey]
  simp

omit [DecidableEq α] in
theorem sep_notMem_piece {x : List α × List α} (hsep : sep ≠ eq) (hkey : sep ∉ x.1)
    (hvalue : sep ∉ x.2) : sep ∉ piece eq x := by
  simp [piece, hsep, hkey, hvalue]

/-- Reading back what was written. -/
theorem decode_encode (hsep : sep ≠ eq) {xs : List (List α × List α)} (hxs : xs ≠ [])
    (h : ∀ x ∈ xs, sep ∉ x.1 ∧ eq ∉ x.1 ∧ sep ∉ x.2) : decode sep eq (encode sep eq xs) = xs := by
  have hpieces : ∀ w ∈ xs.map (piece eq), sep ∉ w := by
    intro w hw
    obtain ⟨x, hx, rfl⟩ := List.mem_map.1 hw
    exact sep_notMem_piece hsep (h x hx).1 (h x hx).2.2
  rw [decode, encode, List.splitOn_intercalate sep hpieces (by simpa using hxs), List.map_map]
  exact (List.map_congr_left fun x hx => cut_piece (h x hx).2.1).trans (List.map_id xs)

end Assignments
