import Mathlib.Data.List.ReduceOption

/-!
# Registers that latch

A register holds a value, and some values are final. A write is refused when it would replace a
final value by one that is not final. After any sequence of writes, the accepted ones are those
that do not follow a final value or are final themselves (`accepted_iff`), and the register holds
the last final value, or the last value when none is final (`run_eq`).

`lastGiven` is a register of another kind: a write may leave it alone.
-/

set_option autoImplicit false

namespace Latch

variable {α : Type} (final : α → Bool)

/-- The write of `new` over `old` is refused. -/
def refuses (old new : α) : Bool := final old && !final new

/-- The value after one write. -/
def write (old new : α) : α := if refuses final old new then old else new

/-- The value after a sequence of writes. -/
def run (a : α) (bs : List α) : α := bs.foldl (write final) a

/-- Which writes of a sequence are accepted. -/
def accepted : α → List α → List Bool
  | _, [] => []
  | a, b :: bs => (!refuses final a b) :: accepted (write final a b) bs

variable {final}

theorem length_accepted (a : α) (bs : List α) : (accepted final a bs).length = bs.length := by
  induction bs generalizing a with
  | nil => rfl
  | cons b bs ih => rw [accepted, List.length_cons, List.length_cons, ih]

/-- A write keeps a final value final, and makes the register final when the new value is. -/
theorem final_write (a b : α) : final (write final a b) = (final a || final b) := by
  unfold write refuses
  cases ha : final a <;> cases hb : final b <;> simp [ha, hb]

/-- The write at a place is accepted if and only if it is final or no value before it is. The
induction follows the writes; the register before a write is final if and only if one of the values
written so far is. -/
theorem accepted_iff (a : α) (bs : List α) {i : ℕ} {b : α} (hb : bs[i]? = some b) :
    (accepted final a bs)[i]? = some true ↔
      ¬ (final b = false ∧ ∃ x ∈ a :: bs.take i, final x = true) := by
  induction bs generalizing a i with
  | nil => cases hb
  | cons c bs ih =>
    cases i with
    | zero =>
      obtain rfl := Option.some.inj hb
      simp only [accepted, refuses, List.getElem?_cons_zero, List.take_zero, List.mem_singleton,
        exists_eq_left, Option.some.injEq]
      cases final a <;> cases final c <;> simp
    | succ i =>
      rw [accepted, List.getElem?_cons_succ, ih (write final a c) hb, List.take_succ_cons]
      simp only [List.exists_mem_cons_iff, final_write, Bool.or_eq_true, or_assoc]

/-- The value after the writes: the last final one, or the last one when none is final. -/
theorem run_eq (a : α) (bs : List α) :
    run final a bs = (((a :: bs).filter final).getLast?).getD ((a :: bs).getLast (by simp)) := by
  induction bs generalizing a with
  | nil => cases ha : final a <;> simp [run, ha]
  | cons b bs ih =>
    have hrun : run final a (b :: bs) = run final (write final a b) bs := rfl
    rw [hrun, ih]
    cases ha : final a <;> cases hb : final b
    all_goals simp only [write, refuses, ha, hb, Bool.and_self, Bool.and_true, Bool.and_false,
      Bool.not_true, Bool.not_false, Bool.false_eq_true, if_true, if_false]
    · simp [ha, hb]
    · simp [ha, hb]
    · -- the write is refused, and a final value stays ahead of `b`
      simp only [List.filter_cons, ha, hb, if_true, Bool.false_eq_true, if_false]
      rw [List.getLast?_cons]
      rfl
    · simp [ha, hb, List.getLast?_cons]

/-- The last value that is given, or the first value. -/
def lastGiven {β : Type} (initial : Option β) (given : List (Option β)) : Option β :=
  given.reduceOption.getLast?.or initial

theorem lastGiven_cons {β : Type} (initial x : Option β) (given : List (Option β)) :
    lastGiven initial (x :: given) = lastGiven (x <|> initial) given := by
  cases x with
  | none => rfl
  | some b =>
    simp only [lastGiven, List.reduceOption_cons_of_some, List.getLast?_cons]
    cases given.reduceOption.getLast? <;> rfl

end Latch
