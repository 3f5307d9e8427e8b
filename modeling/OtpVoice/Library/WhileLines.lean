import Mathlib.Data.List.Basic
import Mathlib.Logic.Relation

/-!
# Loops in a list of lines

A script is a list of lines, some of which open and close loops. The machine `step` keeps the number
of the next line and the loops that it is in: the line that opens a loop enters it, or goes on
behind the line that closes it; the closing line goes back to the loop that was entered last.

`Block` is the structured form of a script. `Runs.reaches` says that the lines of a block do what
the block does, wherever they stand. `Ends` is the total correctness of blocks, with one rule for
each form of block; `ends_loop` is the rule for loops that are counted.
-/

set_option autoImplicit false

namespace Script

/-- A line; `exit` leaves the script after its action. -/
inductive Line (A B : Type) where
  | action (a : A)
  | openLoop (b : B)
  | closeLoop
  | exit (a : A)
  deriving DecidableEq

/-- The number of the next line, the lines of the open loops, and the state. -/
@[ext] structure Config (S : Type) where
  next : ℕ
  loops : List ℕ
  state : S

variable {A B S : Type}

/-- The number of lines up to the one that closes the current loop, this one included; the first
argument counts the loops opened on the way. -/
def closing : ℕ → List (Line A B) → Option ℕ
  | _, [] => none
  | 0, .closeLoop :: _ => some 1
  | depth + 1, .closeLoop :: rest => (closing depth rest).map (· + 1)
  | depth, .openLoop _ :: rest => (closing (depth + 1) rest).map (· + 1)
  | depth, _ :: rest => (closing depth rest).map (· + 1)

section Machine

variable (exec : A → S → S) (test : B → S → Bool)

/-- One line; `none` at the end of the script, and when a loop to be skipped is not closed. -/
def step (lines : List (Line A B)) (c : Config S) : Option (Config S) :=
  match lines[c.next]? with
  | none => none
  | some (.action a) => some ⟨c.next + 1, c.loops, exec a c.state⟩
  | some (.openLoop b) =>
    if test b c.state then some ⟨c.next + 1, c.next :: c.loops, c.state⟩
    else (closing 0 (lines.drop (c.next + 1))).map fun k => ⟨c.next + 1 + k, c.loops, c.state⟩
  | some .closeLoop =>
    match c.loops with
    | [] => some ⟨c.next + 1, [], c.state⟩
    | k :: loops => some ⟨k, loops, c.state⟩
  | some (.exit a) => some ⟨lines.length, c.loops, exec a c.state⟩

/-- Any number of lines. -/
def Reaches (lines : List (Line A B)) : Config S → Config S → Prop :=
  Relation.ReflTransGen fun c c' => step exec test lines c = some c'

/-- The script, started in the state `s`, comes to its end in the state `s'`. -/
def Halts (lines : List (Line A B)) (s s' : S) : Prop :=
  ∃ loops, Reaches exec test lines ⟨0, [], s⟩ ⟨lines.length, loops, s'⟩

variable {exec test}

theorem Reaches.head {lines : List (Line A B)} {c d c' : Config S}
    (hstep : step exec test lines c = some d) (h : Reaches exec test lines d c') :
    Reaches exec test lines c c' :=
  Relation.ReflTransGen.head hstep h

/-- A script ends in at most one state. -/
theorem Halts.unique {lines : List (Line A B)} {s s' s'' : S} (h : Halts exec test lines s s')
    (h' : Halts exec test lines s s'') : s' = s'' := by
  obtain ⟨loops, hreaches⟩ := h
  obtain ⟨loops', hreaches'⟩ := h'
  have hstuck : ∀ loops (t : S) c,
      Reaches exec test lines ⟨lines.length, loops, t⟩ c → c = ⟨lines.length, loops, t⟩ := by
    intro loops t c hc
    rcases Relation.ReflTransGen.cases_head hc with heq | ⟨d, hstep, -⟩
    · exact heq.symm
    · -- no line is left
      simp [step] at hstep
  have hunique : Relator.RightUnique fun c c' => step exec test lines c = some c' := by
    intro c d d' hd hd'
    exact Option.some.inj (hd.symm.trans hd')
  rcases Relation.ReflTransGen.total_of_right_unique hunique hreaches hreaches' with hc | hc
  · exact (congrArg Config.state (hstuck _ _ _ hc)).symm
  · exact congrArg Config.state (hstuck _ _ _ hc)

end Machine

/-! ## Structured scripts -/

/-- A sequence of actions and loops. -/
inductive Block (A B : Type) where
  | done
  | act (a : A) (rest : Block A B)
  | loop (b : B) (body rest : Block A B)

/-- The lines of a block. -/
def Block.lines : Block A B → List (Line A B)
  | .done => []
  | .act a rest => .action a :: rest.lines
  | .loop b body rest => .openLoop b :: (body.lines ++ .closeLoop :: rest.lines)

/-- The lines of a block close every loop that they open. -/
theorem closing_lines (p : Block A B) (depth : ℕ) (rest : List (Line A B)) :
    closing depth (p.lines ++ rest) = (closing depth rest).map (· + p.lines.length) := by
  induction p generalizing depth rest with
  | done => simp [Block.lines]
  | act a p ih => simp [Block.lines, closing, ih, Option.map_map, Function.comp_def, Nat.add_assoc]
  | loop b body p ihbody ih =>
    simp only [Block.lines, List.cons_append, closing, List.append_assoc, ihbody, ih,
      Option.map_map, Function.comp_def, List.length_cons, List.length_append]
    congr 1
    funext k
    omega

/-- The block, started in the state `s`, comes to its end in the state `s'`. -/
inductive Runs (exec : A → S → S) (test : B → S → Bool) : Block A B → S → S → Prop
  | done (s : S) : Runs exec test .done s s
  | act {a : A} {rest : Block A B} {s s' : S} (h : Runs exec test rest (exec a s) s') :
      Runs exec test (.act a rest) s s'
  | leave {b : B} {body rest : Block A B} {s s' : S} (hb : test b s = false)
      (h : Runs exec test rest s s') : Runs exec test (.loop b body rest) s s'
  | again {b : B} {body rest : Block A B} {s t s' : S} (hb : test b s = true)
      (hbody : Runs exec test body s t) (h : Runs exec test (.loop b body rest) t s') :
      Runs exec test (.loop b body rest) s s'

section Blocks

variable {exec : A → S → S} {test : B → S → Bool}

variable {lines : List (Line A B)} (before after : List (Line A B)) {loops : List ℕ} {n : ℕ} {s : S}

theorem step_act {a : A} (h : lines = before ++ .action a :: after) (hn : n = before.length) :
    step exec test lines ⟨n, loops, s⟩ = some ⟨n + 1, loops, exec a s⟩ := by
  subst h hn
  simp [step]

theorem step_enter {b : B} (h : lines = before ++ .openLoop b :: after) (hn : n = before.length)
    (hb : test b s = true) :
    step exec test lines ⟨n, loops, s⟩ = some ⟨n + 1, n :: loops, s⟩ := by
  subst h hn
  simp [step, hb]

theorem step_skip {b : B} {body : Block A B}
    (h : lines = before ++ .openLoop b :: (body.lines ++ .closeLoop :: after))
    (hn : n = before.length) (hb : test b s = false) :
    step exec test lines ⟨n, loops, s⟩ = some ⟨n + 1 + (1 + body.lines.length), loops, s⟩ := by
  subst h hn
  have hdrop : (before ++ .openLoop b :: (body.lines ++ .closeLoop :: after)).drop
      (before.length + 1) = body.lines ++ .closeLoop :: after := by
    rw [← List.drop_drop, List.drop_left, List.drop_succ_cons, List.drop_zero]
  have hline : (before ++ .openLoop b :: (body.lines ++ .closeLoop :: after))[before.length]? =
      some (.openLoop b) := by simp
  simp only [step, hline, hb, Bool.false_eq_true, if_false, hdrop, closing_lines, closing,
    Option.map_some]

theorem step_close {k : ℕ} (h : lines = before ++ .closeLoop :: after) (hn : n = before.length) :
    step exec test lines ⟨n, k :: loops, s⟩ = some ⟨k, loops, s⟩ := by
  subst h hn
  simp [step]

theorem step_exit {a : A} (h : lines = before ++ .exit a :: after) (hn : n = before.length) :
    step exec test lines ⟨n, loops, s⟩ = some ⟨lines.length, loops, exec a s⟩ := by
  subst h hn
  simp [step]

/-- The lines of a block do what the block does, wherever they stand in a script. The induction
follows the run of the block: a round of a loop is a run of its body between the two lines of the
loop. -/
theorem Runs.reaches {p : Block A B} {s s' : S} (h : Runs exec test p s s')
    (loops : List ℕ) (hlines : lines = before ++ (p.lines ++ after)) (hn : n = before.length) :
    Reaches exec test lines ⟨n, loops, s⟩ ⟨n + p.lines.length, loops, s'⟩ := by
  induction h generalizing n before after loops with
  | done s => exact Relation.ReflTransGen.refl
  | @act a rest s s' h ih =>
    have hrest := ih (before ++ [.action a]) after loops (by simpa [Block.lines] using hlines)
      (n := n + 1) (by simp [hn])
    refine Reaches.head (step_act before _ hlines hn) ?_
    rwa [Block.lines, List.length_cons, Nat.add_comm rest.lines.length, ← Nat.add_assoc]
  | @leave b body rest s s' hb h ih =>
    have hloop : lines = before ++ .openLoop b :: (body.lines ++ .closeLoop ::
        (rest.lines ++ after)) := by
      simpa [Block.lines] using hlines
    have hrest := ih (before ++ .openLoop b :: (body.lines ++ [.closeLoop])) after loops
      (by simpa using hloop) (n := n + 1 + (1 + body.lines.length))
      (by simp only [hn, List.length_append, List.length_cons, List.length_nil]; omega)
    refine Reaches.head (step_skip before _ hloop hn hb) ?_
    have hlength : n + (Block.loop b body rest).lines.length =
        n + 1 + (1 + body.lines.length) + rest.lines.length := by
      simp only [Block.lines, List.length_append, List.length_cons]
      omega
    rwa [hlength]
  | @again b body rest s t s' hb hbody h ihbody ih =>
    have hloop : lines = before ++ .openLoop b :: (body.lines ++ .closeLoop ::
        (rest.lines ++ after)) := by
      simpa [Block.lines] using hlines
    have hround := ihbody (before ++ [.openLoop b]) (.closeLoop :: (rest.lines ++ after))
      (n :: loops) (by simpa using hloop) (n := n + 1) (by simp [hn])
    have hback : step exec test lines ⟨n + 1 + body.lines.length, n :: loops, t⟩ =
        some ⟨n, loops, t⟩ :=
      step_close (before ++ .openLoop b :: body.lines) (rest.lines ++ after) (by simpa using hloop)
        (by simp only [hn, List.length_append, List.length_cons]; omega)
    -- in at the top, once through the body, back to the top
    exact (Reaches.head (step_enter before _ hloop hn hb) hround).trans
      (Reaches.head hback (ih before after loops hlines hn))

/-- A block, and then a line that leaves the script. -/
theorem Runs.halts {p : Block A B} {s s' : S} (h : Runs exec test p s s') (a : A) :
    Halts exec test (p.lines ++ [.exit a]) s (exec a s') := by
  have hlast : step exec test (p.lines ++ [.exit a]) ⟨0 + p.lines.length, [], s'⟩ = _ :=
    step_exit p.lines [] rfl (Nat.zero_add _)
  exact ⟨[], (h.reaches [] [.exit a] [] rfl rfl).tail hlast⟩

/-! ## Total correctness -/

/-- The block comes to its end in a state with `Q`. -/
def Ends (exec : A → S → S) (test : B → S → Bool) (p : Block A B) (Q : S → Prop) (s : S) : Prop :=
  ∃ s', Runs exec test p s s' ∧ Q s'

theorem ends_done {Q : S → Prop} (h : Q s) : Ends exec test (.done : Block A B) Q s :=
  ⟨s, .done s, h⟩

theorem ends_act {a : A} {rest : Block A B} {Q : S → Prop} (h : Ends exec test rest Q (exec a s)) :
    Ends exec test (.act a rest) Q s := by
  obtain ⟨s', hrun, hQ⟩ := h
  exact ⟨s', .act hrun, hQ⟩

/-- A loop that is counted: `I i` holds after `i` rounds, and the loop is left after `n` of them.
The induction is on the number of rounds that are left. -/
theorem ends_loop {b : B} {body rest : Block A B} {Q : S → Prop} (I : ℕ → S → Prop) {n : ℕ}
    (htest : ∀ i s, I i s → test b s = decide (i < n))
    (hbody : ∀ i s, i < n → I i s → Ends exec test body (I (i + 1)) s)
    (hrest : ∀ s, I n s → Ends exec test rest Q s) {i : ℕ} (hi : i ≤ n) (h : I i s) :
    Ends exec test (.loop b body rest) Q s := by
  obtain ⟨left, hleft⟩ : ∃ left, n = i + left := ⟨n - i, by omega⟩
  induction left generalizing i s with
  | zero =>
    obtain rfl : n = i := hleft
    obtain ⟨s', hrun, hQ⟩ := hrest s h
    have hend : test b s = false := by simp [htest n s h]
    exact ⟨s', .leave hend hrun, hQ⟩
  | succ left ih =>
    have hlt : i < n := by omega
    obtain ⟨t, hround, ht⟩ := hbody i s hlt h
    obtain ⟨s', hrun, hQ⟩ := ih hlt ht (by omega)
    have hgo : test b s = true := by simp [htest i s h, hlt]
    exact ⟨s', .again hgo hround hrun, hQ⟩

end Blocks

end Script
