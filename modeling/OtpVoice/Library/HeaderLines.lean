import Mathlib.Data.List.Basic

/-!
# Messages of header lines

A message is a list of headers; on the wire each header is a line `key: value` ended by CR LF, and
an empty line ends the message. `parse` reads a text back: it cuts lines at CR LF and refuses a line
that holds a CR, an LF or a null character of its own, cuts messages at empty lines, and cuts each
line at its first `: `.

`parse_write`: a message whose keys hold no colon and whose texts hold none of the three control
characters is read back as one message with the same headers.
-/

set_option autoImplicit false

namespace HeaderLines

/-- A key and its value. -/
abbrev Header : Type := List Char × List Char

/-- A character that no line may hold. -/
def control (c : Char) : Bool := c == '\r' || c == '\n' || c == '\x00'

/-- The text of one header, without the end of its line. -/
def line (h : Header) : List Char := h.1 ++ ':' :: ' ' :: h.2

/-- The end of a line. -/
def crlf : List Char := ['\r', '\n']

/-- A message on the wire. -/
def write (hs : List Header) : List Char := (hs.flatMap fun h => line h ++ crlf) ++ crlf

/-- The lines of a text; `none` when the text does not end with a line end, or a line holds a
control character. -/
def cutLines : List Char → Option (List (List Char))
  | [] => some []
  | '\r' :: '\n' :: rest => (cutLines rest).map ([] :: ·)
  | c :: rest =>
    if control c then none
    else
      match cutLines rest with
      | some (l :: ls) => some ((c :: l) :: ls)
      | _ => none

/-- The messages of a list of lines; `none` when no empty line ends the last one. -/
def cutMessages : List (List Char) → Option (List (List (List Char)))
  | [] => some []
  | [] :: ls => (cutMessages ls).map ([] :: ·)
  | l :: ls =>
    match cutMessages ls with
    | some (m :: ms) => some ((l :: m) :: ms)
    | _ => none

/-- A line cut at its first `: `. -/
def cutHeader : List Char → Option Header
  | [] => none
  | ':' :: ' ' :: rest => some ([], rest)
  | c :: rest => (cutHeader rest).map fun h => (c :: h.1, h.2)

/-- The messages of a text. -/
def parse (w : List Char) : Option (List (List Header)) :=
  (cutLines w).bind fun ls => (cutMessages ls).bind fun ms => ms.mapM fun m => m.mapM cutHeader

/-! ## Lines -/

/-- A line without control characters is cut off whole. -/
theorem cutLines_line {l : List Char} (h : l.all (fun c => !control c) = true) (rest : List Char) :
    cutLines (l ++ crlf ++ rest) = (cutLines rest).map (l :: ·) := by
  induction l with
  | nil => rfl
  | cons c l ih =>
    simp only [List.all_cons, Bool.and_eq_true, Bool.not_eq_true'] at h
    have hc : c ≠ '\r' := by
      rintro rfl
      cases h.1
    rw [List.cons_append, List.cons_append, cutLines, ih h.2, if_neg (by simp [h.1])]
    · cases cutLines rest <;> rfl
    -- a text character is no CR, so the equation for a line end does not apply
    · intro rest' hcr
      exact absurd hcr hc

theorem cutLines_write {hs : List Header}
    (h : ∀ x ∈ hs, (line x).all (fun c => !control c) = true) :
    cutLines (write hs) = some (hs.map line ++ [[]]) := by
  induction hs with
  | nil => rfl
  | cons x hs ih =>
    have hcut := cutLines_line (h x List.mem_cons_self) (write hs)
    have hwrite : write (x :: hs) = line x ++ crlf ++ write hs := by simp [write]
    rw [hwrite, hcut, ih fun y hy => h y (List.mem_cons_of_mem _ hy)]
    rfl

/-! ## Messages and headers -/

/-- Lines that are not empty, with an empty one after them, make one message. -/
theorem cutMessages_lines {ls : List (List Char)} (h : ∀ l ∈ ls, l ≠ []) :
    cutMessages (ls ++ [[]]) = some [ls] := by
  induction ls with
  | nil => rfl
  | cons l ls ih =>
    have hl := h l List.mem_cons_self
    rw [List.cons_append, cutMessages, ih fun k hk => h k (List.mem_cons_of_mem _ hk)]
    exact fun hnil => absurd hnil hl

/-- A key without a colon is cut off whole. -/
theorem cutHeader_line {x : Header} (h : ':' ∉ x.1) : cutHeader (line x) = some x := by
  obtain ⟨key, value⟩ := x
  induction key with
  | nil => rfl
  | cons c key ih =>
    have hc : c ≠ ':' := by
      rintro rfl
      exact h List.mem_cons_self
    have hrest := ih fun hmem => h (List.mem_cons_of_mem _ hmem)
    simp only [line, List.cons_append] at hrest ⊢
    rw [cutHeader, hrest]
    · rfl
    -- the key holds no colon, so the cut comes after it
    · intro rest' hcolon
      exact absurd hcolon hc

/-- A header that is read back from its line. -/
structure Clean (x : Header) : Prop where
  key_colon : ':' ∉ x.1
  key_control : x.1.all (fun c => !control c) = true
  value_control : x.2.all (fun c => !control c) = true

theorem Clean.line_control {x : Header} (h : Clean x) :
    (line x).all (fun c => !control c) = true := by
  rw [line, List.all_append, List.all_cons, List.all_cons, h.key_control, h.value_control]
  rfl

theorem mapM_cutHeader {hs : List Header} (h : ∀ x ∈ hs, ':' ∉ x.1) :
    (hs.map line).mapM cutHeader = some hs := by
  induction hs with
  | nil => rfl
  | cons x hs ih =>
    have hx := cutHeader_line (h x List.mem_cons_self)
    have hrest := ih fun y hy => h y (List.mem_cons_of_mem _ hy)
    rw [List.map_cons, List.mapM_cons, hx, hrest]
    rfl

/-- Reading back a message. -/
theorem parse_write {hs : List Header} (h : ∀ x ∈ hs, Clean x) : parse (write hs) = some [hs] := by
  have hne : ∀ l ∈ hs.map line, l ≠ [] := by
    intro l hl
    obtain ⟨x, -, rfl⟩ := List.mem_map.1 hl
    simp [line]
  have hheaders := mapM_cutHeader fun x hx => (h x hx).key_colon
  rw [parse, cutLines_write fun x hx => (h x hx).line_control, Option.bind_some,
    cutMessages_lines hne, Option.bind_some, List.mapM_cons, hheaders]
  rfl

end HeaderLines
