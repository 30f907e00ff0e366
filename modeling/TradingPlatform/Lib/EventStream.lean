-- Event streams. A frame is an event with its data, or a comment. A reader takes the lines of the
-- text, keeps the name of the last event line, and gives it to the next data line.
import Mathlib

namespace event_stream

/-! ## Lines -/

/-- What ends a line for `str.splitlines`. -/
def is_break (c : Char) : Bool :=
  c = '\n' || c = '\r' || c = '\x0b' || c = '\x0c' || c = '\x1c' || c = '\x1d' || c = '\x1e' ||
    c = '\u0085' || c = '\u2028' || c = '\u2029'

/-- The lines, the first one of which began with `line` backwards. -/
def cut (line : List Char) : List Char → List (List Char)
  | [] => if line = [] then [] else [line.reverse]
  | '\r' :: '\n' :: rest => line.reverse :: cut [] rest
  | c :: rest => if is_break c then line.reverse :: cut [] rest else cut (c :: line) rest

/-- `str.splitlines`. -/
def splitlines (text : List Char) : List (List Char) := cut [] text

/-- A text on one line. -/
def Unbroken (text : List Char) : Prop := ∀ c ∈ text, is_break c = false

theorem unbroken_append {text more : List Char} (h : Unbroken text) (hmore : Unbroken more) :
    Unbroken (text ++ more) := List.forall_mem_append.mpr ⟨h, hmore⟩

theorem unbroken_of_printable {text : List Char} (h : ∀ c ∈ text, ' ' ≤ c ∧ c ≤ '~') :
    Unbroken text := by
  intro c hc
  obtain ⟨hlow, hhigh⟩ := h c hc
  have hne (d : Char) (hd : d < ' ' ∨ '~' < d) : c ≠ d := by
    rintro rfl
    rcases hd with hd | hd
    · exact absurd hlow (not_le.mpr hd)
    · exact absurd hhigh (not_le.mpr hd)
  simp [is_break, hne '\n' (by decide), hne '\r' (by decide), hne '\x0b' (by decide),
    hne '\x0c' (by decide), hne '\x1c' (by decide), hne '\x1d' (by decide),
    hne '\x1e' (by decide), hne '\u0085' (by decide), hne '\u2028' (by decide),
    hne '\u2029' (by decide)]

theorem cut_line {text : List Char} (h : Unbroken text) (line rest : List Char) :
    cut line (text ++ '\n' :: rest) = (line.reverse ++ text) :: cut [] rest := by
  induction text generalizing line with
  | nil =>
    have hbreak : is_break '\n' = true := rfl
    rw [List.nil_append, List.append_nil, cut, if_pos hbreak]
    exact fun more hmore => absurd hmore (by decide)
  | cons c text ih =>
    have hc : is_break c = false := h c List.mem_cons_self
    have htext : Unbroken text := fun d hd => h d (List.mem_cons_of_mem c hd)
    rw [List.cons_append, cut, if_neg (by rw [hc]; decide), ih htext]
    · simp
    · intro more hmore
      rw [hmore] at hc
      exact absurd hc (by decide)

/-- A line of a text. -/
theorem splitlines_line {text : List Char} (h : Unbroken text) (rest : List Char) :
    splitlines (text ++ '\n' :: rest) = text :: splitlines rest := cut_line h [] rest

/-! ## Frames -/

def event_field : List Char := "event: ".toList

def data_field : List Char := "data: ".toList

def comment_field : List Char := ": ".toList

theorem unbroken_fields :
    Unbroken event_field ∧ Unbroken data_field ∧ Unbroken comment_field := by
  simp [Unbroken, event_field, data_field, comment_field, is_break]

inductive Frame where
  | event (name data : List Char)
  | comment (text : List Char)

namespace Frame

def text : Frame → List Char
  | event name data =>
    event_field ++ (name ++ '\n' :: (data_field ++ (data ++ ['\n', '\n'])))
  | comment text => comment_field ++ (text ++ ['\n', '\n'])

def lines : Frame → List (List Char)
  | event name data => [event_field ++ name, data_field ++ data, []]
  | comment text => [comment_field ++ text, []]

/-- The name and the data stand on one line. -/
def Framed : Frame → Prop
  | event name data => Unbroken name ∧ Unbroken data
  | comment text => Unbroken text

theorem splitlines_text {f : Frame} (h : f.Framed) (rest : List Char) :
    splitlines (f.text ++ rest) = f.lines ++ splitlines rest := by
  have hempty : Unbroken [] := fun _ h => nomatch h
  obtain ⟨hevent, hdata, hcomment⟩ := unbroken_fields
  cases f with
  | event name data =>
    have h1 := splitlines_line (unbroken_append hevent h.1)
      (data_field ++ (data ++ '\n' :: '\n' :: rest))
    have h2 := splitlines_line (unbroken_append hdata h.2) ('\n' :: rest)
    have h3 := splitlines_line hempty rest
    simp only [List.append_assoc, List.nil_append] at h1 h2 h3
    simp only [text, lines, List.append_assoc, List.cons_append, List.nil_append, h1, h2, h3]
  | comment text =>
    have h1 := splitlines_line (unbroken_append hcomment h) ('\n' :: rest)
    have h2 := splitlines_line hempty rest
    simp only [List.append_assoc, List.nil_append] at h1 h2
    simp only [Frame.text, lines, List.append_assoc, List.cons_append, List.nil_append, h1, h2]

theorem splitlines_frame {f : Frame} (h : f.Framed) : splitlines f.text = f.lines := by
  have hlines := splitlines_text h []
  rw [List.append_nil] at hlines
  rw [hlines]
  exact List.append_nil _

/-- The lines of a stream of frames are the lines of its frames. -/
theorem splitlines_frames {frames : List Frame} (h : ∀ f ∈ frames, f.Framed) :
    splitlines (frames.flatMap text) = frames.flatMap lines := by
  induction frames with
  | nil => rfl
  | cons f frames ih =>
    rw [List.flatMap_cons, List.flatMap_cons, splitlines_text (h f List.mem_cons_self),
      ih fun g hg => h g (List.mem_cons_of_mem f hg)]

end Frame

/-! ## Readers -/

/-- What a line is to a reader. -/
inductive Kind (α : Type) where
  | event (name : α)
  | data (text : α)
  | other

section Reader

variable {α line σ : Type} (kind : line → Kind α)

/-- The data of the lines, each with the name of the event line before it. -/
def received : Option α → List line → List (Option α × α)
  | _, [] => []
  | name, l :: ls =>
    match kind l with
    | .event name => received (some name) ls
    | .data text => (name, text) :: received none ls
    | .other => received name ls

/-- The name that the next data line is given. -/
def pending_name : Option α → List line → Option α
  | name, [] => name
  | name, l :: ls =>
    match kind l with
    | .event name => pending_name (some name) ls
    | .data _ => pending_name none ls
    | .other => pending_name name ls

theorem received_append (name : Option α) (ls more : List line) :
    received kind name (ls ++ more) =
      received kind name ls ++ received kind (pending_name kind name ls) more := by
  induction ls generalizing name with
  | nil => rfl
  | cons l ls ih =>
    rw [List.cons_append, received, received, pending_name]
    cases kind l with
    | event n => exact ih (some n)
    | data text => exact congrArg ((name, text) :: ·) (ih none)
    | other => exact ih name

end Reader

end event_stream
