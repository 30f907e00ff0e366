-- Registers whose writers read first. A change notes the value that its writer
-- read and the value that it wrote. Nothing makes the two meet: a history of
-- changes is serial when each change read what the change before it wrote.
import Mathlib.Logic.Relation
import Mathlib.Data.List.Basic

namespace register

variable {σ : Type}

structure Change (σ : Type) where
  read : σ
  wrote : σ
  deriving DecidableEq

/-- The value of the register after a history of changes. -/
def value : σ → List (Change σ) → σ
  | s, [] => s
  | _, c :: cs => value c.wrote cs

/-- Each change goes along an edge, and from the value that it finds. -/
def Serial (edge : σ → σ → Prop) : σ → List (Change σ) → Prop
  | _, [] => True
  | s, c :: cs => c.read = s ∧ edge c.read c.wrote ∧ Serial edge c.wrote cs

variable {edge : σ → σ → Prop} {s t : σ} {c : Change σ} {cs ds : List (Change σ)}

theorem serial_append :
    Serial edge s (cs ++ ds) ↔ Serial edge s cs ∧ Serial edge (value s cs) ds := by
  induction cs generalizing s with
  | nil => exact ⟨fun h => ⟨trivial, h⟩, fun h => h.2⟩
  | cons c cs ih =>
    show c.read = s ∧ edge c.read c.wrote ∧ Serial edge c.wrote (cs ++ ds) ↔
      (c.read = s ∧ edge c.read c.wrote ∧ Serial edge c.wrote cs) ∧ _
    rw [ih, and_assoc, and_assoc]
    exact Iff.rfl

/-- Where every change goes along an edge, a history is serial if each change finds
the value that it read. -/
theorem serial_cons_of_edge (hc : edge c.read c.wrote) :
    Serial edge s (c :: cs) ↔ c.read = s ∧ Serial edge c.wrote cs := by
  show c.read = s ∧ edge c.read c.wrote ∧ Serial edge c.wrote cs ↔ _
  simp [hc]

/-- A serial history is a path of edges. -/
theorem Serial.path (h : Serial edge s cs) : Relation.ReflTransGen edge s (value s cs) := by
  induction cs generalizing s with
  | nil => exact .refl
  | cons c cs ih =>
    obtain ⟨rfl, hedge, hrest⟩ := h
    exact (Relation.ReflTransGen.single hedge).trans (ih hrest)

/-- Nothing follows a change to a value without edges. -/
theorem Serial.ends_at_terminal (ht : ∀ b, ¬ edge t b) (h : Serial edge s (cs ++ c :: ds))
    (hc : c.wrote = t) : ds = [] := by
  obtain ⟨-, -, -, hrest⟩ := serial_append.mp h
  cases ds with
  | nil => rfl
  | cons d ds =>
    obtain ⟨hread, hedge, -⟩ := hrest
    rw [hread, hc] at hedge
    exact absurd hedge (ht _)

end register
