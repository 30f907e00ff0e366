-- Ledgers of cumulative reports. A report says how much of a total is done so
-- far. The ledger adds the difference to the level of the last report as a leg
-- under a key, and a key is used once.
import Mathlib

namespace ledger

variable {κ α : Type} [AddCommGroup α]

structure Ledger (κ α : Type) where
  /-- The keys in use, by the legs of this ledger or by others. -/
  keys : List κ
  /-- The sum of the legs. -/
  total : α
  /-- The level of the last report. -/
  level : α

namespace Ledger

/-- The legs add up to the level. -/
def Balanced (l : Ledger κ α) : Prop := l.total = l.level

/-- The leg that brings the ledger from its level to `z`. -/
def leg (l : Ledger κ α) (key : κ) (z : α) : Ledger κ α :=
  ⟨l.keys ++ [key], l.total + (z - l.level), z⟩

theorem balanced_leg {l : Ledger κ α} (h : l.Balanced) (key : κ) (z : α) :
    (l.leg key z).Balanced := by
  unfold Balanced at *
  simp [leg, h]

variable [DecidableEq κ] [LinearOrder α]

/-- A report that is dropped when its level is reached or its key is in use. -/
def advance (l : Ledger κ α) (key : κ) (z : α) : Ledger κ α :=
  if z ≤ l.level ∨ key ∈ l.keys then l else l.leg key z

/-- A report that sets the level, with or without a leg. -/
def close (l : Ledger κ α) (key : κ) (z : α) : Ledger κ α :=
  if l.level < z ∧ key ∉ l.keys then l.leg key z else { l with level := z }

/-- A report that may be dropped keeps the balance. -/
theorem balanced_advance {l : Ledger κ α} (h : l.Balanced) (key : κ) (z : α) :
    (l.advance key z).Balanced := by
  unfold advance
  split
  · exact h
  · exact balanced_leg h key z

/-- A report that sets a new level keeps the balance when its key is free, and
only then. -/
theorem balanced_close_iff {l : Ledger κ α} (h : l.Balanced) {key : κ} {z : α}
    (hz : l.level < z) : (l.close key z).Balanced ↔ key ∉ l.keys := by
  unfold close
  by_cases hk : key ∈ l.keys
  · have hne : l.total ≠ z := fun he => (ne_of_lt hz) ((Eq.symm h).trans he)
    simp [hk, Balanced, hne]
  · simp [hk, hz, balanced_leg h key z]

end Ledger

end ledger
