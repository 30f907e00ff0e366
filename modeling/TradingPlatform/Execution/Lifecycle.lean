-- The job state machine of the execution service: the statuses, the edges of
-- `VALID_JOB_TRANSITIONS`, and the histories that follow them.
import Mathlib.Data.List.Chain

namespace trading_platform.execution

inductive JobStatus where
  | queued | approved | blocked | submitted | acknowledged | partially_filled | filled | canceled
  | failed | rolled_back
  deriving DecidableEq, Repr

namespace JobStatus

def value : JobStatus → String
  | queued => "queued"
  | approved => "approved"
  | blocked => "blocked"
  | submitted => "submitted"
  | acknowledged => "acknowledged"
  | partially_filled => "partially_filled"
  | filled => "filled"
  | canceled => "canceled"
  | failed => "failed"
  | rolled_back => "rolled_back"

end JobStatus

def VALID_JOB_TRANSITIONS : JobStatus → List JobStatus
  | .queued => [.approved, .blocked, .failed]
  | .approved => [.submitted, .failed]
  | .blocked => []
  | .submitted => [.acknowledged, .failed, .canceled]
  | .acknowledged => [.partially_filled, .filled, .canceled, .failed]
  | .partially_filled => [.filled, .canceled, .failed]
  | .filled => []
  | .canceled => []
  | .failed => [.rolled_back]
  | .rolled_back => []

def can_transition (from_state to_state : JobStatus) : Bool :=
  to_state ∈ VALID_JOB_TRANSITIONS from_state

def is_terminal (state : JobStatus) : Bool := (VALID_JOB_TRANSITIONS state).isEmpty

/-- The same status again, or an edge of the state machine. -/
def Follows (a b : JobStatus) : Prop := a = b ∨ can_transition a b = true

instance (a b : JobStatus) : Decidable (Follows a b) :=
  inferInstanceAs (Decidable (_ ∨ _))

/-- Each two consecutive statuses are the same or an edge. -/
def ValidHistory (l : List JobStatus) : Prop := l.IsChain Follows

instance (l : List JobStatus) : Decidable (ValidHistory l) :=
  inferInstanceAs (Decidable (l.IsChain Follows))

/-- Nothing but the same status can follow a terminal one. -/
theorem eq_of_follows_terminal {a b : JobStatus} (ha : is_terminal a = true) (h : Follows a b) :
    b = a := by
  rcases h with h | h
  · exact h.symm
  · have hnil : VALID_JOB_TRANSITIONS a = [] := by simpa [is_terminal] using ha
    simp [can_transition, hnil] at h

/-- A valid history goes on with a status that follows its last one. -/
theorem validHistory_snoc {l : List JobStatus} {s : JobStatus} (h : ValidHistory l)
    (hs : ∀ x ∈ l.getLast?, Follows x s) : ValidHistory (l ++ [s]) := by
  unfold ValidHistory at *
  rw [List.isChain_append]
  refine ⟨h, List.isChain_singleton s, fun x hx y hy => ?_⟩
  simp only [List.head?_cons, Option.mem_some_iff] at hy
  subst hy
  exact hs x hx

end trading_platform.execution
