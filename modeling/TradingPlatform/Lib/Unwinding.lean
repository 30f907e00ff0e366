-- Noninterference by unwinding. An observer sees a part of a machine and is told of some of
-- its steps. When every other step leaves that part as it is, a run shows the observer what
-- the steps tell that the observer is told of, whatever happens between them.
import Mathlib.Data.List.Basic

namespace unwinding

variable {S A V : Type}

section Runs

variable (step : S → A → Option S)

def run : S → List A → Option S
  | s, [] => some s
  | s, a :: as => (step s a).bind fun s' => run s' as

/-- Every step of the run is allowed. -/
def all_allowed (allowed : S → A → Bool) : S → List A → Bool
  | _, [] => true
  | s, a :: as =>
    allowed s a &&
      match step s a with
      | some s' => all_allowed allowed s' as
      | none => true

/-- The steps that the observer is told of. -/
def told (view : S → V) (concerns : V → A → Bool) : S → List A → List A
  | _, [] => []
  | s, a :: as =>
    let rest := match step s a with
      | some s' => told view concerns s' as
      | none => []
    if concerns (view s) a then a :: rest else rest

end Runs

/-- What an observer makes of the steps: `view` is what the observer sees of a state, and
`tell` is what becomes of it by a step that `concerns` the observer. -/
structure Unwinding (step : S → A → Option S) (allowed : S → A → Bool) (inv : S → Prop)
    (view : S → V) (concerns : V → A → Bool) (tell : V → A → V) : Prop where
  keeps : ∀ {s a s'}, inv s → allowed s a = true → step s a = some s' → inv s'
  skips : ∀ {s a s'}, inv s → allowed s a = true → step s a = some s' →
    concerns (view s) a = false → view s' = view s
  tells : ∀ {s a s'}, inv s → allowed s a = true → step s a = some s' →
    concerns (view s) a = true → view s' = tell (view s) a

section Laws

variable {step : S → A → Option S} {allowed : S → A → Bool} {inv : S → Prop} {view : S → V}
  {concerns : V → A → Bool} {tell : V → A → V}

theorem of_all_allowed {s : S} {a : A} {as : List A}
    (h : all_allowed step allowed s (a :: as) = true) :
    allowed s a = true ∧ ∀ s', step s a = some s' → all_allowed step allowed s' as = true := by
  obtain ⟨hfirst, hrest⟩ := Bool.and_eq_true_iff.mp h
  refine ⟨hfirst, ?_⟩
  intro s' hstep
  rw [hstep] at hrest
  exact hrest

theorem inv_of_run
    (hkeeps : ∀ {s a s'}, inv s → allowed s a = true → step s a = some s' → inv s') {s s' : S}
    {as : List A} (hs : inv s) (hallowed : all_allowed step allowed s as = true)
    (hrun : run step s as = some s') : inv s' := by
  induction as generalizing s with
  | nil =>
    cases hrun
    exact hs
  | cons a as ih =>
    obtain ⟨hfirst, hnext⟩ := of_all_allowed hallowed
    obtain ⟨next, hstep, hrest⟩ := Option.bind_eq_some_iff.mp hrun
    exact ih (hkeeps hs hfirst hstep) (hnext next hstep) hrest

/-- What the observer sees in the end follows from the steps that the observer is told of. -/
theorem view_of_run (h : Unwinding step allowed inv view concerns tell) {s s' : S} {as : List A}
    (hs : inv s) (hallowed : all_allowed step allowed s as = true) (hrun : run step s as = some s') :
    view s' = (told step view concerns s as).foldl tell (view s) := by
  induction as generalizing s with
  | nil =>
    cases hrun
    rfl
  | cons a as ih =>
    obtain ⟨hfirst, hnext⟩ := of_all_allowed hallowed
    obtain ⟨next, hstep, hrest⟩ := Option.bind_eq_some_iff.mp hrun
    have hview := ih (h.keeps hs hfirst hstep) (hnext next hstep) hrest
    unfold told
    rw [hstep]
    dsimp only
    by_cases hconcerns : concerns (view s) a = true
    · rw [if_pos hconcerns, List.foldl_cons, ← h.tells hs hfirst hstep hconcerns]
      exact hview
    · rw [if_neg hconcerns, ← h.skips hs hfirst hstep (Bool.not_eq_true _ ▸ hconcerns)]
      exact hview

/-- Noninterference: two runs that tell the observer the same steps look the same. -/
theorem noninterference (h : Unwinding step allowed inv view concerns tell) {s s' t' : S}
    {as bs : List A} (hs : inv s) (hleft : all_allowed step allowed s as = true)
    (hright : all_allowed step allowed s bs = true) (hrun : run step s as = some s')
    (hrun' : run step s bs = some t')
    (htold : told step view concerns s as = told step view concerns s bs) :
    view s' = view t' := by
  rw [view_of_run h hs hleft hrun, view_of_run h hs hright hrun', htold]

end Laws

end unwinding
