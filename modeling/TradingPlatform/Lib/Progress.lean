-- Runs that can go on. A state leads to another one when some steps take it there. Where every
-- state that is no goal leads to one that is nearer to the goals, no run is stuck.
import Mathlib
import TradingPlatform.Lib.Unwinding

open unwinding

namespace progress

variable {S A : Type} {step : S → A → Option S} {s s' s'' : S}

theorem run_append (s : S) (as more : List A) :
    run step s (as ++ more) = (run step s as).bind fun s' => run step s' more := by
  induction as generalizing s with
  | nil => rfl
  | cons a as ih =>
    simp only [List.cons_append, run, Option.bind_assoc]
    congr 1
    funext s'
    exact ih s'

/-- What every step keeps is kept by a run. -/
theorem keeps_run (inv : S → Prop) (hkeeps : ∀ {s a s'}, inv s → step s a = some s' → inv s')
    {as : List A} (hs : inv s) (hrun : run step s as = some s') : inv s' := by
  induction as generalizing s with
  | nil =>
    cases hrun
    exact hs
  | cons a as ih =>
    obtain ⟨next, hstep, hrest⟩ := Option.bind_eq_some_iff.mp hrun
    exact ih (hkeeps hs hstep) hrest

def Leads (step : S → A → Option S) (s s' : S) : Prop := ∃ as, run step s as = some s'

theorem Leads.rfl : Leads step s s := ⟨[], Eq.refl _⟩

theorem Leads.of_step {a : A} (h : step s a = some s') : Leads step s s' := by
  refine ⟨[a], ?_⟩
  simp [run, h]

theorem Leads.trans (h : Leads step s s') (h' : Leads step s' s'') : Leads step s s'' := by
  obtain ⟨as, has⟩ := h
  obtain ⟨more, hmore⟩ := h'
  refine ⟨as ++ more, ?_⟩
  rw [run_append, has]
  exact hmore

theorem Leads.keeps (h : Leads step s s') (inv : S → Prop)
    (hkeeps : ∀ {s a s'}, inv s → step s a = some s' → inv s') (hs : inv s) : inv s' := by
  obtain ⟨as, has⟩ := h
  exact keeps_run inv hkeeps hs has

/-- Where what is left can always be made less, nothing is left in the end. -/
theorem leads_to_goal (inv : S → Prop) {goal : S → Prop} (left : S → Nat)
    (hnext : ∀ s, inv s → ¬ goal s → ∃ s', Leads step s s' ∧ inv s' ∧ left s' < left s)
    (hs : inv s) : ∃ s', Leads step s s' ∧ goal s' := by
  induction hleft : left s using Nat.strongRecOn generalizing s with
  | ind n ih =>
    by_cases hgoal : goal s
    · exact ⟨s, Leads.rfl, hgoal⟩
    · obtain ⟨next, hleads, hinv, hlt⟩ := hnext s hs hgoal
      obtain ⟨last, hlast, hdone⟩ := ih (left next) (by omega) hinv rfl
      exact ⟨last, hleads.trans hlast, hdone⟩

end progress
