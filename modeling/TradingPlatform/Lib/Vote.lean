-- Votes with weights. The confidence of a vote is the weight of the voters that pass
-- over the weight of all that count, or zero when these have no weight.
import Mathlib.Algebra.Order.BigOperators.Group.List
import Mathlib.Algebra.Order.Field.Basic
import Mathlib.Tactic.Linarith

namespace vote

variable {ρ α : Type} [Field α] (weight : ρ → α)

/-- The weight of the voters that have a property. -/
def weight_sum (p : ρ → Bool) (rs : List ρ) : α := ((rs.filter p).map weight).sum

variable {weight} {p q : ρ → Bool} {rs rs' : List ρ}

theorem weight_sum_nil : weight_sum weight p [] = 0 := rfl

theorem weight_sum_cons (r : ρ) :
    weight_sum weight p (r :: rs) = (if p r then weight r else 0) + weight_sum weight p rs := by
  unfold weight_sum
  by_cases hp : p r = true
  · simp [hp]
  · simp [hp]

theorem weight_sum_congr (h : ∀ r ∈ rs, p r = q r) : weight_sum weight p rs = weight_sum weight q rs := by
  unfold weight_sum
  rw [List.filter_congr h]

theorem weight_sum_perm (h : rs.Perm rs') : weight_sum weight p rs = weight_sum weight p rs' :=
  ((h.filter p).map weight).sum_eq

variable [LinearOrder α]

variable (weight) in
def confidence (counts passes : ρ → Bool) (rs : List ρ) : α :=
  if 0 < weight_sum weight counts rs then
    weight_sum weight (fun r => passes r && counts r) rs / weight_sum weight counts rs
  else 0

variable {counts passes passes' : ρ → Bool}

section Nonneg

variable [IsStrictOrderedRing α] (hw : ∀ r ∈ rs, 0 ≤ weight r)

include hw

theorem weight_sum_nonneg : 0 ≤ weight_sum weight p rs := by
  apply List.sum_nonneg
  intro x hx
  obtain ⟨r, hr, rfl⟩ := List.mem_map.mp hx
  exact hw r (List.mem_filter.mp hr).1

/-- More voters have no less weight. -/
theorem weight_sum_mono (h : ∀ r ∈ rs, p r = true → q r = true) :
    weight_sum weight p rs ≤ weight_sum weight q rs := by
  induction rs with
  | nil => exact le_refl _
  | cons r rs ih =>
    have hrest := ih (fun x hx => hw x (List.mem_cons_of_mem r hx))
      fun x hx => h x (List.mem_cons_of_mem r hx)
    have hr : 0 ≤ weight r := hw r List.mem_cons_self
    have himp := h r List.mem_cons_self
    rw [weight_sum_cons, weight_sum_cons]
    cases hp : p r with
    | false =>
      cases hq : q r with
      | false => simpa using hrest
      | true =>
        simp only [Bool.false_eq_true, if_false, if_true]
        linarith
    | true =>
      rw [himp hp]
      simpa using hrest

/-- The voters have a weight when one of them has. -/
theorem weight_sum_pos_iff : 0 < weight_sum weight p rs ↔ ∃ r ∈ rs, p r = true ∧ 0 < weight r := by
  induction rs with
  | nil => simp [weight_sum_nil]
  | cons r rs ih =>
    have hws : ∀ x ∈ rs, 0 ≤ weight x := fun x hx => hw x (List.mem_cons_of_mem r hx)
    have hrest : 0 ≤ weight_sum weight p rs := weight_sum_nonneg hws
    have hr : 0 ≤ weight r := hw r List.mem_cons_self
    have ih := ih hws
    rw [weight_sum_cons, List.exists_mem_cons_iff, ← ih]
    by_cases hp : p r = true
    · rw [if_pos hp]
      constructor
      · intro hpos
        rcases lt_or_eq_of_le hr with hlt | heq
        · exact Or.inl ⟨hp, hlt⟩
        · rw [← heq, zero_add] at hpos
          exact Or.inr hpos
      · rintro (⟨-, hlt⟩ | hlt)
        · linarith
        · linarith
    · rw [if_neg hp, zero_add]
      constructor
      · exact Or.inr
      · rintro (⟨hpass, -⟩ | hlt)
        · exact absurd hpass hp
        · exact hlt

theorem confidence_nonneg : 0 ≤ confidence weight counts passes rs := by
  unfold confidence
  split
  · exact div_nonneg (weight_sum_nonneg hw) (weight_sum_nonneg hw)
  · exact le_refl _

theorem confidence_le_one : confidence weight counts passes rs ≤ 1 := by
  unfold confidence
  split
  · rename_i hpos
    rw [div_le_one hpos]
    apply weight_sum_mono hw
    intro r _ hr
    exact (Bool.and_eq_true_iff.mp hr).2
  · exact zero_le_one

/-- There is confidence when a voter of some weight that counts passes. -/
theorem confidence_pos_iff :
    0 < confidence weight counts passes rs ↔
      ∃ r ∈ rs, (passes r = true ∧ counts r = true) ∧ 0 < weight r := by
  have hle : weight_sum weight (fun r => passes r && counts r) rs ≤ weight_sum weight counts rs := by
    apply weight_sum_mono hw
    intro r _ hr
    exact (Bool.and_eq_true_iff.mp hr).2
  have hpart := weight_sum_pos_iff (p := fun r => passes r && counts r) hw
  simp only [Bool.and_eq_true] at hpart
  rw [← hpart]
  unfold confidence
  constructor
  · intro h
    split at h
    · rename_i hpos
      exact (div_pos_iff_of_pos_right hpos).mp h
    · exact absurd h (lt_irrefl _)
  · intro h
    have hpos := lt_of_lt_of_le h hle
    rw [if_pos hpos]
    exact div_pos h hpos

/-- More voters that pass give no less confidence. -/
theorem confidence_mono (h : ∀ r ∈ rs, passes r = true → passes' r = true) :
    confidence weight counts passes rs ≤ confidence weight counts passes' rs := by
  unfold confidence
  split
  · rename_i hpos
    rw [div_le_div_iff_of_pos_right hpos]
    apply weight_sum_mono hw
    intro r hr hboth
    obtain ⟨hpass, hcount⟩ := Bool.and_eq_true_iff.mp hboth
    exact Bool.and_eq_true_iff.mpr ⟨h r hr hpass, hcount⟩
  · exact le_refl _

end Nonneg

/-- Only the voters that count matter. -/
theorem confidence_congr (h : ∀ r ∈ rs, counts r = true → passes r = passes' r) :
    confidence weight counts passes rs = confidence weight counts passes' rs := by
  have hsum : weight_sum weight (fun r => passes r && counts r) rs =
      weight_sum weight (fun r => passes' r && counts r) rs := by
    apply weight_sum_congr
    intro r hr
    cases hcount : counts r with
    | false => simp
    | true => rw [h r hr hcount]
  unfold confidence
  rw [hsum]

/-- The order of the voters does not matter. -/
theorem confidence_perm (h : rs.Perm rs') :
    confidence weight counts passes rs = confidence weight counts passes rs' := by
  unfold confidence
  rw [weight_sum_perm h, weight_sum_perm h]

end vote
