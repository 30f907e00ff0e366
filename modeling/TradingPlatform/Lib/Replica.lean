-- Replicas that follow numbered updates. A replica holds a content and the id of
-- the last update in it. A snapshot replaces both. A delta covers a range of ids,
-- and is taken when it reaches past the last id and leaves no gap after it.
import Mathlib.Data.List.Induction

namespace replica

variable {S D : Type}

structure Copy (S : Type) where
  last : Int
  content : S
  deriving DecidableEq

inductive Update (S D : Type) where
  | snapshot (last : Int) (content : S)
  | delta (first last : Int) (change : D)

/-- A copy at id `last` takes the delta with the ids `U` to `u`. -/
def Takes (last U u : Int) : Prop := last < u ∧ U ≤ last + 1

instance (last U u : Int) : Decidable (Takes last U u) :=
  inferInstanceAs (Decidable (_ ∧ _))

section Follow

variable (apply : S → D → S)

/-- A replica that has no copy yet waits for a snapshot. -/
def follow : Option (Copy S) → Update S D → Option (Copy S)
  | _, .snapshot last content => some ⟨last, content⟩
  | none, .delta .. => none
  | some c, .delta U u change => if Takes c.last U u then some ⟨u, apply c.content change⟩ else some c

def follow_all (start : Option (Copy S)) (us : List (Update S D)) : Option (Copy S) :=
  us.foldl (follow apply) start

theorem follow_all_snoc (start : Option (Copy S)) (us : List (Update S D)) (up : Update S D) :
    follow_all apply start (us ++ [up]) = follow apply (follow_all apply start us) up := by
  simp [follow_all, List.foldl_append]

/-- A delta that is behind or after a gap leaves the copy as it is. -/
theorem follow_refused {c : Copy S} {U u : Int} (h : ¬ Takes c.last U u) (change : D) :
    follow apply (some c) (.delta U u change) = some c := if_neg h

/-- A delta never moves a copy back. -/
theorem last_le_of_follow {c c' : Copy S} {U u : Int} {change : D}
    (h : follow apply (some c) (.delta U u change) = some c') : c.last ≤ c'.last := by
  by_cases ht : Takes c.last U u
  · rw [follow, if_pos ht] at h
    obtain rfl := Option.some.inj h
    have hpast := ht.1
    simp
    omega
  · rw [follow_refused apply ht] at h
    obtain rfl := Option.some.inj h
    omega

/-- Between two snapshots the last id does not go down. -/
theorem last_le_of_follow_all {c c' : Copy S} {us : List (Update S D)}
    (hus : ∀ up ∈ us, ∃ U u change, up = .delta U u change)
    (h : follow_all apply (some c) us = some c') : c.last ≤ c'.last := by
  induction us using List.reverseRecOn generalizing c' with
  | nil =>
    obtain rfl := Option.some.inj h
    omega
  | append_singleton us up ih =>
    rw [follow_all_snoc] at h
    obtain ⟨U, u, change, rfl⟩ := hus up (by simp)
    cases hmid : follow_all apply (some c) us with
    | none =>
      rw [hmid] at h
      cases h
    | some mid =>
      rw [hmid] at h
      have hbefore := ih (fun up hup => hus up (by simp [hup])) hmid
      have hstep := last_le_of_follow apply h
      omega

end Follow

/-! ## Coverage -/

/-- Each id after `lo` and up to `hi` lies in one of the ranges. -/
def Covers (lo hi : Int) (ranges : List (Int × Int)) : Prop :=
  ∀ id, lo < id → id ≤ hi → ∃ r ∈ ranges, r.1 ≤ id ∧ id ≤ r.2

theorem covers_nil (lo : Int) : Covers lo lo [] := by
  intro id hlo hhi
  omega

/-- A delta that is taken covers the ids that it adds. -/
theorem Covers.take {lo last U u : Int} {ranges : List (Int × Int)} (h : Covers lo last ranges)
    (ht : Takes last U u) : Covers lo u (ranges ++ [(U, u)]) := by
  intro id hlo hhi
  by_cases hid : id ≤ last
  · obtain ⟨r, hr, hin⟩ := h id hlo hid
    exact ⟨r, List.mem_append_left _ hr, hin⟩
  · have hnext := ht.2
    refine ⟨(U, u), by simp, ?_, hhi⟩
    simp
    omega

/-! ## Implementations -/

variable {σ τ ε : Type}

/-- An implementation agrees with a reference after every part of a run if and
only if each step of it goes where the reference goes. -/
theorem agrees_iff_steps (step : σ → ε → σ) (ref : τ → ε → τ) (view : σ → τ) (s : σ)
    (es : List ε) :
    (∀ pre, pre <+: es → view (pre.foldl step s) = pre.foldl ref (view s)) ↔
      ∀ pre e, pre ++ [e] <+: es →
        view (step (pre.foldl step s) e) = ref (view (pre.foldl step s)) e := by
  constructor
  · intro h pre e hpre
    have hafter := h (pre ++ [e]) hpre
    have hbefore := h pre ((List.prefix_append pre [e]).trans hpre)
    rw [List.foldl_append, List.foldl_append] at hafter
    rw [hbefore]
    exact hafter
  · intro h pre
    induction pre using List.reverseRecOn with
    | nil =>
      intro _
      rfl
    | append_singleton pre e ih =>
      intro hpre
      have hbefore := ih ((List.prefix_append pre [e]).trans hpre)
      rw [List.foldl_append, List.foldl_append, ← hbefore]
      exact h pre e hpre

end replica
