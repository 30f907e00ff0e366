-- Loops that try again, and wait before each new attempt. The wait depends on a
-- counter, which an attempt may reset and every attempt increments.
import Mathlib.Algebra.Order.Archimedean.Basic
import Mathlib.Algebra.Order.Ring.Abs
import Mathlib.Tactic.Linarith

namespace backoff

/-! ## The counter -/

/-- The counter with which the wait after an attempt is computed. -/
def used (n : Nat) (resets : Bool) : Nat := if resets then 0 else n

/-- The counters of the attempts of a run; `true` is an attempt that resets. -/
def counters : Nat → List Bool → List Nat
  | _, [] => []
  | n, r :: rs => used n r :: counters (used n r + 1) rs

/-- Somewhere an attempt is followed by `n` attempts that do not reset. -/
def Streak (n : Nat) (rs : List Bool) : Prop :=
  ∃ before r behind, rs = before ++ r :: (List.replicate n false ++ behind)

theorem streak_cons {n : Nat} {rs : List Bool} (r : Bool) (h : Streak n rs) :
    Streak n (r :: rs) := by
  obtain ⟨before, r', behind, rfl⟩ := h
  exact ⟨r :: before, r', behind, rfl⟩

theorem streak_length {n : Nat} {rs : List Bool} (h : Streak n rs) : n < rs.length := by
  obtain ⟨before, r, behind, rfl⟩ := h
  rw [List.length_append, List.length_cons, List.length_append, List.length_replicate]
  omega

theorem streak_of_le {m n : Nat} {rs : List Bool} (h : Streak n rs) (hle : m ≤ n) :
    Streak m rs := by
  obtain ⟨before, r, behind, rfl⟩ := h
  refine ⟨before, r, List.replicate (n - m) false ++ behind, ?_⟩
  rw [← List.append_assoc, List.replicate_append_replicate, Nat.add_sub_cancel' hle]

/-- A counter above the first one counts the attempts of a streak, or those that
follow the start. -/
theorem streak_of_mem {n k : Nat} {rs : List Bool} (h : n ∈ counters k rs) :
    Streak n rs ∨ ∃ m behind, n = k + m ∧ rs = List.replicate (m + 1) false ++ behind := by
  induction rs generalizing k with
  | nil => cases h
  | cons r rs ih =>
    cases r with
    | true =>
      left
      rcases List.mem_cons.mp h with h | h
      · obtain rfl : n = 0 := h
        exact ⟨[], true, rs, rfl⟩
      · rcases ih h with hs | ⟨m, behind, hn, hrs⟩
        · exact streak_cons true hs
        · have hm : n = m + 1 := by
            rw [hn]
            exact Nat.add_comm 1 m
          exact ⟨[], true, behind, by rw [hrs, hm]; rfl⟩
    | false =>
      rcases List.mem_cons.mp h with h | h
      · obtain rfl : n = k := h
        exact Or.inr ⟨0, rs, rfl, rfl⟩
      · rcases ih h with hs | ⟨m, behind, hn, hrs⟩
        · exact Or.inl (streak_cons false hs)
        · refine Or.inr ⟨m + 1, behind, ?_, ?_⟩
          · have hk : used k false = k := rfl
            rw [hk] at hn
            omega
          · rw [hrs]
            rfl

/-- The counter passes every number below one that it reaches. -/
theorem mem_of_le {n i k : Nat} {rs : List Bool} (h : i ∈ counters k rs) (hle : n ≤ i)
    (hk : k ≤ n) : n ∈ counters k rs := by
  induction rs generalizing k with
  | nil => cases h
  | cons r rs ih =>
    rcases List.mem_cons.mp h with h | h
    · have hused : used k r ≤ k := by
        unfold used
        split
        · exact Nat.zero_le k
        · exact le_rfl
      exact List.mem_cons.mpr (Or.inl (by omega))
    · by_cases hn : n = used k r
      · exact List.mem_cons.mpr (Or.inl hn)
      · refine List.mem_cons_of_mem _ (ih h ?_)
        have hused : used k r ≤ k := by
          unfold used
          split
          · exact Nat.zero_le k
          · exact le_rfl
        omega

/-- Attempts that do not reset drive the counter up by one each. -/
theorem mem_of_replicate {n k : Nat} {behind : List Bool} :
    k + n ∈ counters k (List.replicate (n + 1) false ++ behind) := by
  induction n generalizing k with
  | zero => exact List.mem_cons_self
  | succ n ih =>
    refine List.mem_cons_of_mem _ ?_
    have h := ih (k := k + 1)
    rw [show k + 1 + n = k + (n + 1) by omega] at h
    exact h

theorem reaches_of_streak {n k : Nat} {rs : List Bool} (h : Streak n rs) :
    ∃ i ∈ counters k rs, n ≤ i := by
  obtain ⟨before, r, behind, rfl⟩ := h
  induction before generalizing k with
  | nil =>
    cases n with
    | zero => exact ⟨used k r, List.mem_cons_self, Nat.zero_le _⟩
    | succ n =>
      refine ⟨used k r + 1 + n, List.mem_cons_of_mem _ mem_of_replicate, ?_⟩
      omega
  | cons b before ih =>
    obtain ⟨i, hi, hn⟩ := ih (k := used k b + 1)
    exact ⟨i, List.mem_cons_of_mem _ hi, hn⟩

/-- From zero the counter reaches `n` exactly when there is a streak of `n`. -/
theorem mem_counters_iff {n : Nat} {rs : List Bool} : n ∈ counters 0 rs ↔ Streak n rs := by
  constructor
  · intro h
    rcases streak_of_mem h with h | ⟨m, behind, hn, hrs⟩
    · exact h
    · refine ⟨[], false, behind, ?_⟩
      rw [hrs, hn, Nat.zero_add]
      rfl
  · intro h
    obtain ⟨i, hi, hle⟩ := reaches_of_streak (k := 0) h
    exact mem_of_le hi hle (Nat.zero_le n)

/-! ## The loop -/

/-- What follows an attempt. -/
inductive Next (E δ : Type) where
  /-- A wait, and another attempt at this counter. -/
  | again (delay : δ) (n : Nat)
  /-- The loop is left as it is meant to be. -/
  | returned
  /-- An exception leaves the loop. -/
  | died (e : E)

variable {E δ I L : Type}

/-- The attempts of a run, each with what it leaves in the log. -/
def loop (attempt : Nat → I → L × Next E δ) : Nat → List I → List (L × Next E δ)
  | _, [] => []
  | n, i :: is =>
    match attempt n i with
    | (log, .again delay m) => (log, .again delay m) :: loop attempt m is
    | made => [made]

/-- What is made is what the input of its place makes at some counter. -/
theorem loop_at {attempt : Nat → I → L × Next E δ} {n i : Nat} {is : List I} {m : L × Next E δ}
    (h : (loop attempt n is)[i]? = some m) : ∃ k x, is[i]? = some x ∧ m = attempt k x := by
  induction is generalizing n i with
  | nil => cases h
  | cons x is ih =>
    unfold loop at h
    rcases hmade : attempt n x with ⟨log, next⟩
    rw [hmade] at h
    cases i with
    | zero =>
      refine ⟨n, x, rfl, ?_⟩
      rw [hmade]
      cases next <;> exact (Option.some.inj h).symm
    | succ i =>
      cases next with
      | again d k => exact ih h
      | returned | died e => cases h

/-- A loop that is left makes no attempt, whatever comes. -/
theorem loop_left {attempt : Nat → I → L × Next E δ} {n i : Nat} {is : List I} {log : L}
    (h : (loop attempt n is)[i]? = some (log, .returned)) (more : List I) :
    (loop attempt n (is.take (i + 1) ++ more)).length = i + 1 := by
  induction is generalizing n i with
  | nil => cases h
  | cons x is ih =>
    unfold loop at h
    rw [List.take_succ_cons, List.cons_append]
    unfold loop
    rcases hmade : attempt n x with ⟨log', next⟩
    rw [hmade] at h
    cases next with
    | again d k =>
      cases i with
      | zero => cases h
      | succ i =>
        dsimp only
        rw [List.length_cons, ih h]
    | returned | died e =>
      cases i with
      | zero => rfl
      | succ i => cases h

/-- The wait that `delay` computes for a counter. -/
def waitAt (delay : Nat → Except E δ) (n : Nat) : Next E δ :=
  match delay n with
  | .ok d => .again d (n + 1)
  | .error e => .died e

/-- Every attempt is followed by a wait of `P`, and by another attempt. -/
def GoesOn (P : δ → Prop) (made : List (L × Next E δ)) : Prop :=
  ∀ m ∈ made, ∃ d n, m.2 = .again d n ∧ P d

section GoesOn

variable {attempt : Nat → I → L × Next E δ} {delay : I → Nat → Except E δ} {resets : I → Bool}
  {P : δ → Prop}

/-- The loop goes on while every wait that it comes to is computed and of `P`. -/
theorem goesOn_of_counters {n : Nat} {is : List I}
    (h : ∀ n, ∀ i ∈ is, (attempt n i).2 = waitAt (delay i) (used n (resets i)))
    (hP : ∀ c ∈ counters n (is.map resets), ∀ i ∈ is, ∃ d, delay i c = .ok d ∧ P d) :
    GoesOn P (loop attempt n is) := by
  induction is generalizing n with
  | nil => exact fun m hm => nomatch hm
  | cons i is ih =>
    obtain ⟨d, hd, hp⟩ := hP (used n (resets i)) List.mem_cons_self i List.mem_cons_self
    have hnext := h n i List.mem_cons_self
    unfold waitAt at hnext
    rw [hd] at hnext
    rcases hmade : attempt n i with ⟨log, next⟩
    rw [hmade] at hnext
    obtain rfl : next = .again d (used n (resets i) + 1) := hnext
    unfold loop
    rw [hmade]
    intro m hm
    rcases List.mem_cons.mp hm with rfl | hm
    · exact ⟨d, _, rfl, hp⟩
    · refine ih (fun n j hj => h n j (List.mem_cons_of_mem _ hj)) ?_ m hm
      intro c hc j hj
      exact hP c (List.mem_cons_of_mem _ hc) j (List.mem_cons_of_mem _ hj)

/-- A loop that goes on computed the wait of every counter that it came to. -/
theorem counters_of_goesOn {n : Nat} {is : List I}
    (h : ∀ n, ∀ i ∈ is, (attempt n i).2 = waitAt (delay i) (used n (resets i)))
    (hgoes : GoesOn P (loop attempt n is)) :
    ∀ c ∈ counters n (is.map resets), ∃ i ∈ is, ∃ d, delay i c = .ok d ∧ P d := by
  induction is generalizing n with
  | nil => exact fun c hc => nomatch hc
  | cons i is ih =>
    have hnext := h n i List.mem_cons_self
    rcases hmade : attempt n i with ⟨log, next⟩
    rw [hmade] at hnext
    unfold loop at hgoes
    rw [hmade] at hgoes
    unfold waitAt at hnext
    cases hd : delay i (used n (resets i)) with
    | error e =>
      rw [hd] at hnext
      obtain rfl : next = .died e := hnext
      obtain ⟨d, m, hm, -⟩ := hgoes _ List.mem_cons_self
      cases hm
    | ok d =>
      rw [hd] at hnext
      obtain rfl : next = .again d (used n (resets i) + 1) := hnext
      obtain ⟨d', m, hm, hp⟩ := hgoes _ List.mem_cons_self
      cases hm
      intro c hc
      rcases List.mem_cons.mp hc with rfl | hc
      · exact ⟨i, List.mem_cons_self, d, hd, hp⟩
      · obtain ⟨j, hj, hwait⟩ := ih (fun n j hj => h n j (List.mem_cons_of_mem _ hj))
          (fun m hm => hgoes m (List.mem_cons_of_mem _ hm)) c hc
        exact ⟨j, List.mem_cons_of_mem _ hj, hwait⟩

end GoesOn

/-- When the wait depends on the counter alone: the loop goes on exactly when the
wait behind every streak is computed and of `P`. -/
theorem goesOn_iff {attempt : Nat → I → L × Next E δ} {delay : Nat → Except E δ}
    {resets : I → Bool} {P : δ → Prop} {is : List I}
    (h : ∀ n, ∀ i ∈ is, (attempt n i).2 = waitAt delay (used n (resets i))) :
    GoesOn P (loop attempt 0 is) ↔
      ∀ n, Streak n (is.map resets) → ∃ d, delay n = .ok d ∧ P d := by
  constructor
  · intro hgoes n hn
    obtain ⟨-, -, hwait⟩ := counters_of_goesOn h hgoes n
      (mem_counters_iff.mpr hn)
    exact hwait
  · intro hwait
    refine goesOn_of_counters h ?_
    intro c hc _ _
    exact hwait c (mem_counters_iff.mp hc)

/-! ## Waits that grow by a factor -/

section Exponential

variable {K : Type} [Field K] [LinearOrder K] [IsStrictOrderedRing K]

/-- The powers of a factor stay below a limit for ever exactly when the factor is
no greater than one. -/
theorem powers_bounded_iff [Archimedean K] {limit factor : K} (hlimit : 1 ≤ limit) :
    (∀ n : Nat, |factor ^ n| ≤ limit) ↔ |factor| ≤ 1 := by
  constructor
  · intro h
    by_contra hone
    obtain ⟨n, hn⟩ := pow_unbounded_of_one_lt limit (not_le.mp hone)
    have hle := h n
    rw [abs_pow] at hle
    exact absurd hn (not_lt.mpr hle)
  · intro h n
    rw [abs_pow]
    exact (pow_le_one₀ (abs_nonneg factor) h).trans hlimit

/-- A part of a capped wait is between zero and the cap, when the wait is not
negative. -/
theorem part_of_cap {most wait u : K} (hmost : 0 ≤ most) (hwait : 0 ≤ wait) (hu : 0 ≤ u)
    (hu1 : u ≤ 1) : 0 ≤ min most wait * u ∧ min most wait * u ≤ most := by
  have hcap : 0 ≤ min most wait := le_min hmost hwait
  refine ⟨mul_nonneg hcap hu, ?_⟩
  calc min most wait * u ≤ min most wait * 1 := mul_le_mul_of_nonneg_left hu1 hcap
    _ = min most wait := mul_one _
    _ ≤ most := min_le_left most wait

end Exponential

end backoff
