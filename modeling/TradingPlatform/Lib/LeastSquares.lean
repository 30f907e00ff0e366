-- The line of least squares through a list of points. The squared error of a line is
-- the least one plus two squares: how far its slope is off, and how far it misses the
-- centre of the points.
import Mathlib.Algebra.BigOperators.Group.List.Basic
import Mathlib.Algebra.Order.Field.Basic
import Mathlib.Tactic.FieldSimp
import Mathlib.Tactic.Linarith
import Mathlib.Tactic.Positivity
import Mathlib.Tactic.Ring

namespace least_squares

variable {α : Type} [Field α]

/-! ## Sums of powers -/

def sum_x (ps : List (α × α)) : α := (ps.map (·.1)).sum

def sum_y (ps : List (α × α)) : α := (ps.map (·.2)).sum

def mean_x (ps : List (α × α)) : α := sum_x ps / ps.length

def mean_y (ps : List (α × α)) : α := sum_y ps / ps.length

/-- How the coordinates vary together around `a` and `b`. -/
def covary (ps : List (α × α)) (a b : α) : α := (ps.map fun p => (p.1 - a) * (p.2 - b)).sum

/-- How much the first coordinates vary around `a`. -/
def vary (ps : List (α × α)) (a : α) : α := (ps.map fun p => (p.1 - a) ^ 2).sum

/-- The sum of the squared errors of the line with this slope and this intercept. -/
def error (ps : List (α × α)) (slope intercept : α) : α :=
  (ps.map fun p => (p.2 - (slope * p.1 + intercept)) ^ 2).sum

/-- The slope of the line of least squares. -/
def slope (ps : List (α × α)) : α := covary ps (mean_x ps) (mean_y ps) / vary ps (mean_x ps)

/-- The line of least squares goes through the centre of the points. -/
def intercept (ps : List (α × α)) : α := mean_y ps - slope ps * mean_x ps

/-- A sum of squared errors around any centre. -/
theorem error_around (ps : List (α × α)) (m c a b : α) :
    error ps m c = error ps m (b - m * a) +
      ps.length * (b - m * a - c) ^ 2 +
      2 * (b - m * a - c) * (sum_y ps - m * sum_x ps - ps.length * (b - m * a)) := by
  unfold error sum_x sum_y
  induction ps with
  | nil => simp
  | cons p ps ih =>
    simp only [List.map_cons, List.sum_cons, List.length_cons, Nat.cast_succ]
    rw [ih]
    ring

/-- The lines through one centre. -/
theorem error_through (ps : List (α × α)) (m m' a b : α) :
    error ps m (b - m * a) = error ps m' (b - m' * a) + (m - m') ^ 2 * vary ps a -
      2 * (m - m') * (covary ps a b - m' * vary ps a) := by
  unfold error vary covary
  induction ps with
  | nil => simp
  | cons p ps ih =>
    simp only [List.map_cons, List.sum_cons]
    rw [ih]
    ring

/-- The error of a line is that of the line of least squares, and what its slope and its
place at the centre add to it. -/
theorem error_eq [CharZero α] {ps : List (α × α)} (hps : ps ≠ [])
    (hvary : vary ps (mean_x ps) ≠ 0) (m c : α) :
    error ps m c = error ps (slope ps) (intercept ps) +
      (m - slope ps) ^ 2 * vary ps (mean_x ps) +
      ps.length * (mean_y ps - m * mean_x ps - c) ^ 2 := by
  have hlen : (ps.length : α) ≠ 0 := Nat.cast_ne_zero.mpr (by simpa using hps)
  have hx : ps.length * mean_x ps = sum_x ps := mul_div_cancel₀ _ hlen
  have hy : ps.length * mean_y ps = sum_y ps := mul_div_cancel₀ _ hlen
  have hslope : covary ps (mean_x ps) (mean_y ps) = slope ps * vary ps (mean_x ps) :=
    (div_mul_cancel₀ _ hvary).symm
  rw [error_around ps m c (mean_x ps) (mean_y ps),
    error_through ps m (slope ps) (mean_x ps) (mean_y ps), hslope, ← hx, ← hy, intercept]
  ring

/-! ## The best line -/

section Order

variable [LinearOrder α]

/-- No line has a smaller error, and no other line has the same one. -/
structure Best (ps : List (α × α)) (m c : α) : Prop where
  least : ∀ m' c', error ps m c ≤ error ps m' c'
  unique : ∀ m' c', error ps m' c' = error ps m c → m' = m ∧ c' = c

variable [IsStrictOrderedRing α] {ps : List (α × α)}

theorem vary_nonneg (ps : List (α × α)) (a : α) : 0 ≤ vary ps a := by
  unfold vary
  induction ps with
  | nil => simp
  | cons p ps ih =>
    rw [List.map_cons, List.sum_cons]
    positivity

/-- Points with two first coordinates vary. -/
theorem vary_pos {p q : α × α} (hp : p ∈ ps) (hq : q ∈ ps) (h : p.1 ≠ q.1) (a : α) :
    0 < vary ps a := by
  have hle : ∀ r ∈ ps, (r.1 - a) ^ 2 ≤ vary ps a := by
    intro r hr
    obtain ⟨before, later, rfl⟩ := List.append_of_mem hr
    have hbefore : 0 ≤ vary before a := vary_nonneg before a
    have hlater : 0 ≤ vary later a := vary_nonneg later a
    unfold vary at hbefore hlater ⊢
    rw [List.map_append, List.sum_append, List.map_cons, List.sum_cons]
    linarith
  rcases eq_or_ne p.1 a with rfl | hpa
  · exact lt_of_lt_of_le (sq_pos_of_ne_zero (sub_ne_zero.mpr h.symm)) (hle q hq)
  · exact lt_of_lt_of_le (sq_pos_of_ne_zero (sub_ne_zero.mpr hpa)) (hle p hp)

/-- The line of least squares is the best one, and the only one that is as good. -/
theorem best_of_vary (hps : ps ≠ []) (hvary : 0 < vary ps (mean_x ps)) :
    Best ps (slope ps) (intercept ps) := by
  have hlen : (0 : α) < ps.length := Nat.cast_pos.mpr (List.length_pos_of_ne_nil hps)
  have heq := error_eq hps (ne_of_gt hvary)
  constructor
  · intro m c
    have hslope : 0 ≤ (m - slope ps) ^ 2 * vary ps (mean_x ps) := by positivity
    have hplace : 0 ≤ (ps.length : α) * (mean_y ps - m * mean_x ps - c) ^ 2 := by positivity
    rw [heq m c]
    linarith
  · intro m c hsame
    rw [heq m c] at hsame
    have hslope : 0 ≤ (m - slope ps) ^ 2 * vary ps (mean_x ps) := by positivity
    have hplace : 0 ≤ (ps.length : α) * (mean_y ps - m * mean_x ps - c) ^ 2 := by positivity
    have hslope0 : (m - slope ps) ^ 2 * vary ps (mean_x ps) = 0 := by linarith
    have hplace0 : (ps.length : α) * (mean_y ps - m * mean_x ps - c) ^ 2 = 0 := by linarith
    have hm : m = slope ps := by
      rcases mul_eq_zero.mp hslope0 with h | h
      · exact sub_eq_zero.mp (pow_eq_zero_iff two_ne_zero |>.mp h)
      · exact absurd h (ne_of_gt hvary)
    have hc : mean_y ps - m * mean_x ps - c = 0 := by
      rcases mul_eq_zero.mp hplace0 with h | h
      · exact absurd h (ne_of_gt hlen)
      · exact pow_eq_zero_iff two_ne_zero |>.mp h
    refine ⟨hm, ?_⟩
    rw [intercept, ← hm]
    linarith

end Order

/-! ## Values at equal distances -/

/-- The values as points, numbered from zero. -/
def numbered (ys : List α) : List (α × α) := ys.mapIdx fun i y => ((i : α), y)

theorem length_numbered (ys : List α) : (numbered ys).length = ys.length := by
  simp [numbered]

theorem map_numbered {β : Type} (f : α × α → β) (ys : List α) :
    (numbered ys).map f = ys.mapIdx fun i y => f (i, y) := by
  apply List.ext_getElem?
  intro i
  simp [numbered, Function.comp_def]

theorem numbered_map (g : α → α) (ys : List α) :
    numbered (ys.map g) = (numbered ys).map fun p => (p.1, g p.2) := by
  apply List.ext_getElem?
  intro i
  simp [numbered, Function.comp_def]

theorem mean_y_numbered (ys : List α) : mean_y (numbered ys) = ys.sum / ys.length := by
  have hmap : (numbered ys).map (·.2) = ys := by
    rw [map_numbered]
    apply List.ext_getElem?
    intro i
    simp
  rw [mean_y, sum_y, hmap, length_numbered]

/-- The middle of the numbers. -/
theorem mean_x_numbered [CharZero α] {ys : List α} (hys : ys ≠ []) :
    mean_x (numbered ys) = ((ys.length : α) - 1) / 2 := by
  have hsum : sum_x (numbered ys) * 2 = ys.length * ((ys.length : α) - 1) := by
    clear hys
    induction ys using List.reverseRecOn with
    | nil => simp [numbered, sum_x]
    | append_singleton ys y ih =>
      have hsnoc : sum_x (numbered (ys ++ [y])) = sum_x (numbered ys) + ys.length := by
        simp [numbered, sum_x]
      rw [hsnoc, add_mul, ih, List.length_append, List.length_singleton, Nat.cast_succ]
      ring
  have hlen : (ys.length : α) ≠ 0 := Nat.cast_ne_zero.mpr (by simpa using hys)
  rw [mean_x, length_numbered, div_eq_div_iff hlen (OfNat.ofNat_ne_zero 2), hsum]
  ring

/-- Two values vary. -/
theorem vary_numbered_pos [LinearOrder α] [IsStrictOrderedRing α] {ys : List α}
    (hys : 2 ≤ ys.length) (a : α) : 0 < vary (numbered ys) a := by
  have hmem : ∀ i : Nat, ∀ hi : i < ys.length, ((i : α), ys[i]) ∈ numbered ys := by
    intro i hi
    exact List.mem_mapIdx.mpr ⟨i, hi, rfl⟩
  exact vary_pos (hmem 0 (by omega)) (hmem 1 (by omega)) (by simp) a

/-! ## Points that are moved -/

/-- The slope does not change when every point is moved up or down. -/
theorem slope_move (ps : List (α × α)) [CharZero α] (d : α) :
    slope (ps.map fun p => (p.1, p.2 + d)) = slope ps := by
  rcases eq_or_ne ps [] with rfl | hps
  · rfl
  have hlen : (ps.length : α) ≠ 0 := Nat.cast_ne_zero.mpr (by simpa using hps)
  have hx : mean_x (ps.map fun p => (p.1, p.2 + d)) = mean_x ps := by
    simp [mean_x, sum_x, Function.comp_def]
  have hsum : sum_y (ps.map fun p => (p.1, p.2 + d)) = sum_y ps + ps.length * d := by
    unfold sum_y
    rw [List.map_map]
    simp [Function.comp_def, List.sum_map_add]
  have hy : mean_y (ps.map fun p => (p.1, p.2 + d)) = mean_y ps + d := by
    rw [mean_y, hsum, List.length_map, add_div, mul_div_cancel_left₀ _ hlen, mean_y]
  unfold slope
  rw [hx, hy]
  simp [covary, vary, Function.comp_def]

end least_squares
