-- Averages of lots. A lot is a price and a size; the average price of some lots
-- is their cost over their size. A total that is kept as "average times size"
-- can only be rebuilt from its parts when the average never moves.
import Mathlib.Algebra.Order.BigOperators.Group.List
import Mathlib.Algebra.Order.Field.Basic
import Mathlib.Tactic.Linarith
import Mathlib.Tactic.FieldSimp
import Mathlib.Tactic.Ring

namespace average

variable {α : Type} [Field α]

structure Lot (α : Type) where
  price : α
  size : α

def size (lots : List (Lot α)) : α := (lots.map (·.size)).sum

def cost (lots : List (Lot α)) : α := (lots.map fun l => l.price * l.size).sum

/-- The average price, weighted by the sizes. -/
def mean (lots : List (Lot α)) : α := cost lots / size lots

@[simp] theorem size_nil : size ([] : List (Lot α)) = 0 := rfl

@[simp] theorem cost_nil : cost ([] : List (Lot α)) = 0 := rfl

@[simp] theorem size_cons (l : Lot α) (lots : List (Lot α)) :
    size (l :: lots) = l.size + size lots := by
  simp [size]

@[simp] theorem cost_cons (l : Lot α) (lots : List (Lot α)) :
    cost (l :: lots) = l.price * l.size + cost lots := by
  simp [cost]

@[simp] theorem size_append (a b : List (Lot α)) : size (a ++ b) = size a + size b := by
  simp [size]

@[simp] theorem cost_append (a b : List (Lot α)) : cost (a ++ b) = cost a + cost b := by
  simp [cost]

theorem mean_singleton {l : Lot α} (h : l.size ≠ 0) : mean [l] = l.price := by
  unfold mean
  simp [h]

theorem mean_mul_size {lots : List (Lot α)} (h : size lots ≠ 0) : mean lots * size lots = cost lots :=
  div_mul_cancel₀ _ h

variable [LinearOrder α]

/-- Prices and sizes are positive. -/
def Proper (lots : List (Lot α)) : Prop := ∀ l ∈ lots, 0 < l.price ∧ 0 < l.size

theorem proper_append {a b : List (Lot α)} : Proper (a ++ b) ↔ Proper a ∧ Proper b := by
  unfold Proper
  simp only [List.mem_append]
  exact ⟨fun h => ⟨fun l hl => h l (Or.inl hl), fun l hl => h l (Or.inr hl)⟩,
    fun h l hl => hl.elim (h.1 l) (h.2 l)⟩

variable [IsStrictOrderedRing α]

theorem size_nonneg {lots : List (Lot α)} (h : Proper lots) : 0 ≤ size lots := by
  refine List.sum_nonneg fun x hx => ?_
  obtain ⟨l, hl, rfl⟩ := List.mem_map.mp hx
  exact (h l hl).2.le

theorem cost_nonneg {lots : List (Lot α)} (h : Proper lots) : 0 ≤ cost lots := by
  refine List.sum_nonneg fun x hx => ?_
  obtain ⟨l, hl, rfl⟩ := List.mem_map.mp hx
  exact (mul_pos (h l hl).1 (h l hl).2).le

theorem size_pos {lots : List (Lot α)} (h : Proper lots) (hne : lots ≠ []) : 0 < size lots := by
  cases lots with
  | nil => exact absurd rfl hne
  | cons l lots =>
    rw [size_cons]
    have hl := (h l (by simp)).2
    have hrest : 0 ≤ size lots := size_nonneg fun x hx => h x (by simp [hx])
    linarith

theorem cost_pos {lots : List (Lot α)} (h : Proper lots) (hne : lots ≠ []) : 0 < cost lots := by
  cases lots with
  | nil => exact absurd rfl hne
  | cons l lots =>
    rw [cost_cons]
    have hl := mul_pos (h l (by simp)).1 (h l (by simp)).2
    have hrest : 0 ≤ cost lots := cost_nonneg fun x hx => h x (by simp [hx])
    linarith

theorem mean_pos {lots : List (Lot α)} (h : Proper lots) (hne : lots ≠ []) : 0 < mean lots :=
  div_pos (cost_pos h hne) (size_pos h hne)

/-! The average is where the prices are. -/

theorem le_cost {lots : List (Lot α)} {a : α} (hsize : ∀ l ∈ lots, 0 ≤ l.size)
    (h : ∀ l ∈ lots, a ≤ l.price) : a * size lots ≤ cost lots := by
  induction lots with
  | nil => simp
  | cons l lots ih =>
    have hl : a * l.size ≤ l.price * l.size :=
      mul_le_mul_of_nonneg_right (h l List.mem_cons_self) (hsize l List.mem_cons_self)
    have hrest := ih (fun x hx => hsize x (List.mem_cons_of_mem l hx))
      fun x hx => h x (List.mem_cons_of_mem l hx)
    rw [size_cons, cost_cons, mul_add]
    linarith

theorem cost_le {lots : List (Lot α)} {b : α} (hsize : ∀ l ∈ lots, 0 ≤ l.size)
    (h : ∀ l ∈ lots, l.price ≤ b) : cost lots ≤ b * size lots := by
  induction lots with
  | nil => simp
  | cons l lots ih =>
    have hl : l.price * l.size ≤ b * l.size :=
      mul_le_mul_of_nonneg_right (h l List.mem_cons_self) (hsize l List.mem_cons_self)
    have hrest := ih (fun x hx => hsize x (List.mem_cons_of_mem l hx))
      fun x hx => h x (List.mem_cons_of_mem l hx)
    rw [size_cons, cost_cons, mul_add]
    linarith

theorem le_mean {lots : List (Lot α)} {a : α} (hsize : ∀ l ∈ lots, 0 ≤ l.size)
    (hpos : 0 < size lots) (h : ∀ l ∈ lots, a ≤ l.price) : a ≤ mean lots :=
  (le_div_iff₀ hpos).mpr (le_cost hsize h)

theorem mean_le {lots : List (Lot α)} {b : α} (hsize : ∀ l ∈ lots, 0 ≤ l.size)
    (hpos : 0 < size lots) (h : ∀ l ∈ lots, l.price ≤ b) : mean lots ≤ b :=
  (div_le_iff₀ hpos).mpr (cost_le hsize h)

theorem mean_within {lots : List (Lot α)} {a b : α} (hsize : ∀ l ∈ lots, 0 ≤ l.size)
    (hpos : 0 < size lots) (h : ∀ l ∈ lots, a ≤ l.price ∧ l.price ≤ b) :
    a ≤ mean lots ∧ mean lots ≤ b := by
  constructor
  · exact le_mean hsize hpos fun l hl => (h l hl).1
  · exact mean_le hsize hpos fun l hl => (h l hl).2

/-- More lots keep the average exactly when they have the same one. -/
theorem mean_append_eq_left_iff {a b : List (Lot α)} (ha : 0 < size a) (hb : 0 < size b) :
    mean (a ++ b) = mean a ↔ mean b = mean a := by
  unfold mean
  rw [cost_append, size_append, div_eq_div_iff (by linarith) (by linarith),
    div_eq_div_iff (by linarith) (by linarith)]
  constructor
  · intro h
    linarith
  · intro h
    linarith

/-- The average of all is the one of the last exactly when it was so before. -/
theorem mean_append_eq_right_iff {a b : List (Lot α)} (ha : 0 < size a) (hb : 0 < size b) :
    mean (a ++ b) = mean b ↔ mean a = mean b := by
  unfold mean
  rw [cost_append, size_append, div_eq_div_iff (by linarith) (by linarith),
    div_eq_div_iff (by linarith) (by linarith)]
  constructor
  · intro h
    linarith
  · intro h
    linarith

/-- A cost that grows by the new size at the new average is right exactly when the
average stays. -/
theorem cost_at_mean_iff {a b : List (Lot α)} (ha : 0 < size a) (hb : 0 < size b) :
    cost a + mean (a ++ b) * size b = cost (a ++ b) ↔ mean b = mean a := by
  have hsum : size (a ++ b) ≠ 0 := by
    rw [size_append]
    linarith
  rw [← mean_append_eq_left_iff ha hb, ← mean_mul_size hsum, ← mean_mul_size (ne_of_gt ha),
    size_append]
  constructor
  · intro h
    have hprod : (mean (a ++ b) - mean a) * size a = 0 := by linarith
    rcases mul_eq_zero.mp hprod with h0 | h0
    · linarith
    · linarith
  · intro h
    rw [h]
    ring

end average
