-- Series of observations. A bounded deque remembers the end of a history. A
-- seeded recurrence starts from the first entries of a history, all at once, and
-- then takes one entry at a time. The amounts of a history are totalled by slots.
import Mathlib.Algebra.BigOperators.Group.List.Basic
import Mathlib.Data.List.DropRight
import Mathlib.Data.List.Infix

namespace series

variable {α β : Type}

/-! ## Bounded deques -/

theorem rtake_of_length_le {xs : List α} {n : Nat} (h : xs.length ≤ n) : xs.rtake n = xs := by
  have hzero : xs.length - n = 0 := by omega
  rw [List.rtake, hzero, List.drop_zero]

theorem length_rtake (xs : List α) (n : Nat) : (xs.rtake n).length = min n xs.length := by
  rw [List.rtake, List.length_drop]
  omega

theorem rtake_rtake (xs : List α) (m n : Nat) : (xs.rtake m).rtake n = xs.rtake (min n m) := by
  simp only [List.rtake_eq_reverse_take_reverse, List.reverse_reverse, List.take_take]

theorem map_rtake (f : α → β) (xs : List α) (n : Nat) : (xs.rtake n).map f = (xs.map f).rtake n := by
  rw [List.rtake, List.rtake, List.map_drop, List.length_map]

theorem mem_of_mem_rtake {xs : List α} {n : Nat} {x : α} (h : x ∈ xs.rtake n) : x ∈ xs :=
  List.mem_of_mem_drop h

/-- A deque that drops from its left end what exceeds `maxlen`. -/
structure Deque (α : Type) (maxlen : Nat) where
  items : List α
  bounded : items.length ≤ maxlen

namespace Deque

variable {n : Nat}

/-- The end of a history. -/
def of (xs : List α) : Deque α n :=
  ⟨xs.rtake n, by rw [length_rtake]; exact Nat.min_le_left _ _⟩

def empty : Deque α n := of []

def append (d : Deque α n) (x : α) : Deque α n := of (d.items ++ [x])

def length (d : Deque α n) : Nat := d.items.length

/-- What is appended to the end of a history is appended to the history. -/
theorem append_of (xs : List α) (x : α) :
    (of xs : Deque α n).append x = of (xs ++ [x]) := by
  unfold append of
  congr 1
  cases n with
  | zero => rw [List.rtake_zero, List.rtake_zero]
  | succ n =>
    rw [List.rtake_concat_succ, List.rtake_concat_succ, rtake_rtake]
    congr 2
    omega

theorem length_of (xs : List α) : (of xs : Deque α n).length = min n xs.length :=
  length_rtake xs n

/-- The last `m` entries of the end of a history are those of the history. -/
theorem rtake_of (xs : List α) {m : Nat} (h : m ≤ n) :
    (of xs : Deque α n).items.rtake m = xs.rtake m := by
  show (xs.rtake n).rtake m = _
  rw [rtake_rtake, Nat.min_eq_left h]

theorem items_of {xs : List α} (h : xs.length ≤ n) : (of xs : Deque α n).items = xs :=
  rtake_of_length_le h

theorem map_of (f : α → β) (xs : List α) :
    (of xs : Deque α n).items.map f = (of (xs.map f) : Deque β n).items :=
  map_rtake f xs n

/-- A deque that was appended to ends with the new entry. -/
theorem getLast?_append (hn : 0 < n) (d : Deque α n) (x : α) :
    (d.append x).items.getLast? = some x := by
  cases n with
  | zero => cases hn
  | succ n =>
    show ((d.items ++ [x]).rtake (n + 1)).getLast? = some x
    rw [List.rtake_concat_succ, List.getLast?_concat]

end Deque

/-! ## What a deque has dropped -/

theorem rdrop_append_rtake (xs : List α) (n : Nat) : xs.rdrop n ++ xs.rtake n = xs :=
  List.take_append_drop _ xs

/-- What none of the dropped entries has, the entries that are kept have as often as all. -/
theorem filter_rtake {p : α → Bool} {xs : List α} {n : Nat} (h : ∀ x ∈ xs.rdrop n, ¬ p x = true) :
    (xs.rtake n).filter p = xs.filter p := by
  have hnone : (xs.rdrop n).filter p = [] := List.filter_eq_nil_iff.mpr h
  conv_rhs => rw [← rdrop_append_rtake xs n, List.filter_append, hnone, List.nil_append]

/-- Where each entry hands a property on to those after it, the deque has dropped none that has
it exactly when it has room for all of them. -/
theorem none_dropped_iff {p : α → Bool} {xs : List α} {n : Nat}
    (h : xs.Pairwise fun a b => p a = true → p b = true) :
    (∀ x ∈ xs.rdrop n, ¬ p x = true) ↔ (xs.filter p).length ≤ n := by
  constructor
  · intro hnone
    rw [← filter_rtake hnone]
    calc ((xs.rtake n).filter p).length ≤ (xs.rtake n).length := List.length_filter_le _ _
      _ ≤ n := by
        rw [length_rtake]
        omega
  · intro hle x hx hpx
    have hlong : n < xs.length := by
      by_contra hshort
      have hzero : xs.length - n = 0 := by omega
      rw [List.rdrop, hzero, List.take_zero] at hx
      cases hx
    rw [← rdrop_append_rtake xs n] at h hle
    obtain ⟨-, -, hacross⟩ := List.pairwise_append.mp h
    have hall : (xs.rtake n).filter p = xs.rtake n :=
      List.filter_eq_self.mpr fun y hy => hacross x hx y hy hpx
    have hsome : 0 < ((xs.rdrop n).filter p).length :=
      List.length_pos_of_mem (List.mem_filter.mpr ⟨hx, hpx⟩)
    rw [List.filter_append, List.length_append, hall, length_rtake] at hle
    omega

/-! ## Running totals -/

section Running

variable [AddMonoid β]

/-- What the entries come to, after each of them. -/
def running (xs : List β) : List β := (xs.scanl (· + ·) 0).tail

theorem length_running (xs : List β) : (running xs).length = xs.length := by
  simp [running]

/-- A running total that starts from an amount. -/
theorem tail_scanl_add (a : β) (xs : List β) :
    (xs.scanl (· + ·) a).tail = (running xs).map (a + ·) := by
  have h : ∀ (ys : List β) (b : β), ys.scanl (· + ·) (a + b) = (ys.scanl (· + ·) b).map (a + ·) := by
    intro ys
    induction ys with
    | nil => exact fun b => rfl
    | cons y ys ih =>
      intro b
      rw [List.scanl_cons, List.scanl_cons, List.map_cons, add_assoc, ih]
  have h0 := h xs 0
  rw [add_zero] at h0
  rw [h0, ← List.map_tail, running]

theorem running_append (xs ys : List β) :
    running (xs ++ ys) = running xs ++ (running ys).map (xs.sum + ·) := by
  have hfold : xs.foldl (· + ·) 0 = xs.sum := List.sum_eq_foldl.symm
  unfold running
  rw [List.scanl_append, hfold, tail_scanl_add]
  cases xs <;> simp [running]

/-- The running totals are the totals of the beginnings. -/
theorem running_map (f : α → β) (xs : List α) :
    running (xs.map f) = xs.inits.tail.map fun before => (before.map f).sum := by
  induction xs using List.reverseRecOn with
  | nil => rfl
  | append_singleton xs x ih =>
    have hinits : (xs ++ [x]).inits = xs.inits ++ [xs ++ [x]] := List.inits_append xs [x]
    have hne : xs.inits ≠ [] := by cases xs <;> simp
    rw [hinits, List.tail_append_of_ne_nil hne, List.map_append, List.map_append, running_append, ih]
    simp [running]

/-- The running totals of the last entries are those of all, less what came before. -/
theorem running_rtake (xs : List β) (n : Nat) :
    (running xs).rtake n = (running (xs.rtake n)).map ((xs.rdrop n).sum + ·) := by
  have hsplit := running_append (xs.rdrop n) (xs.rtake n)
  rw [rdrop_append_rtake] at hsplit
  have hlen : (running (xs.rdrop n)).length = xs.length - n := by
    rw [length_running, List.rdrop, List.length_take]
    omega
  rw [List.rtake, length_running, ← hlen]
  conv_lhs => rw [hsplit]
  exact List.drop_left

end Running

/-! ## Totals by slots -/

section Totals

variable [AddCommMonoid β] (slot : α → Nat) (amount : α → β)

/-- What the entries of one slot come to. -/
def total (xs : List α) (k : Nat) : β := ((xs.filter fun x => slot x = k).map amount).sum

/-- The totals of the slots before `k`, those without entries among them. -/
def totals (xs : List α) (k : Nat) : List β := (List.range k).map (total slot amount xs)

theorem total_snoc (xs : List α) (x : α) (k : Nat) :
    total slot amount (xs ++ [x]) k = total slot amount xs k + if slot x = k then amount x else 0 := by
  unfold total
  rw [List.filter_append, List.map_append, List.sum_append]
  by_cases hx : slot x = k
  · simp [hx]
  · simp [hx]

theorem total_eq_zero {xs : List α} {k : Nat} (h : ∀ x ∈ xs, slot x ≠ k) :
    total slot amount xs k = 0 := by
  have hnone : (xs.filter fun x => slot x = k) = [] := by
    apply List.filter_eq_nil_iff.mpr
    intro x hx
    simpa using h x hx
  rw [total, hnone]
  rfl

/-- An entry does not change the totals of the slots before its own. -/
theorem totals_snoc (xs : List α) {x : α} {k : Nat} (h : k ≤ slot x) :
    totals slot amount (xs ++ [x]) k = totals slot amount xs k := by
  apply List.map_congr_left
  intro j hj
  have hlt : j < k := List.mem_range.mp hj
  have hne : ¬ slot x = j := by omega
  rw [total_snoc, if_neg hne, add_zero]

theorem totals_succ (xs : List α) (k : Nat) :
    totals slot amount xs (k + 1) = totals slot amount xs k ++ [total slot amount xs k] := by
  simp [totals, List.range_succ]

end Totals

/-! ## Seeded recurrences -/

/-- No value before the first `n` entries, the seed of them, and from then on one
step for each further entry. -/
def seeded (n : Nat) (seed : List α → β) (step : β → α → β) (xs : List α) : Option β :=
  if xs.length < n then none else some ((xs.drop n).foldl step (seed (xs.take n)))

section Seeded

variable {n : Nat} {seed : List α → β} {step : β → α → β} {xs : List α}

theorem seeded_eq_none : seeded n seed step xs = none ↔ xs.length < n := by
  unfold seeded
  split
  · simp [*]
  · simp [*]

theorem seeded_nil (hn : 0 < n) : seeded n seed step [] = none := seeded_eq_none.mpr hn

/-- One more entry: a step, or the seed when there are just enough entries. -/
theorem seeded_snoc (xs : List α) (x : α) :
    seeded n seed step (xs ++ [x]) =
      match seeded n seed step xs with
      | some v => some (step v x)
      | none => if xs.length + 1 = n then some (seed (xs ++ [x])) else none := by
  have hlen : (xs ++ [x]).length = xs.length + 1 := List.length_append
  by_cases hlt : xs.length < n
  · rw [seeded_eq_none.mpr hlt]
    by_cases heq : xs.length + 1 = n
    · have hle : (xs ++ [x]).length ≤ n := by omega
      simp only [if_pos heq, seeded]
      rw [if_neg (by omega), List.drop_of_length_le hle, List.take_of_length_le hle]
      rfl
    · simp only [if_neg heq]
      rw [seeded_eq_none]
      omega
  · have hge : n ≤ xs.length := by omega
    simp only [seeded, if_neg hlt]
    rw [if_neg (by omega), List.drop_append_of_le_length hge, List.take_append_of_le_length hge,
      List.foldl_append]
    rfl

/-- What each seed of `n` entries has and each step keeps, every value has. -/
theorem seeded_all_of_length {P : β → Prop} {Q : α → Prop}
    (hseed : ∀ ys, ys.length = n → (∀ y ∈ ys, Q y) → P (seed ys))
    (hstep : ∀ v x, P v → Q x → P (step v x)) (hxs : ∀ x ∈ xs, Q x) {v : β}
    (hv : seeded n seed step xs = some v) : P v := by
  have hfold : ∀ ys : List α, (∀ y ∈ ys, Q y) → ∀ v, P v → P (ys.foldl step v) := by
    intro ys
    induction ys with
    | nil => exact fun _ v h => h
    | cons y ys ih =>
      intro hys v h
      exact ih (fun z hz => hys z (List.mem_cons_of_mem _ hz)) _ (hstep v y h (hys y List.mem_cons_self))
  unfold seeded at hv
  split at hv
  · cases hv
  · rename_i hlen
    obtain rfl := Option.some.inj hv
    refine hfold _ (fun y hy => hxs y (List.mem_of_mem_drop hy)) _ (hseed _ ?_ ?_)
    · rw [List.length_take]
      omega
    · intro y hy
      exact hxs y (List.mem_of_mem_take hy)

/-- What the seed and each step keep, every value has. -/
theorem seeded_all {P : β → Prop} {Q : α → Prop} (hseed : ∀ ys, (∀ y ∈ ys, Q y) → P (seed ys))
    (hstep : ∀ v x, P v → Q x → P (step v x)) (hxs : ∀ x ∈ xs, Q x) {v : β}
    (hv : seeded n seed step xs = some v) : P v :=
  seeded_all_of_length (fun ys _ => hseed ys) hstep hxs hv

end Seeded

/-! ## Neighbours -/

/-- The pairs of neighbours in a list. -/
def neighbours (f : α → α → β) (xs : List α) : List β := List.zipWith f xs.dropLast xs.tail

theorem length_neighbours (f : α → α → β) (xs : List α) :
    (neighbours f xs).length = xs.length - 1 := by
  simp [neighbours]

theorem neighbours_snoc (f : α → α → β) (xs : List α) (a b : α) :
    neighbours f (xs ++ [a] ++ [b]) = neighbours f (xs ++ [a]) ++ [f a b] := by
  have htail : (xs ++ [a] ++ [b]).tail = (xs ++ [a]).tail ++ [b] :=
    List.tail_append_of_ne_nil (by simp)
  unfold neighbours
  rw [htail, List.dropLast_concat, List.dropLast_concat, List.zipWith_append (by simp)]
  rfl

theorem map_neighbours {γ : Type} (g : β → γ) (f : α → α → β) (xs : List α) :
    (neighbours f xs).map g = neighbours (fun a b => g (f a b)) xs := by
  unfold neighbours
  rw [List.map_zipWith]

theorem neighbours_map {γ : Type} (g : γ → α) (f : α → α → β) (xs : List γ) :
    neighbours f (xs.map g) = neighbours (fun a b => f (g a) (g b)) xs := by
  unfold neighbours
  rw [← List.map_dropLast, ← List.map_tail, List.zipWith_map]

/-- What the function gives for every two entries, every entry of the list has. -/
theorem neighbours_all {P : β → Prop} {f : α → α → β} (hf : ∀ a b, P (f a b)) (xs : List α) :
    ∀ y ∈ neighbours f xs, P y := by
  intro y hy
  rw [neighbours, ← List.map_uncurry_zip_eq_zipWith] at hy
  obtain ⟨⟨a, b⟩, -, rfl⟩ := List.mem_map.mp hy
  exact hf a b

end series
