-- Rows that are cut off after a number of them and filtered after that, against the first rows
-- of those that pass the filter.
import Mathlib.Data.List.Basic
import Mathlib.Order.Lattice

namespace page

variable {α β : Type}

/-- The first rows, and of these the ones that pass. -/
def cut (p : α → Bool) (n : Nat) (rows : List α) : List α := (rows.take n).filter p

/-- So many of the rows, and the rows that are left out. -/
structure Part (n : Nat) (rows xs : List α) : Prop where
  length : xs.length = n
  rest : ∃ rest, rows.Perm (xs ++ rest)

/-- So many of the rows, and no row that is left out has a greater key. -/
structure Newest [LE β] (key : α → β) (n : Nat) (rows xs : List α) : Prop where
  length : xs.length = n
  rest : ∃ rest, rows.Perm (xs ++ rest) ∧ ∀ x ∈ xs, ∀ y ∈ rest, key y ≤ key x

/-- With fewer rows than were asked for, none is missing. -/
theorem Part.complete {m : Nat} {rows xs : List α} (h : Part (min m rows.length) rows xs)
    (hfew : xs.length < m) : ∀ r ∈ rows, r ∈ xs := by
  obtain ⟨hlength, rest, hperm⟩ := h
  have hsum : rows.length = xs.length + rest.length := by
    rw [hperm.length_eq, List.length_append]
  have hnone : rest = [] := by
    apply List.eq_nil_of_length_eq_zero
    omega
  rw [hnone, List.append_nil] at hperm
  intro r hr
  exact hperm.mem_iff.mp hr

theorem Newest.part [LE β] {key : α → β} {n : Nat} {rows xs : List α} (h : Newest key n rows xs) :
    Part n rows xs := by
  obtain ⟨hlength, rest, hperm, -⟩ := h
  exact ⟨hlength, rest, hperm⟩

section Cut

variable {p : α → Bool} {n : Nat} {rows : List α}

theorem cut_append_rest : cut p n rows ++ (rows.drop n).filter p = rows.filter p := by
  unfold cut
  rw [← List.filter_append, List.take_append_drop]

theorem length_cut_le : (cut p n rows).length ≤ n :=
  (List.length_filter_le _ _).trans (List.length_take_le _ _)

/-- The cut does no harm when no row beyond it passes, or when it is made of rows that pass and
no more were asked for. -/
theorem length_cut_iff {m : Nat} (h : n ≤ m) :
    (cut p n rows).length = min m (rows.filter p).length ↔
      (∀ x ∈ rows.drop n, p x = false) ∨ (m = n ∧ ∀ x ∈ rows.take n, p x = true) := by
  have hsum : (cut p n rows).length + ((rows.drop n).filter p).length = (rows.filter p).length := by
    rw [← List.length_append, cut_append_rest]
  have hle : (cut p n rows).length ≤ n := length_cut_le
  have hnone : ((rows.drop n).filter p).length = 0 ↔ ∀ x ∈ rows.drop n, p x = false := by
    rw [List.length_eq_zero_iff, List.filter_eq_nil_iff]
    simp
  have hall : (cut p n rows).length = (rows.take n).length ↔ ∀ x ∈ rows.take n, p x = true :=
    List.length_filter_eq_length_iff
  have htake : (rows.take n).length = min n rows.length := List.length_take
  rw [← hnone, ← hall]
  constructor
  · intro hmin
    by_cases hrest : ((rows.drop n).filter p).length = 0
    · exact Or.inl hrest
    · have hdrop := List.length_filter_le p (rows.drop n)
      rw [List.length_drop] at hdrop
      right
      omega
  · rintro (hrest | ⟨hm, hfull⟩)
    · omega
    · by_cases hshort : rows.length ≤ n
      · have hdrop : (rows.drop n).filter p = [] := by
          rw [List.drop_eq_nil_of_le hshort, List.filter_nil]
        rw [hdrop, List.length_nil] at hsum
        omega
      · omega

/-- A cut after the first row is empty when that row does not pass. -/
theorem length_cut_one_iff : (cut p 1 rows).length = 0 ↔ ∀ x ∈ rows.head?, p x = false := by
  cases rows with
  | nil => simp [cut]
  | cons x rows => simp [cut]

/-- The cut has a part of the rows that pass. -/
theorem part_cut_iff {m : Nat} {all : List α} (hperm : rows.Perm all) :
    Part m (all.filter p) (cut p n rows) ↔ (cut p n rows).length = m := by
  constructor
  · exact Part.length
  · intro hlength
    refine ⟨hlength, (rows.drop n).filter p, ?_⟩
    rw [cut_append_rest]
    exact (hperm.filter p).symm

/-- Of rows with the greatest key first, the cut has the newest that pass. -/
theorem newest_cut_iff [LE β] {key : α → β} {m : Nat} {all : List α} (hperm : rows.Perm all)
    (hsorted : rows.Pairwise fun x y => key y ≤ key x) :
    Newest key m (all.filter p) (cut p n rows) ↔ (cut p n rows).length = m := by
  constructor
  · exact Newest.length
  · intro hlength
    refine ⟨hlength, (rows.drop n).filter p, ?_, ?_⟩
    · rw [cut_append_rest]
      exact (hperm.filter p).symm
    · have hpass := hsorted.filter p
      rw [← cut_append_rest (n := n), List.pairwise_append] at hpass
      exact hpass.2.2

end Cut

end page
