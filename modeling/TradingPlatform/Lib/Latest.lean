-- A register that each message overwrites, beside the fold of the messages. The register
-- is as good as the fold exactly when every message says again what the ones before it said.
import TradingPlatform.Lib.Table
import Mathlib.Data.List.Infix

namespace keyed

/-! ## Prefixes -/

section Prefixes

variable {α γ : Type}

theorem forall_prefix_snoc {P : List α → Prop} {xs : List α} {x : α} :
    (∀ pre, pre <+: xs ++ [x] → P pre) ↔ (∀ pre, pre <+: xs → P pre) ∧ P (xs ++ [x]) := by
  constructor
  · intro h
    exact ⟨fun pre hpre => h pre (hpre.trans (List.prefix_append xs [x])), h _ (List.prefix_refl _)⟩
  · rintro ⟨hbefore, hall⟩ pre hpre
    rcases List.prefix_concat_iff.mp hpre with rfl | hprefix
    · exact hall
    · exact hbefore pre hprefix

theorem forall_prefix_filterMap {f : α → Option γ} {P : List γ → Prop} {xs : List α} :
    (∀ pre, pre <+: xs → P (pre.filterMap f)) ↔ ∀ pre, pre <+: xs.filterMap f → P pre := by
  constructor
  · intro h pre hpre
    obtain ⟨ys, hys, rfl⟩ := List.prefix_filterMap_iff.mp hpre
    exact h ys hys
  · intro h pre hpre
    exact h _ (hpre.filterMap f)

end Prefixes

/-! ## Registers -/

/-- A register that every report overwrites holds the last one. -/
theorem foldl_last_report {σ α γ : Type} (step : σ → α → σ) (read : σ → γ) {report : α → Option γ}
    (hstep : ∀ s a, read (step s a) = (report a).getD (read s)) (s : σ) (xs : List α) :
    read (xs.foldl step s) = (xs.filterMap report).getLast?.getD (read s) := by
  induction xs using List.reverseRecOn with
  | nil => rfl
  | append_singleton xs a ih =>
    rw [List.foldl_append, List.foldl_cons, List.foldl_nil, hstep, ih, List.filterMap_append]
    cases hreport : report a with
    | none => simp [hreport]
    | some report => simp [hreport]

variable {κ β : Type} [DecidableEq κ] {name : β → κ}

/-! ## The last entry of a key -/

theorem lastOf_append (xs ys : List β) (k : κ) :
    lastOf name (xs ++ ys) k = (lastOf name ys k).or (lastOf name xs k) := by
  unfold lastOf
  rw [List.filter_append, List.getLast?_append]

theorem lastOf_eq_none {xs : List β} {k : κ} : lastOf name xs k = none ↔ ∀ x ∈ xs, name x ≠ k := by
  unfold lastOf
  simp

/-! ## Batches -/

/-- The second batch has an entry for every key of the first one. -/
def Covers (name : β → κ) (b b' : List β) : Prop := ∀ x ∈ b, ∃ y ∈ b', name y = name x

/-- A new batch alone says what all of them say exactly when it covers each of them. -/
theorem batch_speaks_iff {batches : List (List β)} {b : List β} :
    (∀ k, lastOf name b k = lastOf name (batches ++ [b]).flatten k) ↔
      ∀ b' ∈ batches, Covers name b' b := by
  rw [List.flatten_append, List.flatten_singleton]
  constructor
  · intro h b' hb' x hx
    by_contra hcovered
    have hnone : lastOf name b (name x) = none :=
      lastOf_eq_none.mpr fun y hy he => hcovered ⟨y, hy, he⟩
    have hmem : x ∈ batches.flatten := List.mem_flatten.mpr ⟨b', hb', hx⟩
    have hk := h (name x)
    rw [lastOf_append, hnone, Option.none_or] at hk
    exact lastOf_eq_none.mp hk.symm x hmem rfl
  · intro h k
    rw [lastOf_append]
    cases hlast : lastOf name b k with
    | some y => rfl
    | none =>
      rw [Option.none_or, eq_comm, lastOf_eq_none]
      intro x hx he
      obtain ⟨b', hb', hx'⟩ := List.mem_flatten.mp hx
      obtain ⟨y, hy, hname⟩ := h b' hb' x hx'
      exact lastOf_eq_none.mp hlast y hy (hname.trans he)

/-- After every prefix the last batch says what all the batches said last, exactly when each
batch covers the ones before it. -/
theorem last_batch_iff (batches : List (List β)) :
    (∀ pre, pre <+: batches →
      ∀ k, lastOf name (pre.getLast?.getD []) k = lastOf name pre.flatten k) ↔
      batches.Pairwise (Covers name) := by
  induction batches using List.reverseRecOn with
  | nil => simp
  | append_singleton batches b ih =>
    rw [forall_prefix_snoc, ih, List.pairwise_append, List.getLast?_concat, Option.getD_some,
      batch_speaks_iff]
    simp

/-! ## A register of one entry -/

/-- The register has the last flagged entry. It shows what the fold shows when the flagged
entries are those of the last key. -/
def Shows (name : β → κ) (flag : β → Bool) (xs : List β) : Prop :=
  ∀ x, x ∈ (xs.filter flag).getLast? ↔ lastOf name xs (name x) = some x ∧ flag x = true

/-- Behind a flagged entry, the flagged entries are those of its key. -/
def KeepsFlag (name : β → κ) (flag : β → Bool) (x y : β) : Prop :=
  flag x = true → (flag y = true ↔ name y = name x)

section Shows

variable {flag : β → Bool}

instance (x y : β) : Decidable (KeepsFlag name flag x y) := inferInstanceAs (Decidable (_ → _))

/-- The last entry of a key that was flagged once is flagged. -/
theorem lastOf_flagged {xs : List β} (h : xs.Pairwise (KeepsFlag name flag)) {x : β} (hx : x ∈ xs)
    (hflag : flag x = true) : ∃ y, lastOf name xs (name x) = some y ∧ flag y = true := by
  induction xs using List.reverseRecOn with
  | nil => cases hx
  | append_singleton xs z ih =>
    obtain ⟨hxs, -, hz⟩ := List.pairwise_append.mp h
    rw [lastOf_snoc]
    by_cases hname : name z = name x
    · rw [if_pos hname]
      refine ⟨z, rfl, ?_⟩
      rcases List.mem_append.mp hx with hold | hnew
      · exact (hz x hold z (List.mem_singleton_self z) hflag).mpr hname
      · rwa [← List.mem_singleton.mp hnew]
    · rw [if_neg hname]
      rcases List.mem_append.mp hx with hold | hnew
      · exact ih hxs hold
      · rw [List.mem_singleton.mp hnew] at hname
        exact absurd rfl hname

omit [DecidableEq κ] in
/-- Two flagged entries have one key. -/
theorem name_of_flagged {xs : List β} (h : xs.Pairwise (KeepsFlag name flag)) {x y : β}
    (hx : x ∈ xs) (hy : y ∈ xs) (hfx : flag x = true) (hfy : flag y = true) : name x = name y := by
  induction xs using List.reverseRecOn with
  | nil => cases hx
  | append_singleton xs z ih =>
    obtain ⟨hxs, -, hz⟩ := List.pairwise_append.mp h
    rcases List.mem_append.mp hx with hx | hx
    · rcases List.mem_append.mp hy with hy | hy
      · exact ih hxs hx hy
      · rw [List.mem_singleton.mp hy] at hfy ⊢
        exact ((hz x hx z (List.mem_singleton_self z) hfx).mp hfy).symm
    · rw [List.mem_singleton.mp hx] at hfx ⊢
      rcases List.mem_append.mp hy with hy | hy
      · exact (hz y hy z (List.mem_singleton_self z) hfy).mp hfx
      · rw [List.mem_singleton.mp hy]

/-- A new flagged entry is shown alone. -/
theorem shows_snoc_flagged {xs : List β} (h : xs.Pairwise (KeepsFlag name flag)) {z : β}
    (hz : flag z = true) :
    Shows name flag (xs ++ [z]) ↔ ∀ x ∈ xs, KeepsFlag name flag x z := by
  have hshown : ((xs ++ [z]).filter flag).getLast? = some z := by
    rw [List.filter_append, List.filter_cons_of_pos hz, List.filter_nil, List.getLast?_concat]
  unfold Shows
  simp only [hshown, Option.mem_def, Option.some.injEq, lastOf_snoc]
  constructor
  · intro hall x hx hflag
    refine ⟨fun _ => ?_, fun _ => hz⟩
    by_contra hname
    obtain ⟨y, hlast, hy⟩ := lastOf_flagged h hx hflag
    have hyname := (lastOf_eq_some hlast).2
    have hzy : z = y := by
      apply (hall y).mpr
      rw [hyname, if_neg hname]
      exact ⟨hlast, hy⟩
    rw [hzy] at hname
    exact hname hyname
  · intro hkeeps x
    by_cases hname : name z = name x
    · rw [if_pos hname, Option.some.injEq]
      constructor
      · rintro rfl
        exact ⟨rfl, hz⟩
      · exact And.left
    · rw [if_neg hname]
      constructor
      · rintro rfl
        exact absurd rfl hname
      · rintro ⟨hlast, hflag⟩
        exact absurd ((hkeeps x (lastOf_eq_some hlast).1 hflag).mp hz) hname

/-- Behind an entry that is not flagged the register is as it was. -/
theorem shows_snoc_unflagged {xs : List β} (h : xs.Pairwise (KeepsFlag name flag))
    (hxs : Shows name flag xs) {z : β} (hz : flag z = false) :
    Shows name flag (xs ++ [z]) ↔ ∀ x ∈ xs, KeepsFlag name flag x z := by
  have hshown : (xs ++ [z]).filter flag = xs.filter flag := by
    rw [List.filter_append, List.filter_cons_of_neg (by simp [hz]), List.filter_nil,
      List.append_nil]
  unfold Shows
  simp only [hshown, lastOf_snoc]
  constructor
  · intro hall x hx hflag
    refine ⟨fun hfz => ?_, fun hname => ?_⟩
    · rw [hz] at hfz
      cases hfz
    · have hmem : x ∈ xs.filter flag := List.mem_filter.mpr ⟨hx, hflag⟩
      cases hlast : (xs.filter flag).getLast? with
      | none =>
        rw [List.getLast?_eq_none_iff] at hlast
        rw [hlast] at hmem
        cases hmem
      | some y =>
        obtain ⟨hy, hfy⟩ := List.mem_filter.mp (List.mem_of_getLast? hlast)
        obtain ⟨hzy, -⟩ := (hall y).mp hlast
        rw [if_pos (hname.trans (name_of_flagged h hx hy hflag hfy)), Option.some.injEq] at hzy
        rw [hzy, hfy] at hz
        cases hz
  · intro hkeeps x
    by_cases hname : name z = name x
    · rw [if_pos hname]
      constructor
      · intro hx
        obtain ⟨hmem, hflag⟩ := List.mem_filter.mp (List.mem_of_getLast? hx)
        have hfz := (hkeeps x hmem hflag).mpr hname
        rw [hz] at hfz
        cases hfz
      · rintro ⟨hzx, hflag⟩
        rw [← Option.some.inj hzx, hz] at hflag
        cases hflag
    · rw [if_neg hname]
      exact hxs x

/-- After every prefix the register shows the flagged last entries, and no other one, exactly
when the flagged entries are all of one key and none of that key behind them is not flagged. -/
theorem shows_iff (xs : List β) :
    (∀ pre, pre <+: xs → Shows name flag pre) ↔ xs.Pairwise (KeepsFlag name flag) := by
  induction xs using List.reverseRecOn with
  | nil => simp [Shows, lastOf]
  | append_singleton xs z ih =>
    rw [forall_prefix_snoc, ih, List.pairwise_append]
    have hsplit : (∀ a ∈ xs, ∀ b ∈ [z], KeepsFlag name flag a b) ↔
        ∀ x ∈ xs, KeepsFlag name flag x z := by simp
    rw [hsplit]
    refine ⟨fun ⟨h, hz⟩ => ⟨h, List.pairwise_singleton _ z, ?_⟩, fun ⟨h, _, hz⟩ => ⟨h, ?_⟩⟩
    · cases hflag : flag z with
      | true => exact (shows_snoc_flagged h hflag).mp hz
      | false =>
        exact (shows_snoc_unflagged h (ih.mpr h xs (List.prefix_refl xs)) hflag).mp hz
    · cases hflag : flag z with
      | true => exact (shows_snoc_flagged h hflag).mpr hz
      | false =>
        exact (shows_snoc_unflagged h (ih.mpr h xs (List.prefix_refl xs)) hflag).mpr hz

end Shows

end keyed
