-- Tables with a unique key. An upsert writes to the row of its key, or adds one.
-- What a table says of each key is an assignment, and a sequence of upserts leaves
-- at each key what the last one of that key wrote.
import Mathlib.Data.List.Nodup
import Mathlib.Data.List.Perm.Subperm
import Mathlib.Logic.Function.Basic
import Mathlib.Data.List.Induction

namespace keyed

variable {κ ρ : Type} [DecidableEq κ] {key : ρ → κ}

structure Table (ρ : Type) (key : ρ → κ) where
  rows : List ρ
  unique : (rows.map key).Nodup

namespace Table

def empty : Table ρ key := ⟨[], List.nodup_nil⟩

def find (t : Table ρ key) (k : κ) : Option ρ := t.rows.find? fun r => key r = k

/-- The rows with other columns, and the same keys. -/
def map (t : Table ρ key) (f : ρ → ρ) (hf : ∀ r, key (f r) = key r) : Table ρ key where
  rows := t.rows.map f
  unique := by
    rw [List.map_map, show key ∘ f = key from funext hf]
    exact t.unique

theorem key_of_find {t : Table ρ key} {k : κ} {r : ρ} (h : t.find k = some r) : key r = k := by
  simpa using List.find?_some h

theorem find_eq_none {t : Table ρ key} {k : κ} : t.find k = none ↔ ∀ r ∈ t.rows, key r ≠ k := by
  simp [find]

/-- A row is found under its key, and only under it. -/
theorem find_eq_some {t : Table ρ key} {k : κ} {r : ρ} :
    t.find k = some r ↔ r ∈ t.rows ∧ key r = k := by
  constructor
  · intro h
    exact ⟨List.mem_of_find?_eq_some h, key_of_find h⟩
  · rintro ⟨hr, rfl⟩
    cases hf : t.find (key r) with
    | none => exact absurd rfl (find_eq_none.mp hf r hr)
    | some r' =>
      have hr' := List.mem_of_find?_eq_some hf
      rw [List.inj_on_of_nodup_map t.unique hr' hr (key_of_find hf)]

/-- Writes to the row that has the key of `new`, or adds `new` to the table. -/
def upsert (t : Table ρ key) (new : ρ) (write : ρ → ρ) (hw : ∀ r, key (write r) = key r) :
    Table ρ key :=
  match hf : t.find (key new) with
  | some _ =>
    ⟨t.rows.map fun r => if key r = key new then write r else r, by
      have hkeys : (t.rows.map fun r => if key r = key new then write r else r).map key =
          t.rows.map key := by
        rw [List.map_map]
        refine List.map_congr_left fun r _ => ?_
        by_cases hr : key r = key new
        · simp [hr, hw]
        · simp [hr]
      rw [hkeys]
      exact t.unique⟩
  | none =>
    ⟨t.rows ++ [new], by
      rw [List.map_append, List.nodup_append]
      refine ⟨t.unique, List.nodup_singleton _, ?_⟩
      intro a ha b hb
      obtain ⟨r, hr, rfl⟩ := List.mem_map.mp ha
      obtain rfl := List.mem_singleton.mp hb
      exact find_eq_none.mp hf r hr⟩

section Upsert

variable {t : Table ρ key} {new : ρ} {write : ρ → ρ} {hw : ∀ r, key (write r) = key r}

theorem find_map_write (hw : ∀ r, key (write r) = key r) (rows : List ρ) (k : κ) :
    (rows.map fun r => if key r = key new then write r else r).find? (fun r => key r = k) =
      (rows.find? fun r => key r = k).map fun r => if key r = key new then write r else r := by
  induction rows with
  | nil => rfl
  | cons r rows ih =>
    have hkey : key (if key r = key new then write r else r) = key r := by
      split
      · exact hw r
      · rfl
    rw [List.map_cons, List.find?_cons, List.find?_cons, hkey]
    by_cases hr : key r = k
    · simp [hr]
    · simp only [hr, decide_false]
      exact ih

/-- What is found after an upsert: under its key the row that was written or
added, and under any other key what was there. -/
theorem find_upsert (k : κ) :
    (t.upsert new write hw).find k =
      if k = key new then some (((t.find (key new)).map write).getD new) else t.find k := by
  unfold upsert
  split
  · rename_i r hf
    show List.find? _ (t.rows.map _) = _
    rw [find_map_write hw]
    by_cases hk : k = key new
    · have hfind : t.rows.find? (fun r => key r = key new) = some r := hf
      rw [if_pos hk, hk, hfind, hf]
      simp [key_of_find hf]
    · rw [if_neg hk]
      show (t.find k).map _ = t.find k
      cases hr : t.find k with
      | none => rfl
      | some r' => simp [key_of_find hr, hk]
  · rename_i hf
    have happend : ∀ k, (t.rows ++ [new]).find? (fun r => key r = k) =
        (t.find k).or (if key new = k then some new else none) := by
      intro k
      rw [List.find?_append]
      by_cases hk : key new = k
      · simp [find, hk]
      · simp [find, hk]
    show List.find? _ (t.rows ++ [new]) = _
    rw [happend]
    by_cases hk : k = key new
    · rw [if_pos hk, hk, hf]
      simp
    · rw [if_neg hk, if_neg (Ne.symm hk)]
      simp

/-- After an upsert that writes the row that it would add. -/
theorem find_upsert_row (hrow : ∀ r, key r = key new → write r = new) (k : κ) :
    (t.upsert new write hw).find k = if k = key new then some new else t.find k := by
  rw [find_upsert]
  by_cases hk : k = key new
  · rw [if_pos hk, if_pos hk]
    cases hfind : t.find (key new) with
    | none => rfl
    | some r => exact congrArg some (hrow r (key_of_find hfind))
  · rw [if_neg hk, if_neg hk]

/-- What the table says of each key, after an upsert that writes and adds the same. -/
theorem map_find_upsert {α : Type} (f : ρ → α) {k : κ} {v : α} (hkey : key new = k)
    (hnew : f new = v) (hwrite : ∀ r, f (write r) = v) :
    (fun k' => ((t.upsert new write hw).find k').map f) =
      Function.update (fun k' => (t.find k').map f) k (some v) := by
  funext k'
  rw [find_upsert, hkey]
  by_cases hk : k' = k
  · subst hk
    rw [Function.update_self, if_pos rfl]
    cases t.find k' with
    | none => exact congrArg some hnew
    | some r => exact congrArg some (hwrite r)
  · rw [Function.update_of_ne hk, if_neg hk]

end Upsert

/-- Drops the row of a key. -/
def erase (t : Table ρ key) (k : κ) : Table ρ key :=
  ⟨t.rows.filter fun r => key r ≠ k, t.unique.sublist (List.filter_sublist.map key)⟩

theorem find_erase (t : Table ρ key) (k k' : κ) :
    (t.erase k).find k' = if k' = k then none else t.find k' := by
  unfold erase find
  rw [List.find?_filter]
  by_cases hk : k' = k
  · subst hk
    rw [if_pos rfl, List.find?_eq_none]
    intro r _
    simp
  · rw [if_neg hk]
    congr 1
    funext r
    by_cases hr : key r = k'
    · simp [hr, hk]
    · simp [hr]

/-- What is found among some of the rows. -/
theorem find?_filter_rows (t : Table ρ key) (p : ρ → Bool) (k : κ) :
    (t.rows.filter p).find? (fun r => key r = k) = (t.find k).filter p := by
  let part : Table ρ key := ⟨t.rows.filter p, t.unique.sublist (List.filter_sublist.map key)⟩
  show part.find k = _
  cases hfind : t.find k with
  | none =>
    rw [Option.filter_none, find_eq_none]
    intro r hr
    exact find_eq_none.mp hfind r (List.mem_filter.mp hr).1
  | some r =>
    obtain ⟨hr, hk⟩ := find_eq_some.mp hfind
    rw [Option.filter_some]
    by_cases hp : p r = true
    · rw [if_pos hp]
      exact find_eq_some.mpr ⟨List.mem_filter.mpr ⟨hr, hp⟩, hk⟩
    · rw [if_neg hp, find_eq_none]
      intro r' hr' hk'
      obtain ⟨hmem, hp'⟩ := List.mem_filter.mp hr'
      obtain rfl := List.inj_on_of_nodup_map t.unique hmem hr (hk'.trans hk.symm)
      exact hp hp'

omit [DecidableEq κ] in
/-- Two ways to choose rows give the same keys only when they choose the same rows. -/
theorem same_keys_iff (t : Table ρ key) (p q : ρ → Prop) :
    (∀ k, (∃ r ∈ t.rows, key r = k ∧ p r) ↔ ∃ r ∈ t.rows, key r = k ∧ q r) ↔
      ∀ r ∈ t.rows, p r ↔ q r := by
  have hown : ∀ p : ρ → Prop, ∀ r ∈ t.rows, (∃ r' ∈ t.rows, key r' = key r ∧ p r') ↔ p r := by
    intro p r hr
    constructor
    · rintro ⟨r', hr', hk, hp⟩
      obtain rfl := List.inj_on_of_nodup_map t.unique hr' hr hk
      exact hp
    · intro hp
      exact ⟨r, hr, rfl, hp⟩
  constructor
  · intro h r hr
    rw [← hown p r hr, h (key r), hown q r hr]
  · intro h k
    constructor
    · rintro ⟨r, hr, hk, hp⟩
      exact ⟨r, hr, hk, (h r hr).mp hp⟩
    · rintro ⟨r, hr, hk, hq⟩
      exact ⟨r, hr, hk, (h r hr).mpr hq⟩

/-! ## Keys -/

theorem mem_keys {t : Table ρ key} {k : κ} : k ∈ t.rows.map key ↔ (t.find k).isSome = true := by
  rw [List.mem_map, Option.isSome_iff_exists]
  refine ⟨?_, ?_⟩
  · rintro ⟨r, hr, hk⟩
    exact ⟨r, find_eq_some.mpr ⟨hr, hk⟩⟩
  · rintro ⟨r, hr⟩
    exact ⟨r, find_eq_some.mp hr⟩

/-- A list that names each key once has the keys of the table. -/
theorem keys_perm {t : Table ρ key} {ks : List κ} (hks : ks.Nodup)
    (h : ∀ k, (t.find k).isSome = true ↔ k ∈ ks) : (t.rows.map key).Perm ks := by
  rw [List.perm_ext_iff_of_nodup t.unique hks]
  intro k
  rw [mem_keys, h]

/-- A table is no longer than a list of its keys. -/
theorem length_le_of_keys {t : Table ρ key} {ks : List κ}
    (h : ∀ k, (t.find k).isSome = true → k ∈ ks) : t.rows.length ≤ ks.length := by
  have hsub : t.rows.map key ⊆ ks := fun k hk => h k (mem_keys.mp hk)
  have hle := (List.subperm_of_subset t.unique hsub).length_le
  rwa [List.length_map] at hle

/-! ## Groups -/

/-- Puts an entry into the group of its key. -/
def put {α : Type} (t : Table (κ × List α) Prod.fst) (k : κ) (x : α) : Table (κ × List α) Prod.fst :=
  t.upsert (k, [x]) (fun g => (g.1, g.2 ++ [x])) fun _ => rfl

/-- The entries of a list by their keys. -/
def grouped {α : Type} (f : α → κ) (xs : List α) : Table (κ × List α) Prod.fst :=
  xs.foldl (fun t x => t.put (f x) x) empty

/-- The group of a key is made of the entries with the key, in their order. -/
theorem find_grouped {α : Type} (f : α → κ) (xs : List α) (k : κ) :
    (grouped f xs).find k =
      if xs.filter (fun x => f x = k) = [] then none else some (k, xs.filter fun x => f x = k) := by
  induction xs using List.reverseRecOn with
  | nil => rfl
  | append_singleton xs x ih =>
    have hsnoc : grouped f (xs ++ [x]) = (grouped f xs).put (f x) x := by
      simp [grouped, List.foldl_append]
    rw [hsnoc, put, find_upsert, List.filter_append]
    by_cases hk : k = f x
    · subst hk
      rw [if_pos rfl, ih]
      by_cases hnone : xs.filter (fun y => f y = f x) = []
      · simp [hnone]
      · simp [hnone]
    · have hne : ¬ f x = k := Ne.symm hk
      rw [if_neg hk, ih]
      simp [hne]

/-- A key has a group when an entry has it. -/
theorem mem_keys_grouped {α : Type} {f : α → κ} {xs : List α} {k : κ} :
    k ∈ (grouped f xs).rows.map Prod.fst ↔ xs.filter (fun x => f x = k) ≠ [] := by
  constructor
  · intro hk hnone
    obtain ⟨g, hg, rfl⟩ := List.mem_map.mp hk
    have hfind : (grouped f xs).find g.1 = some g := find_eq_some.mpr ⟨hg, rfl⟩
    rw [find_grouped, if_pos hnone] at hfind
    cases hfind
  · intro hsome
    have hfind := find_grouped f xs k
    rw [if_neg hsome] at hfind
    exact List.mem_map.mpr ⟨_, (find_eq_some.mp hfind).1, rfl⟩

/-- The rows are the groups. -/
theorem rows_grouped {α : Type} (f : α → κ) (xs : List α) :
    (grouped f xs).rows =
      ((grouped f xs).rows.map Prod.fst).map fun k => (k, xs.filter fun x => f x = k) := by
  have hrow : ∀ g ∈ (grouped f xs).rows, g = (g.1, xs.filter fun x => f x = g.1) := by
    intro g hg
    have hfind : (grouped f xs).find g.1 = some g := find_eq_some.mpr ⟨hg, rfl⟩
    rw [find_grouped] at hfind
    split at hfind
    · cases hfind
    · exact (Option.some.inj hfind).symm
  rw [List.map_map]
  conv_lhs => rw [← List.map_id (grouped f xs).rows]
  exact List.map_congr_left hrow

end Table

/-! ## Assignments -/

variable {α β : Type}

/-- The last entry of a key. -/
def lastOf (name : β → κ) (bs : List β) (k : κ) : Option β := (bs.filter fun b => name b = k).getLast?

theorem lastOf_snoc (name : β → κ) (bs : List β) (b : β) (k : κ) :
    lastOf name (bs ++ [b]) k = if name b = k then some b else lastOf name bs k := by
  unfold lastOf
  rw [List.filter_append]
  by_cases hk : name b = k
  · simp [hk]
  · simp [hk]

theorem lastOf_eq_some {name : β → κ} {bs : List β} {k : κ} {b : β}
    (h : lastOf name bs k = some b) : b ∈ bs ∧ name b = k := by
  simpa using List.mem_of_getLast? h

theorem exists_lastOf (name : β → κ) {bs : List β} {b : β} (h : b ∈ bs) :
    ∃ b', lastOf name bs (name b) = some b' := by
  unfold lastOf
  cases hl : (bs.filter fun b' => name b' = name b).getLast? with
  | some b' => exact ⟨b', rfl⟩
  | none =>
    rw [List.getLast?_eq_none_iff] at hl
    have hmem : b ∈ bs.filter fun b' => name b' = name b := List.mem_filter.mpr ⟨h, by simp⟩
    rw [hl] at hmem
    exact absurd hmem List.not_mem_nil

/-- The rows of a table in any order: the last one of a key is the one found. -/
theorem lastOf_of_perm {ρ : Type} {key : ρ → κ} {t : Table ρ key} {rows : List ρ}
    (h : rows.Perm t.rows) (k : κ) : lastOf key rows k = t.find k := by
  cases hl : lastOf key rows k with
  | some r =>
    obtain ⟨hr, hk⟩ := lastOf_eq_some hl
    exact (Table.find_eq_some.mpr ⟨h.mem_iff.mp hr, hk⟩).symm
  | none =>
    cases hf : t.find k with
    | none => rfl
    | some r =>
      obtain ⟨hr, rfl⟩ := Table.find_eq_some.mp hf
      obtain ⟨r', hr'⟩ := exists_lastOf key (h.mem_iff.mpr hr)
      rw [hl] at hr'
      cases hr'

/-- A sequence of assignments leaves at each key what the last one of the key wrote. -/
theorem foldl_update (name : β → κ) (val : β → α) (bs : List β) (m : κ → α) (k : κ) :
    bs.foldl (fun m b => Function.update m (name b) (val b)) m k =
      ((lastOf name bs k).map val).getD (m k) := by
  induction bs using List.reverseRecOn with
  | nil => rfl
  | append_singleton bs b ih =>
    rw [List.foldl_append, List.foldl_cons, List.foldl_nil, lastOf_snoc]
    by_cases hk : name b = k
    · subst hk
      simp
    · rw [Function.update_of_ne (Ne.symm hk), ih, if_neg hk]

end keyed
