-- The last writer of a part of the state. Some calls set the part, whole, and no other
-- call touches it: after any run it is as the last call that set it left it.
import TradingPlatform.Lib.Pool

namespace resumption

variable {E C : Type} {V : C → Type} {S O X α : Type}

/-! ## The calls that take effect -/

namespace Config

variable (exec : S → (c : C) → O → Except E (V c) × S) (takes : C → O → Bool)

/-- The call that a step makes and its thread, if the environment lets it take effect. -/
def applied (cfg : Config S E C V α) (a : Act O) : List (Nat × C) :=
  match cfg.threads[a.thread]? with
  | some (.call c _) => if takes c a.choice then [(a.thread, c)] else []
  | _ => []

/-- The calls of a run that take effect, oldest first. -/
def effects : Config S E C V α → List (Act O) → List (Nat × C)
  | _, [] => []
  | cfg, a :: as => cfg.applied takes a ++ effects (cfg.step exec a) as

/-- A step either changes nothing and calls nothing, or is one call of its thread. -/
theorem step_applied (cfg : Config S E C V α) (a : Act O) :
    cfg.step exec a = cfg ∧ cfg.applied takes a = [] ∨
      ∃ c k, cfg.threads[a.thread]? = some (.call c k) ∧
        cfg.step exec a =
          ⟨(exec cfg.shared c a.choice).2,
            cfg.threads.set a.thread (k (exec cfg.shared c a.choice).1),
            cfg.trace ++ [(a.thread, ⟨c, (exec cfg.shared c a.choice).1⟩)]⟩ ∧
        cfg.applied takes a = if takes c a.choice then [(a.thread, c)] else [] := by
  cases hp : cfg.threads[a.thread]? with
  | none => exact Or.inl (by simp [step, applied, hp])
  | some p =>
    cases p with
    | done _ | raise _ => exact Or.inl (by simp [step, applied, hp])
    | call c k => exact Or.inr ⟨c, k, rfl, by simp [step, hp], by simp [applied, hp]⟩

variable {exec takes}

/-- Every call that takes effect is one that its thread can make. -/
theorem effects_calls {A : Nat → C → Prop} {cfg : Config S E C V α}
    (hcalls : ∀ (i : Nat) (p : Prog E C V α), cfg.threads[i]? = some p → p.Calls (A i))
    (as : List (Act O)) : ∀ x ∈ cfg.effects exec takes as, A x.1 x.2 := by
  induction as generalizing cfg with
  | nil => simp [effects]
  | cons a as ih =>
    intro x hx
    rcases List.mem_append.mp hx with hx | hx
    · unfold applied at hx
      split at hx
      · rename_i c k hk
        split at hx
        · obtain rfl := List.mem_singleton.mp hx
          exact (hcalls _ _ hk).1
        · cases hx
      · cases hx
    · refine ih ?_ x hx
      intro i p hp
      rcases step_thread exec cfg a i with ⟨-, ht⟩ | ⟨-, c, k, hk, -, -, ht⟩
      · rw [ht] at hp
        exact hcalls i p hp
      · rw [ht] at hp
        cases hp
        exact (hcalls i _ hk).2 _

end Config

/-! ## The last write -/

/-- The last of a list of calls that sets the part, with its thread and what it sets. -/
def lastWrite (sets : C → Option X) (calls : List (Nat × C)) : Option (Nat × X) :=
  (calls.filterMap fun x => (sets x.2).map fun v => (x.1, v)).getLast?

theorem exists_of_lastWrite {sets : C → Option X} {calls : List (Nat × C)} {i : Nat} {v : X}
    (h : lastWrite sets calls = some (i, v)) : ∃ c, (i, c) ∈ calls ∧ sets c = some v := by
  have hmem := List.mem_of_getLast? h
  obtain ⟨⟨j, c⟩, hc, he⟩ := List.mem_filterMap.mp hmem
  cases hs : sets c with
  | none =>
    rw [hs] at he
    cases he
  | some v' =>
    rw [hs] at he
    cases he
    exact ⟨c, hc, hs⟩

theorem lastWrite_append (sets : C → Option X) (xs ys : List (Nat × C)) :
    lastWrite sets (xs ++ ys) = (lastWrite sets ys).or (lastWrite sets xs) := by
  unfold lastWrite
  rw [List.filterMap_append, List.getLast?_append]

/-- A part of the state: which calls set it and to what, and that no other call, and no
call that does not take effect, touches it. `A` bounds the calls that are made. -/
structure Part (exec : S → (c : C) → O → Except E (V c) × S) (takes : C → O → Bool)
    (A : C → Prop) (read : S → X) (sets : C → Option X) : Prop where
  set : ∀ s c o v, A c → takes c o = true → sets c = some v → read (exec s c o).2 = v
  keep : ∀ s c o, A c → takes c o = false ∨ sets c = none → read (exec s c o).2 = read s

namespace Part

variable {exec : S → (c : C) → O → Except E (V c) × S} {takes : C → O → Bool} {A : C → Prop}
variable {read : S → X} {sets : C → Option X}

/-- One step leaves what its own call set, or what was there. -/
theorem step (hpart : Part exec takes A read sets) {cfg : Config S E C V α}
    (hcalls : ∀ p ∈ cfg.threads, p.Calls A) (a : Act O) :
    read (cfg.step exec a).shared =
      ((lastWrite sets (cfg.applied takes a)).map (·.2)).getD (read cfg.shared) := by
  rcases Config.step_applied exec takes cfg a with ⟨he, hnone⟩ | ⟨c, k, hk, he, hcall⟩
  · rw [he, hnone]
    rfl
  · rw [he, hcall]
    have hA : A c := (hcalls _ (List.mem_of_getElem? hk)).1
    by_cases htakes : takes c a.choice = true
    · cases hsets : sets c with
      | none =>
        have hkeep := hpart.keep cfg.shared c a.choice hA (Or.inr hsets)
        simpa [htakes, lastWrite, hsets] using hkeep
      | some v =>
        have hset := hpart.set cfg.shared c a.choice v hA htakes hsets
        simpa [htakes, lastWrite, hsets] using hset
    · have hkeep := hpart.keep cfg.shared c a.choice hA (Or.inl (by simpa using htakes))
      simpa [htakes, lastWrite] using hkeep

/-- What the last write of a run set is there after the run; without one, what was there
before. -/
theorem run (hpart : Part exec takes A read sets) {cfg : Config S E C V α}
    (hcalls : ∀ p ∈ cfg.threads, p.Calls A) (as : List (Act O)) :
    read (cfg.run exec as).shared =
      ((lastWrite sets (cfg.effects exec takes as)).map (·.2)).getD (read cfg.shared) := by
  induction as generalizing cfg with
  | nil => rfl
  | cons a as ih =>
    have hnext : ∀ p ∈ (cfg.step exec a).threads, p.Calls A := by
      intro p hp
      rcases Config.step_cases exec cfg a with he | ⟨c, k, hk, he⟩
      · rw [he] at hp
        exact hcalls p hp
      · rw [he] at hp
        rcases List.mem_or_eq_of_mem_set hp with hp | rfl
        · exact hcalls p hp
        · exact (hcalls _ (List.mem_of_getElem? hk)).2 _
    rw [Config.run_cons, ih hnext, hpart.step hcalls a]
    show _ = ((lastWrite sets (cfg.applied takes a ++ _)).map (·.2)).getD _
    rw [lastWrite_append]
    cases lastWrite sets ((cfg.step exec a).effects exec takes as) with
    | none => simp
    | some x => simp

end Part

end resumption
