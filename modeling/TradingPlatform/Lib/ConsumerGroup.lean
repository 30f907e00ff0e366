-- Consumers of a stream that is read for a group. A read gives the next entries of
-- the stream and moves past them: no later read gives them again. A consumer handles
-- the entries of one read in their order, and an exception ends the round.
import TradingPlatform.Lib.Prog
import Mathlib.Data.List.Nodup

namespace resumption

variable {E C : Type} {V : C → Type} {S O α : Type}

/-- What a consumer does in one round: something before the read, the handling of
each entry, and something after it. -/
structure Consumer (E C : Type) (V : C → Type) (α : Type) where
  count : Nat
  before : Prog E C V Unit := .done ()
  process : Nat → α → Prog E C V Unit
  after : Prog E C V Unit := .done ()

/-- A stream and what became of it. An entry is known by its position. -/
structure Group (S α : Type) where
  shared : S
  entries : List α
  /-- The position of the first entry that was not given out yet. -/
  cursor : Nat
  /-- The entries whose handling came back. -/
  handled : List Nat
  handled_lt : ∀ id ∈ handled, id < cursor

/-- A round that was made: its exception if there was one, and the group after it. -/
structure Round (E S α : Type) where
  outcome : Except E Unit
  group : Group S α

namespace Group

/-- The entries that the next read gives. -/
def batch (g : Group S α) (count : Nat) : List (Nat × α) :=
  ((g.entries.drop g.cursor).take count).mapIdx fun i x => (g.cursor + i, x)

/-- New entries at the end of the stream. -/
def arrive (g : Group S α) (new : List α) : Group S α := { g with entries := g.entries ++ new }

def with_shared (g : Group S α) (s : S) : Group S α := { g with shared := s }

theorem mem_batch {g : Group S α} {count : Nat} {x : Nat × α} (h : x ∈ g.batch count) :
    g.cursor ≤ x.1 ∧ x.1 < g.cursor + (g.batch count).length := by
  obtain ⟨i, hi, rfl⟩ := List.mem_mapIdx.mp h
  simp only [batch, List.length_mapIdx] at hi ⊢
  omega

end Group

section Rounds

variable (exec : S → (c : C) → O → Except E (V c) × S) (idle : O)

/-- Handles the entries in their order, up to the first exception: the positions of the
entries that were handled, and how it ended. -/
def each (process : Nat → α → Prog E C V Unit) :
    List (Nat × α) → S → List O → List Nat × Except E Unit × S × List O
  | [], s, os => ([], .ok (), s, os)
  | (id, x) :: xs, s, os =>
    match run exec idle (process id x) s os with
    | (.ok _, s', os') => (id :: (each process xs s' os').1, (each process xs s' os').2)
    | (.error e, s', os') => ([], .error e, s', os')

theorem each_handled (process : Nat → α → Prog E C V Unit) (xs : List (Nat × α)) (s : S)
    (os : List O) : (each exec idle process xs s os).1 <+: xs.map (·.1) := by
  induction xs generalizing s os with
  | nil => simp [each]
  | cons x xs ih =>
    obtain ⟨id, x⟩ := x
    unfold each
    split
    · simpa using ih _ _
    · simp

/-- The entries were all handled exactly when no handling raised. -/
theorem each_complete_iff (process : Nat → α → Prog E C V Unit) (xs : List (Nat × α)) (s : S)
    (os : List O) :
    (∀ x ∈ xs, x.1 ∈ (each exec idle process xs s os).1) ∧ (xs.map (·.1)).Nodup ↔
      (each exec idle process xs s os).2.1 = .ok () ∧ (xs.map (·.1)).Nodup := by
  refine and_congr_left fun hnodup => ?_
  induction xs generalizing s os with
  | nil => simp [each]
  | cons x xs ih =>
    obtain ⟨id, x⟩ := x
    obtain ⟨hid, hrest⟩ := List.nodup_cons.mp hnodup
    unfold each
    split
    · rename_i s' os' _
      rw [← ih s' os' hrest]
      simp only [List.mem_cons, forall_eq_or_imp, true_or, true_and]
      refine forall_congr' fun y => imp_congr_right fun hy => ?_
      have hne : y.1 ≠ id := fun he => hid (List.mem_map.mpr ⟨y, hy, he⟩)
      simp [hne]
    · constructor
      · intro hall
        simpa using hall (id, x) List.mem_cons_self
      · intro hok
        cases hok

/-- A program that never raises, from any state and whatever the environment does. -/
def Returns (p : Prog E C V α) : Prop := ∀ s os, ∃ a, (run exec idle p s os).1 = .ok a

variable {exec idle}

theorem returns_done (a : α) : Returns exec idle (.done a : Prog E C V α) :=
  fun _ _ => ⟨a, rfl⟩

theorem returns_bind {β : Type} {p : Prog E C V α} {f : α → Prog E C V β}
    (hp : Returns exec idle p) (hf : ∀ a, Returns exec idle (f a)) :
    Returns exec idle (p >>= f) := by
  intro s os
  obtain ⟨a, ha⟩ := hp s os
  rw [run_bind]
  rcases hrun : run exec idle p s os with ⟨r, s', os'⟩
  rw [hrun] at ha
  cases ha
  exact hf a s' os'

theorem returns_swallow (p : Prog E C V α) : Returns exec idle p.swallow := by
  intro s os
  refine ⟨(), ?_⟩
  unfold Prog.swallow
  rw [run_bind, run_attempt]
  rfl

theorem each_ok {process : Nat → α → Prog E C V Unit}
    (h : ∀ id x, Returns exec idle (process id x)) (xs : List (Nat × α)) (s : S) (os : List O) :
    (each exec idle process xs s os).2.1 = .ok () := by
  induction xs generalizing s os with
  | nil => rfl
  | cons x xs ih =>
    obtain ⟨id, x⟩ := x
    obtain ⟨u, hu⟩ := h id x s os
    unfold each
    split
    · exact ih _ _
    · rename_i hraise
      rw [hraise] at hu
      cases hu

variable (exec idle)

/-- One round of a consumer. -/
def Consumer.tick (c : Consumer E C V α) (g : Group S α) (os : List O) : Round E S α :=
  match run exec idle c.before g.shared os with
  | (.error e, s, _) => ⟨.error e, g.with_shared s⟩
  | (.ok _, s, os) =>
    let batch := g.batch c.count
    let r := each exec idle c.process batch s os
    let g' : Group S α :=
      { shared := r.2.2.1
        entries := g.entries
        cursor := g.cursor + batch.length
        handled := g.handled ++ r.1
        handled_lt := by
          intro id hid
          rcases List.mem_append.mp hid with hid | hid
          · have hlt := g.handled_lt id hid
            omega
          · obtain ⟨x, hx, rfl⟩ := List.mem_map.mp ((each_handled exec idle _ _ _ _).subset hid)
            exact (Group.mem_batch hx).2 }
    match r.2.1 with
    | .error e => ⟨.error e, g'⟩
    | .ok _ => ⟨(run exec idle c.after g'.shared r.2.2.2).1,
        g'.with_shared (run exec idle c.after g'.shared r.2.2.2).2.1⟩

/-- The batch that the read of the round gives, if the round comes to its read. -/
def Consumer.read (c : Consumer E C V α) (g : Group S α) (os : List O) : List (Nat × α) :=
  match run exec idle c.before g.shared os with
  | (.error _, _, _) => []
  | (.ok _, _, _) => g.batch c.count

/-- How the handling of the batch of the round ends. -/
def Consumer.handling (c : Consumer E C V α) (g : Group S α) (os : List O) : Except E Unit :=
  match run exec idle c.before g.shared os with
  | (.error _, _, _) => .ok ()
  | (.ok _, s, os) => (each exec idle c.process (g.batch c.count) s os).2.1

/-- Further rounds. Before each of them new entries may arrive. -/
def Consumer.rounds (c : Consumer E C V α) : Group S α → List (List α × List O) → Group S α
  | g, [] => g
  | g, (new, os) :: rs => c.rounds (c.tick exec idle (g.arrive new) os).group rs

/-- Nothing raises in the further rounds. -/
def Consumer.Quiet (c : Consumer E C V α) : Group S α → List (List α × List O) → Prop
  | _, [] => True
  | g, (new, os) :: rs =>
    (c.tick exec idle (g.arrive new) os).outcome = .ok () ∧
      c.Quiet (c.tick exec idle (g.arrive new) os).group rs

/-- Whatever further rounds there are in which nothing raises: each entry of the batch
was handled, or a later read will give it. -/
def Consumer.NothingLost (c : Consumer E C V α) (g : Group S α) (os : List O) : Prop :=
  ∀ rs, c.Quiet exec idle (c.tick exec idle g os).group rs →
    ∀ x ∈ c.read exec idle g os,
      x.1 ∈ (c.rounds exec idle (c.tick exec idle g os).group rs).handled ∨
        (c.rounds exec idle (c.tick exec idle g os).group rs).cursor ≤ x.1

end Rounds

section Laws

theorem Group.nodup_batch (g : Group S α) (count : Nat) : ((g.batch count).map (·.1)).Nodup := by
  have hmap : (g.batch count).map (·.1) =
      (List.range (g.batch count).length).map (g.cursor + ·) := by
    apply List.ext_getElem
    · simp
    · intro i h1 h2
      simp [Group.batch]
  rw [hmap]
  exact List.nodup_range.map_on fun a _ b _ h => Nat.add_left_cancel h

variable (exec : S → (c : C) → O → Except E (V c) × S) (idle : O) (c : Consumer E C V α)

/-- A round moves past its batch, and what it handles is in the batch. -/
theorem tick_group (g : Group S α) (os : List O) :
    (c.tick exec idle g os).group.cursor = g.cursor + (c.read exec idle g os).length ∧
      ∃ ids, (c.tick exec idle g os).group.handled = g.handled ++ ids ∧
        (∀ id ∈ ids, g.cursor ≤ id) ∧
        ((∀ x ∈ c.read exec idle g os, x.1 ∈ ids) ↔ c.handling exec idle g os = .ok ()) := by
  unfold Consumer.tick Consumer.read Consumer.handling
  rcases run exec idle c.before g.shared os with ⟨r, s, os'⟩
  cases r with
  | error e => exact ⟨rfl, [], by simp [Group.with_shared], by simp, by simp⟩
  | ok u =>
    have hids : ∀ id ∈ (each exec idle c.process (g.batch c.count) s os').1, g.cursor ≤ id := by
      intro id hid
      obtain ⟨x, hx, rfl⟩ := List.mem_map.mp ((each_handled exec idle _ _ _ _).subset hid)
      exact (Group.mem_batch hx).1
    have hcomplete : (∀ x ∈ g.batch c.count,
        x.1 ∈ (each exec idle c.process (g.batch c.count) s os').1) ↔
          (each exec idle c.process (g.batch c.count) s os').2.1 = .ok () := by
      have h := each_complete_iff exec idle c.process (g.batch c.count) s os'
      simpa [g.nodup_batch c.count] using h
    simp only
    split
    · exact ⟨rfl, _, rfl, hids, hcomplete⟩
    · exact ⟨rfl, _, rfl, hids, hcomplete⟩

/-- Further rounds handle only entries from the cursor on, and do not move it back. -/
theorem rounds_group (g : Group S α) (rs : List (List α × List O)) :
    g.cursor ≤ (c.rounds exec idle g rs).cursor ∧
      ∃ ids, (c.rounds exec idle g rs).handled = g.handled ++ ids ∧ ∀ id ∈ ids, g.cursor ≤ id := by
  induction rs generalizing g with
  | nil => exact ⟨Nat.le_refl _, [], by simp [Consumer.rounds], by simp⟩
  | cons r rs ih =>
    obtain ⟨new, os⟩ := r
    obtain ⟨hcursor, ids, hhandled, hids, -⟩ :=
      tick_group exec idle c (g.arrive new) os
    obtain ⟨hle, ids', hhandled', hids'⟩ := ih (c.tick exec idle (g.arrive new) os).group
    have hstart : (g.arrive new).cursor = g.cursor := rfl
    have hstart' : (g.arrive new).handled = g.handled := rfl
    rw [hstart] at hcursor hids
    refine ⟨?_, ids ++ ids', ?_, ?_⟩
    · unfold Consumer.rounds
      omega
    · unfold Consumer.rounds
      rw [hhandled', hhandled, hstart', List.append_assoc]
    · intro id hid
      rcases List.mem_append.mp hid with hid | hid
      · exact hids id hid
      · have := hids' id hid
        omega

/-- Nothing of a batch is lost exactly when no handling of an entry of it raises. -/
theorem nothing_lost_iff (g : Group S α) (os : List O) :
    c.NothingLost exec idle g os ↔ c.handling exec idle g os = .ok () := by
  obtain ⟨hcursor, ids, hhandled, -, hcomplete⟩ :=
    tick_group exec idle c g os
  have hbatch : ∀ x ∈ c.read exec idle g os, g.cursor ≤ x.1 ∧
      x.1 < g.cursor + (c.read exec idle g os).length := by
    intro x hx
    revert hx
    unfold Consumer.read
    split
    · intro hx
      cases hx
    · exact Group.mem_batch
  constructor
  · intro h
    rw [← hcomplete]
    intro x hx
    rcases h [] trivial x hx with hin | hle
    · rw [Consumer.rounds, hhandled] at hin
      rcases List.mem_append.mp hin with hold | hnew
      · have hlt := g.handled_lt x.1 hold
        have hge := (hbatch x hx).1
        omega
      · exact hnew
    · rw [Consumer.rounds, hcursor] at hle
      have hlt := (hbatch x hx).2
      omega
  · intro h rs _ x hx
    obtain ⟨-, ids', hhandled', -⟩ :=
      rounds_group exec idle c (c.tick exec idle g os).group rs
    refine Or.inl ?_
    rw [hhandled', hhandled]
    exact List.mem_append_left _ (List.mem_append_right _ (hcomplete.mpr h x hx))

/-- A consumer whose handling never raises loses nothing. -/
theorem nothing_lost_of_returns (h : ∀ id x, Returns exec idle (c.process id x)) (g : Group S α)
    (os : List O) : c.NothingLost exec idle g os := by
  rw [nothing_lost_iff]
  unfold Consumer.handling
  split
  · rfl
  · exact each_ok h _ _ _

end Laws

end resumption
