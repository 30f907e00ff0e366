-- Interleavings. A `Config` is a shared state, the programs that run over it
-- and the trace of their calls. One step lets one thread make its next call.
-- A run is a list of steps, of any length and in any order. What every allowed
-- call keeps, every run keeps (`run_keeps`).
import TradingPlatform.Lib.Prog
import Mathlib.Logic.Function.Basic
import Mathlib.Data.List.Induction

namespace resumption

variable {E C : Type} {V : C → Type} {S O G α : Type}

/-! ## Runs -/

/-- One call and its answer. -/
structure Event (E C : Type) (V : C → Type) where
  call : C
  answer : Except E (V call)

/-- The call came back with a value. -/
def Event.answered (e : Event E C V) : Bool :=
  match e.answer with
  | .ok _ => true
  | .error _ => false

/-- One step of a run: the thread that moves, and what the environment does
in its call. -/
structure Act (O : Type) where
  thread : Nat
  choice : O

structure Config (S E C : Type) (V : C → Type) (α : Type) where
  shared : S
  threads : List (Prog E C V α)
  /-- The calls made so far with the number of their thread, oldest first. -/
  trace : List (Nat × Event E C V)

namespace Config

variable (exec : S → (c : C) → O → Except E (V c) × S)

def start (s : S) (ps : List (Prog E C V α)) : Config S E C V α := ⟨s, ps, []⟩

/-- A step of a thread that is not there, or that has ended, changes nothing. -/
def step (cfg : Config S E C V α) (a : Act O) : Config S E C V α :=
  match cfg.threads[a.thread]? with
  | some (.call c k) =>
    let r := exec cfg.shared c a.choice
    ⟨r.2, cfg.threads.set a.thread (k r.1), cfg.trace ++ [(a.thread, ⟨c, r.1⟩)]⟩
  | _ => cfg

def run (cfg : Config S E C V α) (acts : List (Act O)) : Config S E C V α :=
  acts.foldl (step exec) cfg

/-- The calls of thread `i`, oldest first. -/
def log (cfg : Config S E C V α) (i : Nat) : List (Event E C V) :=
  (cfg.trace.filter (·.1 = i)).map (·.2)

/-- The thread has ended, with a value or with an exception. -/
def Ended (cfg : Config S E C V α) (i : Nat) : Prop :=
  ∀ c k, cfg.threads[i]? ≠ some (.call c k)

instance decidableEnded (cfg : Config S E C V α) (i : Nat) : Decidable (cfg.Ended i) :=
  match h : cfg.threads[i]? with
  | some (.call c k) => isFalse fun he => he c k h
  | some (.done _) => isTrue fun c k hc => by rw [h] at hc; cases hc
  | some (.raise _) => isTrue fun c k hc => by rw [h] at hc; cases hc
  | none => isTrue fun c k hc => by rw [h] at hc; cases hc

/-- Every thread has ended with a value. -/
def Returned (cfg : Config S E C V α) : Prop := ∀ p ∈ cfg.threads, p.returned = true

instance decidableReturned (cfg : Config S E C V α) : Decidable cfg.Returned :=
  inferInstanceAs (Decidable (∀ p ∈ cfg.threads, p.returned = true))

@[simp] theorem run_nil (cfg : Config S E C V α) : cfg.run exec [] = cfg := rfl

@[simp] theorem run_cons (cfg : Config S E C V α) (a : Act O) (as : List (Act O)) :
    cfg.run exec (a :: as) = (cfg.step exec a).run exec as := rfl

theorem run_append (cfg : Config S E C V α) (as bs : List (Act O)) :
    cfg.run exec (as ++ bs) = (cfg.run exec as).run exec bs := by
  simp [run, List.foldl_append]

/-- A step either changes nothing or is one call of its thread. -/
theorem step_cases (cfg : Config S E C V α) (a : Act O) :
    cfg.step exec a = cfg ∨
      ∃ c k, cfg.threads[a.thread]? = some (.call c k) ∧
        cfg.step exec a =
          ⟨(exec cfg.shared c a.choice).2,
            cfg.threads.set a.thread (k (exec cfg.shared c a.choice).1),
            cfg.trace ++ [(a.thread, ⟨c, (exec cfg.shared c a.choice).1⟩)]⟩ := by
  unfold step
  split
  · exact Or.inr ⟨_, _, ‹_›, rfl⟩
  · exact Or.inl rfl

theorem step_length (cfg : Config S E C V α) (a : Act O) :
    (cfg.step exec a).threads.length = cfg.threads.length := by
  rcases step_cases exec cfg a with he | ⟨c, k, -, he⟩
  · rw [he]
  · rw [he]
    simp

/-- A run neither adds nor drops a thread. -/
theorem run_length (cfg : Config S E C V α) (as : List (Act O)) :
    (cfg.run exec as).threads.length = cfg.threads.length := by
  induction as generalizing cfg with
  | nil => rfl
  | cons a as ih => rw [run_cons, ih, step_length]

/-- What holds of each call of a run, and is true before it, holds after it. -/
theorem run_induction {I : Config S E C V α → Prop} {cfg : Config S E C V α}
    (hstep : ∀ cfg a, I cfg → I (cfg.step exec a)) (h : I cfg) (as : List (Act O)) :
    I (cfg.run exec as) := by
  induction as generalizing cfg with
  | nil => exact h
  | cons a as ih => exact ih (hstep _ _ h)

end Config

/-- Every step of the run meets a condition on the configuration before it. -/
def Config.Along (exec : S → (c : C) → O → Except E (V c) × S)
    (cond : Config S E C V α → Act O → Prop) : Config S E C V α → List (Act O) → Prop
  | _, [] => True
  | cfg, a :: as => cond cfg a ∧ Along exec cond (cfg.step exec a) as

instance Config.decidableAlong (exec : S → (c : C) → O → Except E (V c) × S)
    (cond : Config S E C V α → Act O → Prop) [∀ cfg a, Decidable (cond cfg a)] :
    ∀ (cfg : Config S E C V α) (as : List (Act O)), Decidable (cfg.Along exec cond as)
  | _, [] => isTrue trivial
  | cfg, a :: as =>
    haveI := decidableAlong exec cond (cfg.step exec a) as
    inferInstanceAs (Decidable (cond cfg a ∧ _))

/-- What every step that meets the condition keeps, the run keeps. -/
theorem Config.run_keeps_along {exec : S → (c : C) → O → Except E (V c) × S}
    {cond : Config S E C V α → Act O → Prop} {I : Config S E C V α → Prop}
    (hstep : ∀ cfg a, I cfg → cond cfg a → I (cfg.step exec a)) {cfg : Config S E C V α}
    {as : List (Act O)} (h : I cfg) (hc : cfg.Along exec cond as) : I (cfg.run exec as) := by
  induction as generalizing cfg with
  | nil => exact h
  | cons a as ih => exact ih (hstep _ _ h hc.1) hc.2

theorem Config.along_append {exec : S → (c : C) → O → Except E (V c) × S}
    {cond : Config S E C V α → Act O → Prop} {cfg : Config S E C V α} {as bs : List (Act O)} :
    cfg.Along exec cond (as ++ bs) ↔
      cfg.Along exec cond as ∧ (cfg.run exec as).Along exec cond bs := by
  induction as generalizing cfg with
  | nil => simp [Along]
  | cons a as ih =>
    rw [List.cons_append, run_cons]
    show cond cfg a ∧ _ ↔ (cond cfg a ∧ _) ∧ _
    rw [ih, and_assoc]

/-! ## Ghost states of the threads -/

/-- The ghost state after a list of calls. -/
def Protocol.after (P : Protocol E C V G) (g : G) (es : List (Event E C V)) : G :=
  es.foldl (fun g e => P.next g e.call e.answer) g

/-- Each call of the list was allowed when it was made. -/
def Protocol.Allowed (P : Protocol E C V G) : G → List (Event E C V) → Prop
  | _, [] => True
  | g, e :: es => P.allows g e.call ∧ P.Allowed (P.next g e.call e.answer) es

theorem Protocol.after_snoc (P : Protocol E C V G) (g : G) (es : List (Event E C V))
    (e : Event E C V) : P.after g (es ++ [e]) = P.next (P.after g es) e.call e.answer := by
  simp [after, List.foldl_append]

theorem Protocol.allowed_snoc {P : Protocol E C V G} {g : G} {es : List (Event E C V)}
    {e : Event E C V} : P.Allowed g (es ++ [e]) ↔ P.Allowed g es ∧ P.allows (P.after g es) e.call := by
  induction es generalizing g with
  | nil => simp [Allowed, after]
  | cons x es ih =>
    show P.allows g x.call ∧ P.Allowed _ (es ++ [e]) ↔ (P.allows g x.call ∧ P.Allowed _ es) ∧ _
    rw [ih, and_assoc]
    exact Iff.rfl

/-- What is told of a list of calls and the ghost state after it holds of every
list of allowed calls, if one more allowed call keeps it. -/
theorem Protocol.allowed_induction {P : Protocol E C V G} {g : G}
    {J : List (Event E C V) → G → Prop} (hnil : J [] g)
    (hstep : ∀ es g' e, J es g' → P.allows g' e.call → J (es ++ [e]) (P.next g' e.call e.answer))
    {es : List (Event E C V)} (h : P.Allowed g es) : J es (P.after g es) := by
  induction es using List.reverseRecOn with
  | nil => exact hnil
  | append_singleton es e ih =>
    rw [allowed_snoc] at h
    rw [after_snoc]
    exact hstep es _ e (ih h.1) h.2

namespace Config

variable (exec : S → (c : C) → O → Except E (V c) × S)
variable (P : Protocol E C V G) (g0 : Nat → G)

/-- One step and thread `i`: another thread moves, or none, and its log and its
program are as they were; or it makes its next call. -/
theorem step_thread (cfg : Config S E C V α) (a : Act O) (i : Nat) :
    ((cfg.step exec a).log i = cfg.log i ∧ (cfg.step exec a).threads[i]? = cfg.threads[i]?) ∨
      a.thread = i ∧ ∃ c k, cfg.threads[i]? = some (.call c k) ∧
        (cfg.step exec a).trace = cfg.trace ++ [(i, ⟨c, (exec cfg.shared c a.choice).1⟩)] ∧
        (cfg.step exec a).log i = cfg.log i ++ [⟨c, (exec cfg.shared c a.choice).1⟩] ∧
        (cfg.step exec a).threads[i]? = some (k (exec cfg.shared c a.choice).1) := by
  rcases step_cases exec cfg a with he | ⟨c, k, hk, he⟩
  · rw [he]
    exact Or.inl ⟨rfl, rfl⟩
  · by_cases hi : a.thread = i
    · subst hi
      refine Or.inr ⟨rfl, c, k, hk, ?_⟩
      rw [he]
      have hlt : a.thread < cfg.threads.length := by
        by_contra hge
        rw [List.getElem?_eq_none (Nat.not_lt.mp hge)] at hk
        cases hk
      refine ⟨rfl, ?_, ?_⟩
      · simp [log, List.filter_append]
      · simp [hlt]
    · rw [he]
      refine Or.inl ⟨?_, ?_⟩
      · simp [log, List.filter_append, hi]
      · simp [hi]

/-- What the commands of a thread are, its calls in a run are. -/
theorem run_calls {A : C → Prop} {cfg : Config S E C V α} {i : Nat}
    (hp : ∀ p, cfg.threads[i]? = some p → p.Calls A) (hlog : ∀ e ∈ cfg.log i, A e.call)
    (as : List (Act O)) : ∀ e ∈ (cfg.run exec as).log i, A e.call := by
  have hrun := run_induction exec
    (I := fun cfg => (∀ p, cfg.threads[i]? = some p → p.Calls A) ∧ ∀ e ∈ cfg.log i, A e.call)
    (fun cfg a h => ?_) ⟨hp, hlog⟩ as
  · exact hrun.2
  · obtain ⟨hp, hlog⟩ := h
    rcases step_thread exec cfg a i with ⟨hl, ht⟩ | ⟨-, c, k, hk, -, hl, ht⟩
    · rw [hl, ht]
      exact ⟨hp, hlog⟩
    · obtain ⟨hc, hrest⟩ := hp _ hk
      rw [hl, ht]
      refine ⟨fun p hp' => ?_, fun e he => ?_⟩
      · cases hp'
        exact hrest _
      · rcases List.mem_append.mp he with he | he
        · exact hlog e he
        · obtain rfl := List.mem_singleton.mp he
          exact hc

/-- A condition on the steps of thread `i`: on the shared state, its call and
the choice of the environment. -/
def OnThread (i : Nat) (cond : S → (c : C) → O → Prop) (cfg : Config S E C V α) (a : Act O) :
    Prop :=
  a.thread = i →
    match cfg.threads[i]? with
    | some (.call c _) => cond cfg.shared c a.choice
    | _ => True

instance decidableOnThread (i : Nat) (cond : S → (c : C) → O → Prop)
    [∀ s c o, Decidable (cond s c o)] (cfg : Config S E C V α) (a : Act O) :
    Decidable (cfg.OnThread i cond a) :=
  haveI : Decidable (match cfg.threads[i]? with
      | some (.call c _) => cond cfg.shared c a.choice
      | _ => True) :=
    match cfg.threads[i]? with
    | some (.call _ _) => inferInstanceAs (Decidable (cond _ _ _))
    | some (.done _) => isTrue trivial
    | some (.raise _) => isTrue trivial
    | none => isTrue trivial
  inferInstanceAs (Decidable (a.thread = i → _))

/-- One thread keeps to a protocol and the others do anything: what each call
of the thread keeps of its ghost state, a run keeps, and each call of it was
made in such a state. -/
theorem run_keeps_thread {cond : S → (c : C) → O → Prop} {J : G → Prop} {A : C → Prop}
    {Q : Except E α → G → Prop} {g : G} {i : Nat}
    (hstep : ∀ s g c o, J g → P.allows g c → cond s c o → A c ∧ J (P.next g c (exec s c o).1))
    {cfg : Config S E C V α} (hlog : cfg.log i = [])
    (hp : ∀ p, cfg.threads[i]? = some p → Obeys P g p Q) (hg : J g) {as : List (Act O)}
    (hc : cfg.Along exec (OnThread i cond) as) :
    J (P.after g ((cfg.run exec as).log i)) ∧ ∀ e ∈ (cfg.run exec as).log i, A e.call := by
  have hrun := run_keeps_along
    (I := fun cfg => (∀ p, cfg.threads[i]? = some p → Obeys P (P.after g (cfg.log i)) p Q) ∧
      J (P.after g (cfg.log i)) ∧ ∀ e ∈ cfg.log i, A e.call) ?_ ?_ hc
  · exact hrun.2
  · intro cfg a ⟨hob, hJ, hA⟩ hcond
    rcases step_thread exec cfg a i with ⟨hl, ht⟩ | ⟨hi, c, k, hk, -, hl, ht⟩
    · rw [hl, ht]
      exact ⟨hob, hJ, hA⟩
    · obtain ⟨hallowed, hrest⟩ := (obeys_call c k _).mp (hob _ hk)
      have hcond' := hcond hi
      rw [hk] at hcond'
      obtain ⟨hAc, hJ'⟩ := hstep cfg.shared _ c a.choice hJ hallowed hcond'
      have hafter : P.after g ((cfg.step exec a).log i) =
          P.next (P.after g (cfg.log i)) c (exec cfg.shared c a.choice).1 := by
        rw [hl, Protocol.after, List.foldl_append]
        rfl
      rw [hafter, hl, ht]
      refine ⟨?_, hJ', ?_⟩
      · intro p hp'
        cases hp'
        exact hrest _
      · intro e he
        rcases List.mem_append.mp he with he | he
        · exact hA e he
        · obtain rfl := List.mem_singleton.mp he
          exact hAc
  · rw [hlog]
    exact ⟨hp, hg, fun e he => absurd he List.not_mem_nil⟩

/-- Thread `i` goes on as the protocol says from ghost state `g`, and the other
threads call nothing but `A`. -/
structure Guarded (A : C → Prop) (Q : Except E α → G → Prop) (i : Nat) (g : G)
    (cfg : Config S E C V α) : Prop where
  obeys : ∀ p, cfg.threads[i]? = some p → Obeys P g p Q
  others : ∀ j p, j ≠ i → cfg.threads[j]? = some p → p.Calls A

section Guarded

variable {exec P} {A : C → Prop} {Q : Except E α → G → Prop} {i : Nat} {g : G}

variable (exec) in
/-- The next call of a guarded thread is allowed. -/
theorem guarded_own {cfg : Config S E C V α} (h : cfg.Guarded P A Q i g) {a : Act O}
    (hi : a.thread = i) {c : C} {k : Except E (V c) → Prog E C V α}
    (hk : cfg.threads[i]? = some (.call c k)) :
    P.allows g c ∧ (cfg.step exec a).shared = (exec cfg.shared c a.choice).2 ∧
      (cfg.step exec a).Guarded P A Q i (P.next g c (exec cfg.shared c a.choice).1) := by
  subst hi
  have hlt : a.thread < cfg.threads.length := by
    by_contra hge
    rw [List.getElem?_eq_none (Nat.not_lt.mp hge)] at hk
    cases hk
  obtain ⟨hallowed, hrest⟩ := (obeys_call c k _).mp (h.obeys _ hk)
  have he : cfg.step exec a = ⟨(exec cfg.shared c a.choice).2,
      cfg.threads.set a.thread (k (exec cfg.shared c a.choice).1),
      cfg.trace ++ [(a.thread, ⟨c, (exec cfg.shared c a.choice).1⟩)]⟩ := by
    unfold step
    rw [hk]
  rw [he]
  refine ⟨hallowed, rfl, ?_, ?_⟩
  · intro p hp
    have hp' : k (exec cfg.shared c a.choice).1 = p := by simpa [hlt] using hp
    rw [← hp']
    exact hrest _
  · intro j p hj hp
    rw [List.getElem?_set_ne (Ne.symm hj)] at hp
    exact h.others j p hj hp

/-- One step beside a guarded thread: the thread makes its next call, or the
others do what they may, or nothing happens. -/
theorem guarded_step {cfg : Config S E C V α} (h : cfg.Guarded P A Q i g) (a : Act O) :
    (a.thread = i ∧ ∃ c k, cfg.threads[i]? = some (.call c k)) ∨
    (cfg.step exec a).Guarded P A Q i g ∧
      ((cfg.step exec a).shared = cfg.shared ∨
        ∃ c, A c ∧ (cfg.step exec a).shared = (exec cfg.shared c a.choice).2) := by
  rcases step_cases exec cfg a with he | ⟨c, k, hk, he⟩
  · rw [he]
    exact Or.inr ⟨h, Or.inl rfl⟩
  · by_cases hi : a.thread = i
    · rw [hi] at hk
      exact Or.inl ⟨hi, c, k, hk⟩
    · have hlt : a.thread < cfg.threads.length := by
        by_contra hge
        rw [List.getElem?_eq_none (Nat.not_lt.mp hge)] at hk
        cases hk
      obtain ⟨hA, hrest⟩ := h.others a.thread _ hi hk
      rw [he]
      refine Or.inr ⟨⟨?_, ?_⟩, Or.inr ⟨c, hA, rfl⟩⟩
      · intro p hp
        rw [List.getElem?_set_ne hi] at hp
        exact h.obeys p hp
      · intro j p hj hp
        by_cases hja : a.thread = j
        · subst hja
          have hp' : k (exec cfg.shared c a.choice).1 = p := by simpa [hlt] using hp
          rw [← hp']
          exact hrest _
        · rw [List.getElem?_set_ne hja] at hp
          exact h.others j p hj hp

/-- What the calls of the guarded thread and those of the others keep, a run
keeps. -/
theorem run_guarded {I : S → G → Prop} {cond : S → (c : C) → O → Prop}
    (hown : ∀ s g c o, I s g → P.allows g c → cond s c o →
      I (exec s c o).2 (P.next g c (exec s c o).1))
    (hothers : ∀ s g c o, I s g → A c → I (exec s c o).2 g)
    {cfg : Config S E C V α} {as : List (Act O)} (h : cfg.Guarded P A Q i g)
    (hI : I cfg.shared g) (hc : cfg.Along exec (OnThread i cond) as) :
    ∃ g', (cfg.run exec as).Guarded P A Q i g' ∧ I (cfg.run exec as).shared g' := by
  refine run_keeps_along (I := fun cfg => ∃ g', cfg.Guarded P A Q i g' ∧ I cfg.shared g')
    ?_ ⟨g, h, hI⟩ hc
  rintro cfg a ⟨g', hg, hI⟩ hcond
  rcases guarded_step hg a with ⟨hi, c, k, hk⟩ | ⟨hsame, hs | ⟨c, hA, hs⟩⟩
  · obtain ⟨hallowed, hs, hnext⟩ := guarded_own exec hg hi hk
    have hcond' := hcond hi
    rw [hk] at hcond'
    refine ⟨_, hnext, ?_⟩
    rw [hs]
    exact hown _ _ c a.choice hI hallowed hcond'
  · refine ⟨g', hsame, ?_⟩
    rw [hs]
    exact hI
  · refine ⟨g', hsame, ?_⟩
    rw [hs]
    exact hothers _ _ c a.choice hI hA

end Guarded

/-- A program alone, up to any point of it: what each allowed call keeps holds of
the state there. -/
theorem run_keeps_alone {I : S → G → Prop} {Q : Except E α → G → Prop} {g : G}
    (hstep : ∀ s g c o, I s g → P.allows g c →
      I (exec s c o).2 (P.next g c (exec s c o).1))
    {s : S} {p : Prog E C V α} (hp : Obeys P g p Q) (hs : I s g) (as : List (Act O)) :
    I ((start s [p]).run exec as).shared (P.after g (((start s [p]).run exec as).log 0)) ∧
      (∀ q, ((start s [p]).run exec as).threads[0]? = some q →
        Obeys P (P.after g (((start s [p]).run exec as).log 0)) q Q) ∧
      P.Allowed g (((start s [p]).run exec as).log 0) := by
  have hzero : (start s [p]).threads.length = 1 ∧
      I (start s [p]).shared (P.after g ((start s [p]).log 0)) ∧
      (∀ q, (start s [p]).threads[0]? = some q →
        Obeys P (P.after g ((start s [p]).log 0)) q Q) ∧
      P.Allowed g ((start s [p]).log 0) := by
    refine ⟨rfl, hs, ?_, trivial⟩
    rintro q ⟨⟩
    exact hp
  have hrun := run_induction exec
    (I := fun cfg => cfg.threads.length = 1 ∧ I cfg.shared (P.after g (cfg.log 0)) ∧
      (∀ q, cfg.threads[0]? = some q → Obeys P (P.after g (cfg.log 0)) q Q) ∧
      P.Allowed g (cfg.log 0)) ?_ hzero as
  · exact hrun.2
  · intro cfg a ⟨hlen, hI, hob, hallowed⟩
    rcases step_cases exec cfg a with he | ⟨c, k, hk, he⟩
    · rw [he]
      exact ⟨hlen, hI, hob, hallowed⟩
    · have hzero : a.thread = 0 := by
        by_contra hne
        rw [List.getElem?_eq_none (by omega)] at hk
        cases hk
      rw [hzero] at hk he
      obtain ⟨hc, hrest⟩ := (obeys_call c k _).mp (hob _ hk)
      have hlog : (cfg.step exec a).log 0 =
          cfg.log 0 ++ [⟨c, (exec cfg.shared c a.choice).1⟩] := by
        rw [he]
        simp [log, List.filter_append]
      rw [hlog, Protocol.after_snoc, Protocol.allowed_snoc, he]
      refine ⟨by simpa using hlen, hstep _ _ c a.choice hI hc, ?_, hallowed, hc⟩
      intro q hq
      have hq' : q = k (exec cfg.shared c a.choice).1 := by
        simpa [hlen, eq_comm] using hq
      rw [hq']
      exact hrest _

/-- The ghost state of thread `i`, which started in `g0 i`. -/
def ghost (cfg : Config S E C V α) (i : Nat) : G := P.after (g0 i) (cfg.log i)

/-- Every step of the run meets a condition on the shared state, the ghost
state of the thread that moves, its call and the choice of the environment. -/
def Meets (cond : S → G → C → O → Prop) : Config S E C V α → List (Act O) → Prop
  | _, [] => True
  | cfg, a :: as =>
    (match cfg.threads[a.thread]? with
      | some (.call c _) => cond cfg.shared (cfg.ghost P g0 a.thread) c a.choice
      | _ => True) ∧
    Meets cond (cfg.step exec a) as

instance decidableMeets (cond : S → G → C → O → Prop)
    [∀ s g c o, Decidable (cond s g c o)] :
    ∀ (cfg : Config S E C V α) (as : List (Act O)), Decidable (cfg.Meets exec P g0 cond as)
  | _, [] => isTrue trivial
  | cfg, a :: as =>
    haveI : Decidable (match cfg.threads[a.thread]? with
        | some (.call c _) => cond cfg.shared (cfg.ghost P g0 a.thread) c a.choice
        | _ => True) :=
      match cfg.threads[a.thread]? with
      | some (.call _ _) => inferInstanceAs (Decidable (cond _ _ _ _))
      | some (.done _) => isTrue trivial
      | some (.raise _) => isTrue trivial
      | none => isTrue trivial
    haveI := decidableMeets cond (cfg.step exec a) as
    inferInstanceAs (Decidable (_ ∧ _))

/-- The invariant holds, and every thread goes on as the protocol says. -/
structure Kept (Inv : S → (Nat → G) → Prop)
    (Q : Nat → Except E α → G → Prop) (cfg : Config S E C V α) : Prop where
  inv : Inv cfg.shared (cfg.ghost P g0)
  obeys : ∀ i p, cfg.threads[i]? = some p → Obeys P (cfg.ghost P g0 i) p (Q i)

variable {exec P g0}
variable {Inv : S → (Nat → G) → Prop} {Q : Nat → Except E α → G → Prop}
variable {K : S → G → C → O → Prop}

@[simp] theorem ghost_start (s : S) (ps : List (Prog E C V α)) :
    (start s ps).ghost P g0 = g0 := rfl

/-- One more call moves the ghost state of its own thread only. -/
theorem ghost_snoc (cfg : Config S E C V α) (s : S) (ps : List (Prog E C V α)) (i : Nat)
    (e : Event E C V) :
    (⟨s, ps, cfg.trace ++ [(i, e)]⟩ : Config S E C V α).ghost P g0 =
      Function.update (cfg.ghost P g0) i (P.next (cfg.ghost P g0 i) e.call e.answer) := by
  funext j
  by_cases hj : j = i
  · subst hj
    simp [ghost, log, Protocol.after, List.filter_append]
  · have hij : ¬ i = j := fun h => hj h.symm
    simp [ghost, log, Protocol.after, List.filter_append, Function.update_of_ne hj, hij]

theorem kept_start {s : S} {ps : List (Prog E C V α)} (hinv : Inv s g0)
    (hps : ∀ i p, ps[i]? = some p → Obeys P (g0 i) p (Q i)) :
    (start s ps).Kept P g0 Inv Q := ⟨hinv, hps⟩

theorem step_keeps {cfg : Config S E C V α} {a : Act O}
    (hstep : ∀ s γ i c o, Inv s γ → P.allows (γ i) c → K s (γ i) c o →
      Inv (exec s c o).2 (Function.update γ i (P.next (γ i) c (exec s c o).1)))
    (h : cfg.Kept P g0 Inv Q) (hc : cfg.Meets exec P g0 K [a]) :
    (cfg.step exec a).Kept P g0 Inv Q := by
  rcases step_cases exec cfg a with he | ⟨c, k, hk, he⟩
  · rw [he]; exact h
  · have hob := h.obeys a.thread _ hk
    have hcond : K cfg.shared (cfg.ghost P g0 a.thread) c a.choice := by
      have h1 := hc.1
      rw [hk] at h1
      exact h1
    rw [he]
    refine ⟨?_, fun i p hi => ?_⟩
    · rw [ghost_snoc cfg]
      exact hstep _ _ a.thread c a.choice h.inv hob.1 hcond
    · rw [ghost_snoc cfg]
      simp only [List.getElem?_set] at hi
      by_cases hia : a.thread = i
      · subst hia
        simp only [if_true] at hi
        split at hi
        · simp only [Option.some.injEq] at hi
          subst hi
          simpa using hob.2 _
        · cases hi
      · rw [if_neg hia] at hi
        rw [Function.update_of_ne (Ne.symm hia)]
        exact h.obeys i p hi

theorem meets_cons {cfg : Config S E C V α} {a : Act O} {as : List (Act O)} :
    cfg.Meets exec P g0 K (a :: as) ↔
      cfg.Meets exec P g0 K [a] ∧ (cfg.step exec a).Meets exec P g0 K as := by
  simp [Meets]

theorem meets_append {cfg : Config S E C V α} {as bs : List (Act O)} :
    cfg.Meets exec P g0 K (as ++ bs) ↔
      cfg.Meets exec P g0 K as ∧ (cfg.run exec as).Meets exec P g0 K bs := by
  induction as generalizing cfg with
  | nil => simp [Meets]
  | cons a as ih =>
    have hcons : cfg.Meets exec P g0 K (a :: as) ↔
        cfg.Meets exec P g0 K [a] ∧ (cfg.step exec a).Meets exec P g0 K as := meets_cons
    rw [List.cons_append, meets_cons, ih, run_cons, hcons]
    exact and_assoc.symm

/-- A run whose steps all meet the condition keeps the invariant. -/
theorem run_keeps
    (hstep : ∀ s γ i c o, Inv s γ → P.allows (γ i) c → K s (γ i) c o →
      Inv (exec s c o).2 (Function.update γ i (P.next (γ i) c (exec s c o).1)))
    {cfg : Config S E C V α} {as : List (Act O)}
    (h : cfg.Kept P g0 Inv Q) (hc : cfg.Meets exec P g0 K as) :
    (cfg.run exec as).Kept P g0 Inv Q := by
  induction as generalizing cfg with
  | nil => exact h
  | cons a as ih =>
    rw [meets_cons] at hc
    exact ih (step_keeps hstep h hc.1) hc.2

end Config

end resumption
