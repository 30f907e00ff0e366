-- Programs that call their environment. A program is a tree: it ends with a
-- value, it raises an exception, or it calls a command and goes on with the
-- answer. A `Protocol` is a ghost automaton over the calls: `Obeys` says that
-- every path of a program keeps to it, whatever the answers are.
import Mathlib.Data.List.Basic

namespace resumption

variable {E C : Type} {V : C → Type} {G α β γ : Type}

/-! ## The tree -/

/-- A program over the commands `C`. A call of `c` is answered with a value
of `V c` or with an exception of `E`. -/
inductive Prog (E C : Type) (V : C → Type) (α : Type) : Type where
  | done (a : α)
  | raise (e : E)
  | call (c : C) (k : Except E (V c) → Prog E C V α)

namespace Prog

def bind : Prog E C V α → (α → Prog E C V β) → Prog E C V β
  | done a, f => f a
  | raise e, _ => raise e
  | call c k, f => call c fun r => (k r).bind f

instance : Monad (Prog E C V) where
  pure := done
  bind := bind

/-- Calls one command. An exception of the environment is raised here. -/
def perform (c : C) : Prog E C V (V c) :=
  call c fun r => match r with
    | .ok v => done v
    | .error e => raise e

/-- Runs `p` and gives its exception as a value. -/
def attempt : Prog E C V α → Prog E C V (Except E α)
  | done a => done (.ok a)
  | raise e => done (.error e)
  | call c k => call c fun r => (k r).attempt

/-- Runs `p` and goes on after it, whether it raised or not. -/
def swallow (p : Prog E C V α) : Prog E C V Unit := do
  let _ ← p.attempt

/-- The outcome of an answer, as a program. -/
def ofExcept : Except E α → Prog E C V α
  | .ok a => done a
  | .error e => raise e

/-- The program has ended with a value. -/
def returned : Prog E C V α → Bool
  | done _ => true
  | _ => false

theorem eq_done_of_returned {p : Prog E C V α} (h : p.returned = true) : ∃ a, p = done a := by
  cases p with
  | done a => exact ⟨a, rfl⟩
  | raise e => cases h
  | call c k => cases h

@[simp] theorem pure_eq (a : α) : (pure a : Prog E C V α) = done a := rfl

@[simp] theorem done_bind (a : α) (f : α → Prog E C V β) : (done a >>= f) = f a := rfl

@[simp] theorem raise_bind (e : E) (f : α → Prog E C V β) : (raise e >>= f) = raise e := rfl

@[simp] theorem call_bind (c : C) (k : Except E (V c) → Prog E C V α) (f : α → Prog E C V β) :
    (call c k >>= f) = call c fun r => k r >>= f := rfl

@[simp] theorem attempt_done (a : α) :
    (done a : Prog E C V α).attempt = done (.ok a) := rfl

@[simp] theorem attempt_raise (e : E) :
    (raise e : Prog E C V α).attempt = done (.error e) := rfl

@[simp] theorem attempt_call (c : C) (k : Except E (V c) → Prog E C V α) :
    (call c k).attempt = call c fun r => (k r).attempt := rfl

theorem bind_assoc (p : Prog E C V α) (f : α → Prog E C V β) (g : β → Prog E C V γ) :
    (p >>= f) >>= g = p >>= fun a => f a >>= g := by
  induction p with
  | done a => rfl
  | raise e => rfl
  | call c k ih => exact congrArg (call c) (funext ih)

theorem bind_done (p : Prog E C V α) : p >>= Prog.done = p := by
  induction p with
  | done a => rfl
  | raise e => rfl
  | call c k ih => exact congrArg (call c) (funext ih)

end Prog

/-! ## One program alone -/

section Run

variable {S O : Type} (exec : S → (c : C) → O → Except E (V c) × S) (idle : O)

/-- Runs a program from a state. Each call takes the next choice of the
environment, and `idle` once the choices are used up. -/
def run : Prog E C V α → S → List O → Except E α × S × List O
  | .done a, s, os => (.ok a, s, os)
  | .raise e, s, os => (.error e, s, os)
  | .call c k, s, os =>
    let r := exec s c (os.headD idle)
    run (k r.1) r.2 os.tail

@[simp] theorem run_done (a : α) (s : S) (os : List O) :
    run exec idle (.done a : Prog E C V α) s os = (.ok a, s, os) := rfl

@[simp] theorem run_raise (e : E) (s : S) (os : List O) :
    run exec idle (.raise e : Prog E C V α) s os = (.error e, s, os) := rfl

theorem run_call (c : C) (k : Except E (V c) → Prog E C V α) (s : S) (os : List O) :
    run exec idle (.call c k) s os =
      run exec idle (k (exec s c (os.headD idle)).1) (exec s c (os.headD idle)).2 os.tail := rfl

theorem run_perform (c : C) (s : S) (os : List O) :
    run exec idle (Prog.perform c) s os =
      ((exec s c (os.headD idle)).1, (exec s c (os.headD idle)).2, os.tail) := by
  rw [Prog.perform, run_call]
  cases (exec s c (os.headD idle)).1 with
  | ok v => rfl
  | error e => rfl

theorem run_bind (p : Prog E C V α) (f : α → Prog E C V β) (s : S) (os : List O) :
    run exec idle (p >>= f) s os =
      match run exec idle p s os with
      | (.ok a, s', os') => run exec idle (f a) s' os'
      | (.error e, s', os') => (.error e, s', os') := by
  induction p generalizing s os with
  | done a => rfl
  | raise e => rfl
  | call c k ih => exact ih _ _ _

theorem run_attempt (p : Prog E C V α) (s : S) (os : List O) :
    run exec idle p.attempt s os =
      match run exec idle p s os with
      | (r, s', os') => (.ok r, s', os') := by
  induction p generalizing s os with
  | done a => rfl
  | raise e => rfl
  | call c k ih => exact ih _ _ _

/-- A program whose exception is swallowed leaves the state that it left. -/
theorem run_swallow (p : Prog E C V α) (s : S) (os : List O) :
    run exec idle p.swallow s os = (.ok (), (run exec idle p s os).2) := by
  unfold Prog.swallow
  rw [run_bind, run_attempt]
  rfl

/-- The commands that a run calls, in their order. -/
def performed : Prog E C V α → S → List O → List C
  | .done _, _, _ => []
  | .raise _, _, _ => []
  | .call c k, s, os =>
    let r := exec s c (os.headD idle)
    c :: performed (k r.1) r.2 os.tail

@[simp] theorem performed_done (a : α) (s : S) (os : List O) :
    performed exec idle (.done a : Prog E C V α) s os = [] := rfl

theorem performed_bind (p : Prog E C V α) (f : α → Prog E C V β) (s : S) (os : List O) :
    performed exec idle (p >>= f) s os =
      performed exec idle p s os ++
        match run exec idle p s os with
        | (.ok a, s', os') => performed exec idle (f a) s' os'
        | (.error _, _, _) => [] := by
  induction p generalizing s os with
  | done a => rfl
  | raise e => rfl
  | call c k ih => exact congrArg (c :: ·) (ih _ _ _)

theorem performed_perform (c : C) (s : S) (os : List O) :
    performed exec idle (Prog.perform c : Prog E C V (V c)) s os = [c] := by
  unfold Prog.perform performed
  dsimp only
  cases (exec s c (os.headD idle)).1 <;> rfl

theorem performed_attempt (p : Prog E C V α) (s : S) (os : List O) :
    performed exec idle p.attempt s os = performed exec idle p s os := by
  induction p generalizing s os with
  | done a => rfl
  | raise e => rfl
  | call c k ih => exact congrArg (c :: ·) (ih _ _ _)

theorem performed_swallow (p : Prog E C V α) (s : S) (os : List O) :
    performed exec idle p.swallow s os = performed exec idle p s os := by
  unfold Prog.swallow
  rw [performed_bind, performed_attempt, run_attempt]
  exact List.append_nil _

/-- A program that runs alone while the environment makes no choice ends in an
outcome and a state of `Q`. -/
def Alone (s : S) (p : Prog E C V α) (Q : Except E α → S → Prop) : Prop :=
  Q (run exec idle p s []).1 (run exec idle p s []).2.1

section Alone

variable {exec idle} {s : S}

@[simp] theorem alone_done (a : α) (Q : Except E α → S → Prop) :
    Alone exec idle s (.done a) Q ↔ Q (.ok a) s := Iff.rfl

@[simp] theorem alone_raise (e : E) (Q : Except E α → S → Prop) :
    Alone exec idle s (.raise e) Q ↔ Q (.error e) s := Iff.rfl

theorem alone_call {c : C} {k : Except E (V c) → Prog E C V α} {Q : Except E α → S → Prop} :
    Alone exec idle s (.call c k) Q ↔
      Alone exec idle (exec s c idle).2 (k (exec s c idle).1) Q := Iff.rfl

theorem alone_bind {p : Prog E C V α} {f : α → Prog E C V β} {Q : Except E β → S → Prop} :
    Alone exec idle s (p >>= f) Q ↔ Alone exec idle s p fun r s' =>
      match r with
      | .ok a => Alone exec idle s' (f a) Q
      | .error e => Q (.error e) s' := by
  induction p generalizing s with
  | done a => exact Iff.rfl
  | raise e => exact Iff.rfl
  | call c k ih => exact ih _

theorem alone_attempt {p : Prog E C V α} {Q : Except E (Except E α) → S → Prop} :
    Alone exec idle s p.attempt Q ↔ Alone exec idle s p fun r s' => Q (.ok r) s' := by
  induction p generalizing s with
  | done a => exact Iff.rfl
  | raise e => exact Iff.rfl
  | call c k ih => exact ih _

theorem alone_swallow {p : Prog E C V α} {Q : Except E Unit → S → Prop} :
    Alone exec idle s p.swallow Q ↔ Alone exec idle s p fun _ s' => Q (.ok ()) s' := by
  unfold Prog.swallow
  rw [alone_bind, alone_attempt]
  exact Iff.rfl

theorem alone_perform {c : C} {Q : Except E (V c) → S → Prop} :
    Alone exec idle s (Prog.perform c) Q ↔ Q (exec s c idle).1 (exec s c idle).2 := by
  unfold Prog.perform
  rw [alone_call]
  cases (exec s c idle).1 <;> exact Iff.rfl

theorem alone_mono {p : Prog E C V α} {Q Q' : Except E α → S → Prop}
    (h : Alone exec idle s p Q) (hQ : ∀ r s', Q r s' → Q' r s') : Alone exec idle s p Q' :=
  hQ _ _ h

end Alone

end Run

/-! ## Protocols -/

/-- A ghost automaton over the calls of one program: which calls it may make
in a ghost state, and the ghost state after the answer. -/
structure Protocol (E C : Type) (V : C → Type) (G : Type) where
  allows : G → C → Prop
  next : G → (c : C) → Except E (V c) → G

/-- Every path of the program keeps to the protocol from ghost state `g`, and
ends in an outcome and a ghost state of `Q`. -/
def Obeys (P : Protocol E C V G) : G → Prog E C V α → (Except E α → G → Prop) → Prop
  | g, .done a, Q => Q (.ok a) g
  | g, .raise e, Q => Q (.error e) g
  | g, .call c k, Q => P.allows g c ∧ ∀ r, Obeys P (P.next g c r) (k r) Q

section Obeys

variable {P : Protocol E C V G} {g : G}

@[simp] theorem obeys_done (a : α) (Q : Except E α → G → Prop) :
    Obeys P g (.done a) Q ↔ Q (.ok a) g := Iff.rfl

@[simp] theorem obeys_raise (e : E) (Q : Except E α → G → Prop) :
    Obeys P g (.raise e) Q ↔ Q (.error e) g := Iff.rfl

@[simp] theorem obeys_call (c : C) (k : Except E (V c) → Prog E C V α)
    (Q : Except E α → G → Prop) :
    Obeys P g (.call c k) Q ↔ P.allows g c ∧ ∀ r, Obeys P (P.next g c r) (k r) Q := Iff.rfl

theorem obeys_mono {p : Prog E C V α} {Q Q' : Except E α → G → Prop}
    (h : Obeys P g p Q) (hQ : ∀ r g', Q r g' → Q' r g') : Obeys P g p Q' := by
  induction p generalizing g with
  | done a => exact hQ _ _ h
  | raise e => exact hQ _ _ h
  | call c k ih => exact ⟨h.1, fun r => ih r (h.2 r)⟩

theorem obeys_bind {p : Prog E C V α} {f : α → Prog E C V β} {Q : Except E β → G → Prop} :
    Obeys P g (p >>= f) Q ↔ Obeys P g p fun r g' =>
      match r with
      | .ok a => Obeys P g' (f a) Q
      | .error e => Q (.error e) g' := by
  induction p generalizing g with
  | done a => exact Iff.rfl
  | raise e => exact Iff.rfl
  | call c k ih => exact and_congr_right fun _ => forall_congr' fun r => ih r

/-- A program and what follows it, through what the first part ensures. -/
theorem obeys_bind_of {p : Prog E C V α} {f : α → Prog E C V β} {R : Except E α → G → Prop}
    {Q : Except E β → G → Prop} (hp : Obeys P g p R)
    (hok : ∀ a g', R (.ok a) g' → Obeys P g' (f a) Q)
    (herr : ∀ e g', R (.error e) g' → Q (.error e) g') : Obeys P g (p >>= f) Q := by
  rw [obeys_bind]
  refine obeys_mono hp fun r g' hr => ?_
  cases r with
  | ok a => exact hok a g' hr
  | error e => exact herr e g' hr

theorem obeys_attempt {p : Prog E C V α} {Q : Except E (Except E α) → G → Prop} :
    Obeys P g p.attempt Q ↔ Obeys P g p fun r g' => Q (.ok r) g' := by
  induction p generalizing g with
  | done a => exact Iff.rfl
  | raise e => exact Iff.rfl
  | call c k ih => exact and_congr_right fun _ => forall_congr' fun r => ih r

theorem obeys_perform {c : C} {Q : Except E (V c) → G → Prop} :
    Obeys P g (Prog.perform c) Q ↔ P.allows g c ∧ ∀ r, Q r (P.next g c r) := by
  refine and_congr_right fun _ => forall_congr' fun r => ?_
  cases r <;> exact Iff.rfl

theorem obeys_swallow {p : Prog E C V α} {Q : Except E Unit → G → Prop} :
    Obeys P g p.swallow Q ↔ Obeys P g p fun _ g' => Q (.ok ()) g' := by
  unfold Prog.swallow
  rw [obeys_bind, obeys_attempt]
  exact Iff.rfl

theorem obeys_ofExcept {r : Except E α} {Q : Except E α → G → Prop} :
    Obeys P g (Prog.ofExcept r) Q ↔ Q r g := by
  cases r <;> exact Iff.rfl

theorem obeys_ite {c : Prop} [Decidable c] {p q : Prog E C V α}
    {Q : Except E α → G → Prop} :
    Obeys P g (if c then p else q) Q ↔ (c → Obeys P g p Q) ∧ (¬ c → Obeys P g q Q) := by
  split <;> simp [*]

/-- What one call keeps, a whole run of an obeying program keeps. -/
theorem run_keeps {S O : Type} (exec : S → (c : C) → O → Except E (V c) × S) (idle : O)
    {I : S → G → Prop}
    (hstep : ∀ s g c o, I s g → P.allows g c →
      I (exec s c o).2 (P.next g c (exec s c o).1))
    {p : Prog E C V α} {Q : Except E α → G → Prop} (s : S) (os : List O)
    (hp : Obeys P g p Q) (hs : I s g) :
    ∃ g', I (run exec idle p s os).2.1 g' ∧ Q (run exec idle p s os).1 g' := by
  induction p generalizing g s os with
  | done a => exact ⟨g, hs, hp⟩
  | raise e => exact ⟨g, hs, hp⟩
  | call c k ih => exact ih _ _ _ (hp.2 _) (hstep s g c _ hs hp.1)

/-- The protocol that allows every call and notes none. -/
def Protocol.free : Protocol E C V Unit where
  allows _ _ := True
  next _ _ _ := ()

/-- What every path of a program ends in, a run of it ends in. -/
theorem run_outcome {S O : Type} (exec : S → (c : C) → O → Except E (V c) × S) (idle : O)
    {p : Prog E C V α} {Q : Except E α → Prop}
    (hp : Obeys Protocol.free () p fun r _ => Q r) (s : S) (os : List O) :
    Q (run exec idle p s os).1 := by
  obtain ⟨_, -, hq⟩ := run_keeps exec idle (I := fun _ _ => True) (fun _ _ _ _ _ _ => trivial)
    s os hp trivial
  exact hq

end Obeys

/-! ## The commands of a program -/

/-- Every command that the program can call is one of `A`. -/
def Prog.Calls (A : C → Prop) : Prog E C V α → Prop
  | .done _ => True
  | .raise _ => True
  | .call c k => A c ∧ ∀ r, (k r).Calls A

section Calls

variable {A B : C → Prop}

@[simp] theorem calls_done (a : α) : (.done a : Prog E C V α).Calls A := trivial

@[simp] theorem calls_raise (e : E) : (.raise e : Prog E C V α).Calls A := trivial

theorem calls_all (p : Prog E C V α) (hA : ∀ c, A c) : p.Calls A := by
  induction p with
  | done a => trivial
  | raise e => trivial
  | call c k ih => exact ⟨hA c, fun r => ih r⟩

theorem calls_mono {p : Prog E C V α} (h : p.Calls A) (hAB : ∀ c, A c → B c) : p.Calls B := by
  induction p with
  | done a => trivial
  | raise e => trivial
  | call c k ih => exact ⟨hAB c h.1, fun r => ih r (h.2 r)⟩

theorem calls_bind {p : Prog E C V α} {f : α → Prog E C V β} (hp : p.Calls A)
    (hf : ∀ a, (f a).Calls A) : (p >>= f).Calls A := by
  induction p with
  | done a => exact hf a
  | raise e => trivial
  | call c k ih => exact ⟨hp.1, fun r => ih r (hp.2 r)⟩

theorem calls_attempt {p : Prog E C V α} (h : p.Calls A) : p.attempt.Calls A := by
  induction p with
  | done a => trivial
  | raise e => trivial
  | call c k ih => exact ⟨h.1, fun r => ih r (h.2 r)⟩

theorem calls_swallow {p : Prog E C V α} (h : p.Calls A) : p.swallow.Calls A :=
  calls_bind (calls_attempt h) fun _ => trivial

theorem calls_perform {c : C} (h : A c) : (Prog.perform c : Prog E C V (V c)).Calls A :=
  ⟨h, fun r => by cases r <;> trivial⟩

theorem calls_ofExcept (r : Except E α) : (Prog.ofExcept r : Prog E C V α).Calls A := by
  cases r <;> trivial

/-- A program whose commands the protocol takes no notice of obeys it, and
leaves the ghost state as it was. -/
theorem obeys_of_calls {P : Protocol E C V G} {g : G} {p : Prog E C V α}
    {Q : Except E α → G → Prop} (hp : p.Calls A)
    (hA : ∀ c, A c → P.allows g c ∧ ∀ r, P.next g c r = g) (hQ : ∀ r, Q r g) :
    Obeys P g p Q := by
  induction p with
  | done a => exact hQ _
  | raise e => exact hQ _
  | call c k ih =>
    refine ⟨(hA c hp.1).1, fun r => ?_⟩
    rw [(hA c hp.1).2 r]
    exact ih r (hp.2 r)

/-- The same, with a program after it. -/
theorem obeys_bind_of_calls {P : Protocol E C V G} {g : G} {p : Prog E C V α}
    {f : α → Prog E C V β} {Q : Except E β → G → Prop} (hp : p.Calls A)
    (hA : ∀ c, A c → P.allows g c ∧ ∀ r, P.next g c r = g)
    (hf : ∀ a, Obeys P g (f a) Q) (hQ : ∀ e, Q (.error e) g) : Obeys P g (p >>= f) Q := by
  rw [obeys_bind]
  refine obeys_of_calls hp hA fun r => ?_
  cases r with
  | ok a => exact hf a
  | error e => exact hQ e

theorem of_mem_performed {S O : Type} {exec : S → (c : C) → O → Except E (V c) × S} {idle : O}
    {p : Prog E C V α} (hp : p.Calls A) (s : S) (os : List O) :
    ∀ c ∈ performed exec idle p s os, A c := by
  induction p generalizing s os with
  | done a =>
    intro c hc
    cases hc
  | raise e =>
    intro c hc
    cases hc
  | call c k ih =>
    intro c' hc'
    rcases List.mem_cons.mp hc' with rfl | hrest
    · exact hp.1
    · exact ih _ (hp.2 _) _ _ c' hrest

/-- A run of a program says nothing where none of its commands does. -/
theorem filterMap_performed {S O : Type} {exec : S → (c : C) → O → Except E (V c) × S} {idle : O}
    {f : C → Option β} {p : Prog E C V α} (hp : p.Calls fun c => f c = none) (s : S) (os : List O) :
    (performed exec idle p s os).filterMap f = [] :=
  List.filterMap_eq_nil_iff.mpr (of_mem_performed hp s os)

/-- What goes on after a program without a word adds none. -/
theorem filterMap_performed_bind {S O : Type} {exec : S → (c : C) → O → Except E (V c) × S}
    {idle : O} {f : C → Option β} (p : Prog E C V α) {k : α → Prog E C V γ}
    (hk : ∀ a, (k a).Calls fun c => f c = none) (s : S) (os : List O) :
    (performed exec idle (p >>= k) s os).filterMap f =
      (performed exec idle p s os).filterMap f := by
  rw [performed_bind, List.filterMap_append]
  rcases run exec idle p s os with ⟨_ | a, s', os'⟩
  · exact List.append_nil _
  · dsimp only
    rw [filterMap_performed (hk a), List.append_nil]

/-- What each command of a program keeps, a run of the program keeps. -/
theorem run_keeps_of_calls {S O : Type} {exec : S → (c : C) → O → Except E (V c) × S} {idle : O}
    {I : S → Prop} {p : Prog E C V α} (hp : p.Calls A)
    (hstep : ∀ s c o, A c → I s → I (exec s c o).2) (s : S) (os : List O) (hs : I s) :
    I (run exec idle p s os).2.1 := by
  induction p generalizing s os with
  | done a => exact hs
  | raise e => exact hs
  | call c k ih => exact ih _ (hp.2 _) _ _ (hstep _ _ _ hp.1 hs)

/-- Two runs that start in states which no command of the program tells apart
make the same calls and end in the same outcome. -/
theorem run_agrees {S O : Type} {exec : S → (c : C) → O → Except E (V c) × S} {idle : O}
    {R : S → S → Prop} {p : Prog E C V α} (hp : p.Calls A)
    (hstep : ∀ s t c o, A c → R s t →
      (exec s c o).1 = (exec t c o).1 ∧ R (exec s c o).2 (exec t c o).2)
    {s t : S} (os : List O) (hR : R s t) :
    performed exec idle p s os = performed exec idle p t os ∧
      (run exec idle p s os).1 = (run exec idle p t os).1 := by
  induction p generalizing s t os with
  | done a => exact ⟨rfl, rfl⟩
  | raise e => exact ⟨rfl, rfl⟩
  | call c k ih =>
    obtain ⟨hanswer, hnext⟩ := hstep s t c (os.headD idle) hp.1 hR
    obtain ⟨hcalls, houtcome⟩ := ih _ (hp.2 _) os.tail hnext
    rw [run_call, run_call, ← hanswer]
    refine ⟨?_, houtcome⟩
    show c :: _ = c :: _
    rw [← hanswer, hcalls]

/-- A program alone ends with what each of its commands keeps. -/
theorem alone_of_calls {S O : Type} {exec : S → (c : C) → O → Except E (V c) × S} {idle : O}
    {I : S → Prop} {p : Prog E C V α} {Q : Except E α → S → Prop} (hp : p.Calls A)
    (hstep : ∀ s c o, A c → I s → I (exec s c o).2) {s : S} (hs : I s)
    (hQ : ∀ r s', I s' → Q r s') : Alone exec idle s p Q :=
  hQ _ _ (run_keeps_of_calls hp hstep s [] hs)

end Calls

/-! ## A program that stops on its way -/

section Stopped

variable {S O : Type} (exec : S → (c : C) → O → Except E (V c) × S) (idle : O)

/-- The state in which a program that runs alone stands after its first `n`
calls: where it stops there, this is what it leaves behind. -/
def stopped : Nat → Prog E C V α → S → S
  | 0, _, s => s
  | _ + 1, .done _, s => s
  | _ + 1, .raise _, s => s
  | n + 1, .call c k, s => stopped n (k (exec s c idle).1) (exec s c idle).2

variable {exec idle} {s : S}

@[simp] theorem stopped_zero (p : Prog E C V α) : stopped exec idle 0 p s = s := by
  cases p <;> rfl

@[simp] theorem stopped_done (n : Nat) (a : α) :
    stopped exec idle n (.done a : Prog E C V α) s = s := by
  cases n <;> rfl

@[simp] theorem stopped_raise (n : Nat) (e : E) :
    stopped exec idle n (.raise e : Prog E C V α) s = s := by
  cases n <;> rfl

/-- A command and what follows it, stopped after the command or later. -/
theorem stopped_perform_bind (n : Nat) (c : C) (f : V c → Prog E C V α) :
    stopped exec idle (n + 1) (Prog.perform c >>= f) s =
      match (exec s c idle).1 with
      | .ok v => stopped exec idle n (f v) (exec s c idle).2
      | .error _ => (exec s c idle).2 := by
  show stopped exec idle n
    ((match (exec s c idle).1 with
      | .ok v => Prog.done v
      | .error e => Prog.raise e : Prog E C V (V c)) >>= f) _ = _
  cases (exec s c idle).1 with
  | ok v => rfl
  | error e => simp

/-- Late stops are the end of the run. -/
theorem exists_stopped (p : Prog E C V α) (s : S) :
    ∃ n, ∀ m, n ≤ m → stopped exec idle m p s = (run exec idle p s []).2.1 := by
  induction p generalizing s with
  | done a => exact ⟨0, fun m _ => stopped_done m a⟩
  | raise e => exact ⟨0, fun m _ => stopped_raise m e⟩
  | call c k ih =>
    obtain ⟨n, hn⟩ := ih (exec s c idle).1 (exec s c idle).2
    refine ⟨n + 1, fun m hm => ?_⟩
    cases m with
    | zero => omega
    | succ m => exact hn m (by omega)

/-- A program whose commands keep `I` keeps it at every stop. -/
theorem stopped_of_calls {A : C → Prop} {I : S → Prop} {p : Prog E C V α} (hp : p.Calls A)
    (hstep : ∀ s c, A c → I s → I (exec s c idle).2) (hs : I s) (n : Nat) :
    I (stopped exec idle n p s) := by
  induction p generalizing s n with
  | done a =>
    rw [stopped_done]
    exact hs
  | raise e =>
    rw [stopped_raise]
    exact hs
  | call c k ih =>
    cases n with
    | zero => exact hs
    | succ n => exact ih _ (hp.2 _) (hstep s c hp.1 hs) n

end Stopped

end resumption
