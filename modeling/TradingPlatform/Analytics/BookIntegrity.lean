-- Whole runs of the continuity state of a book: which deltas it takes after a gap or an
-- invalidation, and which ids the deltas it has taken cover.
import TradingPlatform.Analytics.BookEngines

open replica

namespace trading_platform.analytics

/-- A call on a continuity state. -/
inductive BookCall where
  | snapshot (last_update_id received_ms : Int)
  | delta (first_update_id last_update_id received_ms : Int)
  | invalidate (reason : String) (received_ms : Int)
  deriving DecidableEq

namespace BookCall

def is_snapshot : BookCall → Bool
  | snapshot .. => true
  | _ => false

def is_delta : BookCall → Bool
  | delta .. => true
  | _ => false

end BookCall

namespace BookIntegrityState

/-- The state after one call. -/
def call (s : BookIntegrityState) : BookCall → BookIntegrityState
  | .snapshot last_update_id received_ms => s.on_snapshot last_update_id received_ms
  | .delta first_update_id last_update_id received_ms =>
    (s.on_delta first_update_id last_update_id received_ms).2
  | .invalidate reason received_ms => s.invalidate reason received_ms

def calls (s : BookIntegrityState) (cs : List BookCall) : BookIntegrityState := cs.foldl call s

/-- The ids of the delta that the call accepts, if it accepts one. -/
def takes (s : BookIntegrityState) : BookCall → List (Int × Int)
  | .delta first_update_id last_update_id received_ms =>
    if (s.on_delta first_update_id last_update_id received_ms).1 then
      [(first_update_id, last_update_id)]
    else []
  | _ => []

/-- The ids of the deltas that the calls accept. -/
def accepted : BookIntegrityState → List BookCall → List (Int × Int)
  | _, [] => []
  | s, c :: cs => s.takes c ++ accepted (s.call c) cs

theorem calls_snoc (s : BookIntegrityState) (cs : List BookCall) (c : BookCall) :
    s.calls (cs ++ [c]) = (s.calls cs).call c := by
  simp [calls, List.foldl_append]

theorem calls_append (s : BookIntegrityState) (cs ds : List BookCall) :
    s.calls (cs ++ ds) = (s.calls cs).calls ds := by
  simp [calls, List.foldl_append]

theorem accepted_snoc (s : BookIntegrityState) (cs : List BookCall) (c : BookCall) :
    s.accepted (cs ++ [c]) = s.accepted cs ++ (s.calls cs).takes c := by
  induction cs generalizing s with
  | nil => simp [accepted, calls]
  | cons d cs ih =>
    rw [List.cons_append, accepted, ih, accepted, List.append_assoc]
    rfl

theorem on_delta_iff (s : BookIntegrityState) (U u ms : Int) :
    (s.on_delta U u ms).1 = true ↔ s.Accepts U u := by
  constructor
  · intro h
    by_contra hacc
    rw [(on_delta_refused s hacc ms).1] at h
    cases h
  · intro h
    rw [on_delta_accepted s h]

/-! ## Deltas after a gap -/

/-- Only a snapshot makes a state valid. -/
theorem call_stays_invalid {s : BookIntegrityState} (h : s.is_valid = false) {c : BookCall}
    (hc : c.is_snapshot = false) : (s.call c).is_valid = false := by
  cases c with
  | snapshot last ms => cases hc
  | invalidate reason ms => rfl
  | delta U u ms =>
    by_cases hacc : s.Accepts U u
    · simp only [call]
      rw [on_delta_accepted s hacc]
      exact h
    · have hvalid := (on_delta_refused s hacc ms).2.2.2
      simp only [call]
      by_contra hne
      have hs := hvalid (by simpa using hne)
      rw [h] at hs
      cases hs

theorem calls_stay_invalid {s : BookIntegrityState} (h : s.is_valid = false) {cs : List BookCall}
    (hcs : ∀ c ∈ cs, c.is_snapshot = false) : (s.calls cs).is_valid = false := by
  induction cs generalizing s with
  | nil => exact h
  | cons c cs ih =>
    have hstep := call_stays_invalid h (hcs c List.mem_cons_self)
    exact ih hstep fun d hd => hcs d (List.mem_cons_of_mem c hd)

/-- From the call that made the state invalid up to the next snapshot every delta is
refused and leaves the last id, and a state that accepts a delta is valid. -/
def RefusesWhileInvalid (start : BookIntegrityState) (cs : List BookCall) : Prop :=
  (∀ before c since U u ms, before ++ c :: since ++ [.delta U u ms] <+: cs →
    (start.calls before).is_valid = true → (start.calls (before ++ [c])).is_valid = false →
    (∀ d ∈ since, d.is_snapshot = false) →
    let s := start.calls (before ++ c :: since)
    (s.on_delta U u ms).1 = false ∧ (s.on_delta U u ms).2.last_update_id = s.last_update_id) ∧
  ∀ before U u ms, before ++ [.delta U u ms] <+: cs →
    ((start.calls before).on_delta U u ms).1 = true →
    ((start.calls before).on_delta U u ms).2.is_valid = true

/-- A delta reaches past the last id without a gap, at a state that has a snapshot and is
not valid. The state does not look at its validity there. -/
def Resumes (s : BookIntegrityState) (U u : Int) : Prop :=
  s.has_snapshot = true ∧ s.is_valid = false ∧ Takes s.last_update_id U u

/-- The states of a run refuse what they have to refuse if and only if no delta resumes
the ids of a state that is not valid. -/
theorem refuses_while_invalid_iff (start : BookIntegrityState) (cs : List BookCall) :
    RefusesWhileInvalid start cs ↔
      ∀ before U u ms, before ++ [.delta U u ms] <+: cs → ¬ (start.calls before).Resumes U u := by
  constructor
  · intro h before U u ms hpre hres
    obtain ⟨hsnap, hinvalid, htakes⟩ := hres
    have hacc : (start.calls before).Accepts U u := ⟨hsnap, htakes⟩
    have hvalid := h.2 before U u ms hpre ((on_delta_iff _ U u ms).mpr hacc)
    rw [on_delta_accepted _ hacc] at hvalid
    simp only [hinvalid] at hvalid
    cases hvalid
  · intro h
    refine ⟨?_, ?_⟩
    · intro before c since U u ms hpre _ hbroken hsince s
      have hinvalid : s.is_valid = false := by
        have hs : s = (start.calls (before ++ [c])).calls since := by
          rw [← calls_append, List.append_assoc]
          rfl
        rw [hs]
        exact calls_stay_invalid hbroken hsince
      have hrefused : ¬ s.Accepts U u := by
        intro hacc
        exact h _ U u ms hpre ⟨hacc.1, hinvalid, hacc.2⟩
      obtain ⟨hfalse, -, hlast, -⟩ := on_delta_refused s hrefused ms
      exact ⟨hfalse, hlast⟩
    · intro before U u ms hpre htrue
      have hacc := (on_delta_iff _ U u ms).mp htrue
      rw [on_delta_accepted _ hacc]
      by_contra hne
      have hinvalid : (start.calls before).is_valid = false := by simpa using hne
      exact h before U u ms hpre ⟨hacc.1, hinvalid, hacc.2⟩

/-- The delta 101 to 110 comes late, after the gap at 105, and is accepted. -/
theorem late_delta_is_accepted :
    ¬ RefusesWhileInvalid {} [.snapshot 100 1000, .delta 105 115 2000, .delta 101 110 3000] := by
  intro h
  have hvalid := h.2 [.snapshot 100 1000, .delta 105 115 2000] 101 110 3000
    (List.prefix_refl _) (by decide)
  revert hvalid
  decide

/-! ## The ids that are covered -/

/-- What the state knows of the calls since its last snapshot, with the id `lo`. -/
structure Counted (lo : Int) (start s : BookIntegrityState) (since : List BookCall) : Prop where
  covers : Covers lo s.last_update_id (start.accepted since)
  counts : s.deltas_applied + s.deltas_skipped = since.countP BookCall.is_delta

/-- A delta is counted, whether it is applied or skipped. -/
theorem counts_delta (s : BookIntegrityState) (U u ms : Int) :
    (s.on_delta U u ms).2.deltas_applied + (s.on_delta U u ms).2.deltas_skipped =
      s.deltas_applied + s.deltas_skipped + 1 := by
  unfold on_delta
  by_cases hs : s.has_snapshot = false
  · simp [hs]
    omega
  · by_cases h1 : u ≤ s.last_update_id
    · simp [hs, h1]
      omega
    · by_cases h2 : s.last_update_id + 1 < U
      · simp [hs, h1, h2]
        omega
      · simp [hs, h1, h2]
        omega

theorem last_le_call (s : BookIntegrityState) {c : BookCall} (hc : c.is_snapshot = false) :
    s.last_update_id ≤ (s.call c).last_update_id := by
  cases c with
  | snapshot last ms => cases hc
  | invalidate reason ms => exact le_refl _
  | delta U u ms =>
    simp only [call]
    by_cases hacc : s.Accepts U u
    · have hpast := hacc.2.1
      rw [on_delta_accepted s hacc]
      simp only
      omega
    · rw [(on_delta_refused s hacc ms).2.2.1]

theorem last_le_calls (s : BookIntegrityState) {cs : List BookCall}
    (hcs : ∀ c ∈ cs, c.is_snapshot = false) :
    s.last_update_id ≤ (s.calls cs).last_update_id := by
  induction cs generalizing s with
  | nil => exact le_refl _
  | cons c cs ih =>
    have hfirst := last_le_call s (hcs c List.mem_cons_self)
    have hrest := ih (s.call c) fun d hd => hcs d (List.mem_cons_of_mem c hd)
    exact le_trans hfirst hrest

/-- What one call other than a snapshot keeps. -/
theorem counted_step {lo : Int} {start : BookIntegrityState} {since : List BookCall}
    (h : Counted lo start (start.calls since) since) {c : BookCall} (hc : c.is_snapshot = false) :
    Counted lo start (start.calls (since ++ [c])) (since ++ [c]) := by
  cases c with
  | snapshot last ms => cases hc
  | invalidate reason ms =>
    refine ⟨?_, ?_⟩
    · rw [accepted_snoc, calls_snoc]
      simpa [takes, call, invalidate] using h.covers
    · rw [calls_snoc, List.countP_append]
      exact h.counts
  | delta U u ms =>
    refine ⟨?_, ?_⟩
    · rw [accepted_snoc, calls_snoc]
      by_cases hacc : (start.calls since).Accepts U u
      · have htake := h.covers.take hacc.2
        simp only [takes, call]
        rw [on_delta_accepted _ hacc]
        exact htake
      · obtain ⟨hfalse, -, hlast, -⟩ := on_delta_refused _ hacc ms
        simp only [takes, call]
        rw [hfalse, hlast]
        simpa using h.covers
    · rw [calls_snoc, List.countP_append]
      have hcount := counts_delta (start.calls since) U u ms
      have hbefore := h.counts
      simp only [call]
      rw [hcount, hbefore]
      rfl

theorem counted_calls {lo : Int} {start : BookIntegrityState} (h : Counted lo start start [])
    {since : List BookCall} (hsince : ∀ c ∈ since, c.is_snapshot = false) :
    Counted lo start (start.calls since) since := by
  induction since using List.reverseRecOn with
  | nil => exact h
  | append_singleton since c ih =>
    have hbefore := ih fun d hd => hsince d (List.mem_append_left _ hd)
    exact counted_step hbefore (hsince c (by simp))

/-- After the snapshot with the id `last` the accepted deltas cover the ids up to the last
one, the last id has not gone down, and each delta is counted once. -/
theorem accepted_deltas_cover (before : List BookCall) (last ms : Int) (since : List BookCall)
    (hsince : ∀ c ∈ since, c.is_snapshot = false) :
    let seeded : BookIntegrityState := ({} : BookIntegrityState).calls (before ++ [.snapshot last ms])
    let s := seeded.calls since
    Covers last s.last_update_id (seeded.accepted since) ∧
      (∀ earlier, earlier <+: since →
        (seeded.calls earlier).last_update_id ≤ s.last_update_id) ∧
      s.deltas_applied + s.deltas_skipped = since.countP BookCall.is_delta := by
  intro seeded s
  have hseeded : seeded = (({} : BookIntegrityState).calls before).on_snapshot last ms :=
    calls_snoc _ before _
  have hstart : Counted last seeded seeded [] := by
    rw [hseeded]
    refine ⟨?_, rfl⟩
    exact covers_nil last
  have hcounted := counted_calls hstart hsince
  refine ⟨hcounted.covers, ?_, hcounted.counts⟩
  rintro earlier ⟨later, rfl⟩
  have hlater := last_le_calls (seeded.calls earlier)
    fun c hc => hsince c (List.mem_append_right earlier hc)
  have hs : s = (seeded.calls earlier).calls later := calls_append seeded earlier later
  rw [hs]
  exact hlater

/-- Deltas that overlap, a stale one and one after a gap. -/
theorem overlapping_deltas_cover :
    let seeded : BookIntegrityState := ({} : BookIntegrityState).calls [.snapshot 100 0]
    let since : List BookCall :=
      [.delta 99 104 1, .delta 101 103 2, .delta 103 110 3, .delta 120 130 4]
    let s := seeded.calls since
    s.last_update_id = 110 ∧ Covers 100 s.last_update_id (seeded.accepted since) := by
  refine ⟨by decide, ?_⟩
  exact (accepted_deltas_cover [] 100 0
    [.delta 99 104 1, .delta 101 103 2, .delta 103 110 3, .delta 120 130 4] (by decide)).1

end BookIntegrityState

end trading_platform.analytics
