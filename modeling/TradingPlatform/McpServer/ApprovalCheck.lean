-- The approval of a state update. The facade checks the level of the user against the
-- target state, if the text is a level at all. The versions it never reads.
import TradingPlatform.McpServer.StrategyFacade
import TradingPlatform.Strategy.Version

open resumption
open trading_platform.shared
open trading_platform.strategy_service
open trading_platform.execution (Fault)

namespace trading_platform.mcp_server

/-! ## When a call succeeds -/

/-- The choice for the `n`-th call lets it pass. -/
def Passes (os : List Choice) (n : Nat) : Prop := (os.getD n {}).fault = .none

/-- Every check that the facade makes passes, and none of its three calls fails. -/
structure Accepted (s : Store) (call : UpdateCall) (os : List Choice) (sid : Uuid)
    (target : StrategyState) (strategy : Strategy) : Prop where
  id : UUID call.strategy_id = .ok sid
  state : StrategyState.ofValue call.target_state = .ok target
  row : s.strategies sid = some strategy
  transition : ∃ from_state, StrategyState.ofValue strategy.state = .ok from_state ∧
    LifecycleManager.can_transition from_state target = true
  level : ∀ level, approval_of call.user_approval_level = some level →
    can_activate_strategy level target = true
  store : ∀ n < 3, Passes os n

/-- The outcome of a call that is alone. -/
def outcome (s : Store) (call : UpdateCall) (os : List Choice) : Except PyErr StateReply :=
  (run Store.exec {} (update_strategy_state call) s os).1

def Succeeds (s : Store) (call : UpdateCall) (os : List Choice) : Prop :=
  ∃ strategy_id previous_state new_state justification,
    outcome s call os = .ok (.changed strategy_id previous_state new_state justification)

-- The parser of UUIDs need not be unfolded to see what a call does.
attribute [local irreducible] UUID

theorem passes_head {os : List Choice} : Passes os 0 ↔ (os.headD {}).fault = .none := by
  cases os <;> rfl

theorem passes_tail {os : List Choice} {n : Nat} : Passes os.tail n ↔ Passes os (n + 1) := by
  cases os <;> rfl

/-- A call comes back with a value exactly when the environment lets it pass and it has one. -/
theorem exec_eq_ok {s : Store} {c : Cmd} {o : Choice} {v : Ans c} :
    (s.exec c o).1 = .ok v ↔ o.fault = .none ∧ (s.effect c).1 = .ok v := by
  unfold Store.exec
  cases o.fault with
  | none => simp
  | before e | after e => simp

/-- A program that starts with a call ends with a value when the call and the rest do. -/
theorem run_perform_eq_ok {α : Type} {c : Cmd} {f : Ans c → Prog PyErr Cmd Ans α} {s : Store}
    {os : List Choice} {r : α} :
    (run Store.exec {} (Prog.perform c >>= f) s os).1 = .ok r ↔
      Passes os 0 ∧ ∃ v, (s.effect c).1 = .ok v ∧
        (run Store.exec {} (f v) (s.exec c (os.headD {})).2 os.tail).1 = .ok r := by
  rw [run_bind, Prog.perform, run_call, passes_head]
  constructor
  · intro h
    cases hv : (s.exec c (os.headD {})).1 with
    | error e =>
      rw [hv] at h
      cases h
    | ok v =>
      obtain ⟨hfault, heffect⟩ := exec_eq_ok.mp hv
      rw [hv] at h
      exact ⟨hfault, v, heffect, h⟩
  · rintro ⟨hfault, v, heffect, h⟩
    rw [exec_eq_ok.mpr ⟨hfault, heffect⟩]
    exact h

theorem exec_strategies {s : Store} {c : Cmd} {o : Choice}
    (hc : ∀ sid state action, c ≠ .commit sid state action) :
    (s.exec c o).2.strategies = s.strategies := by
  unfold Store.exec
  cases c with
  | get _ | time_ms => cases o.fault <;> rfl
  | commit sid state action => exact absurd rfl (hc sid state action)

/-- The end of an accepted call: the clock and the commit. -/
theorem ends_changed_iff {s : Store} {sid : Uuid} {strategy : Strategy} {target : StrategyState}
    (hrow : s.strategies sid = some strategy) (call : UpdateCall) (os : List Choice)
    (r : StateReply) :
    (run Store.exec {} (do
      let created_at_ms ← Prog.perform (V := Ans) .time_ms
      Prog.perform (V := Ans) (.commit sid target.value
        (state_change sid strategy target call.justification created_at_ms))
      return StateReply.changed call.strategy_id strategy.state target.value
        call.justification) s os).1 = .ok r ↔
    Passes os 0 ∧ Passes os 1 ∧
      r = .changed call.strategy_id strategy.state target.value call.justification := by
  have hrow' : ∀ o, (s.exec .time_ms o).2.strategies sid = some strategy := by
    intro o
    rw [exec_strategies (by simp), hrow]
  rw [run_perform_eq_ok]
  constructor
  · rintro ⟨h0, created_at_ms, -, h⟩
    obtain ⟨h1, -, -, h⟩ := run_perform_eq_ok.mp h
    cases h
    exact ⟨h0, passes_tail.mp h1, rfl⟩
  · rintro ⟨h0, h1, rfl⟩
    refine ⟨h0, s.now, rfl, run_perform_eq_ok.mpr ⟨passes_tail.mpr h1, (), ?_, rfl⟩⟩
    simp only [Store.effect, Store.commit, hrow']
    rfl

/-- A call succeeds exactly when it is accepted. -/
theorem succeeds_iff (s : Store) (call : UpdateCall) (os : List Choice) :
    Succeeds s call os ↔ ∃ sid target strategy, Accepted s call os sid target strategy := by
  unfold Succeeds outcome update_strategy_state
  cases hid : UUID call.strategy_id with
  | error e =>
    constructor
    · rintro ⟨_, _, _, _, h⟩
      cases h
    · rintro ⟨_, _, _, h⟩
      cases hid.symm.trans h.id
  | ok sid =>
    cases hstate : StrategyState.ofValue call.target_state with
    | error e =>
      constructor
      · rintro ⟨_, _, _, _, h⟩
        cases h
      · rintro ⟨_, _, _, h⟩
        cases hstate.symm.trans h.state
    | ok target =>
      dsimp only
      constructor
      · rintro ⟨_, _, _, _, h⟩
        obtain ⟨h0, found, hfound, h⟩ := run_perform_eq_ok.mp h
        have hrow : s.strategies sid = found := Except.ok.inj hfound
        cases found with
        | none => cases h
        | some strategy =>
          dsimp only at h
          cases hfrom : StrategyState.ofValue strategy.state with
          | error e =>
            rw [hfrom] at h
            cases h
          | ok from_state =>
            rw [hfrom] at h
            dsimp only at h
            cases htransition : LifecycleManager.transition from_state target
                (approval_of call.user_approval_level) with
            | error e =>
              rw [htransition] at h
              cases h
            | ok state =>
              rw [htransition] at h
              have hrow' : ∀ o, (s.exec (.get sid) o).2.strategies sid = some strategy := by
                intro o
                rw [exec_strategies (by simp), hrow]
              obtain ⟨h1, h2, -⟩ := (ends_changed_iff (hrow' _) call os.tail _).mp h
              obtain ⟨-, hedge, hlevel⟩ := LifecycleManager.transition_eq_ok.mp htransition
              refine ⟨sid, target, strategy, hid, hstate, hrow, ⟨from_state, hfrom, hedge⟩,
                hlevel, ?_⟩
              intro n hn
              match n, hn with
              | 0, _ => exact h0
              | 1, _ => exact passes_tail.mp h1
              | 2, _ => exact passes_tail.mp h2
      · rintro ⟨sid', target', strategy, h⟩
        obtain rfl : sid' = sid := Except.ok.inj (h.id.symm.trans hid)
        obtain rfl : target' = target := Except.ok.inj (h.state.symm.trans hstate)
        obtain ⟨from_state, hfrom, hedge⟩ := h.transition
        have htransition := LifecycleManager.transition_eq_ok.mpr ⟨rfl, hedge, h.level⟩
        have hrow' : ∀ o, (s.exec (.get sid') o).2.strategies sid' = some strategy := by
          intro o
          rw [exec_strategies (by simp), h.row]
        refine ⟨call.strategy_id, strategy.state, target'.value, call.justification,
          run_perform_eq_ok.mpr ⟨h.store 0 (by omega), some strategy, congrArg Except.ok h.row, ?_⟩⟩
        dsimp only
        rw [hfrom]
        dsimp only
        rw [htransition]
        exact (ends_changed_iff (hrow' _) call os.tail _).mpr
          ⟨passes_tail.mpr (h.store 1 (by omega)), passes_tail.mpr (h.store 2 (by omega)), rfl⟩

/-! ## What an approval is -/

/-- The version that a call activates: the current one of its strategy. -/
def CurrentVersion (s : Store) (versions : Uuid → List StrategyVersion) (call : UpdateCall)
    (version : StrategyVersion) : Prop :=
  ∃ sid strategy, UUID call.strategy_id = .ok sid ∧ s.strategies sid = some strategy ∧
    VersionResolver.resolve (versions sid) strategy.current_version = some version

/-- The text names a level that may activate the version in the target state. -/
def Approves (text target_state : String) (version : StrategyVersion) : Prop :=
  ∃ level target, ApprovalLevel.ofValue text = .ok level ∧
    StrategyState.ofValue target_state = .ok target ∧
    level_rank (state_requirement target) ≤ level_rank level ∧
    level_rank version.approval_required ≤ level_rank level

/-- The approval is the check of `VersionResolver`, which the facade does not call. -/
theorem approves_iff_can_activate {text target_state : String} {version : StrategyVersion} :
    Approves text target_state version ↔
      ∃ level target, ApprovalLevel.ofValue text = .ok level ∧
        StrategyState.ofValue target_state = .ok target ∧
        (VersionResolver.can_activate version target level).1 = true := by
  simp only [Approves, VersionResolver.can_activate_iff]

/-- A call that succeeds was approved. -/
def ApprovalEnforced (s : Store) (versions : Uuid → List StrategyVersion) (call : UpdateCall)
    (text : String) (os : List Choice) : Prop :=
  Succeeds s call os → ∀ version, CurrentVersion s versions call version →
    Approves text call.target_state version

/-- The text names a level that the version is content with. -/
def MeetsVersion (text : String) (version : StrategyVersion) : Prop :=
  ∃ level, ApprovalLevel.ofValue text = .ok level ∧
    level_rank version.approval_required ≤ level_rank level

/-- The level of a text that is not empty is the one that it names. -/
theorem approval_of_some {text : String} (htext : text ≠ "") {level : ApprovalLevel} :
    approval_of (some text) = some level ↔ ApprovalLevel.ofValue text = .ok level := by
  simp only [approval_of, if_neg htext]
  cases ApprovalLevel.ofValue text with
  | error e => simp [Except.toOption]
  | ok level' => simp [Except.toOption]

/-- An accepted call is approved when its text meets the version: the facade has checked the
state. -/
theorem approves_iff {s : Store} {call : UpdateCall} {text : String} {os : List Choice}
    {sid : Uuid} {target : StrategyState} {strategy : Strategy} {version : StrategyVersion}
    (htext : text ≠ "") (hlevel : call.user_approval_level = some text)
    (h : Accepted s call os sid target strategy) :
    Approves text call.target_state version ↔ MeetsVersion text version := by
  constructor
  · rintro ⟨level, _, hof, -, -, hversion⟩
    exact ⟨level, hof, hversion⟩
  · rintro ⟨level, hof, hversion⟩
    have hactivate : can_activate_strategy level target = true := by
      apply h.level
      rw [hlevel, approval_of_some htext, hof]
    exact ⟨level, target, hof, h.state, by simpa [can_activate_strategy, check_approval_level]
      using hactivate, hversion⟩

/-- The approval is enforced exactly where the text names a level that is enough for the
current version, or the facade refuses the call anyway. -/
theorem approval_is_enforced_iff (s : Store) (versions : Uuid → List StrategyVersion)
    (call : UpdateCall) (text : String) (os : List Choice)
    (hlevel : call.user_approval_level = some text) (htext : text ≠ "") :
    ApprovalEnforced s versions call text os ↔
      ∀ sid target strategy, Accepted s call os sid target strategy →
        ∀ version, CurrentVersion s versions call version → MeetsVersion text version := by
  constructor
  · intro h sid target strategy haccepted version hversion
    have happroves := h ((succeeds_iff s call os).mpr ⟨sid, target, strategy, haccepted⟩) version
      hversion
    exact (approves_iff htext hlevel haccepted).mp happroves
  · intro h hsucceeds version hversion
    obtain ⟨sid, target, strategy, haccepted⟩ := (succeeds_iff s call os).mp hsucceeds
    exact (approves_iff htext hlevel haccepted).mpr (h sid target strategy haccepted version hversion)

/-- The draft of `draft_store` enters the simulation, with the level of a text. -/
def simulate_as (text : String) : UpdateCall :=
  { update_to "simulation" with user_approval_level := some text }

/-- The only version of the draft, which requires `level`. -/
def requires (level : ApprovalLevel) : Uuid → List StrategyVersion := fun sid => [⟨sid, 1, level⟩]

/-- The level `l1_simulation` is enough for a version that requires it. -/
theorem a_named_level_is_checked :
    ApprovalEnforced draft_store (requires .l1_simulation) (simulate_as "l1_simulation")
      "l1_simulation" [] :=
  (approval_is_enforced_iff draft_store (requires .l1_simulation) (simulate_as "l1_simulation")
    "l1_simulation" [] rfl (by decide)).mpr <| by
      rintro - - - - version ⟨sid, strategy, -, -, hversion⟩
      have hrequired : version.approval_required = .l1_simulation := by
        unfold VersionResolver.resolve requires at hversion
        have hmem := List.mem_of_find?_eq_some hversion
        rw [List.mem_singleton.mp hmem]
      exact ⟨.l1_simulation, by decide, by rw [hrequired]⟩

/-- A text that is no level activates the draft, and so does a level below the one that the
version requires. -/
theorem an_unapproved_draft_is_simulated :
    ¬ ApprovalEnforced draft_store (requires .l1_simulation) (simulate_as "admin") "admin" [] ∧
    ¬ ApprovalEnforced draft_store (requires .l4_bounded_auto) (simulate_as "l1_simulation")
      "l1_simulation" [] := by
  have hid : UUID "00000000-0000-0000-0000-000000000001" =
      .ok "00000000-0000-0000-0000-000000000001" := by decide +kernel
  have hcurrent : ∀ text level, CurrentVersion draft_store (requires level) (simulate_as text)
      ⟨"00000000-0000-0000-0000-000000000001", 1, level⟩ := by
    intro text level
    exact ⟨"00000000-0000-0000-0000-000000000001", ⟨"draft", 1⟩, hid, by decide,
      by simp [VersionResolver.resolve, requires]⟩
  have hsucceeds : ∀ text, (∀ level, approval_of (some text) = some level →
      can_activate_strategy level .simulation = true) →
      Succeeds draft_store (simulate_as text) [] := by
    intro text hlevel
    refine (succeeds_iff _ _ _).mpr ⟨"00000000-0000-0000-0000-000000000001", .simulation,
      ⟨"draft", 1⟩, hid, rfl, by decide, ⟨.draft, by decide, by decide⟩, hlevel, ?_⟩
    intro n _
    rfl
  constructor
  · intro h
    have hno : approval_of (some "admin") = none := by decide
    obtain ⟨level, -, hof, -⟩ := h (hsucceeds "admin" (by simp [hno])) _ (hcurrent _ _)
    simp [ApprovalLevel.ofValue] at hof
  · intro h
    obtain ⟨level, -, hof, -, -, hversion⟩ := h (hsucceeds "l1_simulation" (by decide)) _
      (hcurrent _ _)
    obtain rfl : ApprovalLevel.l1_simulation = level := Except.ok.inj hof
    exact absurd hversion (by decide)

end trading_platform.mcp_server
