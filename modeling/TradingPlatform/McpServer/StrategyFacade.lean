-- The state updates of a strategy. Each call reads the row in a session of its
-- own, checks the transition from the state it read, and commits the new state
-- with its audit action. No row is locked between the read and the commit.
import TradingPlatform.Execution.World
import TradingPlatform.Lib.Register
import TradingPlatform.Strategy.Transitions

open resumption
open trading_platform.shared
open trading_platform.strategy_service
open trading_platform.execution (Fault)

namespace trading_platform.mcp_server

/-! ## The tables and the session -/

/-- A row of `strategies`. -/
structure Strategy where
  state : String
  current_version : Int
  deriving DecidableEq

/-- The `details` of a `state_change` action. -/
structure StateChange where
  previous_state : String
  new_state : String
  justification : String
  deriving DecidableEq

/-- A row of `strategy_actions`. -/
structure StrategyAction where
  strategy_id : Uuid
  version : Int
  action_type : String
  triggered_by : String
  details : StateChange
  created_at_ms : Nat
  deriving DecidableEq

structure Store where
  strategies : Uuid → Option Strategy
  /-- The committed actions, in commit order. -/
  actions : List StrategyAction
  now : Nat

/-- What a state update calls. `commit` is the flush and the commit of its session: the
new state of the row and the action, in one transaction. -/
inductive Cmd where
  | get (sid : Uuid)
  | time_ms
  | commit (sid : Uuid) (state : String) (action : StrategyAction)

def Ans : Cmd → Type
  | .get _ => Option Strategy
  | .time_ms => Nat
  | .commit _ _ _ => Unit

/-- What the environment does with a call: it may fail, and time passes after it. -/
structure Choice where
  fault : Fault := .none
  dt : Nat := 0

def StaleDataError : PyErr :=
  ⟨"StaleDataError", "UPDATE statement on table 'strategies' expected to update 1 row(s); 0 were matched."⟩

def Store.commit (s : Store) (sid : Uuid) (state : String) (action : StrategyAction) :
    Except PyErr Unit × Store :=
  match s.strategies sid with
  | none => (.error StaleDataError, s)
  | some row =>
    (.ok (), { s with
      strategies := Function.update s.strategies sid (some { row with state := state })
      actions := s.actions ++ [action] })

def Store.effect (s : Store) : (c : Cmd) → Except PyErr (Ans c) × Store
  | .get sid => (.ok (s.strategies sid), s)
  | .time_ms => (.ok s.now, s)
  | .commit sid state action => s.commit sid state action

def Store.exec (s : Store) (c : Cmd) (o : Choice) : Except PyErr (Ans c) × Store :=
  let r := match o.fault with
    | .none => s.effect c
    | .before e => (.error e, s)
    | .after e => (.error e, (s.effect c).2)
  (r.1, { r.2 with now := r.2.now + o.dt })

/-! ## The call -/

inductive StateReply where
  | failed (error : String)
  | changed (strategy_id previous_state new_state justification : String)
  deriving DecidableEq

structure UpdateCall where
  strategy_id : String
  target_state : String
  justification : String
  user_approval_level : Option String := none

/-- The level of the user; a text that is empty or no level counts as none. -/
def approval_of (user_approval_level : Option String) : Option ApprovalLevel :=
  match user_approval_level with
  | none => none
  | some text => if text = "" then none else (ApprovalLevel.ofValue text).toOption

def state_change (sid : Uuid) (strategy : Strategy) (target : StrategyState)
    (justification : String) (created_at_ms : Nat) : StrategyAction where
  strategy_id := sid
  version := strategy.current_version
  action_type := "state_change"
  triggered_by := "mcp_tool"
  details := ⟨strategy.state, target.value, justification⟩
  created_at_ms := created_at_ms

/-- The values of `StrategyState`, as Python shows the list. -/
def VALID_STATES : String :=
  "['draft', 'simulation', 'paper_active', 'assisted_live', 'bounded_auto_live', 'paused', 'rolled_back', 'archived']"

def update_strategy_state (call : UpdateCall) : Prog PyErr Cmd Ans StateReply :=
  match UUID call.strategy_id with
  | .error _ => return .failed s!"Invalid strategy_id: {call.strategy_id}"
  | .ok sid =>
    match StrategyState.ofValue call.target_state with
    | .error _ => return .failed s!"Unknown state '{call.target_state}'. Valid: {VALID_STATES}"
    | .ok target => do
      let found ← Prog.perform (V := Ans) (.get sid)
      match found with
      | none => return .failed s!"Strategy {call.strategy_id} not found"
      | some strategy =>
        match StrategyState.ofValue strategy.state with
        | .error _ => return .failed s!"Strategy has unknown state '{strategy.state}'"
        | .ok from_state =>
          match LifecycleManager.transition from_state target
              (approval_of call.user_approval_level) with
          | .error exc => return .failed exc.msg
          | .ok _ => do
            let created_at_ms ← Prog.perform (V := Ans) .time_ms
            Prog.perform (V := Ans) (.commit sid target.value
              (state_change sid strategy target call.justification created_at_ms))
            return .changed call.strategy_id strategy.state target.value call.justification

/-! ## What a call commits -/

/-- A valid transition, between the texts of two states. -/
def Edge (a b : String) : Prop :=
  ∃ s t : StrategyState, a = s.value ∧ b = t.value ∧
    LifecycleManager.can_transition s t = true

/-- A commit writes a state change of its strategy along a valid transition. -/
def KeepsToTransitions : Cmd → Prop
  | .commit sid state action =>
    action.strategy_id = sid ∧ action.action_type = "state_change" ∧
      action.details.new_state = state ∧ Edge action.details.previous_state state
  | _ => True

theorem update_strategy_state_keeps (call : UpdateCall) :
    (update_strategy_state call).Calls KeepsToTransitions := by
  unfold update_strategy_state
  split
  · trivial
  · split
    · trivial
    · rename_i sid _ target _
      refine calls_bind (calls_perform trivial) ?_
      intro found
      cases found with
      | none => trivial
      | some strategy =>
        dsimp only
        split
        · trivial
        · rename_i from_state hfrom
          split
          · trivial
          · rename_i s hs
            obtain ⟨-, hedge, -⟩ := LifecycleManager.transition_eq_ok.mp hs
            refine calls_bind (calls_perform trivial) ?_
            intro created_at_ms
            refine calls_bind (calls_perform ?_) ?_
            · exact ⟨rfl, rfl, rfl, from_state, target,
                StrategyState.eq_value_of_ofValue hfrom, rfl, hedge⟩
            · intro _
              trivial

/-! ## The audit trail of one strategy -/

def StrategyAction.change (a : StrategyAction) : register.Change String :=
  ⟨a.details.previous_state, a.details.new_state⟩

/-- The committed state changes of a strategy, in commit order. -/
def Store.state_changes (s : Store) (sid : Uuid) : List StrategyAction :=
  s.actions.filter fun a => a.strategy_id = sid ∧ a.action_type = "state_change"

/-- The lifecycle of strategy `sid` from `before` to `after`: the state changes
committed in between are a path of valid transitions from the state in
`before`, where each one starts from the new state of the one before; the state in
`after` is the last new state; and nothing changes the state once it is archived. -/
structure FollowsLifecycle (sid : Uuid) (row : Strategy) (before after : Store)
    (changes : List StrategyAction) : Prop where
  committed : after.state_changes sid = before.state_changes sid ++ changes
  path : register.Serial Edge row.state (changes.map (·.change))
  final : (after.strategies sid).map (·.state) =
    some (register.value row.state (changes.map (·.change)))
  archived : ∀ pre c post, changes = pre ++ c :: post →
    c.details.new_state = StrategyState.archived.value →
    ∀ d ∈ post, d.details.new_state = StrategyState.archived.value

/-- A commit that lands finds the state that its call has read. -/
def FindsWhatItRead (sid : Uuid) (s : Store) (c : Cmd) (o : Choice) : Prop :=
  match c with
  | .commit sid' _ action =>
    match o.fault with
    | .before _ => True
    | _ => sid' = sid → ∀ row ∈ s.strategies sid, row.state = action.details.previous_state
  | _ => True

instance decidableFindsWhatItRead (sid : Uuid) (s : Store) (c : Cmd) (o : Choice) :
    Decidable (FindsWhatItRead sid s c o) :=
  match c with
  | .get _ => isTrue trivial
  | .time_ms => isTrue trivial
  | .commit sid' state action =>
    match hf : o.fault with
    | .before e => isTrue (by simp [FindsWhatItRead, hf])
    | .none => decidable_of_iff
        (sid' = sid → ∀ row ∈ s.strategies sid, row.state = action.details.previous_state)
        (by simp [FindsWhatItRead, hf])
    | .after e => decidable_of_iff
        (sid' = sid → ∀ row ∈ s.strategies sid, row.state = action.details.previous_state)
        (by simp [FindsWhatItRead, hf])

/-- No valid transition leaves the archived state. -/
theorem not_edge_archived (b : String) : ¬ Edge StrategyState.archived.value b := by
  rintro ⟨s, t, hs, -, hst⟩
  have hterm : LifecycleManager.is_terminal s = true := by
    cases s with
    | archived => rfl
    | _ => exact absurd hs (by decide)
  rw [(LifecycleManager.is_terminal_iff s).mp hterm t] at hst
  cases hst

/-! ## One step -/

section Run

variable {sid : Uuid} {row : Strategy}

/-- What a call of any thread does to strategy `sid`: it keeps the row and adds no
state change, and it is no commit of `sid` that lands; or it is one, and moves
the row along with one new state change. -/
theorem exec_cases {s : Store} {c : Cmd} (hc : KeepsToTransitions c)
    (hrow : s.strategies sid = some row) (o : Choice) :
    ((s.exec c o).2.strategies sid = some row ∧
      (s.exec c o).2.state_changes sid = s.state_changes sid ∧ FindsWhatItRead sid s c o) ∨
    ∃ a : StrategyAction, Edge a.details.previous_state a.details.new_state ∧
      (s.exec c o).2.strategies sid = some { row with state := a.details.new_state } ∧
      (s.exec c o).2.state_changes sid = s.state_changes sid ++ [a] ∧
      (FindsWhatItRead sid s c o ↔ a.details.previous_state = row.state) := by
  cases c with
  | get _ | time_ms =>
    refine Or.inl ⟨?_, ?_, trivial⟩
    · cases hf : o.fault <;> simp [Store.exec, Store.effect, hf, hrow]
    · cases hf : o.fault <;> simp [Store.exec, Store.effect, hf, Store.state_changes]
  | commit sid' state action =>
    obtain ⟨hid, htype, hnew, hedge⟩ := hc
    have hafter : (s.exec (.commit sid' state action) o).2.strategies = s.strategies ∧
        (s.exec (.commit sid' state action) o).2.actions = s.actions ∧
        FindsWhatItRead sid s (.commit sid' state action) o ∨
        (s.exec (.commit sid' state action) o).2.strategies =
          (s.commit sid' state action).2.strategies ∧
        (s.exec (.commit sid' state action) o).2.actions =
          (s.commit sid' state action).2.actions ∧
        (FindsWhatItRead sid s (.commit sid' state action) o ↔
          (sid' = sid → row.state = action.details.previous_state)) := by
      cases hf : o.fault with
      | none => exact Or.inr (by simp [Store.exec, Store.effect, FindsWhatItRead, hf, hrow])
      | before e => exact Or.inl (by simp [Store.exec, FindsWhatItRead, hf])
      | after e => exact Or.inr (by simp [Store.exec, Store.effect, FindsWhatItRead, hf, hrow])
    rcases hafter with ⟨hs, ha, hcond⟩ | ⟨hs, ha, hcond⟩
    · refine Or.inl ⟨by rw [hs, hrow], ?_, hcond⟩
      unfold Store.state_changes
      rw [ha]
    · by_cases hsid : sid' = sid
      · subst hsid
        refine Or.inr ⟨action, hnew ▸ hedge, ?_, ?_, ?_⟩
        · rw [hs]
          simp [Store.commit, hrow, hnew]
        · unfold Store.state_changes
          rw [ha]
          simp [Store.commit, hrow, List.filter_append, hid, htype]
        · rw [hcond]
          simp [eq_comm]
      · have hne : ¬ action.strategy_id = sid := fun he => hsid (hid.symm.trans he)
        refine Or.inl ⟨?_, ?_, hcond.mpr fun he => absurd he hsid⟩
        · rw [hs]
          unfold Store.commit
          split
          · exact hrow
          · simp [Function.update_of_ne (Ne.symm hsid), hrow]
        · unfold Store.state_changes
          rw [ha]
          unfold Store.commit
          split
          · rfl
          · simp [List.filter_append, hne]

/-! ## A run -/

/-- A configuration of state updates: each thread keeps to the transitions. -/
def Lawful (cfg : Config Store PyErr Cmd Ans StateReply) : Prop :=
  ∀ p ∈ cfg.threads, p.Calls KeepsToTransitions

/-- The condition on a step: the call that it makes finds what it read. -/
def StepFindsWhatItRead (sid : Uuid) (cfg : Config Store PyErr Cmd Ans StateReply)
    (a : Act Choice) : Prop :=
  cfg.OnThread a.thread (FindsWhatItRead sid) a

instance decidableStepFinds (sid : Uuid) (cfg : Config Store PyErr Cmd Ans StateReply)
    (a : Act Choice) : Decidable (StepFindsWhatItRead sid cfg a) :=
  inferInstanceAs (Decidable (cfg.OnThread a.thread (FindsWhatItRead sid) a))

-- The parser of UUIDs need not be unfolded to see what an update calls.
attribute [local irreducible] UUID

theorem lawful_start (s : Store) (calls : List UpdateCall) :
    Lawful (Config.start s (calls.map update_strategy_state)) := by
  intro p hp
  obtain ⟨call, -, rfl⟩ := List.mem_map.mp hp
  exact update_strategy_state_keeps call

theorem lawful_step {cfg : Config Store PyErr Cmd Ans StateReply} (h : Lawful cfg)
    (a : Act Choice) : Lawful (cfg.step Store.exec a) := by
  rcases Config.step_cases Store.exec cfg a with he | ⟨c, k, hk, he⟩
  · rw [he]
    exact h
  · rw [he]
    intro p hp
    rcases List.mem_or_eq_of_mem_set hp with hp | rfl
    · exact h p hp
    · exact (h _ (List.mem_of_getElem? hk)).2 _

/-- One step and strategy `sid`: no state change of it is committed, and the
condition holds; or one is, and the condition says that it starts from the state of
the row. -/
theorem step_cases {cfg : Config Store PyErr Cmd Ans StateReply} (h : Lawful cfg)
    (hrow : cfg.shared.strategies sid = some row) (a : Act Choice) :
    ((cfg.step Store.exec a).shared.strategies sid = some row ∧
      (cfg.step Store.exec a).shared.state_changes sid = cfg.shared.state_changes sid ∧
      StepFindsWhatItRead sid cfg a) ∨
    ∃ c : StrategyAction, Edge c.details.previous_state c.details.new_state ∧
      (cfg.step Store.exec a).shared.strategies sid =
        some { row with state := c.details.new_state } ∧
      (cfg.step Store.exec a).shared.state_changes sid =
        cfg.shared.state_changes sid ++ [c] ∧
      (StepFindsWhatItRead sid cfg a ↔ c.details.previous_state = row.state) := by
  unfold StepFindsWhatItRead Config.OnThread Config.step
  cases hk : cfg.threads[a.thread]? with
  | none => exact Or.inl ⟨hrow, rfl, fun _ => trivial⟩
  | some p =>
    cases p with
    | done r => exact Or.inl ⟨hrow, rfl, fun _ => trivial⟩
    | raise e => exact Or.inl ⟨hrow, rfl, fun _ => trivial⟩
    | call c k =>
      have hc : KeepsToTransitions c := (h _ (List.mem_of_getElem? hk)).1
      rcases exec_cases hc hrow a.choice with ⟨hs, hl, hcond⟩ | ⟨ch, hedge, hs, hl, hcond⟩
      · exact Or.inl ⟨hs, hl, fun _ => hcond⟩
      · exact Or.inr ⟨ch, hedge, hs, hl, (forall_prop_of_true rfl).trans hcond⟩

/-- What a run commits on strategy `sid`: the row ends with the last new state, and
the changes are serial if, and only if, every step of the run meets the
condition. -/
theorem run_changes {cfg : Config Store PyErr Cmd Ans StateReply} (h : Lawful cfg)
    (hrow : cfg.shared.strategies sid = some row) (acts : List (Act Choice)) :
    ∃ changes : List StrategyAction, ∃ row' : Strategy,
      (cfg.run Store.exec acts).shared.state_changes sid =
        cfg.shared.state_changes sid ++ changes ∧
      (cfg.run Store.exec acts).shared.strategies sid = some row' ∧
      row'.state = register.value row.state (changes.map (·.change)) ∧
      (cfg.Along Store.exec (StepFindsWhatItRead sid) acts ↔
        register.Serial Edge row.state (changes.map (·.change))) := by
  induction acts generalizing cfg row with
  | nil => exact ⟨[], row, by simp, hrow, rfl, Iff.rfl⟩
  | cons a acts ih =>
    rcases step_cases h hrow a with ⟨hs, hl, hcond⟩ | ⟨c, hedge, hs, hl, hcond⟩
    · obtain ⟨changes, row', h1, h2, h3, h4⟩ := ih (lawful_step h a) hs
      refine ⟨changes, row', ?_, h2, h3, ?_⟩
      · rw [Config.run_cons, h1, hl]
      · rw [← h4]
        exact and_iff_right hcond
    · obtain ⟨changes, row', h1, h2, h3, h4⟩ := ih (lawful_step h a) hs
      refine ⟨c :: changes, row', ?_, h2, h3, ?_⟩
      · rw [Config.run_cons, h1, hl, List.append_assoc]
        rfl
      · rw [List.map_cons, register.serial_cons_of_edge (c := c.change) hedge]
        exact and_congr hcond h4

end Run

/-- What any set of concurrent updates commits on a strategy follows the lifecycle if,
and only if, each commit that lands finds in the row the state that its call
has read. -/
theorem strategy_follows_its_lifecycle_iff (s : Store) (calls : List UpdateCall) (sid : Uuid)
    (row : Strategy) (hrow : s.strategies sid = some row) (acts : List (Act Choice)) :
    (∃ changes, FollowsLifecycle sid row s
      ((Config.start s (calls.map update_strategy_state)).run Store.exec acts).shared changes) ↔
    (Config.start s (calls.map update_strategy_state)).Along Store.exec
      (StepFindsWhatItRead sid) acts := by
  obtain ⟨changes, row', hl, hs, hstate, halong⟩ := run_changes (lawful_start s calls) hrow acts
  rw [halong]
  constructor
  · rintro ⟨changes', hf⟩
    have he : changes' = changes := List.append_cancel_left (hf.committed.symm.trans hl)
    subst he
    exact hf.path
  · intro hserial
    refine ⟨changes, hl, hserial, ?_, ?_⟩
    · rw [hs, Option.map_some, hstate]
    · rintro pre c post rfl harch d hd
      rw [List.map_append, List.map_cons] at hserial
      have hpost := hserial.ends_at_terminal not_edge_archived harch
      rw [List.map_eq_nil_iff.mp hpost] at hd
      exact absurd hd List.not_mem_nil

/-- A store with one strategy, a draft. -/
def draft_store : Store :=
  ⟨fun sid => if sid = "00000000-0000-0000-0000-000000000001" then some ⟨"draft", 1⟩ else none,
    [], 0⟩

def update_to (target_state : String) : UpdateCall :=
  ⟨"00000000-0000-0000-0000-000000000001", target_state, "", none⟩

/-- Two updates, the second one after the first one has committed. -/
theorem updates_in_turn_follow_the_lifecycle :
    ∃ changes, FollowsLifecycle "00000000-0000-0000-0000-000000000001" ⟨"draft", 1⟩ draft_store
      ((Config.start draft_store
        ([update_to "simulation", update_to "archived"].map update_strategy_state)).run Store.exec
        [⟨0, {}⟩, ⟨0, {}⟩, ⟨0, {}⟩, ⟨1, {}⟩, ⟨1, {}⟩, ⟨1, {}⟩]).shared changes :=
  (strategy_follows_its_lifecycle_iff draft_store [update_to "simulation", update_to "archived"]
    "00000000-0000-0000-0000-000000000001" ⟨"draft", 1⟩ (by decide)
    [⟨0, {}⟩, ⟨0, {}⟩, ⟨0, {}⟩, ⟨1, {}⟩, ⟨1, {}⟩, ⟨1, {}⟩]).mpr (by decide +kernel)

/-- Two updates that both read the draft: one archives it, and the other one then
commits the simulation. -/
theorem an_archived_strategy_is_simulated :
    ¬ ∃ changes, FollowsLifecycle "00000000-0000-0000-0000-000000000001" ⟨"draft", 1⟩ draft_store
      ((Config.start draft_store
        ([update_to "archived", update_to "simulation"].map update_strategy_state)).run Store.exec
        [⟨0, {}⟩, ⟨1, {}⟩, ⟨0, {}⟩, ⟨0, {}⟩, ⟨1, {}⟩, ⟨1, {}⟩]).shared changes := by
  rintro ⟨changes, hf⟩
  have hcommitted : changes.map (·.change) = [⟨"draft", "archived"⟩, ⟨"draft", "simulation"⟩] := by
    have hl := congrArg (List.map (·.change)) hf.committed
    have hrun : (((Config.start draft_store
        ([update_to "archived", update_to "simulation"].map update_strategy_state)).run Store.exec
        [⟨0, {}⟩, ⟨1, {}⟩, ⟨0, {}⟩, ⟨0, {}⟩, ⟨1, {}⟩, ⟨1, {}⟩]).shared.state_changes
          "00000000-0000-0000-0000-000000000001").map (·.change) =
        [⟨"draft", "archived"⟩, ⟨"draft", "simulation"⟩] := by decide +kernel
    rw [hrun] at hl
    exact hl.symm
  obtain ⟨-, -, hread, -⟩ := hcommitted ▸ hf.path
  exact absurd hread (by decide)

end trading_platform.mcp_server
