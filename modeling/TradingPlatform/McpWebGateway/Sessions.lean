-- The sessions of the MCP web gateway over time. The generator of a stream removes its session in a
-- `finally`, but its first chunk is in front of the `try`: a client that is gone before the loop
-- leaves its session behind, and with enough of these the gateway is full for ever.
import TradingPlatform.McpWebGateway.TokenAuth
import TradingPlatform.Lib.Progress

open keyed
open trading_platform.shared

namespace trading_platform.mcp_web_gateway

/-! ## Streams -/

/-- Where the generator of a stream is. -/
inductive Phase where
  /-- It was not asked for a chunk yet. -/
  | created
  /-- At the chunk with the endpoint. -/
  | endpoint
  /-- In the loop, waiting for a message. -/
  | waiting (deadline : Int) (since : Nat)
  /-- In the loop, at a chunk. -/
  | sending (deadline : Int)

/-- The generator is inside its `try`. -/
def Phase.in_try : Phase → Bool
  | .waiting _ _ => true
  | .sending _ => true
  | _ => false

structure SseStream where
  session_id : String
  phase : Phase

/-- The time that `wait_for` gives a wait, in ms. -/
def QUEUE_WAIT_MS : Nat := 15000

structure SessionGateway where
  auth : Auth := {}
  gateway : Gateway := {}
  streams : Table SseStream SseStream.session_id := .empty
  /-- The sessions of the streams that ended in front of the `try`. -/
  lost : List String := []

inductive SseAct where
  /-- `GET /sse` with its `Authorization` header and its body. -/
  | get_sse (id : Nat) (authorization : String) (body : Option McpWebGatewaySettings)
  /-- The authorization server answers the request for the keys. -/
  | fetched (id : Nat) (reply : JwksReply)
  /-- The endpoint is called, with the session id that it would draw. -/
  | sse_endpoint (id : Nat) (session_id : String)
  /-- The response asks for the first chunk, and for the next one. -/
  | first_chunk (session_id : String)
  | next_chunk (session_id : String)
  /-- The wait of a loop gives a message, or it times out. -/
  | take (session_id : String)
  | keepalive (session_id : String)
  /-- The client is gone, and the generator is closed. -/
  | gone (session_id : String)
  | post (session_id : String) (body : Option Json) (x : Exchange)
  | elapse (ms : Nat)

def at_capacity : HTTPException :=
  { status_code := 503, detail := "Gateway at session capacity — try again later" }

namespace SessionGateway

variable (cfg : McpWebGatewaySettings) (jwt : Nat → JwtArgs → Except JwtFailure Dict)
  (loads : String → Except PyErr Json) (self : SessionGateway)

def set_stream (x : SseStream) : SessionGateway :=
  { self with streams :=
      self.streams.upsert x (fun r => { x with session_id := r.session_id }) fun _ => rfl }

def session_count : Nat := self.gateway.sessions.rows.length

/-- The `finally` of the generator. -/
def finish (session_id : String) : SessionGateway :=
  { self with
    gateway := self.gateway.remove_session session_id
    streams := self.streams.erase session_id }

/-- `while time.monotonic() < deadline`. -/
def loop (session_id : String) (deadline : Int) : SessionGateway :=
  if (self.auth.now : Int) < deadline then
    self.set_stream ⟨session_id, .waiting deadline self.auth.now⟩
  else self.finish session_id

def open_session (id : Nat) (session_id : String) (claims : TokenClaims) : SessionGateway :=
  { self with
    auth := { self.auth with requests := Function.update self.auth.requests id none }
    gateway := self.gateway.create_session session_id claims }.set_stream ⟨session_id, .created⟩

/-- One step, if it can happen. No session id is drawn twice. -/
def step : SseAct → Option SessionGateway
  | .get_sse id authorization body =>
    if (self.auth.requests id).isNone then
      some { self with auth := self.auth.require_token cfg jwt id authorization body }
    else none
  | .fetched id reply =>
    match self.auth.requests id with
    | some (.fetching cfg token) =>
      some { self with auth := self.auth.fetch_jwks cfg jwt id token reply }
    | _ => none
  | .sse_endpoint id session_id =>
    match self.auth.requests id with
    | some (.accepted claims) =>
      if cfg.max_sessions ≤ self.session_count then
        some { self with auth := self.auth.answer id at_capacity }
      else if (self.gateway.sessions.find session_id).isNone then
        some (self.open_session id session_id claims)
      else none
    | _ => none
  | .first_chunk session_id =>
    match self.streams.find session_id with
    | some ⟨_, .created⟩ => some (self.set_stream ⟨session_id, .endpoint⟩)
    | _ => none
  | .next_chunk session_id =>
    match self.streams.find session_id with
    | some ⟨_, .endpoint⟩ => some (self.loop session_id (self.auth.now + 1000 * cfg.session_timeout_s))
    | some ⟨_, .sending deadline⟩ => some (self.loop session_id deadline)
    | _ => none
  | .take session_id =>
    match self.streams.find session_id, self.gateway.sessions.find session_id with
    | some ⟨_, .waiting deadline _⟩, some ⟨_, claims, _ :: queue, initialized⟩ =>
      some ({ self with gateway := self.gateway.set_session ⟨session_id, claims, queue, initialized⟩
        }.set_stream ⟨session_id, .sending deadline⟩)
    | _, _ => none
  | .keepalive session_id =>
    match self.streams.find session_id with
    | some ⟨_, .waiting deadline since⟩ =>
      if since + QUEUE_WAIT_MS ≤ self.auth.now then
        some (self.set_stream ⟨session_id, .sending deadline⟩)
      else none
    | _ => none
  | .gone session_id =>
    match self.streams.find session_id with
    | some ⟨_, phase⟩ =>
      some (if phase.in_try then self.finish session_id
        else { self with
          streams := self.streams.erase session_id
          lost := self.lost ++ [session_id] })
    | none => none
  | .post session_id body x =>
    some { self with gateway := self.gateway.step loads (.post session_id body x) }
  | .elapse ms => some { self with auth := { self.auth with now := self.auth.now + ms } }

def run : SessionGateway → List SseAct → Option SessionGateway :=
  unwinding.run fun self => self.step cfg jwt loads

end SessionGateway

/-! ## The session ids of a gateway -/

namespace Gateway

variable {g g' : Gateway} {loads : String → Except PyErr Json}

/-- The gateways have the same sessions open. -/
def SameSessions (g g' : Gateway) : Prop :=
  ∀ k, (g'.sessions.find k).isSome = (g.sessions.find k).isSome

theorem same_set {session old : GatewaySession}
    (hfind : g.sessions.find session.session_id = some old) : g.SameSessions (g.set_session session) := by
  intro k
  rw [find_set_session]
  by_cases hk : k = session.session_id
  · rw [if_pos hk, hk, hfind]
    rfl
  · rw [if_neg hk]

theorem same_put (g : Gateway) (session_id : String) (message : Json) :
    g.SameSessions (g.put session_id message) := by
  unfold put
  split
  · rename_i session hfind
    have hown : g.sessions.find session.session_id = some session := by
      rwa [Table.key_of_find hfind]
    exact same_set hown
  · exact fun _ => rfl

theorem same_mark (g : Gateway) (session_id : String) :
    g.SameSessions (g.mark_initialized session_id) := by
  unfold mark_initialized
  split
  · rename_i session hfind
    have hown : g.sessions.find session.session_id = some session := by
      rwa [Table.key_of_find hfind]
    exact same_set hown
  · exact fun _ => rfl

theorem same_tools_list (x : Exchange) (session : GatewaySession) (msg_id : Json) :
    g.SameSessions (handle_tools_list loads x g session msg_id).2 := by
  unfold handle_tools_list
  split
  dsimp only
  split
  · exact same_put (g.deliver _) _ _
  · exact same_put (g.deliver _) _ _
  · exact fun _ => rfl

theorem same_tools_call (x : Exchange) (session : GatewaySession) (body : Dict) (msg_id : Json) :
    g.SameSessions (handle_tools_call loads x g session body msg_id).2 := by
  have hblock : ∀ tool_name arguments,
      g.SameSessions (audited_call loads x g session tool_name arguments msg_id).2.2 := by
    intro tool_name arguments
    unfold audited_call
    split
    · exact same_put g _ _
    · exact fun _ => rfl
    · split
      dsimp only
      split
      · exact same_put (g.deliver _) _ _
      · exact same_put (g.deliver _) _ _
      · exact fun _ => rfl
  unfold handle_tools_call
  split
  · dsimp only
    split
    · exact fun _ => rfl
    · exact hblock _ _
  · exact fun _ => rfl

/-- A posted request opens no session and ends none. -/
theorem same_messages (x : Exchange) (session_id : String) (body : Option Json) :
    g.SameSessions (messages_endpoint loads x g session_id body).2 := by
  unfold messages_endpoint
  split
  · exact fun _ => rfl
  · split
    · exact fun _ => rfl
    · dsimp only
      split
      · split
        · exact same_put g _ _
        · split
          · exact same_mark g _
          · split
            · exact same_tools_list x _ _
            · split
              · exact same_tools_call x _ _ _
              · split
                · exact fun _ => rfl
                · split
                  · exact same_put g _ _
                  · exact same_put g _ _
      · exact fun _ => rfl
    · exact fun _ => rfl

end Gateway

namespace SessionGateway

variable {cfg : McpWebGatewaySettings} {jwt : Nat → JwtArgs → Except JwtFailure Dict}
  {loads : String → Except PyErr Json} {s s' : SessionGateway}

/-! ## What a step does to the sessions -/

theorem find_set_stream (s : SessionGateway) (x : SseStream) (k : String) :
    (s.set_stream x).streams.find k = if k = x.session_id then some x else s.streams.find k := by
  have hrow : ∀ r : SseStream, r.session_id = x.session_id →
      { x with session_id := r.session_id } = x := by
    intro r hr
    rw [hr]
  unfold set_stream
  rw [Table.find_upsert_row hrow]

/-- The sessions and the streams are as before. -/
structure Same (s s' : SessionGateway) : Prop where
  sessions : s.gateway.SameSessions s'.gateway
  streams : ∀ k, (s'.streams.find k).isSome = (s.streams.find k).isSome
  lost : s'.lost = s.lost

theorem same_auth (s : SessionGateway) (auth : Auth) : Same s { s with auth } :=
  ⟨fun _ => rfl, fun _ => rfl, rfl⟩

theorem same_set_stream {x old : SseStream} (hfind : s.streams.find x.session_id = some old) :
    Same s (s.set_stream x) := by
  refine ⟨fun _ => rfl, ?_, rfl⟩
  intro k
  rw [find_set_stream]
  by_cases hk : k = x.session_id
  · rw [if_pos hk, hk, hfind]
    rfl
  · rw [if_neg hk]

/-- A stream ends inside its loop. -/
def Finishes (s s' : SessionGateway) : Prop :=
  ∃ session_id, (s.streams.find session_id).isSome = true ∧ s' = s.finish session_id

/-- A stream ends before its loop. -/
def Loses (s s' : SessionGateway) : Prop :=
  ∃ session_id, (s.streams.find session_id).isSome = true ∧
    s' = { s with streams := s.streams.erase session_id, lost := s.lost ++ [session_id] }

/-- A stream is opened while there is room. -/
def Opens (cfg : McpWebGatewaySettings) (s s' : SessionGateway) : Prop :=
  ∃ id session_id claims, s.auth.requests id = some (.accepted claims) ∧
    (s.session_count : Int) < cfg.max_sessions ∧ s.gateway.sessions.find session_id = none ∧
    s' = s.open_session id session_id claims

theorem loop_cases {session_id : String} {old : SseStream}
    (hfind : s.streams.find session_id = some old) (deadline : Int) :
    Same s (s.loop session_id deadline) ∨ Finishes s (s.loop session_id deadline) := by
  unfold loop
  split
  · exact Or.inl (same_set_stream hfind)
  · exact Or.inr ⟨session_id, by rw [hfind]; rfl, rfl⟩

theorem step_cases {a : SseAct} (hstep : s.step cfg jwt loads a = some s') :
    Same s s' ∨ Finishes s s' ∨ Loses s s' ∨ Opens cfg s s' := by
  cases a with
  | get_sse id authorization body =>
    simp only [step] at hstep
    split at hstep
    · cases hstep
      exact Or.inl (same_auth s _)
    · cases hstep
  | fetched id reply =>
    simp only [step] at hstep
    split at hstep
    · cases hstep
      exact Or.inl (same_auth s _)
    · cases hstep
  | sse_endpoint id session_id =>
    simp only [step] at hstep
    split at hstep
    · rename_i claims hrequest
      split at hstep
      · cases hstep
        exact Or.inl (same_auth s _)
      · rename_i hroom
        split at hstep
        · rename_i hnew
          cases hstep
          refine Or.inr (Or.inr (Or.inr ⟨id, session_id, claims, hrequest, by omega, ?_, rfl⟩))
          exact Option.isNone_iff_eq_none.mp hnew
        · cases hstep
    · cases hstep
  | first_chunk session_id =>
    simp only [step] at hstep
    split at hstep
    · rename_i hfind
      cases hstep
      exact Or.inl (same_set_stream hfind)
    · cases hstep
  | next_chunk session_id =>
    simp only [step] at hstep
    split at hstep
    · rename_i hfind
      cases hstep
      exact (loop_cases hfind _).imp id Or.inl
    · rename_i hfind
      cases hstep
      exact (loop_cases hfind _).imp id Or.inl
    · cases hstep
  | take session_id =>
    simp only [step] at hstep
    split at hstep
    · rename_i hfind hsession
      cases hstep
      obtain ⟨hsessions, hstreams, hlost⟩ :=
        same_set_stream (x := ⟨session_id, .sending _⟩) hfind
      refine Or.inl ⟨?_, hstreams, hlost⟩
      apply Gateway.same_set
      exact hsession
    · cases hstep
  | keepalive session_id =>
    simp only [step] at hstep
    split at hstep
    · rename_i hfind
      split at hstep
      · cases hstep
        exact Or.inl (same_set_stream hfind)
      · cases hstep
    · cases hstep
  | gone session_id =>
    simp only [step] at hstep
    split at hstep
    · rename_i hfind
      have hsome : (s.streams.find session_id).isSome = true := by rw [hfind]; rfl
      cases hstep
      split
      · exact Or.inr (Or.inl ⟨session_id, hsome, rfl⟩)
      · exact Or.inr (Or.inr (Or.inl ⟨session_id, hsome, rfl⟩))
    · cases hstep
  | post session_id body x =>
    cases hstep
    exact Or.inl ⟨Gateway.same_messages x session_id body, fun _ => rfl, rfl⟩
  | elapse ms =>
    cases hstep
    exact Or.inl (same_auth s _)

/-! ## The registry -/

/-- The registry has the open streams and the lost sessions, and it is not over its capacity. -/
structure Registered (cfg : McpWebGatewaySettings) (s : SessionGateway) : Prop where
  session : ∀ k, (s.gateway.sessions.find k).isSome = true ↔
    (s.streams.find k).isSome = true ∨ k ∈ s.lost
  apart : ∀ k ∈ s.lost, s.streams.find k = none
  lost_once : s.lost.Nodup
  capacity : (s.session_count : Int) ≤ max cfg.max_sessions 0

theorem registered_start : Registered cfg {} where
  session k := by simp [Table.find, Table.empty]
  apart := nofun
  lost_once := List.nodup_nil
  capacity := by simp [session_count, Table.empty]

/-- Where no session is added, the capacity is kept. -/
theorem count_le (h : ∀ k, (s'.gateway.sessions.find k).isSome = true →
    (s.gateway.sessions.find k).isSome = true) : s'.session_count ≤ s.session_count := by
  have hle := Table.length_le_of_keys fun k hk => Table.mem_keys.mpr (h k hk)
  rwa [List.length_map] at hle

theorem Registered.same (h : Registered cfg s) (hsame : Same s s') : Registered cfg s' where
  session k := by rw [hsame.sessions k, hsame.streams k, hsame.lost, h.session k]
  apart k hk := by
    rw [hsame.lost] at hk
    have hnone := hsame.streams k
    rw [h.apart k hk] at hnone
    exact Option.isNone_iff_eq_none.mp (by simpa using hnone)
  lost_once := by
    rw [hsame.lost]
    exact h.lost_once
  capacity := by
    have hle : s'.session_count ≤ s.session_count := count_le fun k hk => by rwa [← hsame.sessions k]
    have hcapacity := h.capacity
    omega

theorem Registered.not_lost (h : Registered cfg s) {k : String}
    (hstream : (s.streams.find k).isSome = true) : k ∉ s.lost := by
  intro hk
  rw [h.apart k hk] at hstream
  cases hstream

theorem Registered.finish (h : Registered cfg s) (hfinish : Finishes s s') : Registered cfg s' := by
  obtain ⟨session_id, hstream, rfl⟩ := hfinish
  have hlost := h.not_lost hstream
  have hsessions : ∀ k, (s.finish session_id).gateway.sessions.find k =
      if k = session_id then none else s.gateway.sessions.find k := fun k => Table.find_erase _ _ k
  have hstreams : ∀ k, (s.finish session_id).streams.find k =
      if k = session_id then none else s.streams.find k := fun k => Table.find_erase _ _ k
  refine ⟨?_, ?_, h.lost_once, ?_⟩
  · intro k
    rw [hsessions, hstreams]
    by_cases hk : k = session_id
    · subst hk
      have hfree : k ∉ (s.finish k).lost := hlost
      simpa using hfree
    · rw [if_neg hk, if_neg hk]
      exact h.session k
  · intro k hk
    rw [hstreams, h.apart k hk, ite_self]
  · have hle : (s.finish session_id).session_count ≤ s.session_count := by
      apply count_le
      intro k hk
      rw [hsessions] at hk
      split at hk
      · cases hk
      · exact hk
    have hcapacity := h.capacity
    omega

theorem Registered.lose (h : Registered cfg s) (hlose : Loses s s') : Registered cfg s' := by
  obtain ⟨session_id, hstream, rfl⟩ := hlose
  have hlost := h.not_lost hstream
  refine ⟨?_, ?_, ?_, h.capacity⟩
  · intro k
    rw [Table.find_erase, List.mem_append, List.mem_singleton]
    by_cases hk : k = session_id
    · subst hk
      simpa using (h.session k).mpr (Or.inl hstream)
    · simpa [hk] using h.session k
  · intro k hk
    rw [Table.find_erase]
    rcases List.mem_append.mp hk with hk | hk
    · rw [h.apart k hk, ite_self]
    · rw [if_pos (List.mem_singleton.mp hk)]
  · rw [List.nodup_append]
    refine ⟨h.lost_once, List.nodup_singleton session_id, ?_⟩
    intro k hk k' hk' he
    rw [List.mem_singleton.mp hk'] at he
    exact hlost (he ▸ hk)

theorem Registered.opens (h : Registered cfg s) (hopen : Opens cfg s s') : Registered cfg s' := by
  obtain ⟨id, session_id, claims, -, hroom, hnew, rfl⟩ := hopen
  have hsessions : ∀ k, (s.open_session id session_id claims).gateway.sessions.find k =
      if k = session_id then some { session_id, claims } else s.gateway.sessions.find k :=
    fun k => Gateway.find_set_session _ k
  have hstreams : ∀ k, (s.open_session id session_id claims).streams.find k =
      if k = session_id then some ⟨session_id, .created⟩ else s.streams.find k :=
    fun k => find_set_stream _ _ k
  have hlost : session_id ∉ s.lost := by
    intro hk
    have hsome := (h.session session_id).mpr (Or.inr hk)
    rw [hnew] at hsome
    cases hsome
  refine ⟨?_, ?_, h.lost_once, ?_⟩
  · intro k
    rw [hsessions, hstreams]
    by_cases hk : k = session_id
    · simp [hk]
    · rw [if_neg hk, if_neg hk]
      exact h.session k
  · intro k hk
    have hne : k ≠ session_id := by
      rintro rfl
      exact hlost hk
    rw [hstreams, if_neg hne]
    exact h.apart k hk
  · have hle : (s.open_session id session_id claims).session_count ≤ s.session_count + 1 := by
      have hkeys : (s.open_session id session_id claims).session_count ≤
          (session_id :: s.gateway.sessions.rows.map (·.session_id)).length := by
        apply Table.length_le_of_keys
        intro k hk
        rw [hsessions] at hk
        by_cases he : k = session_id
        · rw [he]
          exact List.mem_cons_self
        · rw [if_neg he] at hk
          exact List.mem_cons_of_mem session_id (Table.mem_keys.mpr hk)
      rwa [List.length_cons, List.length_map] at hkeys
    omega

theorem Registered.step (h : Registered cfg s) {a : SseAct}
    (hstep : s.step cfg jwt loads a = some s') : Registered cfg s' := by
  rcases step_cases hstep with hsame | hfinish | hlose | hopen
  · exact h.same hsame
  · exact h.finish hfinish
  · exact h.lose hlose
  · exact h.opens hopen

theorem registered_run {acts : List SseAct} (h : Registered cfg s)
    (hrun : run cfg jwt loads s acts = some s') : Registered cfg s' :=
  progress.keeps_run (Registered cfg) (fun hs hstep => hs.step hstep) h hrun

theorem Registered.perm (h : Registered cfg s) :
    (s.gateway.sessions.rows.map (·.session_id)).Perm
      (s.streams.rows.map (·.session_id) ++ s.lost) := by
  refine Table.keys_perm ?_ ?_
  · rw [List.nodup_append]
    refine ⟨s.streams.unique, h.lost_once, ?_⟩
    rintro k hk k' hk' rfl
    exact h.not_lost (Table.mem_keys.mp hk) hk'
  · intro k
    rw [h.session k, List.mem_append]
    exact or_congr Table.mem_keys.symm Iff.rfl

/-- A gateway with room for one session, and a secret for its tokens. -/
def small : McpWebGatewaySettings := { oauth_jwt_secret := "secret", max_sessions := 1 }

/-- `jwt.decode` of a token with a scope. -/
def decodes (_ : Nat) (_ : JwtArgs) : Except JwtFailure Dict :=
  .ok [("sub", .str "user"), ("azp", .str "client"), ("scope", .str "mcp:strategy:read")]

/-- A client asks for a stream, and is gone at the first chunk. -/
def early : List SseAct :=
  [.get_sse 0 "Bearer token" none, .sse_endpoint 0 "s1", .first_chunk "s1", .gone "s1"]

/-- The gateway after some steps. -/
def after (cfg : McpWebGatewaySettings) (jwt : Nat → JwtArgs → Except JwtFailure Dict)
    (s : SessionGateway) (acts : List SseAct) : SessionGateway :=
  (run cfg jwt answers s acts).getD {}

/-- However the requests, the streams and the clients are interleaved: the registry has exactly the
open streams and the sessions whose clients were gone before the loop, and never more than
`max_sessions`. -/
theorem sessions_are_streams_and_lost (acts : List SseAct)
    (hrun : run cfg jwt loads {} acts = some s) :
    (s.gateway.sessions.rows.map (·.session_id)).Perm
        (s.streams.rows.map (·.session_id) ++ s.lost) ∧
      (s.session_count : Int) ≤ max cfg.max_sessions 0 := by
  have h := registered_run registered_start hrun
  exact ⟨h.perm, h.capacity⟩

theorem an_early_client_leaves_its_session :
    (after small decodes {} early).streams.rows = [] ∧
      ((after small decodes {} early).gateway.sessions.rows.map (·.session_id)).Perm ["s1"] := by
  have hrun : run small decodes answers {} early = some (after small decodes {} early) := rfl
  exact ⟨rfl, (sessions_are_streams_and_lost early hrun).1⟩

/-! ## A gateway that is full of lost sessions -/

/-- The gateway is full of lost sessions. -/
structure Full (cfg : McpWebGatewaySettings) (s : SessionGateway) : Prop where
  registered : Registered cfg s
  lost : cfg.max_sessions ≤ (s.lost.length : Int)

theorem Registered.count (h : Registered cfg s) :
    s.session_count = s.streams.rows.length + s.lost.length := by
  have hlength := h.perm.length_eq
  rwa [List.length_map, List.length_append, List.length_map] at hlength

theorem Full.no_streams (h : Full cfg s) : s.streams.rows = [] := by
  have hcount := h.registered.count
  have hcapacity := h.registered.capacity
  have hlost := h.lost
  have hnone : s.streams.rows.length = 0 := by omega
  exact List.length_eq_zero_iff.mp hnone

theorem Full.step (h : Full cfg s) {a : SseAct} (hstep : s.step cfg jwt loads a = some s') :
    Full cfg s' := by
  refine ⟨h.registered.step hstep, ?_⟩
  have hlost := h.lost
  rcases step_cases hstep with hsame | hfinish | hlose | hopen
  · rw [hsame.lost]
    exact hlost
  · obtain ⟨session_id, -, rfl⟩ := hfinish
    exact hlost
  · obtain ⟨session_id, -, rfl⟩ := hlose
    simp only [List.length_append]
    omega
  · obtain ⟨-, -, -, -, hroom, -, -⟩ := hopen
    have hcount := h.registered.count
    omega

theorem Full.after_run {more : List SseAct} (h : Full cfg s)
    (hmore : run cfg jwt loads s more = some s') : Full cfg s' :=
  progress.keeps_run (Full cfg) (fun hs hstep => hs.step hstep) h hmore

/-- An hour later, another client asks for a stream. -/
def later : List SseAct := [.elapse 3600000, .get_sse 1 "Bearer token" none]

/-- Once `max_sessions` clients were gone before their loop, the gateway has no stream and refuses
every new one, however long it runs. -/
theorem a_full_gateway_stays_full {acts more : List SseAct}
    (hrun : run cfg jwt loads {} acts = some s) (hlost : cfg.max_sessions ≤ (s.lost.length : Int))
    (hmore : run cfg jwt loads s more = some s') :
    s'.streams.rows = [] ∧ ∀ id session_id claims, s'.auth.requests id = some (.accepted claims) →
      s'.step cfg jwt loads (.sse_endpoint id session_id) =
        some { s' with auth := s'.auth.answer id at_capacity } := by
  have hfull : Full cfg s := ⟨registered_run registered_start hrun, hlost⟩
  have hlast := hfull.after_run hmore
  refine ⟨hlast.no_streams, ?_⟩
  intro id session_id claims hrequest
  have hcount := hlast.registered.count
  have hfew := hlast.lost
  have hroom : cfg.max_sessions ≤ s'.session_count := by omega
  simp only [SessionGateway.step, hrequest]
  rw [if_pos hroom]

theorem a_second_client_is_refused :
    (after small decodes (after small decodes {} early) later).step small decodes answers
        (.sse_endpoint 1 "s2") =
      some { after small decodes (after small decodes {} early) later with
        auth := (after small decodes (after small decodes {} early) later).auth.answer 1
          at_capacity } := by
  have hrun : run small decodes answers {} early = some (after small decodes {} early) := rfl
  have hmore : run small decodes answers (after small decodes {} early) later =
      some (after small decodes (after small decodes {} early) later) := rfl
  exact (a_full_gateway_stays_full hrun (by decide) hmore).2 1 "s2"
    ⟨"user", "client", ["mcp:strategy:read"]⟩ rfl

/-! ## Whose tools are posted -/

/-- A token with the claims was accepted. -/
def accepted (s : SessionGateway) (claims : TokenClaims) : Prop :=
  ∃ d ∈ s.auth.decoded, d.claims = claims

structure Trusted (cfg : McpWebGatewaySettings) (jwt : Nat → JwtArgs → Except JwtFailure Dict)
    (s : SessionGateway) : Prop where
  auth : s.auth.Good cfg jwt
  issued : s.gateway.Issued (accepted s)
  guarded : s.gateway.Guarded (accepted s)

/-- Where the gateway is as before, what was accepted stays accepted. -/
theorem Trusted.mono (h : Trusted cfg jwt s) (hgateway : s'.gateway = s.gateway)
    (hauth : s'.auth.Good cfg jwt) (hdecoded : ∀ d ∈ s.auth.decoded, d ∈ s'.auth.decoded) :
    Trusted cfg jwt s' := by
  have haccepted : ∀ claims, accepted s claims → accepted s' claims := by
    rintro claims ⟨d, hd, hclaims⟩
    exact ⟨d, hdecoded d hd, hclaims⟩
  refine ⟨hauth, ?_, ?_⟩
  · intro k session hfind
    rw [hgateway] at hfind
    exact haccepted _ (h.issued k session hfind)
  · intro m hm hcall
    rw [hgateway] at hm
    obtain ⟨claims, hclaims, hgranted⟩ := h.guarded m hm hcall
    exact ⟨claims, haccepted claims hclaims, hgranted⟩

/-- A request that is posted and a session that ends keep the trust. -/
theorem Trusted.gateway_step (h : Trusted cfg jwt s) (loads : String → Except PyErr Json)
    (a : GatewayAct) (hact : ∀ session_id claims, a ≠ .sse session_id claims) :
    (s.gateway.step loads a).Issued (accepted s) ∧ (s.gateway.step loads a).Guarded (accepted s) := by
  apply Gateway.trusted_step h.issued h.guarded
  intro session_id claims hsse
  exact absurd hsse (hact session_id claims)

theorem Trusted.close (h : Trusted cfg jwt s) (session_id : String) :
    Trusted cfg jwt (s.finish session_id) := by
  have hclose := h.gateway_step (fun _ => .ok .null) (.close session_id) (by simp)
  exact ⟨h.auth, hclose.1, hclose.2⟩

theorem Trusted.loop (h : Trusted cfg jwt s) (session_id : String) (deadline : Int) :
    Trusted cfg jwt (s.loop session_id deadline) := by
  unfold SessionGateway.loop
  split
  · exact ⟨h.auth, h.issued, h.guarded⟩
  · exact h.close session_id

theorem Trusted.step (h : Trusted cfg jwt s) {a : SseAct}
    (hstep : s.step cfg jwt loads a = some s') : Trusted cfg jwt s' := by
  cases a with
  | get_sse id authorization body =>
    simp only [SessionGateway.step] at hstep
    split at hstep
    · cases hstep
      exact h.mono rfl (Auth.good_require_token h.auth id authorization body)
        (Auth.decoded_require_token id authorization body)
    · cases hstep
  | fetched id reply =>
    simp only [SessionGateway.step] at hstep
    split at hstep
    · rename_i token hrequest
      have hknown := h.auth.fetching hrequest
      cases hstep
      exact h.mono rfl (Auth.good_fetch_jwks h.auth hknown id token reply)
        (Auth.decoded_fetch_jwks id token reply)
    · cases hstep
  | sse_endpoint id session_id =>
    simp only [SessionGateway.step] at hstep
    split at hstep
    · rename_i claims hrequest
      split at hstep
      · cases hstep
        exact h.mono rfl (Auth.good_answer h.auth id at_capacity) fun d hd => hd
      · split at hstep
        · cases hstep
          refine ⟨Auth.good_requests h.auth (by simp) (by simp) _, ?_, h.guarded⟩
          exact Gateway.issued_set h.issued (h.auth.accepted hrequest)
        · cases hstep
    · cases hstep
  | first_chunk session_id =>
    simp only [SessionGateway.step] at hstep
    split at hstep
    · cases hstep
      exact ⟨h.auth, h.issued, h.guarded⟩
    · cases hstep
  | next_chunk session_id =>
    simp only [SessionGateway.step] at hstep
    split at hstep
    · cases hstep
      exact h.loop session_id _
    · cases hstep
      exact h.loop session_id _
    · cases hstep
  | take session_id =>
    simp only [SessionGateway.step] at hstep
    split at hstep
    · rename_i hsession
      have hclaims := h.issued session_id _ hsession
      cases hstep
      exact ⟨h.auth, Gateway.issued_set h.issued hclaims, h.guarded⟩
    · cases hstep
  | keepalive session_id =>
    simp only [SessionGateway.step] at hstep
    split at hstep
    · split at hstep
      · cases hstep
        exact ⟨h.auth, h.issued, h.guarded⟩
      · cases hstep
    · cases hstep
  | gone session_id =>
    simp only [SessionGateway.step] at hstep
    split at hstep
    · cases hstep
      split
      · exact h.close session_id
      · exact ⟨h.auth, h.issued, h.guarded⟩
    · cases hstep
  | post session_id body x =>
    cases hstep
    have hpost := h.gateway_step loads (.post session_id body x) (by simp)
    exact ⟨h.auth, hpost.1, hpost.2⟩
  | elapse ms =>
    cases hstep
    exact h.mono rfl (Auth.good_elapse h.auth ms) fun d hd => hd

theorem trusted_start : Trusted cfg jwt {} where
  auth := Auth.good_start
  issued _ _ hfind := nomatch hfind
  guarded := nofun

/-- A gateway that reads its keys from an authorization server. -/
def guarded_by_server : McpWebGatewaySettings :=
  { oauth_issuer_url := "https://auth.example.com", max_sessions := 1 }

/-- `jwt.decode` of a token that a client signed with a secret of its own. -/
def self_signed (_ : Nat) (args : JwtArgs) : Except JwtFailure Dict :=
  match args.key with
  | .secret "own" => .ok [("sub", .str "user"), ("azp", .str "client"), ("scope", .str "mcp:strategy:read")]
  | _ => .error .jwt_error

/-- A client lists the strategies. It sends the settings with its secret along with its token. -/
def calling : List SseAct :=
  [.get_sse 0 "Bearer token" (some { oauth_jwt_secret := "own" }), .sse_endpoint 0 "s1",
    .first_chunk "s1", .next_chunk "s1", .post "s1" (some (.obj listing)) answering, .take "s1"]

/-- Whatever the clients, the authorization server and the internal server do: a tool that is posted
was granted by a token that was checked by the gateway's settings, or by settings that a request
brought: with their secret, or with keys read from their server less than an hour before. -/
theorem posted_tools_are_vouched (acts : List SseAct) (hrun : run cfg jwt loads {} acts = some s) :
    ∀ m ∈ s.gateway.posted, m.method = "tools/call" →
      ∃ d ∈ s.auth.decoded, GrantedCall d.claims.granted_scopes m ∧
        Vouched jwt s.auth.fetched d ∧ (d.cfg = cfg ∨ d.cfg ∈ s.auth.brought) := by
  have h : Trusted cfg jwt s := progress.keeps_run (Trusted cfg jwt)
    (fun hs hstep => hs.step hstep) trusted_start hrun
  intro m hm hcall
  obtain ⟨claims, ⟨d, hd, rfl⟩, hgranted⟩ := h.guarded m hm hcall
  exact ⟨d, hd, hgranted, h.auth.decoded d hd⟩

/-- No key of the server was read, and the tool is posted. -/
theorem a_client_brings_its_secret :
    (after guarded_by_server self_signed {} calling).auth.fetched = [] ∧
      (after guarded_by_server self_signed {} calling).gateway.posted.length = 3 ∧
      ∀ m ∈ (after guarded_by_server self_signed {} calling).gateway.posted,
        m.method = "tools/call" →
        ∃ d ∈ (after guarded_by_server self_signed {} calling).auth.decoded,
          GrantedCall d.claims.granted_scopes m ∧ Vouched self_signed [] d ∧
            (d.cfg = guarded_by_server ∨ d.cfg ∈ [{ oauth_jwt_secret := "own" }]) := by
  have hrun : run guarded_by_server self_signed answers {} calling =
      some (after guarded_by_server self_signed {} calling) := rfl
  exact ⟨rfl, rfl, posted_tools_are_vouched calling hrun⟩

/-! ## A client that fills the gateway -/

/-- A token, with settings by which it is accepted. -/
structure OwnToken (jwt : Nat → JwtArgs → Except JwtFailure Dict) where
  settings : McpWebGatewaySettings
  secret : String
  authorization : String
  token : String
  payload : Dict
  claims : TokenClaims
  bearer : bearer authorization = some token
  path : settings.path = .secret secret
  decoded : jwt 0 (settings.secret_args token secret) = .ok payload
  claimed : TokenClaims.from_payload payload = .ok claims

/-- Nothing is going on, and the sessions are those that were lost. -/
structure Idle (cfg : McpWebGatewaySettings) (s : SessionGateway) : Prop where
  registered : Registered cfg s
  now : s.auth.now = 0
  request : s.auth.requests 0 = none
  streams : ∀ k, s.streams.find k = none

theorem Idle.count (h : Idle cfg s) : s.session_count ≤ s.lost.length := by
  apply Table.length_le_of_keys
  intro k hk
  rcases (h.registered.session k).mp hk with hstream | hlost
  · rw [h.streams k] at hstream
    cases hstream
  · exact hlost

theorem accepted_of_own_token (cfg : McpWebGatewaySettings) (t : OwnToken jwt)
    (hnow : s.auth.now = 0) :
    (s.auth.require_token cfg jwt 0 t.authorization (some t.settings)).requests 0 =
        some (.accepted t.claims) ∧
      (s.auth.require_token cfg jwt 0 t.authorization (some t.settings)).now = 0 := by
  have hdecoded : jwt (s.auth.bring (some t.settings)).now (t.settings.secret_args t.token t.secret) =
      .ok t.payload := by
    rw [← t.decoded, ← hnow]
    rfl
  unfold Auth.require_token Auth.check_token
  simp only [t.bearer, Option.getD_some, t.path]
  unfold Auth.decode
  simp only [hdecoded, t.claimed]
  exact ⟨Function.update_self _ _ _, hnow⟩

/-- Only this stream is open, and it was not asked for a chunk yet. -/
structure Opened (cfg : McpWebGatewaySettings) (session_id : String) (s : SessionGateway) : Prop where
  registered : Registered cfg s
  now : s.auth.now = 0
  request : s.auth.requests 0 = none
  streams : ∀ k, s.streams.find k = if k = session_id then some ⟨session_id, .created⟩ else none

theorem Idle.opens (h : Idle cfg s) (t : OwnToken jwt)
    (hroom : (s.lost.length : Int) < cfg.max_sessions) :
    ∃ session_id s', progress.Leads (fun self => self.step cfg jwt loads) s s' ∧
      Opened cfg session_id s' ∧ s'.lost = s.lost := by
  obtain ⟨session_id, hfresh⟩ :=
    Infinite.exists_notMem_finset (s.gateway.sessions.rows.map (·.session_id)).toFinset
  obtain ⟨haccepted, hnow⟩ := accepted_of_own_token cfg t h.now
  generalize hauth : s.auth.require_token cfg jwt 0 t.authorization (some t.settings) = auth at *
  have hask : s.step cfg jwt loads (.get_sse 0 t.authorization (some t.settings)) =
      some { s with auth } := by
    simp [step, h.request, hauth]
  have hopen : SessionGateway.step cfg jwt loads { s with auth } (.sse_endpoint 0 session_id) =
      some ({ s with auth }.open_session 0 session_id t.claims) := by
    have hsmall : ¬ cfg.max_sessions ≤ (SessionGateway.session_count { s with auth } : Int) := by
      -- No stream is open, so the registry has only the lost sessions.
      have hcount : SessionGateway.session_count { s with auth } ≤ s.lost.length := h.count
      omega
    have hfree : (s.gateway.sessions.find session_id).isNone = true := by
      rw [List.mem_toFinset, Table.mem_keys] at hfresh
      simpa using hfresh
    simp only [step, haccepted, if_neg hsmall, if_pos hfree]
  have hleads := (progress.Leads.of_step hask).trans (.of_step hopen)
  refine ⟨session_id, _, hleads, ⟨?_, hnow, ?_, ?_⟩, rfl⟩
  · exact hleads.keeps (Registered cfg) (fun hs hstep => hs.step hstep) h.registered
  · have hdone : Function.update auth.requests 0 none 0 = none := Function.update_self _ _ _
    exact hdone
  · intro k
    rw [open_session, find_set_stream, h.streams k]

theorem Opened.ends {session_id : String} (h : Opened cfg session_id s) :
    ∃ s', progress.Leads (fun self => self.step cfg jwt loads) s s' ∧ Idle cfg s' ∧
      s'.lost.length = s.lost.length + 1 := by
  have hcreated : s.streams.find session_id = some ⟨session_id, .created⟩ := by
    rw [h.streams, if_pos rfl]
  have hstarted : (s.set_stream ⟨session_id, .endpoint⟩).streams.find session_id =
      some ⟨session_id, .endpoint⟩ := by
    rw [find_set_stream, if_pos rfl]
  have hstart : s.step cfg jwt loads (.first_chunk session_id) =
      some (s.set_stream ⟨session_id, .endpoint⟩) := by
    simp only [step, hcreated]
  have hend : (s.set_stream ⟨session_id, .endpoint⟩).step cfg jwt loads (.gone session_id) =
      some { s.set_stream ⟨session_id, .endpoint⟩ with
        streams := (s.set_stream ⟨session_id, .endpoint⟩).streams.erase session_id
        lost := s.lost ++ [session_id] } := by
    simp only [step, hstarted]
    rfl
  have hleads := (progress.Leads.of_step hstart).trans (.of_step hend)
  refine ⟨_, hleads, ⟨?_, h.now, h.request, ?_⟩, List.length_append⟩
  · exact hleads.keeps (Registered cfg) (fun hs hstep => hs.step hstep) h.registered
  · intro k
    rw [Table.find_erase, find_set_stream, h.streams k]
    split
    · rfl
    · rfl

theorem idle_start : Idle cfg {} where
  registered := registered_start
  now := rfl
  request := rfl
  streams := fun _ => rfl

theorem leads_to_lost (t : OwnToken jwt) {n : Nat} (hn : n ≤ cfg.max_sessions.toNat) :
    ∃ s, progress.Leads (fun self => self.step cfg jwt loads) {} s ∧ Idle cfg s ∧ s.lost.length = n := by
  induction n with
  | zero => exact ⟨{}, .rfl, idle_start, rfl⟩
  | succ n ih =>
    obtain ⟨s, hleads, hidle, hlost⟩ := ih (by omega)
    obtain ⟨session_id, opened, hopens, hopened, hsame⟩ := hidle.opens t (by omega)
    obtain ⟨s', hends, hidle', hlost'⟩ := hopened.ends
    exact ⟨s', (hleads.trans hopens).trans hends, hidle', by rw [hlost', hsame, hlost]⟩

def own_token : OwnToken self_signed where
  settings := { oauth_jwt_secret := "own" }
  secret := "own"
  authorization := "Bearer token"
  token := "token"
  payload := [("sub", .str "user"), ("azp", .str "client"), ("scope", .str "mcp:strategy:read")]
  claims := ⟨"user", "client", ["mcp:strategy:read"]⟩
  bearer := rfl
  path := rfl
  decoded := rfl
  claimed := rfl

/-- Whatever the settings of the gateway: a client with a token of its own can take all places for
ever. After some steps no stream is open, and none ever is. -/
theorem a_client_fills_the_gateway (t : OwnToken jwt) :
    ∃ acts s, run cfg jwt loads {} acts = some s ∧
      ∀ more s', run cfg jwt loads s more = some s' → s'.streams.rows = [] := by
  obtain ⟨s, ⟨acts, hrun⟩, hidle, hlost⟩ :=
    leads_to_lost t (Nat.le_refl cfg.max_sessions.toNat)
  refine ⟨acts, s, hrun, ?_⟩
  intro more s' hmore
  have hfull : Full cfg s := ⟨hidle.registered, by omega⟩
  exact (hfull.after_run hmore).no_streams

theorem a_self_signed_token_fills_the_gateway :
    ∃ acts s, run guarded_by_server self_signed answers {} acts = some s ∧
      ∀ more s', run guarded_by_server self_signed answers s more = some s' →
        s'.streams.rows = [] := a_client_fills_the_gateway own_token

end SessionGateway

end trading_platform.mcp_web_gateway
