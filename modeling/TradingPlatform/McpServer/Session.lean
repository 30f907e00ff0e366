-- The SSE sessions of the MCP server, in time. The loop of a session waits for a response
-- for fifteen seconds, and only a wait that times out renews the session's key in Redis.
import TradingPlatform.Lib.Table
import TradingPlatform.Shared.Redis

open keyed
open trading_platform.shared

namespace trading_platform.mcp_server

def RedisKeys.mcp_session (session_id : String) : String := "mcp:session:" ++ session_id

/-! ## Redis with a TTL -/

/-- `SETEX key seconds value`. -/
def Redis.setex (r : Redis) (now : Nat) (key : String) (seconds : Nat) (value : String) : Redis :=
  r.put key ⟨value, some (now + 1000 * seconds)⟩

/-- `EXPIRE key seconds`: a key that is gone stays gone. -/
def Redis.expire (r : Redis) (now : Nat) (key : String) (seconds : Nat) : Redis :=
  match r.live now key with
  | some value => r.put key ⟨value, some (now + 1000 * seconds)⟩
  | none => r

/-! ## The server -/

/-- The time that `wait_for` gives a wait, in ms. -/
def WAIT_MS : Nat := 15000

/-- An open SSE connection: the responses in its queue, and the time at which its loop began
to wait for the next one. -/
structure Stream where
  session_id : String
  queue : List String
  waiting_since : Nat

structure McpServer where
  /-- In ms. -/
  now : Nat := 0
  redis : Redis := .empty
  /-- The keys of the dict `_local`. -/
  local_ids : List String := []
  streams : Table Stream Stream.session_id := .empty
  /-- The sessions of the requests that found their queue and have not answered yet. -/
  handling : List String := []

inductive SessionAct where
  /-- `GET /sse` opens a session. -/
  | sse (session_id payload : String)
  /-- `POST /messages` looks for the queue of its session. -/
  | post (session_id : String)
  /-- A request that found its queue puts its response there, or it fails before it does. -/
  | put (session_id response : String)
  | fail (session_id : String)
  /-- The wait of a loop gives a response, or it times out. -/
  | take (session_id : String)
  | keepalive (session_id : String)
  /-- The client is gone. -/
  | close (session_id : String)
  | elapse (ms : Nat)
  deriving DecidableEq

namespace McpServer

variable (timeout_s : Nat) (self : McpServer)

/-! ## Session registry -/

def set_stream (x : Stream) : McpServer :=
  { self with streams :=
      self.streams.upsert x (fun r => { x with session_id := r.session_id }) fun _ => rfl }

/-- `RedisSessionRegistry.create`, and the loop of the new connection. -/
def create (session_id payload : String) : McpServer :=
  { self with
    local_ids := session_id :: self.local_ids
    redis := Redis.setex self.redis self.now (RedisKeys.mcp_session session_id) timeout_s payload
    }.set_stream ⟨session_id, [], self.now⟩

/-- `RedisSessionRegistry.get`: whether the queue is found. A session whose key is gone is
forgotten. -/
def get (session_id : String) : Bool × McpServer :=
  if session_id ∈ self.local_ids then
    if (self.redis.live self.now (RedisKeys.mcp_session session_id)).isSome then (true, self)
    else (false, { self with local_ids := self.local_ids.filter (· ≠ session_id) })
  else (false, self)

def remove (session_id : String) : McpServer :=
  { self with
    local_ids := self.local_ids.filter (· ≠ session_id)
    redis := self.redis.remove (RedisKeys.mcp_session session_id)
    streams := self.streams.erase session_id }

def refresh_ttl (session_id : String) : McpServer :=
  { self with
    redis := Redis.expire self.redis self.now (RedisKeys.mcp_session session_id) timeout_s }

/-- The request is answered. -/
def handled (session_id : String) : McpServer :=
  { self with handling := self.handling.erase session_id }

/-! ## Steps -/

/-- One step, if it can happen. The loops are scheduled promptly: no time passes while a
response is in a queue, or after a wait is due. -/
def step : SessionAct → Option McpServer
  | .sse session_id payload =>
    if (self.streams.find session_id).isNone then some (self.create timeout_s session_id payload)
    else none
  | .post session_id =>
    let (found, server) := self.get session_id
    some (if found then { server with handling := session_id :: server.handling } else server)
  | .put session_id response =>
    if session_id ∈ self.handling then
      match self.streams.find session_id with
      | some x => some ((self.handled session_id).set_stream { x with queue := x.queue ++ [response] })
      | none => some (self.handled session_id)
    else none
  | .fail session_id =>
    if session_id ∈ self.handling then some (self.handled session_id) else none
  | .take session_id =>
    match self.streams.find session_id with
    | some ⟨_, _ :: queue, _⟩ => some (self.set_stream ⟨session_id, queue, self.now⟩)
    | _ => none
  | .keepalive session_id =>
    match self.streams.find session_id with
    | some ⟨_, [], waiting_since⟩ =>
      if self.now = waiting_since + WAIT_MS then
        some ((self.refresh_ttl timeout_s session_id).set_stream ⟨session_id, [], self.now⟩)
      else none
    | _ => none
  | .close session_id =>
    if (self.streams.find session_id).isSome then some (self.remove session_id) else none
  | .elapse ms =>
    if ∀ x ∈ self.streams.rows, x.queue = [] ∧ self.now + ms ≤ x.waiting_since + WAIT_MS then
      some { self with now := self.now + ms }
    else none

def run : McpServer → List SessionAct → Option McpServer
  | self, [] => some self
  | self, a :: acts => (self.step timeout_s a).bind fun s => run s acts

/-- A response is put in a queue while the key of its session has more than the time of a
wait to live. -/
def put_in_time : SessionAct → Bool
  | .put session_id _ => (self.streams.find session_id).isNone ||
      (self.redis.live (self.now + WAIT_MS) (RedisKeys.mcp_session session_id)).isSome
  | _ => true

def puts_in_time : McpServer → List SessionAct → Bool
  | _, [] => true
  | self, a :: acts =>
    self.put_in_time a &&
      match self.step timeout_s a with
      | some s => puts_in_time s acts
      | none => true

/-- The key of the session is there, and a request finds the queue. -/
def Found (session_id : String) : Prop :=
  (self.redis.live self.now (RedisKeys.mcp_session session_id)).isSome = true ∧
    (self.get session_id).1 = true

/-! ## Keys and streams -/

theorem mcp_session_inj {a b : String} (h : RedisKeys.mcp_session a = RedisKeys.mcp_session b) :
    a = b := RedisKeys.append_left_inj h

theorem find_set_stream (x : Stream) (k : String) :
    (self.set_stream x).streams.find k =
      if k = x.session_id then some x else self.streams.find k := by
  have hrow : ∀ r : Stream, r.session_id = x.session_id →
      { x with session_id := r.session_id } = x := by
    intro r hr
    rw [hr]
  unfold set_stream
  rw [Table.find_upsert_row hrow]

theorem expire_keys (r : Redis) (now : Nat) {key other : String} (seconds : Nat)
    (h : other ≠ key) : (Redis.expire r now key seconds).keys other = r.keys other := by
  unfold Redis.expire
  cases r.live now key with
  | none => rfl
  | some value => simp [h]

/-! ## What a step does -/

/-- What is left after an act that can happen. -/
inductive Next : SessionAct → McpServer → Prop where
  | sse {session_id : String} (hnew : self.streams.find session_id = none) (payload : String) :
    Next (.sse session_id payload) (self.create timeout_s session_id payload)
  | post (session_id : String) (handling : List String) :
    Next (.post session_id) { (self.get session_id).2 with handling }
  | put {x : Stream} (hfind : self.streams.find x.session_id = some x) (response : String) :
    Next (.put x.session_id response)
      ((self.handled x.session_id).set_stream { x with queue := x.queue ++ [response] })
  | put_late (session_id response : String) :
    self.streams.find session_id = none →
      Next (.put session_id response) (self.handled session_id)
  | fail (session_id : String) : Next (.fail session_id) (self.handled session_id)
  | take {x : Stream} (hfind : self.streams.find x.session_id = some x) (hqueue : x.queue ≠ [])
    (queue : List String) :
    Next (.take x.session_id) (self.set_stream ⟨x.session_id, queue, self.now⟩)
  | keepalive {x : Stream} (hfind : self.streams.find x.session_id = some x) (hqueue : x.queue = [])
    (hdue : self.now = x.waiting_since + WAIT_MS) :
    Next (.keepalive x.session_id)
      ((self.refresh_ttl timeout_s x.session_id).set_stream ⟨x.session_id, [], self.now⟩)
  | close (session_id : String) : Next (.close session_id) (self.remove session_id)
  | elapse {ms : Nat}
    (hdue : ∀ x ∈ self.streams.rows, x.queue = [] ∧ self.now + ms ≤ x.waiting_since + WAIT_MS) :
    Next (.elapse ms) { self with now := self.now + ms }

theorem next_of_step {a : SessionAct} {s : McpServer} (hstep : self.step timeout_s a = some s) :
    Next timeout_s self a s := by
  cases a with
  | sse session_id payload =>
    simp only [step] at hstep
    split at hstep
    · rename_i hnew
      cases hstep
      exact .sse (Option.isNone_iff_eq_none.mp hnew) payload
    · cases hstep
  | post session_id =>
    simp only [step] at hstep
    split at hstep
    · cases hstep
      exact .post session_id _
    · cases hstep
      exact .post session_id (self.get session_id).2.handling
  | put session_id response =>
    simp only [step] at hstep
    split at hstep
    · cases hfind : self.streams.find session_id with
      | none =>
        rw [hfind] at hstep
        cases hstep
        exact .put_late session_id response hfind
      | some x =>
        rw [hfind] at hstep
        cases hstep
        obtain rfl := Table.key_of_find hfind
        exact .put hfind response
    · cases hstep
  | fail session_id =>
    simp only [step] at hstep
    split at hstep
    · cases hstep
      exact .fail session_id
    · cases hstep
  | take session_id =>
    simp only [step] at hstep
    split at hstep
    · rename_i id m queue since hfind
      cases hstep
      obtain rfl := Table.key_of_find hfind
      exact .take (x := ⟨_, m :: queue, since⟩) hfind (List.cons_ne_nil _ _) queue
    · cases hstep
  | keepalive session_id =>
    simp only [step] at hstep
    split at hstep
    · rename_i id since hfind
      split at hstep
      · rename_i hdue
        cases hstep
        obtain rfl := Table.key_of_find hfind
        exact .keepalive (x := ⟨_, [], since⟩) hfind rfl hdue
      · cases hstep
    · cases hstep
  | close session_id =>
    simp only [step] at hstep
    split at hstep
    · cases hstep
      exact .close session_id
    · cases hstep
  | elapse ms =>
    simp only [step] at hstep
    split at hstep
    · rename_i hdue
      cases hstep
      exact .elapse hdue
    · cases hstep

/-! ## A session that is kept -/

/-- The time from which the next wait without a response counts. -/
def waits_from (x : Stream) (now : Nat) : Nat := if x.queue = [] then x.waiting_since else now

/-- The key outlives the next wait, whenever that starts. -/
structure Kept (s : McpServer) (x : Stream) : Prop where
  registered : x.session_id ∈ s.local_ids
  prompt : s.now ≤ x.waiting_since + WAIT_MS
  outlives : ∃ value t, s.redis.keys (RedisKeys.mcp_session x.session_id) =
    some ⟨value, some t⟩ ∧ waits_from x s.now + WAIT_MS < t

def AllKept : Prop := ∀ session_id x, self.streams.find session_id = some x → self.Kept x

section Laws

variable {timeout_s : Nat} {self : McpServer}

theorem live_of_kept {x : Stream} (h : self.Kept x) :
    (self.redis.live self.now (RedisKeys.mcp_session x.session_id)).isSome = true := by
  obtain ⟨value, t, hkey, ht⟩ := h.outlives
  have hprompt := h.prompt
  have hlive : self.now < t := by
    unfold waits_from at ht
    by_cases hqueue : x.queue = []
    · rw [if_pos hqueue] at ht
      omega
    · rw [if_neg hqueue] at ht
      omega
  simp [Redis.live, hkey, hlive]

theorem get_of_kept {x : Stream} (h : self.Kept x) : self.get x.session_id = (true, self) := by
  unfold get
  rw [if_pos h.registered, if_pos (live_of_kept h)]

/-- What does not touch the session keeps it. -/
theorem kept_congr {s : McpServer} {x : Stream} (h : self.Kept x)
    (hlocal : x.session_id ∈ s.local_ids)
    (hkeys : s.redis.keys (RedisKeys.mcp_session x.session_id) =
      self.redis.keys (RedisKeys.mcp_session x.session_id))
    (hnow : s.now = self.now) : s.Kept x where
  registered := hlocal
  prompt := by
    rw [hnow]
    exact h.prompt
  outlives := by
    rw [hkeys, hnow]
    exact h.outlives

/-- A stream whose wait starts now, with a key that outlives it. -/
theorem kept_now {s : McpServer} {x : Stream} (hlocal : x.session_id ∈ s.local_ids)
    (hsince : x.waiting_since = s.now) {value : String} {t : Nat}
    (hkey : s.redis.keys (RedisKeys.mcp_session x.session_id) = some ⟨value, some t⟩)
    (ht : s.now + WAIT_MS < t) : s.Kept x where
  registered := hlocal
  prompt := by omega
  outlives := by
    refine ⟨value, t, hkey, ?_⟩
    unfold waits_from
    split
    · omega
    · exact ht

theorem all_kept_create (htimeout : 15 < timeout_s) (h : self.AllKept) (session_id payload : String) :
    (self.create timeout_s session_id payload).AllKept := by
  intro k x hfind
  unfold create at hfind
  rw [find_set_stream] at hfind
  by_cases hk : k = session_id
  · rw [if_pos hk] at hfind
    cases hfind
    have hkey : (self.create timeout_s session_id payload).redis.keys
        (RedisKeys.mcp_session session_id) =
          some ⟨payload, some (self.now + 1000 * timeout_s)⟩ := by
      simp [create, set_stream, Redis.setex]
    have hlater : self.now + WAIT_MS < self.now + 1000 * timeout_s := by
      unfold WAIT_MS
      omega
    exact kept_now (s := self.create timeout_s session_id payload) List.mem_cons_self rfl hkey
      hlater
  · rw [if_neg hk] at hfind
    have hid := Table.key_of_find hfind
    refine kept_congr (h k x hfind) (List.mem_cons_of_mem _ (h k x hfind).registered) ?_ rfl
    have hne : RedisKeys.mcp_session x.session_id ≠ RedisKeys.mcp_session session_id := by
      intro he
      exact hk (hid.symm.trans (mcp_session_inj he))
    simp [create, set_stream, Redis.setex, hne]

theorem all_kept_get (h : self.AllKept) (session_id : String) : (self.get session_id).2.AllKept := by
  intro k x hfind
  unfold get at hfind ⊢
  by_cases hlocal : session_id ∈ self.local_ids
  · rw [if_pos hlocal] at hfind ⊢
    by_cases hlive :
        (self.redis.live self.now (RedisKeys.mcp_session session_id)).isSome = true
    · rw [if_pos hlive] at hfind ⊢
      exact h k x hfind
    · rw [if_neg hlive] at hfind ⊢
      have hkept := h k x hfind
      refine kept_congr hkept (List.mem_filter.mpr ⟨hkept.registered, ?_⟩) rfl rfl
      have hne : x.session_id ≠ session_id := by
        intro he
        rw [← he] at hlive
        exact hlive (live_of_kept hkept)
      simpa using hne
  · rw [if_neg hlocal] at hfind ⊢
    exact h k x hfind

/-- A stream that is set while the others stay as they are. -/
theorem all_kept_set {s : McpServer} (h : s.AllKept) {x : Stream} (hx : s.Kept x) :
    (s.set_stream x).AllKept := by
  intro k y hfind
  rw [find_set_stream] at hfind
  by_cases hk : k = x.session_id
  · rw [if_pos hk] at hfind
    cases hfind
    exact kept_congr hx hx.registered rfl rfl
  · rw [if_neg hk] at hfind
    exact kept_congr (h k y hfind) (h k y hfind).registered rfl rfl

theorem all_kept_handled (h : self.AllKept) (session_id : String) :
    (self.handled session_id).AllKept := by
  intro k x hfind
  exact kept_congr (h k x hfind) (h k x hfind).registered rfl rfl

theorem all_kept_put (h : self.AllKept) {x : Stream} (hfind : self.streams.find x.session_id = some x)
    (hput : (self.redis.live (self.now + WAIT_MS) (RedisKeys.mcp_session x.session_id)).isSome = true)
    (response : String) : (self.set_stream { x with queue := x.queue ++ [response] }).AllKept := by
  apply all_kept_set h
  have hkept := h x.session_id x hfind
  obtain ⟨value, t, hkey, -⟩ := hkept.outlives
  refine ⟨hkept.registered, hkept.prompt, value, t, hkey, ?_⟩
  have ht : self.now + WAIT_MS < t := by
    simpa [Redis.live, hkey] using hput
  unfold waits_from
  rw [if_neg (by simp)]
  exact ht

/-- The loop takes a response and waits for the next one. -/
theorem all_kept_take (h : self.AllKept) {x : Stream} (hfind : self.streams.find x.session_id = some x)
    (hqueue : x.queue ≠ []) (queue : List String) :
    (self.set_stream ⟨x.session_id, queue, self.now⟩).AllKept := by
  have hkept := h x.session_id x hfind
  obtain ⟨value, t, hkey, ht⟩ := hkept.outlives
  unfold waits_from at ht
  rw [if_neg hqueue] at ht
  apply all_kept_set h
  exact kept_now (x := ⟨x.session_id, queue, self.now⟩) hkept.registered rfl hkey ht

/-- The wait times out while the key lives, and the key is renewed. -/
theorem all_kept_keepalive (htimeout : 15 < timeout_s) (h : self.AllKept) {x : Stream}
    (hfind : self.streams.find x.session_id = some x) :
    ((self.refresh_ttl timeout_s x.session_id).set_stream
      ⟨x.session_id, [], self.now⟩).AllKept := by
  have hkept := h x.session_id x hfind
  have hlive := live_of_kept hkept
  obtain ⟨value, hvalue⟩ := Option.isSome_iff_exists.mp hlive
  have hself : (self.refresh_ttl timeout_s x.session_id).redis.keys
      (RedisKeys.mcp_session x.session_id) =
        some ⟨value, some (self.now + 1000 * timeout_s)⟩ := by
    simp [refresh_ttl, Redis.expire, hvalue]
  have hrenewed : (self.refresh_ttl timeout_s x.session_id).Kept ⟨x.session_id, [], self.now⟩ := by
    have hlater : self.now + WAIT_MS < self.now + 1000 * timeout_s := by
      unfold WAIT_MS
      omega
    exact kept_now (x := ⟨x.session_id, [], self.now⟩) (s := self.refresh_ttl timeout_s x.session_id)
      hkept.registered rfl hself hlater
  intro k y hy
  rw [find_set_stream] at hy
  by_cases hk : k = x.session_id
  · rw [if_pos hk] at hy
    cases hy
    exact kept_congr hrenewed hrenewed.registered rfl rfl
  · rw [if_neg hk] at hy
    have hid := Table.key_of_find hy
    have hne : RedisKeys.mcp_session y.session_id ≠ RedisKeys.mcp_session x.session_id := by
      intro he
      exact hk (hid.symm.trans (mcp_session_inj he))
    exact kept_congr (h k y hy) (h k y hy).registered (expire_keys _ _ _ hne) rfl

theorem all_kept_remove (h : self.AllKept) (session_id : String) :
    (self.remove session_id).AllKept := by
  intro k x hfind
  have herase : (self.streams.erase session_id).find k = some x := hfind
  rw [Table.find_erase] at herase
  by_cases hk : k = session_id
  · rw [if_pos hk] at herase
    cases herase
  · rw [if_neg hk] at herase
    have hkept := h k x herase
    have hid := Table.key_of_find herase
    have hne : x.session_id ≠ session_id := fun he => hk (hid.symm.trans he)
    refine kept_congr hkept (List.mem_filter.mpr ⟨hkept.registered, by simpa using hne⟩) ?_ rfl
    have hkeys : RedisKeys.mcp_session x.session_id ≠ RedisKeys.mcp_session session_id :=
      fun he => hne (mcp_session_inj he)
    simp [remove, hkeys]

theorem all_kept_step (htimeout : 15 < timeout_s) (h : self.AllKept) {a : SessionAct}
    (hput : self.put_in_time a = true) {s : McpServer} (hstep : self.step timeout_s a = some s) :
    s.AllKept := by
  cases next_of_step timeout_s self hstep with
  | sse hnew payload => exact all_kept_create htimeout h _ payload
  | post session_id handling =>
    have hget := all_kept_get h session_id
    intro k x hfind
    exact kept_congr (hget k x hfind) (hget k x hfind).registered rfl rfl
  | @put x hfind response =>
    have hlive : (self.redis.live (self.now + WAIT_MS)
        (RedisKeys.mcp_session x.session_id)).isSome = true := by
      simpa [put_in_time, hfind] using hput
    exact all_kept_put (all_kept_handled h x.session_id) hfind hlive response
  | put_late session_id response hgone => exact all_kept_handled h session_id
  | fail session_id => exact all_kept_handled h session_id
  | take hfind hqueue queue => exact all_kept_take h hfind hqueue queue
  | keepalive hfind hqueue hdue => exact all_kept_keepalive htimeout h hfind
  | close session_id => exact all_kept_remove h session_id
  | elapse hdue =>
    intro k x hfind
    have hkept := h k x hfind
    obtain ⟨hqueue, hms⟩ := hdue x (Table.find_eq_some.mp hfind).1
    obtain ⟨value, t, hkey, ht⟩ := hkept.outlives
    refine ⟨hkept.registered, hms, value, t, hkey, ?_⟩
    unfold waits_from at ht ⊢
    rw [if_pos hqueue] at ht ⊢
    exact ht

theorem all_kept_run (htimeout : 15 < timeout_s) {acts : List SessionAct} (h : self.AllKept)
    (hputs : self.puts_in_time timeout_s acts = true) {s : McpServer}
    (hrun : self.run timeout_s acts = some s) : s.AllKept := by
  induction acts generalizing self with
  | nil =>
    cases hrun
    exact h
  | cons a acts ih =>
    obtain ⟨hput, hrest⟩ := Bool.and_eq_true_iff.mp hputs
    obtain ⟨next, hstep, hrun⟩ := Option.bind_eq_some_iff.mp hrun
    rw [hstep] at hrest
    exact ih (all_kept_step htimeout h hput hstep) hrest hrun

end Laws

/-- In a run in which every response is put while the key of its session has the time of a
wait to live, every open session has its key and is found, in every state that is reached. -/
theorem open_sessions_are_found (timeout_s : Nat) (acts : List SessionAct) (s : McpServer)
    (htimeout : 15 < timeout_s) (hputs : ({} : McpServer).puts_in_time timeout_s acts = true)
    (hrun : ({} : McpServer).run timeout_s acts = some s) :
    ∀ session_id x, s.streams.find session_id = some x → s.Found session_id := by
  have hempty : ({} : McpServer).AllKept := by
    intro session_id x hfind
    cases hfind
  have hkept := all_kept_run htimeout hempty hputs hrun
  intro session_id x hfind
  obtain rfl := Table.key_of_find hfind
  have hx := hkept x.session_id x hfind
  refine ⟨live_of_kept hx, ?_⟩
  rw [get_of_kept hx]

/-! ## A response that is put too late -/

/-- From the time `p` on no wait times out before the key is gone. -/
structure Doomed (p : Nat) (session_id : String) (s : McpServer) : Prop where
  later : p ≤ s.now
  waits : ∃ x, s.streams.find session_id = some x ∧ (x.queue ≠ [] ∨ p ≤ x.waiting_since)
  ends : ∀ value expires, s.redis.keys (RedisKeys.mcp_session session_id) =
    some ⟨value, expires⟩ → ∃ t, expires = some t ∧ t ≤ p + WAIT_MS

section Late

variable {timeout_s p : Nat} {session_id : String} {self : McpServer}

theorem not_live_of_doomed (h : Doomed p session_id self) (hnow : p + WAIT_MS ≤ self.now) :
    self.redis.live self.now (RedisKeys.mcp_session session_id) = none := by
  unfold Redis.live
  cases hkey : self.redis.keys (RedisKeys.mcp_session session_id) with
  | none => rfl
  | some e =>
    obtain ⟨value, expires⟩ := e
    obtain ⟨t, rfl, ht⟩ := h.ends value expires hkey
    dsimp only
    rw [if_neg (by omega)]

theorem doomed_congr {s : McpServer} (h : Doomed p session_id self) (hnow : s.now = self.now)
    (hfind : s.streams.find session_id = self.streams.find session_id)
    (hkeys : s.redis.keys (RedisKeys.mcp_session session_id) =
      self.redis.keys (RedisKeys.mcp_session session_id)) : Doomed p session_id s where
  later := by
    rw [hnow]
    exact h.later
  waits := by
    rw [hfind]
    exact h.waits
  ends := by
    rw [hkeys]
    exact h.ends

/-- Another stream is set, or this one with a wait that starts later. -/
theorem doomed_set {x : Stream} (h : Doomed p session_id self)
    (hx : x.session_id = session_id → x.queue ≠ [] ∨ p ≤ x.waiting_since) :
    Doomed p session_id (self.set_stream x) where
  later := h.later
  waits := by
    rw [find_set_stream]
    by_cases hid : session_id = x.session_id
    · rw [if_pos hid]
      exact ⟨x, rfl, hx hid.symm⟩
    · rw [if_neg hid]
      exact h.waits
  ends := h.ends

theorem doomed_get (h : Doomed p session_id self) (other : String) :
    Doomed p session_id (self.get other).2 := by
  unfold get
  split
  · split
    · exact h
    · exact doomed_congr h rfl rfl rfl
  · exact h

theorem doomed_step (h : Doomed p session_id self) {a : SessionAct}
    (hopen : a ≠ .close session_id) {s : McpServer} (hstep : self.step timeout_s a = some s) :
    Doomed p session_id s := by
  have hkeys : ∀ {other}, other ≠ session_id →
      RedisKeys.mcp_session session_id ≠ RedisKeys.mcp_session other :=
    fun hne he => hne (mcp_session_inj he).symm
  cases next_of_step timeout_s self hstep with
  | @sse other hnew payload =>
    have hne : other ≠ session_id := by
      rintro rfl
      obtain ⟨x, hfind, -⟩ := h.waits
      rw [hfind] at hnew
      cases hnew
    apply doomed_set
    · refine doomed_congr h rfl rfl ?_
      simp [Redis.setex, hkeys hne]
    · intro he
      exact absurd he hne
  | post other handling => exact doomed_congr (doomed_get h other) rfl rfl rfl
  | put hfind response =>
    refine doomed_set (doomed_congr h rfl rfl rfl) ?_
    intro _
    left
    simp
  | put_late other response hgone => exact doomed_congr h rfl rfl rfl
  | fail other => exact doomed_congr h rfl rfl rfl
  | take hfind hqueue queue =>
    apply doomed_set h
    intro _
    right
    exact h.later
  | @keepalive x hfind hqueue hdue =>
    apply doomed_set
    · by_cases hid : x.session_id = session_id
      · -- the wait began at `p` or later, so the key is gone when it times out
        subst hid
        obtain ⟨y, hy, hwait⟩ := h.waits
        rw [hfind] at hy
        cases hy
        have hsince : p ≤ x.waiting_since := by simpa [hqueue] using hwait
        have hgone := not_live_of_doomed h (by omega)
        refine doomed_congr h rfl rfl ?_
        simp [refresh_ttl, Redis.expire, hgone]
      · refine doomed_congr h rfl rfl ?_
        exact expire_keys _ _ _ (hkeys hid)
    · intro _
      right
      exact h.later
  | close other =>
    have hne : other ≠ session_id := by
      rintro rfl
      exact hopen rfl
    refine doomed_congr h rfl ?_ ?_
    · show (self.streams.erase other).find session_id = _
      rw [Table.find_erase, if_neg (Ne.symm hne)]
    · simp [remove, hkeys hne]
  | elapse hdue =>
    refine ⟨?_, h.waits, h.ends⟩
    have hlater := h.later
    dsimp only
    omega

end Late

/-- After a response that is put when the key has no more than the time of a wait to live,
the key lapses while the session is open, whatever happens next. -/
theorem a_late_put_lapses (timeout_s : Nat) {before : McpServer} {session_id response : String}
    {value : String} {t : Nat}
    (hkey : before.redis.keys (RedisKeys.mcp_session session_id) = some ⟨value, some t⟩)
    (hlate : t ≤ before.now + WAIT_MS) (hopen : (before.streams.find session_id).isSome = true)
    {acts : List SessionAct} (hstays : .close session_id ∉ acts) {after : McpServer}
    (hrun : before.run timeout_s (.put session_id response :: acts) = some after)
    (hlater : before.now + WAIT_MS ≤ after.now) :
    after.redis.live after.now (RedisKeys.mcp_session session_id) = none := by
  obtain ⟨next, hput, hrest⟩ := Option.bind_eq_some_iff.mp hrun
  have hdoomed : Doomed before.now session_id next := by
    cases next_of_step timeout_s before hput with
    | put_late _ _ hgone =>
      rw [hgone] at hopen
      cases hopen
    | @put x hfind response =>
      refine ⟨le_rfl, ?_, ?_⟩
      · refine ⟨{ x with queue := x.queue ++ [response] }, ?_, Or.inl (by simp)⟩
        rw [find_set_stream, if_pos rfl]
      · intro value' expires hkey'
        have hsame := hkey.symm.trans hkey'
        cases hsame
        exact ⟨t, rfl, hlate⟩
  have hall : Doomed before.now session_id after := by
    clear hrun hput hkey
    induction acts generalizing next with
    | nil =>
      cases hrest
      exact hdoomed
    | cons a acts ih =>
      obtain ⟨s, hstep, hrest⟩ := Option.bind_eq_some_iff.mp hrest
      have hne : a ≠ .close session_id := by
        rintro rfl
        exact hstays List.mem_cons_self
      exact ih (fun hmem => hstays (List.mem_cons_of_mem _ hmem)) s hrest (doomed_step hdoomed hne hstep)
  exact not_live_of_doomed hall hlater

/-- A client that asks something every ten seconds. -/
def every_ten_seconds : Nat → List SessionAct
  | 0 => []
  | n + 1 => [.elapse 10000, .post "s1", .put "s1" "pong", .take "s1"] ++ every_ten_seconds n

/-- Two requests, and a pause. -/
def two_requests : List SessionAct :=
  .sse "s1" "" :: every_ten_seconds 2 ++ [.elapse 15000, .keepalive "s1"]

theorem a_pause_keeps_the_session :
    (({} : McpServer).run 300 two_requests).isSome = true ∧
      ∀ s, ({} : McpServer).run 300 two_requests = some s →
        ∀ session_id x, s.streams.find session_id = some x → s.Found session_id :=
  ⟨by decide +kernel, fun s hrun =>
    open_sessions_are_found 300 two_requests s (by decide) (by decide +kernel) hrun⟩

/-- Requests for five minutes: the session is open, and the next request finds no queue. -/
theorem a_busy_session_expires :
    ¬ ∀ timeout_s acts s, 15 < timeout_s → ({} : McpServer).run timeout_s acts = some s →
      ∀ session_id x, s.streams.find session_id = some x → s.Found session_id := by
  intro h
  have hend : (({} : McpServer).run 300 (.sse "s1" "" :: every_ten_seconds 29 ++
      [.elapse 10000])).map (fun s => ((s.streams.find "s1").isSome, (s.get "s1").1)) =
        some (true, false) := by decide +kernel
  obtain ⟨s, hrun, hs⟩ := Option.map_eq_some_iff.mp hend
  obtain ⟨hopen, hget⟩ := Prod.mk.inj hs
  obtain ⟨x, hfind⟩ := Option.isSome_iff_exists.mp hopen
  have hfound := (h 300 _ s (by decide) hrun "s1" x hfind).2
  rw [hget] at hfound
  cases hfound

end McpServer

end trading_platform.mcp_server
