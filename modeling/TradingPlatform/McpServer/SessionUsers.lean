-- The users of the MCP server. Every request is authenticated. GET /sse opens a session for
-- its user, and POST /messages puts its response in the queue of the session that it names.
import TradingPlatform.Lib.Unwinding
import TradingPlatform.McpServer.Auth
import TradingPlatform.McpServer.Session

open keyed
open trading_platform.shared

namespace trading_platform.mcp_server

/-! ## One session -/

/-- The key is there at the time. -/
def alive (now : Nat) (e : RedisEntry) : Bool :=
  match e.expires with
  | some t => now < t
  | none => true

/-- A key that is set with the timeout of the sessions, as long as it is there. -/
def renewed (timeout_s now : Nat) (value : String) : Option RedisEntry :=
  if 0 < timeout_s then some ⟨value, some (now + 1000 * timeout_s)⟩ else none

/-- What the server has of a session: its open stream, and its key, if the session is
registered and the key is there. -/
structure SessionState where
  stream : Option Stream
  key : Option RedisEntry

/-- The response that the loop of the session takes next. -/
def SessionState.message (x : SessionState) : Option String := x.stream.bind (·.queue.head?)

/-- What an act does to the session that it names. -/
def SessionState.next (timeout_s now : Nat) (x : SessionState) : SessionAct → SessionState
  | .sse session_id payload => ⟨some ⟨session_id, [], now⟩, renewed timeout_s now payload⟩
  | .post _ => x
  | .put _ response =>
    { x with stream := x.stream.map fun r => { r with queue := r.queue ++ [response] } }
  | .fail _ => x
  | .take session_id => { x with stream := x.stream.map fun r => ⟨session_id, r.queue.tail, now⟩ }
  | .keepalive session_id =>
    ⟨some ⟨session_id, [], now⟩, x.key.bind fun e => renewed timeout_s now e.value⟩
  | .close _ => ⟨none, none⟩
  | .elapse ms => { x with key := x.key.filter (alive (now + ms)) }

namespace SessionAct

/-- Time passes for every session. -/
def names (session_id : String) : SessionAct → Bool
  | .sse k _ | .post k | .put k _ | .fail k | .take k | .keepalive k | .close k => k = session_id
  | .elapse _ => true

def ms : SessionAct → Nat
  | .elapse ms => ms
  | _ => 0

end SessionAct

namespace McpServer

def key (self : McpServer) (session_id : String) : Option RedisEntry :=
  if session_id ∈ self.local_ids then
    (self.redis.keys (RedisKeys.mcp_session session_id)).filter (alive self.now)
  else none

def session (self : McpServer) (session_id : String) : SessionState :=
  ⟨self.streams.find session_id, self.key session_id⟩

/-- One step, however the loops are scheduled: time passes freely, and a wait times out when
it is due or later. -/
def any_step (timeout_s : Nat) (self : McpServer) : SessionAct → Option McpServer
  | .keepalive session_id =>
    match self.streams.find session_id with
    | some ⟨_, [], waiting_since⟩ =>
      if waiting_since + WAIT_MS ≤ self.now then
        some ((self.refresh_ttl timeout_s session_id).set_stream ⟨session_id, [], self.now⟩)
      else none
    | _ => none
  | .elapse ms => some { self with now := self.now + ms }
  | a => self.step timeout_s a

section Laws

variable {timeout_s : Nat} {self : McpServer}

theorem live_eq (r : Redis) (now : Nat) (key : String) :
    r.live now key = ((r.keys key).filter (alive now)).map (·.value) := by
  unfold Redis.live
  cases r.keys key with
  | none => rfl
  | some e =>
    obtain ⟨value, expires⟩ := e
    cases expires with
    | none => simp [alive, Option.filter]
    | some t =>
      by_cases ht : now < t
      · simp [alive, Option.filter, ht]
      · simp [alive, Option.filter, ht]

theorem alive_before {now ms : Nat} {e : RedisEntry} (h : alive (now + ms) e = true) :
    alive now e = true := by
  unfold alive at h ⊢
  cases hexpires : e.expires with
  | none => rfl
  | some t =>
    rw [hexpires] at h
    have ht : now + ms < t := by simpa using h
    have hearlier : now < t := by omega
    simpa using hearlier

theorem alive_setex (timeout_s now : Nat) (value : String) :
    (some (⟨value, some (now + 1000 * timeout_s)⟩ : RedisEntry)).filter (alive now) =
      renewed timeout_s now value := by
  unfold renewed
  by_cases ht : 0 < timeout_s
  · rw [if_pos ht]
    have hlater : now < now + 1000 * timeout_s := by omega
    simp [Option.filter, alive, hlater]
  · rw [if_neg ht]
    simp [Option.filter, alive, ht]

/-- A queue is found when the key of its session is. -/
theorem get_found (self : McpServer) (session_id : String) :
    (self.get session_id).1 = (self.key session_id).isSome := by
  unfold get key
  by_cases hlocal : session_id ∈ self.local_ids
  · rw [if_pos hlocal, if_pos hlocal, live_eq, Option.isSome_map]
    by_cases hlive : ((self.redis.keys (RedisKeys.mcp_session session_id)).filter
        (alive self.now)).isSome = true
    · rw [if_pos hlive, hlive]
    · rw [if_neg hlive, Bool.eq_false_iff.mpr hlive]
  · rw [if_neg hlocal, if_neg hlocal]
    rfl

/-- The session that a request does not find has no key, before and after. -/
theorem session_get (self : McpServer) (session_id k : String) :
    (self.get session_id).2.session k = self.session k := by
  have hfound := get_found self session_id
  unfold get at hfound ⊢
  by_cases hlocal : session_id ∈ self.local_ids
  · rw [if_pos hlocal] at hfound ⊢
    by_cases hlive : (self.redis.live self.now (RedisKeys.mcp_session session_id)).isSome = true
    · rw [if_pos hlive]
    · rw [if_neg hlive] at hfound ⊢
      have hgone : self.key session_id = none := by
        rw [← Option.not_isSome_iff_eq_none, ← hfound]
        simp
      unfold session
      congr 1
      by_cases hk : k = session_id
      · rw [hk, hgone]
        simp [key]
      · simp [key, hk]
  · rw [if_neg hlocal]

theorem session_set_stream (self : McpServer) (x : Stream) (k : String) :
    (self.set_stream x).session k =
      if k = x.session_id then ⟨some x, self.key k⟩ else self.session k := by
  unfold session
  rw [find_set_stream]
  have hkey : (self.set_stream x).key k = self.key k := rfl
  rw [hkey]
  by_cases hk : k = x.session_id
  · rw [if_pos hk, if_pos hk]
  · rw [if_neg hk, if_neg hk]

theorem ne_mcp_session {k session_id : String} (hk : k ≠ session_id) :
    RedisKeys.mcp_session k ≠ RedisKeys.mcp_session session_id := fun he => hk (mcp_session_inj he)

theorem session_create (self : McpServer) (session_id payload k : String) :
    (self.create timeout_s session_id payload).session k =
      if k = session_id then ⟨some ⟨session_id, [], self.now⟩, renewed timeout_s self.now payload⟩
      else self.session k := by
  unfold create
  rw [session_set_stream]
  by_cases hk : k = session_id
  · rw [if_pos hk, if_pos hk, hk]
    congr 1
    rw [← alive_setex]
    simp [key, Redis.setex]
  · rw [if_neg hk, if_neg hk]
    simp [session, key, Redis.setex, hk, ne_mcp_session hk]

theorem session_remove (self : McpServer) (session_id k : String) :
    (self.remove session_id).session k =
      if k = session_id then ⟨none, none⟩ else self.session k := by
  unfold session
  have hfind : (self.remove session_id).streams.find k =
      if k = session_id then none else self.streams.find k := Table.find_erase _ _ _
  rw [hfind]
  by_cases hk : k = session_id
  · simp [key, remove, hk]
  · simp [key, remove, hk, ne_mcp_session hk]

theorem key_refresh_ttl (self : McpServer) (session_id k : String) :
    (self.refresh_ttl timeout_s session_id).key k =
      if k = session_id then (self.key k).bind fun e => renewed timeout_s self.now e.value
      else self.key k := by
  by_cases hk : k = session_id
  · rw [if_pos hk, hk]
    unfold key refresh_ttl
    dsimp only
    by_cases hlocal : session_id ∈ self.local_ids
    · rw [if_pos hlocal, if_pos hlocal]
      unfold Redis.expire
      rw [live_eq]
      cases hfilter : (self.redis.keys (RedisKeys.mcp_session session_id)).filter
          (alive self.now) with
      | none => simpa using hfilter
      | some e =>
        rw [Option.bind_some, ← alive_setex]
        simp
    · rw [if_neg hlocal, if_neg hlocal]
      rfl
  · rw [if_neg hk]
    have hkeys := expire_keys self.redis self.now timeout_s (ne_mcp_session hk)
    simp [key, refresh_ttl, hkeys]

theorem session_refresh_ttl (self : McpServer) (session_id k : String) :
    ((self.refresh_ttl timeout_s session_id).set_stream ⟨session_id, [], self.now⟩).session k =
      if k = session_id then
        ⟨some ⟨session_id, [], self.now⟩, (self.key k).bind fun e => renewed timeout_s self.now e.value⟩
      else self.session k := by
  rw [session_set_stream, key_refresh_ttl]
  by_cases hk : k = session_id
  · rw [if_pos hk, if_pos hk, if_pos hk]
  · have hkey : (self.refresh_ttl timeout_s session_id).session k = self.session k := by
      unfold session
      rw [key_refresh_ttl, if_neg hk]
      rfl
    rw [if_neg hk, if_neg hk, hkey]

/-- A key that is there after a while was there before. -/
theorem key_elapse (self : McpServer) (ms : Nat) (k : String) :
    ({ self with now := self.now + ms } : McpServer).key k =
      (self.key k).filter (alive (self.now + ms)) := by
  unfold key
  dsimp only
  by_cases hlocal : k ∈ self.local_ids
  · rw [if_pos hlocal, if_pos hlocal, Option.filter_filter]
    congr 1
    funext e
    by_cases halive : alive (self.now + ms) e = true
    · rw [halive, alive_before halive]
      rfl
    · rw [Bool.eq_false_iff.mpr halive]
      simp
  · rw [if_neg hlocal, if_neg hlocal]
    rfl

/-- An act does the same to the session that it names, whatever else is open, and nothing to
the others. -/
theorem session_step {a : SessionAct} {s : McpServer} (hstep : self.any_step timeout_s a = some s)
    (k : String) : s.session k =
      if a.names k then (self.session k).next timeout_s self.now a else self.session k := by
  cases a with
  | sse session_id payload =>
    simp only [any_step, step] at hstep
    split at hstep
    · cases hstep
      rw [session_create]
      by_cases hk : k = session_id
      · simp [SessionAct.names, SessionState.next, hk]
      · simp [SessionAct.names, hk, Ne.symm hk]
    · cases hstep
  | post session_id =>
    have hsame : s.session k = (self.get session_id).2.session k := by
      simp only [any_step, step] at hstep
      cases hstep
      split
      · rfl
      · rfl
    rw [hsame, session_get]
    simp [SessionState.next]
  | put session_id response =>
    simp only [any_step, step] at hstep
    split at hstep
    · cases hfind : self.streams.find session_id with
      | none =>
        rw [hfind] at hstep
        cases hstep
        show self.session k = _
        by_cases hk : session_id = k
        · subst hk
          simp [SessionAct.names, SessionState.next, session, hfind]
        · simp [SessionAct.names, hk]
      | some x =>
        rw [hfind] at hstep
        cases hstep
        obtain rfl := Table.key_of_find hfind
        rw [session_set_stream]
        show (if k = x.session_id then _ else self.session k) = _
        by_cases hk : k = x.session_id
        · subst hk
          simp [SessionAct.names, SessionState.next, session, hfind]
          rfl
        · simp [SessionAct.names, hk, Ne.symm hk]
    · cases hstep
  | fail session_id =>
    simp only [any_step, step] at hstep
    split at hstep
    · cases hstep
      show self.session k = _
      simp [SessionState.next]
    · cases hstep
  | take session_id =>
    simp only [any_step, step] at hstep
    split at hstep
    · rename_i id m queue since hfind
      cases hstep
      rw [session_set_stream]
      by_cases hk : k = session_id
      · subst hk
        simp [SessionAct.names, SessionState.next, session, hfind]
      · simp [SessionAct.names, hk, Ne.symm hk]
    · cases hstep
  | keepalive session_id =>
    simp only [any_step] at hstep
    split at hstep
    · split at hstep
      · cases hstep
        rw [session_refresh_ttl]
        by_cases hk : k = session_id
        · simp [SessionAct.names, SessionState.next, session, hk]
        · simp [SessionAct.names, hk, Ne.symm hk]
      · cases hstep
    · cases hstep
  | close session_id =>
    simp only [any_step, step] at hstep
    split at hstep
    · cases hstep
      rw [session_remove]
      by_cases hk : k = session_id
      · simp [SessionAct.names, SessionState.next, hk]
      · simp [SessionAct.names, hk, Ne.symm hk]
    · cases hstep
  | elapse ms =>
    cases hstep
    simp [SessionAct.names, SessionState.next, session, key_elapse]

theorem now_step {a : SessionAct} {s : McpServer} (hstep : self.any_step timeout_s a = some s) :
    s.now = self.now + a.ms := by
  have hprompt (h : self.step timeout_s a = some s) : s.now = self.now + a.ms := by
    cases next_of_step timeout_s self h with
    | post session_id handling =>
      show (self.get session_id).2.now = self.now
      unfold get
      split
      · split
        · rfl
        · rfl
      · rfl
    | _ => rfl
  cases a with
  | keepalive session_id =>
    simp only [any_step] at hstep
    split at hstep
    · split at hstep
      · cases hstep
        rfl
      · cases hstep
    · cases hstep
  | elapse ms =>
    cases hstep
    rfl
  | sse _ _ | post _ | put _ _ | fail _ | take _ | close _ => exact hprompt hstep

end Laws

end McpServer

/-! ## The server and its users -/

/-- A response that was put in the queue of a session, and whose request it answers. -/
structure Put where
  session_id : String
  identity : McpIdentity
  response : String

/-- A message that a stream showed, and the user who opened the stream. -/
structure Shown where
  user_id : Option String
  session_id : String
  message : String
  deriving DecidableEq

structure UserServer where
  server : McpServer := {}
  /-- The `user_id` that `RedisSessionRegistry.create` was given for a session. -/
  owner : String → Option String := fun _ => none
  /-- The requests that are authenticated. GET /sse names no session. -/
  accepted : List (Option String × McpIdentity) := []
  /-- The requests that found their queue and have not answered yet. -/
  requests : List (String × McpIdentity) := []
  puts : List Put := []
  shown : List Shown := []

inductive UserAct where
  /-- A request comes in: GET /sse, or POST /messages for a session. `payload` is what is
  stored for its bearer token. -/
  | request (authorization x_api_key : String) (payload : Option BearerPayload)
    (session_id : Option String)
  | sse (identity : McpIdentity) (session_id payload : String)
  | post (identity : McpIdentity) (session_id : String)
  | put (identity : McpIdentity) (session_id response : String)
  | fail (identity : McpIdentity) (session_id : String)
  | take (session_id : String)
  | keepalive (session_id : String)
  | close (session_id : String)
  | elapse (ms : Nat)
  deriving DecidableEq

namespace UserServer

variable (mcp_api_key : String) (timeout_s : Nat) (self : UserServer)

def on_server (a : SessionAct) : Option UserServer :=
  (self.server.any_step timeout_s a).map fun server => { self with server }

/-- One step, if it can happen. No session id is given twice. -/
def step (self : UserServer) : UserAct → Option UserServer
  | .request authorization x_api_key payload session_id =>
    match verify_mcp_auth mcp_api_key (fun _ => payload) authorization x_api_key with
    | .ok identity => some { self with accepted := (session_id, identity) :: self.accepted }
    | .error _ => some self
  | .sse identity session_id payload =>
    if (none, identity) ∈ self.accepted ∧ self.owner session_id = none then
      { self with
        accepted := self.accepted.erase (none, identity)
        owner := fun k => if k = session_id then some identity.user_id else self.owner k
        }.on_server timeout_s (.sse session_id payload)
    else none
  | .post identity session_id =>
    if (some session_id, identity) ∈ self.accepted then
      -- the queue is found by the session alone
      { self with
        accepted := self.accepted.erase (some session_id, identity)
        requests := if (self.server.get session_id).1 then (session_id, identity) :: self.requests
          else self.requests
        }.on_server timeout_s (.post session_id)
    else none
  | .put identity session_id response =>
    if (session_id, identity) ∈ self.requests then
      { self with
        requests := self.requests.erase (session_id, identity)
        puts := ⟨session_id, identity, response⟩ :: self.puts
        }.on_server timeout_s (.put session_id response)
    else none
  | .fail identity session_id =>
    if (session_id, identity) ∈ self.requests then
      { self with requests := self.requests.erase (session_id, identity) }.on_server timeout_s
        (.fail session_id)
    else none
  | .take session_id =>
    { self with
      shown := self.shown ++ ((self.server.session session_id).message.map
        (Shown.mk (self.owner session_id) session_id)).toList
      }.on_server timeout_s (.take session_id)
  | .keepalive session_id => self.on_server timeout_s (.keepalive session_id)
  | .close session_id => self.on_server timeout_s (.close session_id)
  | .elapse ms => self.on_server timeout_s (.elapse ms)

def run : UserServer → List UserAct → Option UserServer :=
  unwinding.run (step mcp_api_key timeout_s)

/-- A request that finds the queue of a session is one of the user who opened it. -/
def posts_to_own : UserAct → Bool
  | .post identity session_id =>
    !(self.server.get session_id).1 || self.owner session_id = some identity.user_id
  | _ => true

/-- In a run every request that finds a queue is one of the user who opened the session. -/
def all_post_to_own : UserServer → List UserAct → Bool :=
  unwinding.all_allowed (step mcp_api_key timeout_s) posts_to_own

theorem owner_of_posts_to_own {identity : McpIdentity} {session_id : String}
    (h : self.posts_to_own (.post identity session_id) = true)
    (hfound : (self.server.get session_id).1 = true) :
    self.owner session_id = some identity.user_id := by
  simp only [posts_to_own] at h
  rw [hfound] at h
  simpa using h

/-- Each response was put in the queue of a session of the user whose request it answers. -/
def PutsAreOwned : Prop := ∀ p ∈ self.puts, self.owner p.session_id = some p.identity.user_id

end UserServer

/-! ## What one user sees -/

/-- The server as one user sees it: the sessions of the user, her requests, and what her
streams showed. -/
structure UserView where
  now : Nat
  session : String → Option SessionState
  accepted : List (Option String × McpIdentity)
  requests : List (String × McpIdentity)
  shown : List Shown

/-- A request of the user. -/
def mine {α : Type} (user_id : String) (r : α × McpIdentity) : Bool := r.2.user_id = user_id

def UserServer.view (user_id : String) (self : UserServer) : UserView where
  now := self.server.now
  session := fun k => if self.owner k = some user_id then some (self.server.session k) else none
  accepted := self.accepted.filter (mine user_id)
  requests := self.requests.filter (mine user_id)
  shown := self.shown.filter (·.user_id = some user_id)

namespace UserView

variable (mcp_api_key : String) (timeout_s : Nat) (user_id : String) (self : UserView)

/-- The steps that the user has to do with: her requests, her streams, and time. -/
def concerns : UserAct → Bool
  | .request authorization x_api_key payload _ =>
    match verify_mcp_auth mcp_api_key (fun _ => payload) authorization x_api_key with
    | .ok identity => identity.user_id = user_id
    | .error _ => false
  | .sse identity .. | .post identity _ | .put identity .. | .fail identity _ =>
    identity.user_id = user_id
  | .take session_id | .keepalive session_id | .close session_id =>
    (self.session session_id).isSome
  | .elapse _ => true

def serve (a : SessionAct) : UserView :=
  { self with
    now := self.now + a.ms
    session := fun k =>
      if a.names k then (self.session k).map (·.next timeout_s self.now a) else self.session k }

/-- A server that has one user. -/
def tell (self : UserView) : UserAct → UserView
  | .request authorization x_api_key payload session_id =>
    match verify_mcp_auth mcp_api_key (fun _ => payload) authorization x_api_key with
    | .ok identity => { self with accepted := (session_id, identity) :: self.accepted }
    | .error _ => self
  | .sse identity session_id payload =>
    { self with
      accepted := self.accepted.erase (none, identity)
      session := fun k => if k = session_id then some ⟨none, none⟩ else self.session k
      }.serve timeout_s (.sse session_id payload)
  | .post identity session_id =>
    { self with
      accepted := self.accepted.erase (some session_id, identity)
      requests := if (self.session session_id).any (·.key.isSome) then
        (session_id, identity) :: self.requests else self.requests }
  | .put identity session_id response =>
    { self with requests := self.requests.erase (session_id, identity) }.serve timeout_s
      (.put session_id response)
  | .fail identity session_id =>
    { self with requests := self.requests.erase (session_id, identity) }
  | .take session_id =>
    { self with
      shown := self.shown ++ (((self.session session_id).bind (·.message)).map
        (Shown.mk (some user_id) session_id)).toList
      }.serve timeout_s (.take session_id)
  | .keepalive session_id => self.serve timeout_s (.keepalive session_id)
  | .close session_id => self.serve timeout_s (.close session_id)
  | .elapse ms => self.serve timeout_s (.elapse ms)

section Laws

variable {timeout_s : Nat} {user_id : String} {self : UserView}

/-- A step for sessions of others. -/
theorem serve_others {a : SessionAct} (hms : a.ms = 0)
    (hnone : ∀ k, a.names k = true → self.session k = none) : self.serve timeout_s a = self := by
  have hsession : (fun k => if a.names k then (self.session k).map
      (·.next timeout_s self.now a) else self.session k) = self.session := by
    funext k
    by_cases hk : a.names k = true
    · rw [if_pos hk, hnone k hk]
      rfl
    · rw [if_neg hk]
  unfold serve
  rw [hsession, hms]
  rfl

/-- A step that leaves every session as it is. -/
theorem serve_quiet {a : SessionAct} (hms : a.ms = 0)
    (hnext : ∀ x : SessionState, x.next timeout_s self.now a = x) :
    self.serve timeout_s a = self := by
  have hsession : (fun k => if a.names k then (self.session k).map
      (·.next timeout_s self.now a) else self.session k) = self.session := by
    funext k
    split
    · rw [funext hnext]
      exact Option.map_id'
    · rfl
  unfold serve
  rw [hsession, hms]
  rfl

end Laws

end UserView

namespace UserServer

section Laws

variable {mcp_api_key : String} {timeout_s : Nat} {user_id : String} {self s : UserServer}

theorem view_on_server {a : SessionAct} (hstep : self.on_server timeout_s a = some s) :
    s.view user_id = (self.view user_id).serve timeout_s a := by
  obtain ⟨server, hserver, rfl⟩ := Option.map_eq_some_iff.mp hstep
  have hsession : (fun k => if self.owner k = some user_id then some (server.session k) else none) =
      fun k => if a.names k then ((self.view user_id).session k).map
        (·.next timeout_s self.server.now a) else (self.view user_id).session k := by
    funext k
    rw [McpServer.session_step hserver k]
    unfold view
    dsimp only
    by_cases hk : a.names k = true
    · rw [if_pos hk, if_pos hk]
      split
      · rfl
      · rfl
    · rw [if_neg hk, if_neg hk]
  unfold view UserView.serve
  dsimp only
  rw [hsession, McpServer.now_step hserver]
  rfl

theorem owner_on_server {a : SessionAct} (hstep : self.on_server timeout_s a = some s) :
    s.owner = self.owner ∧ s.requests = self.requests ∧ s.puts = self.puts := by
  obtain ⟨server, -, rfl⟩ := Option.map_eq_some_iff.mp hstep
  exact ⟨rfl, rfl, rfl⟩

/-- Every request under way is one of the user who opened its session. -/
structure Owned (x : UserServer) : Prop where
  requests : ∀ r ∈ x.requests, x.owner r.1 = some r.2.user_id
  puts : x.PutsAreOwned

theorem owned_on_server {a : SessionAct} (hstep : self.on_server timeout_s a = some s)
    (h : self.Owned) : s.Owned := by
  obtain ⟨howner, hrequests, hputs⟩ := owner_on_server hstep
  refine ⟨?_, ?_⟩
  · rw [howner, hrequests]
    exact h.requests
  · unfold PutsAreOwned
    rw [howner, hputs]
    exact h.puts

theorem owned_step {a : UserAct} (h : self.Owned) (hown : self.posts_to_own a = true)
    (hstep : self.step mcp_api_key timeout_s a = some s) : s.Owned := by
  cases a with
  | request authorization x_api_key payload session_id =>
    simp only [step] at hstep
    split at hstep
    · cases hstep
      exact ⟨h.requests, h.puts⟩
    · cases hstep
      exact h
  | sse identity session_id payload =>
    simp only [step] at hstep
    split at hstep
    · rename_i hopen
      refine owned_on_server hstep ⟨?_, ?_⟩
      · intro r hr
        have hne : r.1 ≠ session_id := by
          intro he
          have howner := h.requests r hr
          rw [he, hopen.2] at howner
          cases howner
        dsimp only
        rw [if_neg hne]
        exact h.requests r hr
      · intro p hp
        have hne : p.session_id ≠ session_id := by
          intro he
          have howner := h.puts p hp
          rw [he, hopen.2] at howner
          cases howner
        dsimp only
        rw [if_neg hne]
        exact h.puts p hp
    · cases hstep
  | post identity session_id =>
    simp only [step] at hstep
    split at hstep
    · refine owned_on_server hstep ⟨?_, h.puts⟩
      intro r hr
      dsimp only at hr
      split at hr
      · rename_i hfound
        rcases List.mem_cons.mp hr with rfl | hr
        · exact owner_of_posts_to_own self hown hfound
        · exact h.requests r hr
      · exact h.requests r hr
    · cases hstep
  | put identity session_id response =>
    simp only [step] at hstep
    split at hstep
    · rename_i hmem
      refine owned_on_server hstep ⟨?_, ?_⟩
      · intro r hr
        exact h.requests r (List.mem_of_mem_erase hr)
      · intro p hp
        rcases List.mem_cons.mp hp with rfl | hp
        · exact h.requests _ hmem
        · exact h.puts p hp
    · cases hstep
  | fail identity session_id =>
    simp only [step] at hstep
    split at hstep
    · refine owned_on_server hstep ⟨?_, h.puts⟩
      intro r hr
      exact h.requests r (List.mem_of_mem_erase hr)
    · cases hstep
  | take session_id => exact owned_on_server hstep ⟨h.requests, h.puts⟩
  | keepalive session_id => exact owned_on_server hstep h
  | close session_id => exact owned_on_server hstep h
  | elapse ms => exact owned_on_server hstep h

/-- What is taken from a list is none of the user's. -/
theorem filter_erase {α : Type} [BEq α] [LawfulBEq α] {p : α → Bool} {x : α} (hx : p x = false)
    (l : List α) : (l.erase x).filter p = l.filter p := by
  rw [← List.erase_filter]
  apply List.erase_of_not_mem
  intro hmem
  rw [(List.mem_filter.mp hmem).2] at hx
  cases hx

theorem session_of_others {k : String} (hother : self.owner k ≠ some user_id) :
    (self.view user_id).session k = none := if_neg hother

/-- An act in a session that is none of the user's. -/
theorem view_others {k : String} {a : SessionAct} (hstep : self.on_server timeout_s a = some s)
    (hother : self.owner k ≠ some user_id) (hms : a.ms = 0)
    (hnames : ∀ k', a.names k' = true → k' = k) : s.view user_id = self.view user_id := by
  rw [view_on_server hstep]
  apply UserView.serve_others hms
  intro k' hk'
  rw [hnames k' hk']
  exact session_of_others hother

theorem owner_of_unconcerned {k : String} (h : ((self.view user_id).session k).isSome = false) :
    self.owner k ≠ some user_id := by
  intro howner
  have hsession : (self.view user_id).session k = some (self.server.session k) := if_pos howner
  rw [hsession] at h
  cases h

/-- A step that is none of the user's leaves what she sees as it is. -/
theorem view_skips {a : UserAct} (h : self.Owned)
    (hstep : self.step mcp_api_key timeout_s a = some s)
    (hconcerns : (self.view user_id).concerns mcp_api_key user_id a = false) :
    s.view user_id = self.view user_id := by
  cases a with
  | request authorization x_api_key payload session_id =>
    simp only [step] at hstep
    simp only [UserView.concerns] at hconcerns
    split at hstep
    · rename_i identity hverify
      cases hstep
      rw [hverify] at hconcerns
      unfold view
      dsimp only
      rw [List.filter_cons_of_neg (by simpa [mine] using hconcerns)]
    · cases hstep
      rfl
  | sse identity session_id payload =>
    have hother : identity.user_id ≠ user_id := by simpa [UserView.concerns] using hconcerns
    simp only [step] at hstep
    split at hstep
    · rename_i hopen
      have howner : (fun k => if k = session_id then some identity.user_id else self.owner k)
          session_id ≠ some user_id := by simpa using hother
      rw [view_others hstep howner rfl (by simp [SessionAct.names])]
      unfold view
      dsimp only
      rw [filter_erase (by simpa [mine] using hother)]
      congr 1
      funext k
      by_cases hk : k = session_id
      · simp [hk, hother, hopen.2]
      · simp [hk]
    · cases hstep
  | post identity session_id =>
    have hother : identity.user_id ≠ user_id := by simpa [UserView.concerns] using hconcerns
    simp only [step] at hstep
    split at hstep
    · rw [view_on_server hstep, UserView.serve_quiet rfl (fun _ => rfl)]
      unfold view
      dsimp only
      rw [filter_erase (by simpa [mine] using hother)]
      congr 1
      split
      · rw [List.filter_cons_of_neg (by simpa [mine] using hother)]
      · rfl
    · cases hstep
  | put identity session_id response =>
    have hother : identity.user_id ≠ user_id := by simpa [UserView.concerns] using hconcerns
    simp only [step] at hstep
    split at hstep
    · rename_i hmem
      have howner : self.owner session_id ≠ some user_id := by
        rw [h.requests _ hmem]
        simpa using hother
      rw [view_others hstep howner rfl (by simp [SessionAct.names])]
      unfold view
      dsimp only
      rw [filter_erase (by simpa [mine] using hother)]
    · cases hstep
  | fail identity session_id =>
    have hother : identity.user_id ≠ user_id := by simpa [UserView.concerns] using hconcerns
    simp only [step] at hstep
    split at hstep
    · rw [view_on_server hstep, UserView.serve_quiet rfl (fun _ => rfl)]
      unfold view
      dsimp only
      rw [filter_erase (by simpa [mine] using hother)]
    · cases hstep
  | take session_id =>
    have howner := owner_of_unconcerned hconcerns
    simp only [step] at hstep
    rw [view_others hstep howner rfl (by simp [SessionAct.names])]
    unfold view
    dsimp only
    rw [List.filter_append]
    have hnone : (((self.server.session session_id).message.map
        (Shown.mk (self.owner session_id) session_id)).toList.filter
          (·.user_id = some user_id)) = [] := by
      cases (self.server.session session_id).message with
      | none => rfl
      | some message => simp [howner]
    rw [hnone, List.append_nil]
  | keepalive session_id =>
    exact view_others hstep (owner_of_unconcerned hconcerns) rfl (by simp [SessionAct.names])
  | close session_id =>
    exact view_others hstep (owner_of_unconcerned hconcerns) rfl (by simp [SessionAct.names])
  | elapse ms => cases hconcerns

theorem filter_cons_mine {α : Type} {x : α} {identity : McpIdentity}
    (huser : identity.user_id = user_id) (l : List (α × McpIdentity)) :
    ((x, identity) :: l).filter (mine user_id) = (x, identity) :: l.filter (mine user_id) :=
  List.filter_cons_of_pos (by simp [mine, huser])

/-- The user is told whether her request found its queue. -/
theorem found_in_view {identity : McpIdentity} {session_id : String}
    (hown : self.posts_to_own (.post identity session_id) = true) (huser : identity.user_id = user_id) :
    (self.server.get session_id).1 =
      ((self.view user_id).session session_id).any (·.key.isSome) := by
  have hfound := McpServer.get_found self.server session_id
  by_cases howner : self.owner session_id = some user_id
  · have hsession : (self.view user_id).session session_id =
        some (self.server.session session_id) := if_pos howner
    rw [hsession, hfound]
    rfl
  · rw [session_of_others howner]
    apply Bool.eq_false_iff.mpr
    intro hget
    apply howner
    rw [← huser]
    exact owner_of_posts_to_own self hown hget

/-- A step of the user does to what she sees what it does on a server of her own. -/
theorem view_tells {a : UserAct} (hown : self.posts_to_own a = true)
    (hstep : self.step mcp_api_key timeout_s a = some s)
    (hconcerns : (self.view user_id).concerns mcp_api_key user_id a = true) :
    s.view user_id = (self.view user_id).tell mcp_api_key timeout_s user_id a := by
  cases a with
  | request authorization x_api_key payload session_id =>
    simp only [step] at hstep
    simp only [UserView.concerns] at hconcerns
    simp only [UserView.tell]
    split at hstep
    · rename_i identity hverify
      cases hstep
      rw [hverify] at hconcerns
      unfold view
      dsimp only
      rw [filter_cons_mine (by simpa using hconcerns)]
    · rename_i hverify
      rw [hverify] at hconcerns
      cases hconcerns
  | sse identity session_id payload =>
    have huser : identity.user_id = user_id := by simpa [UserView.concerns] using hconcerns
    simp only [step] at hstep
    split at hstep
    · rw [view_on_server hstep]
      unfold UserView.tell UserView.serve view
      dsimp only
      rw [← List.erase_filter]
      congr 1
      funext k
      by_cases hk : k = session_id
      · simp [SessionAct.names, SessionState.next, hk, huser]
      · simp [SessionAct.names, hk, Ne.symm hk]
    · cases hstep
  | post identity session_id =>
    have huser : identity.user_id = user_id := by simpa [UserView.concerns] using hconcerns
    have hfound := found_in_view hown huser
    simp only [step] at hstep
    split at hstep
    · rw [view_on_server hstep, UserView.serve_quiet rfl (fun _ => rfl)]
      simp only [UserView.tell]
      rw [← hfound]
      unfold view
      dsimp only
      rw [← List.erase_filter]
      congr 1
      split
      · exact filter_cons_mine huser _
      · rfl
    · cases hstep
  | put identity session_id response =>
    simp only [step] at hstep
    split at hstep
    · rw [view_on_server hstep]
      unfold UserView.tell view
      dsimp only
      rw [← List.erase_filter]
    · cases hstep
  | fail identity session_id =>
    simp only [step] at hstep
    split at hstep
    · rw [view_on_server hstep, UserView.serve_quiet rfl (fun _ => rfl)]
      unfold UserView.tell view
      dsimp only
      rw [← List.erase_filter]
    · cases hstep
  | take session_id =>
    have howner : self.owner session_id = some user_id := by
      by_contra hother
      have hnone := session_of_others hother
      simp [UserView.concerns, hnone] at hconcerns
    simp only [step] at hstep
    rw [view_on_server hstep]
    unfold UserView.tell view
    dsimp only
    rw [List.filter_append, if_pos howner, howner, Option.bind_some]
    congr 3
    cases (self.server.session session_id).message with
    | none => rfl
    | some message => simp
  | keepalive session_id => exact view_on_server hstep
  | close session_id => exact view_on_server hstep
  | elapse ms => exact view_on_server hstep

/-- What a user sees follows from the steps that she has to do with. -/
theorem user_unwinding (mcp_api_key : String) (timeout_s : Nat) (user_id : String) :
    unwinding.Unwinding (step mcp_api_key timeout_s) posts_to_own Owned (view user_id)
      (UserView.concerns mcp_api_key user_id) (UserView.tell mcp_api_key timeout_s user_id) where
  keeps := owned_step
  skips := fun h _ hstep hconcerns => view_skips h hstep hconcerns
  tells := fun _ hown hstep hconcerns => view_tells hown hstep hconcerns

end Laws

/-- The steps of a run that a user has to do with. -/
def told (mcp_api_key : String) (timeout_s : Nat) (user_id : String) :
    UserServer → List UserAct → List UserAct :=
  unwinding.told (step mcp_api_key timeout_s) (view user_id) (UserView.concerns mcp_api_key user_id)

/-- While every request that finds a queue is one of the user who opened the session, each
response is put in the queue of a session of the user whose request it answers. What a user
sees then does not depend on the requests of the others. -/
theorem sessions_belong_to_their_user (mcp_api_key : String) (timeout_s : Nat)
    (acts : List UserAct) (s : UserServer)
    (hown : ({} : UserServer).all_post_to_own mcp_api_key timeout_s acts = true)
    (hrun : ({} : UserServer).run mcp_api_key timeout_s acts = some s) :
    s.PutsAreOwned ∧ ∀ user_id acts' t, ({} : UserServer).all_post_to_own mcp_api_key timeout_s acts' = true →
      ({} : UserServer).run mcp_api_key timeout_s acts' = some t →
      ({} : UserServer).told mcp_api_key timeout_s user_id acts' =
        ({} : UserServer).told mcp_api_key timeout_s user_id acts →
      t.view user_id = s.view user_id := by
  have hempty : ({} : UserServer).Owned := by
    refine ⟨?_, ?_⟩
    · intro r hr
      cases hr
    · intro p hp
      cases hp
  refine ⟨(unwinding.inv_of_run owned_step hempty hown hrun).puts, ?_⟩
  intro user_id acts' t hown' hrun' htold
  exact unwinding.noninterference (user_unwinding mcp_api_key timeout_s user_id) hempty hown' hown
    hrun' hrun htold

/-- A bearer token of a user. -/
def token_of (user_id : String) : Option BearerPayload := some ⟨user_id, "app", "mcp", 0, 3600⟩

def identity_of (user_id : String) : McpIdentity := ⟨user_id, "app", .oauth, "mcp"⟩

/-- The user opens a session and asks something in it. -/
def opens_and_asks (user_id session_id : String) : List UserAct :=
  [.request "Bearer t" "" (token_of user_id) none, .sse (identity_of user_id) session_id "",
    .request "Bearer t" "" (token_of user_id) (some session_id), .post (identity_of user_id) session_id]

def answered (user_id session_id : String) : List UserAct :=
  [.put (identity_of user_id) session_id user_id, .take session_id]

theorem two_users_in_their_sessions :
    (({} : UserServer).run "" 300 (opens_and_asks "alice" "s1" ++ opens_and_asks "bob" "s2" ++
      answered "bob" "s2" ++ answered "alice" "s1")).isSome = true ∧
    ∀ s, ({} : UserServer).run "" 300 (opens_and_asks "alice" "s1" ++ opens_and_asks "bob" "s2" ++
        answered "bob" "s2" ++ answered "alice" "s1") = some s →
      s.PutsAreOwned ∧ ∀ t, ({} : UserServer).run "" 300 (opens_and_asks "alice" "s1" ++
        answered "alice" "s1") = some t → t.view "alice" = s.view "alice" := by
  refine ⟨by decide +kernel, ?_⟩
  intro s hrun
  obtain ⟨hputs, hview⟩ := sessions_belong_to_their_user "" 300 _ s (by decide +kernel) hrun
  refine ⟨hputs, ?_⟩
  intro t hrun'
  exact hview "alice" _ t (by decide +kernel) hrun' (by decide +kernel)

/-- Bob asks in a session that is not his. -/
def asks_in (user_id session_id : String) : List UserAct :=
  [.request "Bearer t" "" (token_of user_id) (some session_id), .post (identity_of user_id) session_id,
    .put (identity_of user_id) session_id user_id]

/-- Bob posts to the session of Alice: his response is put in her queue, and her stream shows
what it does not show without his request. -/
theorem bob_is_answered_on_the_stream_of_alice :
    (¬ ∀ mcp_api_key timeout_s acts s,
      ({} : UserServer).run mcp_api_key timeout_s acts = some s → s.PutsAreOwned) ∧
    ¬ ∀ mcp_api_key timeout_s user_id acts acts' s t,
      ({} : UserServer).run mcp_api_key timeout_s acts = some s →
      ({} : UserServer).run mcp_api_key timeout_s acts' = some t →
      ({} : UserServer).told mcp_api_key timeout_s user_id acts' =
        ({} : UserServer).told mcp_api_key timeout_s user_id acts →
      (t.view user_id).shown = (s.view user_id).shown := by
  have hend : (({} : UserServer).run "" 300 (opens_and_asks "alice" "s1" ++ asks_in "bob" "s1" ++
      answered "alice" "s1")).map (fun s => (s.puts.map fun p => (s.owner p.session_id, p.identity),
        (s.view "alice").shown)) =
        some ([(some "alice", identity_of "alice"), (some "alice", identity_of "bob")],
          [⟨some "alice", "s1", "bob"⟩]) := by decide +kernel
  obtain ⟨s, hrun, hs⟩ := Option.map_eq_some_iff.mp hend
  obtain ⟨hputs, hshown⟩ := Prod.mk.inj hs
  refine ⟨?_, ?_⟩
  · intro h
    have howned := h _ _ _ s hrun
    have hmem : (some "alice", identity_of "bob") ∈
        s.puts.map fun p => (s.owner p.session_id, p.identity) := by
      rw [hputs]
      simp
    obtain ⟨p, hp, hpair⟩ := List.mem_map.mp hmem
    obtain ⟨howner, hidentity⟩ := Prod.mk.inj hpair
    have hbob := howned p hp
    rw [howner, hidentity] at hbob
    exact absurd hbob (by decide)
  · intro h
    have halone : (({} : UserServer).run "" 300 (opens_and_asks "alice" "s1" ++
        answered "alice" "s1")).map (fun s => (s.view "alice").shown) =
          some [⟨some "alice", "s1", "alice"⟩] := by decide +kernel
    obtain ⟨t, hrun', ht⟩ := Option.map_eq_some_iff.mp halone
    have hsame := h "" 300 "alice" _ _ s t hrun hrun' (by decide +kernel)
    rw [ht, hshown] at hsame
    exact absurd hsame (by decide)

end UserServer

end trading_platform.mcp_server
