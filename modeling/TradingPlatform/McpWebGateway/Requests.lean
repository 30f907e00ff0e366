-- The requests of the MCP web gateway: the audit log, the sessions, and the handlers of
-- `tools/list` and `tools/call`. An exception from outside the `try` of an exchange leaves a
-- request without its answer.
import TradingPlatform.Lib.Table
import TradingPlatform.McpWebGateway.Policy

open keyed
open trading_platform.shared

namespace trading_platform.mcp_web_gateway

/-! ## Audit -/

def OUTCOME_ALLOWED : String := "allowed"
def OUTCOME_DENIED : String := "denied"
def OUTCOME_UPSTREAM_ERROR : String := "upstream_error"
def OUTCOME_ERROR : String := "error"

/-- A line of the audit log, less its duration. -/
structure AuditRecord where
  subject : String
  client_id : String
  tool_name : Json
  scope_granted : String
  outcome : String
  detail : String

/-- The dict that `audit_context` yields. -/
structure AuditContext where
  outcome : String := OUTCOME_ERROR
  detail : String := ""

/-! ## Sessions -/

structure TokenClaims where
  sub : String
  client_id : String
  granted_scopes : List String

structure GatewaySession where
  session_id : String
  claims : TokenClaims
  queue : List Json := []
  initialized : Bool := false

structure Gateway where
  sessions : Table GatewaySession GatewaySession.session_id := .empty
  audit : List AuditRecord := []
  /-- What was posted to the internal server. -/
  posted : List Message := []

namespace Gateway

variable (g : Gateway)

def set_session (session : GatewaySession) : Gateway :=
  { g with sessions :=
      g.sessions.upsert session (fun r => { session with session_id := r.session_id }) fun _ => rfl }

def create_session (session_id : String) (claims : TokenClaims) : Gateway :=
  g.set_session { session_id, claims }

def remove_session (session_id : String) : Gateway :=
  { g with sessions := g.sessions.erase session_id }

def mark_initialized (session_id : String) : Gateway :=
  match g.sessions.find session_id with
  | some session => g.set_session { session with initialized := true }
  | none => g

/-- `session.queue.put(message)`. -/
def put (session_id : String) (message : Json) : Gateway :=
  match g.sessions.find session_id with
  | some session => g.set_session { session with queue := session.queue ++ [message] }
  | none => g

def queue (session_id : String) : List Json :=
  match g.sessions.find session_id with
  | some session => session.queue
  | none => []

def deliver (messages : List Message) : Gateway := { g with posted := g.posted ++ messages }

def log_tool_call (record : AuditRecord) : Gateway := { g with audit := g.audit ++ [record] }

end Gateway

/-- `with audit_context(...) as ctx:` around a block. The line is written whatever the block
does. -/
def audit_context (subject client_id : String) (tool_name : Json) (scope_granted : String)
    (block : Except Raised Unit × AuditContext × Gateway) : Except Raised Unit × Gateway :=
  let (outcome, ctx, g) := block
  (outcome, g.log_tool_call
    ⟨subject, client_id, tool_name, scope_granted, ctx.outcome, ctx.detail⟩)

/-! ## Handlers -/

def result_response (msg_id result : Json) : Json :=
  .obj [("jsonrpc", .str "2.0"), ("id", msg_id), ("result", result)]

def error_response (msg_id code : Json) (message : String) : Json :=
  .obj [("jsonrpc", .str "2.0"), ("id", msg_id),
    ("error", .obj [("code", code), ("message", .str message)])]

/-- The values that a `for` loop over a value takes. -/
def items_of : Json → Except PyErr (List Json)
  | .arr items => .ok items
  | .obj fields => .ok (fields.map fun f => .str f.1)
  | .str s => .ok (s.toList.map fun c => .str (String.ofList [c]))
  | value => .error ⟨"TypeError", s!"'{type_name value}' object is not iterable"⟩

/-- `t.get("name") in ALLOWED_TOOLS`. -/
def is_allowed (t : Json) : Except PyErr Bool :=
  match t with
  | .obj fields => is_in ALLOWED_TOOLS ((Dict.get fields "name").getD .null)
  | _ => .error (no_get t)

/-- The comprehension of `get_filtered_tools`. -/
def filter_tools : List Json → Except PyErr (List Json)
  | [] => .ok []
  | t :: ts => do
    let allowed ← is_allowed t
    let rest ← filter_tools ts
    return if allowed then t :: rest else rest

/-- What `get_filtered_tools` makes of a response. -/
def tools_in (response : Dict) : Except PyErr (List Json) :=
  match (Dict.get response "result").getD (.obj []) with
  | .obj result => do
    let all_tools ← items_of ((Dict.get result "tools").getD (.arr []))
    filter_tools all_tools
  | result => .error (no_get result)

section Requests

variable (loads : String → Except PyErr Json) (x : Exchange) (g : Gateway)

def get_filtered_tools : Except Raised (List Json) × List Message :=
  let (result, posted) := x.one_shot_rpc loads "tools/list" (.obj []) 2
  (result.bind fun response => (tools_in response).mapError .other, posted)

def handle_initialize (session : GatewaySession) (msg_id : Json) : Gateway :=
  g.put session.session_id (result_response msg_id (.obj [
    ("protocolVersion", .str "2024-11-05"),
    ("capabilities", .obj [("tools", .obj [])]),
    ("serverInfo", .obj [("name", .str "mcp-web-gateway"), ("version", .str "1.0.0")])]))

def handle_tools_list (session : GatewaySession) (msg_id : Json) : Except Raised Unit × Gateway :=
  let (tools, posted) := get_filtered_tools loads x
  let g := g.deliver posted
  match tools with
  | .ok tools =>
    (.ok (), g.put session.session_id (result_response msg_id (.obj [("tools", .arr tools)])))
  | .error (.upstream message _) =>
    (.ok (), g.put session.session_id (error_response msg_id (.num "-32000") (str_json message)))
  | .error e => (.error e, g)

/-- The block of `audit_context` in `_handle_tools_call`. -/
def audited_call (session : GatewaySession) (tool_name arguments msg_id : Json) :
    Except Raised Unit × AuditContext × Gateway :=
  match check_tool_call tool_name session.claims.granted_scopes with
  | .error (.denied reason) =>
    (.ok (), { outcome := OUTCOME_DENIED, detail := reason },
      g.put session.session_id (error_response msg_id (.num "-32603") s!"Policy denied: {reason}"))
  | .error e => (.error e, {}, g)
  | .ok _ =>
    let (upstream, posted) := x.call_tool loads tool_name arguments
    let g := g.deliver posted
    match upstream with
    | .ok upstream =>
      (.ok (), { outcome := OUTCOME_ALLOWED },
        g.put session.session_id
          (result_response msg_id ((Dict.get upstream "result").getD (.obj []))))
    | .error (.upstream message code) =>
      (.ok (), { outcome := OUTCOME_UPSTREAM_ERROR, detail := str_json message },
        g.put session.session_id (error_response msg_id code (str_json message)))
    | .error e => (.error e, {}, g)

/-- `body.get("params", {})`. -/
def params_of (body : Dict) : Json := (Dict.get body "params").getD (.obj [])

def tool_name_of (params : Dict) : Json := (Dict.get params "name").getD (.str "")

def arguments_of (params : Dict) : Json := (Dict.get params "arguments").getD (.obj [])

def handle_tools_call (session : GatewaySession) (body : Dict) (msg_id : Json) :
    Except Raised Unit × Gateway :=
  match params_of body with
  | .obj params =>
    let tool_name := tool_name_of params
    match scope_of tool_name with
    | .error e => (.error (.other e), g)
    | .ok scope_for_tool =>
      audit_context session.claims.sub session.claims.client_id tool_name (scope_for_tool.getD "")
        (audited_call loads x g session tool_name (arguments_of params) msg_id)
  | params => (.error (.other (no_get params)), g)

/-- `POST /messages`; `body` is what the JSON of the request gives, if it is JSON. -/
def messages_endpoint (session_id : String) (body : Option Json) : Except Raised Unit × Gateway :=
  match g.sessions.find session_id with
  | none => (.error (.other ⟨"HTTPException", "404: Session not found or expired"⟩), g)
  | some session =>
    match body with
    | none => (.error (.other ⟨"HTTPException", "400: Invalid JSON body"⟩), g)
    | some (.obj body) =>
      let method := (Dict.get body "method").getD (.str "")
      let msg_id := (Dict.get body "id").getD .null
      match method with
      | .str method =>
        if method = "initialize" then (.ok (), handle_initialize g session msg_id)
        else if method = "notifications/initialized" then (.ok (), g.mark_initialized session_id)
        else if method = "tools/list" then handle_tools_list loads x g session msg_id
        else if method = "tools/call" then handle_tools_call loads x g session body msg_id
        else if "notifications/".toList.isPrefixOf method.toList then (.ok (), g)
        else if method = "ping" then
          (.ok (), g.put session_id (result_response msg_id (.obj [])))
        else
          (.ok (), g.put session_id
            (error_response msg_id (.num "-32601") s!"Method not found: {method}"))
      | method =>
        (.error (.other ⟨"AttributeError",
          s!"'{type_name method}' object has no attribute 'startswith'"⟩), g)
    | some body => (.error (.other (no_get body)), g)

end Requests

/-! ## Answered and audited -/

/-- One reply with the id is put on the queue of the session, a call of a tool is audited
once, and the tool is posted only if it was granted. -/
structure Handled (session : GatewaySession) (method : String) (msg_id : Json)
    (before after : Gateway) : Prop where
  answered : ∃ reply, after.queue session.session_id = before.queue session.session_id ++ [reply] ∧
    reply.get "id" = .ok (some msg_id)
  audited : method = "tools/call" → ∃ record, after.audit = before.audit ++ [record]
  guarded : ∃ messages, after.posted = before.posted ++ messages ∧
    ∀ m ∈ messages, GrantedCall session.claims.granted_scopes m

/-- The tools of a response are a list of dicts whose names can be looked up, or nothing. -/
def Readable (response : Dict) : Prop :=
  ∃ result, (Dict.get response "result").getD (.obj []) = .obj result ∧
    match (Dict.get result "tools").getD (.arr []) with
    | .arr tools => ∀ t ∈ tools, ∃ fields, t = .obj fields ∧
        hashable ((Dict.get fields "name").getD .null) = true
    | .obj fields => fields = []
    | .str s => s = ""
    | _ => False

/-- When the tools can be listed. -/
def Listable (loads : String → Except PyErr Json) (x : Exchange) : Prop :=
  x.Clean ∧ ∀ response, x.reply loads 2 = some response → Dict.get response "error" = none →
    Readable response

/-- When a request can be answered. -/
def Answerable (loads : String → Except PyErr Json) (x : Exchange) (session : GatewaySession)
    (method : String) (body : Dict) : Prop :=
  if method = "tools/list" then Listable loads x
  else
    ∃ params, params_of body = .obj params ∧ hashable (tool_name_of params) = true ∧
      (Granted session.claims.granted_scopes (tool_name_of params) → x.Clean)

/-! ## Which responses are readable -/

theorem is_allowed_ok {t : Json} :
    (∃ allowed, is_allowed t = .ok allowed) ↔
      ∃ fields, t = .obj fields ∧ hashable ((Dict.get fields "name").getD .null) = true := by
  cases t with
  | obj fields =>
    unfold is_allowed is_in
    by_cases hname : hashable ((Dict.get fields "name").getD .null) = true
    · simp only [if_pos hname]
      constructor
      · intro _
        exact ⟨fields, rfl, hname⟩
      · intro _
        split
        · exact ⟨_, rfl⟩
        · exact ⟨_, rfl⟩
    · simp [hname]
  | null | bool b | num text | str s | arr items => simp [is_allowed]

theorem filter_tools_ok {tools : List Json} :
    (∃ kept, filter_tools tools = .ok kept) ↔
      ∀ t ∈ tools, ∃ fields, t = .obj fields ∧
        hashable ((Dict.get fields "name").getD .null) = true := by
  induction tools with
  | nil => simp [filter_tools]
  | cons t ts ih =>
    have hcons : filter_tools (t :: ts) = (is_allowed t).bind fun allowed =>
        (filter_tools ts).bind fun rest => .ok (if allowed then t :: rest else rest) := rfl
    rw [List.forall_mem_cons, ← ih, ← is_allowed_ok, hcons]
    cases is_allowed t with
    | error e => simp [Except.bind]
    | ok allowed =>
      cases filter_tools ts with
      | error e => simp [Except.bind]
      | ok rest => simp [Except.bind]

/-- Texts are no tools. -/
theorem filter_texts_ok {α : Type} {f : α → String} {xs : List α} :
    (∃ kept, filter_tools (xs.map fun a => .str (f a)) = .ok kept) ↔ xs = [] := by
  rw [filter_tools_ok]
  cases xs with
  | nil => simp
  | cons a as => simp

theorem tools_in_ok {response : Dict} :
    (∃ tools, tools_in response = .ok tools) ↔ Readable response := by
  unfold tools_in Readable
  cases (Dict.get response "result").getD (.obj []) with
  | obj result =>
    cases htools : (Dict.get result "tools").getD (.arr []) with
    | arr tools =>
      have hdicts := @filter_tools_ok tools
      simpa [items_of, htools, bind, Except.bind] using hdicts
    | obj fields =>
      have htexts := @filter_texts_ok _ (fun field : String × Json => field.1) fields
      simpa [items_of, htools, bind, Except.bind] using htexts
    | str s =>
      have htexts := @filter_texts_ok _ (fun c => String.ofList [c]) s.toList
      simpa [items_of, htools, bind, Except.bind] using htexts
    | null | bool b | num text => simp [items_of, htools, bind, Except.bind]
  | null | bool b | num text | str s | arr items => simp

/-! ## What a handler leaves -/

namespace Gateway

variable {g : Gateway}

theorem find_set_session (session : GatewaySession) (k : String) :
    (g.set_session session).sessions.find k =
      if k = session.session_id then some session else g.sessions.find k := by
  have hrow : ∀ r : GatewaySession, r.session_id = session.session_id →
      { session with session_id := r.session_id } = session := by
    intro r hr
    rw [hr]
  unfold set_session
  rw [Table.find_upsert_row hrow]

@[simp] theorem put_audit (session_id : String) (message : Json) :
    (g.put session_id message).audit = g.audit := by
  unfold put
  split
  · rfl
  · rfl

@[simp] theorem put_posted (session_id : String) (message : Json) :
    (g.put session_id message).posted = g.posted := by
  unfold put
  split
  · rfl
  · rfl

@[simp] theorem deliver_nil (g : Gateway) : g.deliver [] = g := by simp [deliver]

theorem queue_put {session_id : String} (h : (g.sessions.find session_id).isSome = true)
    (message : Json) :
    (g.put session_id message).queue session_id = g.queue session_id ++ [message] := by
  obtain ⟨session, hfind⟩ := Option.isSome_iff_exists.mp h
  obtain rfl := Table.key_of_find hfind
  unfold put queue
  simp [hfind, find_set_session]

end Gateway

section Handlers

variable {loads : String → Except PyErr Json} {x : Exchange} {g : Gateway}
  {session : GatewaySession} {msg_id : Json}

/-- An exchange for another method calls no tool. -/
theorem granted_of_list {granted_scopes : List String} {m : Message}
    (h : m ∈ (x.one_shot_rpc loads "tools/list" (.obj []) 2).2) : GrantedCall granted_scopes m := by
  intro hcall
  rcases Exchange.mem_posted h with rfl | rfl | rfl
  · exact absurd hcall (by decide)
  · exact absurd hcall (by decide)
  · exact absurd hcall (by decide)

theorem granted_of_call {granted_scopes : List String} {tool_name arguments : Json}
    (hgranted : Granted granted_scopes tool_name) {m : Message}
    (h : m ∈ (x.call_tool loads tool_name arguments).2) : GrantedCall granted_scopes m := by
  intro hcall
  rcases Exchange.mem_posted h with rfl | rfl | rfl
  · exact absurd hcall (by decide)
  · exact absurd hcall (by decide)
  · exact ⟨tool_name, by simp [Json.get], hgranted⟩

/-- What `tools/list` posts, however the exchange goes. -/
theorem handle_tools_list_guarded (granted_scopes : List String) :
    ∃ messages, (handle_tools_list loads x g session msg_id).2.posted = g.posted ++ messages ∧
      ∀ m ∈ messages, GrantedCall granted_scopes m := by
  refine ⟨(get_filtered_tools loads x).2, ?_, fun m hm => granted_of_list hm⟩
  unfold handle_tools_list
  split
  rename_i tools posted hget
  rw [hget]
  dsimp only
  split
  · simp [Gateway.deliver]
  · simp [Gateway.deliver]
  · rfl

/-- What the block of `audit_context` posts, however the exchange goes. -/
theorem audited_call_guarded {tool_name : Json} (hname : hashable tool_name = true)
    (arguments : Json) :
    ∃ messages, (audited_call loads x g session tool_name arguments msg_id).2.2.posted =
        g.posted ++ messages ∧
      ∀ m ∈ messages, GrantedCall session.claims.granted_scopes m := by
  by_cases hgranted : Granted session.claims.granted_scopes tool_name
  · refine ⟨(x.call_tool loads tool_name arguments).2, ?_, fun m hm => granted_of_call hgranted hm⟩
    unfold audited_call
    rw [check_of_granted hgranted]
    dsimp only
    split
    · simp [Gateway.deliver]
    · simp [Gateway.deliver]
    · rfl
  · obtain ⟨reason, hcheck⟩ := check_of_not_granted hname hgranted
    exact ⟨[], by simp [audited_call, hcheck], by simp⟩

theorem handle_tools_call_guarded {body : Dict} :
    ∃ messages, (handle_tools_call loads x g session body msg_id).2.posted = g.posted ++ messages ∧
      ∀ m ∈ messages, GrantedCall session.claims.granted_scopes m := by
  unfold handle_tools_call
  split
  · rename_i params hparams
    dsimp only
    by_cases hname : hashable (tool_name_of params) = true
    · obtain ⟨scope, hscope⟩ := scope_of_hashable hname
      rw [hscope]
      exact audited_call_guarded hname (arguments_of params)
    · rw [scope_of_unhashable hname]
      exact ⟨[], by simp, by simp⟩
  · exact ⟨[], by simp, by simp⟩

/-- A state that has the reply, and nothing else of interest. -/
theorem not_handled_of_queue {method : String} {after : Gateway}
    (h : after.queue session.session_id = g.queue session.session_id) :
    ¬ Handled session method msg_id g after := by
  intro hhandled
  obtain ⟨reply, hqueue, -⟩ := hhandled.answered
  rw [h] at hqueue
  have hlength := congrArg List.length hqueue
  simp at hlength

theorem get_id_result (msg_id result : Json) :
    (result_response msg_id result).get "id" = .ok (some msg_id) := by
  simp [result_response, Json.get]

theorem get_id_error (msg_id code : Json) (message : String) :
    (error_response msg_id code message).get "id" = .ok (some msg_id) := by
  simp [error_response, Json.get]

/-- `tools/list` with a reply that is put on the queue. -/
theorem handled_list (hlive : (g.sessions.find session.session_id).isSome = true) {reply : Json}
    (hid : reply.get "id" = .ok (some msg_id)) {messages : List Message}
    (hlist : (handle_tools_list loads x g session msg_id).2 =
      (g.deliver messages).put session.session_id reply) :
    Handled session "tools/list" msg_id g (handle_tools_list loads x g session msg_id).2 where
  answered := by
    rw [hlist]
    exact ⟨reply, Gateway.queue_put (g := g.deliver messages) hlive reply, hid⟩
  audited h := absurd h (by decide)
  guarded := handle_tools_list_guarded session.claims.granted_scopes

theorem get_filtered_tools_answers (h : Listable loads x) :
    (∃ tools, (get_filtered_tools loads x).1 = .ok tools) ∨
      ∃ message code, (get_filtered_tools loads x).1 = .error (.upstream message code) := by
  obtain ⟨hclean, hreadable⟩ := h
  rcases @Exchange.one_shot_rpc_of_clean loads x hclean "tools/list" (.obj []) 2 with
    ⟨response, hrpc, hreply, hnone⟩ | ⟨message, code, hrpc, -⟩
  · left
    obtain ⟨tools, hin⟩ := tools_in_ok.mpr (hreadable response hreply hnone)
    refine ⟨tools, ?_⟩
    simp only [get_filtered_tools, hrpc, Except.bind, hin]
    rfl
  · right
    refine ⟨message, code, ?_⟩
    simp only [get_filtered_tools, hrpc, Except.bind]

theorem get_filtered_tools_raises (h : ¬ Listable loads x) :
    ∃ e, (get_filtered_tools loads x).1 = .error (.other e) := by
  by_cases hclean : x.Clean
  · have hunreadable : ∃ response, x.reply loads 2 = some response ∧
        Dict.get response "error" = none ∧ ¬ Readable response := by
      by_contra hnone
      apply h
      refine ⟨hclean, ?_⟩
      intro response hreply herror
      by_contra hread
      exact hnone ⟨response, hreply, herror, hread⟩
    obtain ⟨response, hreply, herror, hread⟩ := hunreadable
    rcases @Exchange.one_shot_rpc_of_clean loads x hclean "tools/list" (.obj []) 2 with
      ⟨response', hrpc, hreply', -⟩ | ⟨message, code, -, hother⟩
    · rw [hreply] at hreply'
      cases hreply'
      cases hin : tools_in response with
      | ok tools => exact absurd (tools_in_ok.mp ⟨tools, hin⟩) hread
      | error e =>
        refine ⟨e, ?_⟩
        simp only [get_filtered_tools, hrpc, Except.bind, hin]
        rfl
    · exact absurd herror (hother response hreply)
  · obtain ⟨e, hrpc⟩ := @Exchange.one_shot_rpc_of_not_clean loads x hclean "tools/list" (.obj []) 2
    refine ⟨e, ?_⟩
    simp only [get_filtered_tools, hrpc, Except.bind]

theorem handle_tools_list_handled_iff
    (hlive : (g.sessions.find session.session_id).isSome = true) :
    Handled session "tools/list" msg_id g (handle_tools_list loads x g session msg_id).2 ↔
      Listable loads x := by
  constructor
  · intro hhandled
    by_contra hlist
    obtain ⟨e, he⟩ := get_filtered_tools_raises hlist
    refine not_handled_of_queue ?_ hhandled
    simp only [handle_tools_list, he]
    rfl
  · intro hlist
    rcases get_filtered_tools_answers hlist with ⟨tools, htools⟩ | ⟨message, code, htools⟩
    · have hput : (handle_tools_list loads x g session msg_id).2 =
          (g.deliver (get_filtered_tools loads x).2).put session.session_id
            (result_response msg_id (.obj [("tools", .arr tools)])) := by
        simp only [handle_tools_list, htools]
      exact handled_list hlive (get_id_result _ _) hput
    · have hput : (handle_tools_list loads x g session msg_id).2 =
          (g.deliver (get_filtered_tools loads x).2).put session.session_id
            (error_response msg_id (.num "-32000") (str_json message)) := by
        simp only [handle_tools_list, htools]
      exact handled_list hlive (get_id_error _ _ _) hput

/-- The block writes no line of its own, and one is written behind it. -/
theorem audit_context_audit {block : Except Raised Unit × AuditContext × Gateway}
    (h : block.2.2.audit = g.audit) (subject client_id : String) (tool_name : Json)
    (scope_granted : String) :
    ∃ record, (audit_context subject client_id tool_name scope_granted block).2.audit =
      g.audit ++ [record] :=
  ⟨_, congrArg (· ++ [_]) h⟩

/-- `tools/call` with a reply that is put on the queue inside `audit_context`. -/
theorem handled_call (hlive : (g.sessions.find session.session_id).isSome = true) {body : Dict}
    {reply : Json} (hid : reply.get "id" = .ok (some msg_id)) {messages : List Message}
    {subject client_id scope_granted : String} {tool_name : Json}
    {block : Except Raised Unit × AuditContext × Gateway}
    (hcall : handle_tools_call loads x g session body msg_id =
      audit_context subject client_id tool_name scope_granted block)
    (hblock : block.2.2 = (g.deliver messages).put session.session_id reply) :
    Handled session "tools/call" msg_id g (handle_tools_call loads x g session body msg_id).2 where
  answered := by
    rw [hcall]
    refine ⟨reply, ?_, hid⟩
    show block.2.2.queue session.session_id = _
    rw [hblock]
    exact Gateway.queue_put (g := g.deliver messages) hlive reply
  audited _ := by
    rw [hcall]
    apply audit_context_audit
    rw [hblock, Gateway.put_audit]
    rfl
  guarded := handle_tools_call_guarded

/-- The block of `audit_context` answers when the tool is denied, or nothing is raised outside
the `try`. -/
theorem audited_call_answers {tool_name : Json} (hname : hashable tool_name = true)
    (hclean : Granted session.claims.granted_scopes tool_name → x.Clean) (arguments : Json) :
    ∃ reply messages, reply.get "id" = .ok (some msg_id) ∧
      (audited_call loads x g session tool_name arguments msg_id).2.2 =
        (g.deliver messages).put session.session_id reply := by
  by_cases hgranted : Granted session.claims.granted_scopes tool_name
  · have hcheck := check_of_granted hgranted
    rcases @Exchange.one_shot_rpc_of_clean loads x (hclean hgranted) "tools/call"
      (.obj [("name", tool_name), ("arguments", arguments)]) 2 with
        ⟨response, hrpc, -⟩ | ⟨message, code, hrpc, -⟩
    · refine ⟨_, (x.call_tool loads tool_name arguments).2,
        get_id_result msg_id ((Dict.get response "result").getD (.obj [])), ?_⟩
      have hcall : (x.call_tool loads tool_name arguments).1 = .ok response := hrpc
      simp only [audited_call, hcheck, hcall]
    · refine ⟨_, (x.call_tool loads tool_name arguments).2,
        get_id_error msg_id code (str_json message), ?_⟩
      have hcall : (x.call_tool loads tool_name arguments).1 = .error (.upstream message code) := hrpc
      simp only [audited_call, hcheck, hcall]
  · obtain ⟨reason, hcheck⟩ := check_of_not_granted hname hgranted
    refine ⟨_, [], get_id_error msg_id (.num "-32603") s!"Policy denied: {reason}", ?_⟩
    simp only [audited_call, hcheck, Gateway.deliver_nil]

/-- A tool that may be called, and an exchange that raises outside its `try`: no answer. -/
theorem audited_call_raises {tool_name : Json}
    (hgranted : Granted session.claims.granted_scopes tool_name) (hclean : ¬ x.Clean)
    (arguments : Json) :
    (audited_call loads x g session tool_name arguments msg_id).2.2.queue session.session_id =
      g.queue session.session_id := by
  obtain ⟨e, hrpc⟩ := @Exchange.one_shot_rpc_of_not_clean loads x hclean "tools/call"
    (.obj [("name", tool_name), ("arguments", arguments)]) 2
  have hcall : (x.call_tool loads tool_name arguments).1 = .error (.other e) := hrpc
  simp only [audited_call, check_of_granted hgranted, hcall]
  rfl

/-- A call is audited once exactly when its parameters can be read. -/
theorem handle_tools_call_audited_iff {body : Dict} :
    (∃ record, (handle_tools_call loads x g session body msg_id).2.audit = g.audit ++ [record]) ↔
      ∃ params, params_of body = .obj params ∧ hashable (tool_name_of params) = true := by
  have hunaudited : ¬ ∃ record, g.audit = g.audit ++ [record] := by
    rintro ⟨record, haudit⟩
    have hlength := congrArg List.length haudit
    simp at hlength
  have hblock : ∀ tool_name arguments,
      (audited_call loads x g session tool_name arguments msg_id).2.2.audit = g.audit := by
    intro tool_name arguments
    unfold audited_call
    split
    · exact Gateway.put_audit _ _
    · rfl
    · split
      dsimp only
      split
      · exact Gateway.put_audit _ _
      · exact Gateway.put_audit _ _
      · rfl
  unfold handle_tools_call
  split
  · rename_i params hparams
    dsimp only
    by_cases hname : hashable (tool_name_of params) = true
    · obtain ⟨scope, hscope⟩ := scope_of_hashable hname
      rw [hscope]
      constructor
      · intro _
        exact ⟨params, hparams, hname⟩
      · intro _
        exact audit_context_audit (hblock _ _) _ _ _ _
    · rw [scope_of_unhashable hname]
      constructor
      · intro h
        exact absurd h hunaudited
      · rintro ⟨params', hparams', hname'⟩
        rw [hparams] at hparams'
        cases hparams'
        exact absurd hname' hname
  · rename_i hnone
    constructor
    · intro h
      exact absurd h hunaudited
    · rintro ⟨params, hparams, -⟩
      exact absurd hparams (hnone params)

theorem handle_tools_call_handled_iff
    (hlive : (g.sessions.find session.session_id).isSome = true) {body : Dict} :
    Handled session "tools/call" msg_id g (handle_tools_call loads x g session body msg_id).2 ↔
      ∃ params, params_of body = .obj params ∧ hashable (tool_name_of params) = true ∧
        (Granted session.claims.granted_scopes (tool_name_of params) → x.Clean) := by
  cases hparams : params_of body with
  | obj params =>
    by_cases hname : hashable (tool_name_of params) = true
    · obtain ⟨scope, hscope⟩ := scope_of_hashable hname
      have hcall : handle_tools_call loads x g session body msg_id =
          audit_context session.claims.sub session.claims.client_id (tool_name_of params)
            (scope.getD "") (audited_call loads x g session (tool_name_of params)
              (arguments_of params) msg_id) := by
        simp only [handle_tools_call, hparams, hscope]
      constructor
      · intro hhandled
        refine ⟨params, rfl, hname, ?_⟩
        intro hgranted
        by_contra hclean
        refine not_handled_of_queue ?_ hhandled
        rw [hcall]
        exact audited_call_raises hgranted hclean _
      · rintro ⟨_, hsame, -, hclean⟩
        cases hsame
        obtain ⟨reply, messages, hid, hblock⟩ :=
          @audited_call_answers loads x g session msg_id _ hname hclean (arguments_of params)
        exact handled_call hlive hid hcall hblock
    · constructor
      · intro hhandled
        refine absurd hhandled (not_handled_of_queue ?_)
        simp only [handle_tools_call, hparams, scope_of_unhashable hname]
      · rintro ⟨_, hsame, hhashable, -⟩
        cases hsame
        exact absurd hhashable hname
  | null | bool b | num text | str s | arr items =>
    constructor
    · intro hhandled
      refine absurd hhandled (not_handled_of_queue ?_)
      simp only [handle_tools_call, hparams]
    · rintro ⟨_, hsame, -⟩
      cases hsame

end Handlers

/-- A client lists the strategies, with the scope for it. -/
def listing : Dict :=
  [("jsonrpc", .str "2.0"), ("id", .num "7"), ("method", .str "tools/call"),
    ("params", .obj [("name", .str "list_strategies"), ("arguments", .obj [])])]

def reader_claims : TokenClaims := ⟨"user", "client", ["mcp:strategy:read"]⟩

def one_session : Gateway := ({} : Gateway).create_session "s1" reader_claims

def answer_text (n : String) : String := "\x7b\"id\": " ++ n ++ ", \"result\": []\x7d"

/-- `json.loads` of the two answers. -/
def answers (text : String) : Except PyErr Json :=
  if text = answer_text "1" then .ok (.obj [("id", .num "1"), ("result", .arr [])])
  else if text = answer_text "2" then .ok (.obj [("id", .num "2"), ("result", .arr [])])
  else .error ⟨"JSONDecodeError", "Expecting value"⟩

/-- An internal server that answers both requests. -/
def answering : Exchange where
  until_ready := ["event: endpoint", "data: /messages?session_id=a", ""]
  until_initialized := ["event: message", "data: " ++ answer_text "1", ""]
  until_response := ["event: message", "data: " ++ answer_text "2", ""]

/-- An internal server that is down. -/
def refusing : Exchange where
  stream := .error ⟨"ConnectError", "All connection attempts failed"⟩

/-- A request of `tools/list` or `tools/call` in a live session is answered once, audited and
guarded exactly when nothing is raised outside the `try` of the exchange that it needs, its
parameters can be read, and so can the tools of the reply. -/
theorem requests_are_handled_iff (loads : String → Except PyErr Json) (x : Exchange) (g : Gateway)
    (session : GatewaySession) (hlive : g.sessions.find session.session_id = some session)
    (body : Dict) (method : String) (msg_id : Json)
    (hkind : method = "tools/list" ∨ method = "tools/call")
    (hmethod : Dict.get body "method" = some (.str method))
    (hid : Dict.get body "id" = some msg_id) :
    Handled session method msg_id g
        (messages_endpoint loads x g session.session_id (some (.obj body))).2 ↔
      Answerable loads x session method body := by
  have hsome : (g.sessions.find session.session_id).isSome = true := by
    rw [hlive]
    rfl
  rcases hkind with rfl | rfl
  · have hlist : messages_endpoint loads x g session.session_id (some (.obj body)) =
        handle_tools_list loads x g session msg_id := by
      simp [messages_endpoint, hlive, hmethod, hid]
    rw [hlist]
    exact handle_tools_list_handled_iff hsome
  · have hcall : messages_endpoint loads x g session.session_id (some (.obj body)) =
        handle_tools_call loads x g session body msg_id := by
      simp [messages_endpoint, hlive, hmethod, hid]
    rw [hcall]
    exact handle_tools_call_handled_iff hsome

theorem a_granted_call_is_handled :
    one_session.sessions.find "s1" = some { session_id := "s1", claims := reader_claims } ∧
      Handled { session_id := "s1", claims := reader_claims } "tools/call" (.num "7") one_session
        (messages_endpoint answers answering one_session "s1" (some (.obj listing))).2 ∧
      (messages_endpoint answers answering one_session "s1" (some (.obj listing))).2.queue "s1" =
        [result_response (.num "7") (.arr [])] := by
  refine ⟨rfl, ?_, rfl⟩
  refine (requests_are_handled_iff answers answering one_session
    { session_id := "s1", claims := reader_claims } rfl listing "tools/call" (.num "7") (Or.inr rfl)
    rfl rfl).mpr ?_
  exact ⟨_, rfl, rfl, fun _ => ⟨rfl, rfl, rfl, rfl, rfl⟩⟩

/-- The internal server refuses the connection: the client never gets an answer. -/
theorem a_refused_connection_is_not_answered :
    ¬ ∀ (loads : String → Except PyErr Json) (x : Exchange) (g : Gateway) (session : GatewaySession),
      g.sessions.find session.session_id = some session →
        ∀ (body : Dict) (method : String) (msg_id : Json),
          method = "tools/list" ∨ method = "tools/call" →
            Dict.get body "method" = some (.str method) → Dict.get body "id" = some msg_id →
              Handled session method msg_id g
                (messages_endpoint loads x g session.session_id (some (.obj body))).2 := by
  intro h
  have hhandled := h answers refusing one_session
    { session_id := "s1", claims := reader_claims } rfl listing "tools/call" (.num "7") (Or.inr rfl)
    rfl rfl
  refine not_handled_of_queue ?_ hhandled
  rfl

end trading_platform.mcp_web_gateway
