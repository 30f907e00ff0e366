-- Runs of the MCP web gateway. Whatever its clients post, a tool that reaches the internal
-- server was granted by the token of a session.
import TradingPlatform.McpWebGateway.Requests
import Mathlib.Data.List.Induction

open keyed
open trading_platform.shared

namespace trading_platform.mcp_web_gateway

inductive GatewayAct where
  /-- `GET /sse` opens a session with the claims of its token. -/
  | sse (session_id : String) (claims : TokenClaims)
  | post (session_id : String) (body : Option Json) (x : Exchange)
  | close (session_id : String)

def Gateway.step (loads : String → Except PyErr Json) (g : Gateway) : GatewayAct → Gateway
  | .sse session_id claims =>
    if (g.sessions.find session_id).isNone then g.create_session session_id claims else g
  | .post session_id body x => (messages_endpoint loads x g session_id body).2
  | .close session_id => g.remove_session session_id

def Gateway.run (loads : String → Except PyErr Json) (acts : List GatewayAct) : Gateway :=
  acts.foldl (Gateway.step loads) {}

namespace Gateway

/-- The claims of every session were issued. -/
def Issued (issued : TokenClaims → Prop) (g : Gateway) : Prop :=
  ∀ k session, g.sessions.find k = some session → issued session.claims

/-- Every call that was posted was granted by claims that were issued. -/
def Guarded (issued : TokenClaims → Prop) (g : Gateway) : Prop :=
  ∀ m ∈ g.posted, m.method = "tools/call" →
    ∃ claims, issued claims ∧ GrantedCall claims.granted_scopes m

section Laws

variable {loads : String → Except PyErr Json} {issued : TokenClaims → Prop} {g : Gateway}

theorem issued_set (h : g.Issued issued) {session : GatewaySession}
    (hsession : issued session.claims) : (g.set_session session).Issued issued := by
  intro k s hfind
  rw [find_set_session] at hfind
  by_cases hk : k = session.session_id
  · rw [if_pos hk] at hfind
    cases hfind
    exact hsession
  · rw [if_neg hk] at hfind
    exact h k s hfind

theorem issued_put (h : g.Issued issued) (session_id : String) (message : Json) :
    (g.put session_id message).Issued issued := by
  unfold put
  split
  · rename_i session hfind
    exact issued_set h (h session_id session hfind)
  · exact h

theorem issued_mark (h : g.Issued issued) (session_id : String) :
    (g.mark_initialized session_id).Issued issued := by
  unfold mark_initialized
  split
  · rename_i session hfind
    exact issued_set h (h session_id session hfind)
  · exact h

theorem issued_tools_list (h : g.Issued issued) (x : Exchange) (session : GatewaySession)
    (msg_id : Json) : (handle_tools_list loads x g session msg_id).2.Issued issued := by
  have hdeliver : ∀ messages, (g.deliver messages).Issued issued := fun _ => h
  unfold handle_tools_list
  split
  dsimp only
  split
  · exact issued_put (hdeliver _) _ _
  · exact issued_put (hdeliver _) _ _
  · exact hdeliver _

theorem issued_tools_call (h : g.Issued issued) (x : Exchange) (session : GatewaySession)
    (body : Dict) (msg_id : Json) :
    (handle_tools_call loads x g session body msg_id).2.Issued issued := by
  have hdeliver : ∀ messages, (g.deliver messages).Issued issued := fun _ => h
  have hblock : ∀ tool_name arguments,
      (audited_call loads x g session tool_name arguments msg_id).2.2.Issued issued := by
    intro tool_name arguments
    unfold audited_call
    split
    · exact issued_put h _ _
    · exact h
    · split
      dsimp only
      split
      · exact issued_put (hdeliver _) _ _
      · exact issued_put (hdeliver _) _ _
      · exact hdeliver _
  unfold handle_tools_call
  split
  · dsimp only
    split
    · exact h
    · exact hblock _ _
  · exact h

theorem issued_messages (h : g.Issued issued) (x : Exchange) (session_id : String)
    (body : Option Json) : (messages_endpoint loads x g session_id body).2.Issued issued := by
  unfold messages_endpoint
  split
  · exact h
  · split
    · exact h
    · dsimp only
      split
      · split
        · exact issued_put h _ _
        · split
          · exact issued_mark h _
          · split
            · exact issued_tools_list h _ _ _
            · split
              · exact issued_tools_call h _ _ _ _
              · split
                · exact h
                · split
                  · exact issued_put h _ _
                  · exact issued_put h _ _
      · exact h
    · exact h

/-- What a request posts is granted by the claims of its session. -/
theorem guarded_messages (hissued : g.Issued issued) (h : g.Guarded issued) (x : Exchange)
    (session_id : String) (body : Option Json) :
    (messages_endpoint loads x g session_id body).2.Guarded issued := by
  have happend : ∀ {session : GatewaySession} {after : Gateway}, issued session.claims →
      (∃ messages, after.posted = g.posted ++ messages ∧
        ∀ m ∈ messages, GrantedCall session.claims.granted_scopes m) → after.Guarded issued := by
    rintro session after hclaims ⟨messages, hposted, hgranted⟩ m hm hcall
    rw [hposted] at hm
    rcases List.mem_append.mp hm with hold | hnew
    · exact h m hold hcall
    · exact ⟨session.claims, hclaims, hgranted m hnew⟩
  have hsame : ∀ {after : Gateway}, after.posted = g.posted → after.Guarded issued := by
    intro after hposted m hm
    rw [hposted] at hm
    exact h m hm
  unfold messages_endpoint
  split
  · exact h
  · rename_i session hfind
    have hclaims := hissued session_id session hfind
    split
    · exact h
    · dsimp only
      split
      · split
        · exact hsame (put_posted _ _)
        · split
          · refine hsame ?_
            unfold mark_initialized
            split
            · rfl
            · rfl
          · split
            · exact happend hclaims (handle_tools_list_guarded _)
            · split
              · exact happend hclaims handle_tools_call_guarded
              · split
                · exact h
                · split
                  · exact hsame (put_posted _ _)
                  · exact hsame (put_posted _ _)
      · exact h
    · exact h

theorem trusted_step (hissued : g.Issued issued) (h : g.Guarded issued) {a : GatewayAct}
    (hact : ∀ session_id claims, a = .sse session_id claims → issued claims) :
    (g.step loads a).Issued issued ∧ (g.step loads a).Guarded issued := by
  cases a with
  | sse session_id claims =>
    unfold step
    dsimp only
    split
    · exact ⟨issued_set hissued (hact session_id claims rfl), h⟩
    · exact ⟨hissued, h⟩
  | post session_id body x =>
    exact ⟨issued_messages hissued x session_id body, guarded_messages hissued h x session_id body⟩
  | close session_id =>
    refine ⟨?_, h⟩
    intro k session hfind
    have herase : (g.sessions.erase session_id).find k = some session := hfind
    rw [Table.find_erase] at herase
    split at herase
    · cases herase
    · exact hissued k session herase

/-- Whatever the clients post and the internal server does: a tool that reaches it was granted
by the token of a session that was opened. -/
theorem posted_tools_are_granted (loads : String → Except PyErr Json) (acts : List GatewayAct) :
    (run loads acts).Guarded fun claims => ∃ session_id, .sse session_id claims ∈ acts := by
  have hboth : (run loads acts).Issued (fun claims => ∃ session_id, .sse session_id claims ∈ acts) ∧
      (run loads acts).Guarded fun claims => ∃ session_id, .sse session_id claims ∈ acts := by
    induction acts using List.reverseRecOn with
    | nil =>
      constructor
      · intro k session hfind
        cases hfind
      · intro m hm
        cases hm
    | append_singleton acts a ih =>
      have hgrow : ∀ claims, (∃ session_id, GatewayAct.sse session_id claims ∈ acts) →
          ∃ session_id, GatewayAct.sse session_id claims ∈ acts ++ [a] := by
        rintro claims ⟨session_id, hmem⟩
        exact ⟨session_id, List.mem_append_left _ hmem⟩
      unfold run at ih ⊢
      rw [List.foldl_append, List.foldl_cons, List.foldl_nil]
      apply trusted_step
      · intro k session hfind
        exact hgrow _ (ih.1 k session hfind)
      · intro m hm hcall
        obtain ⟨claims, hclaims, hgranted⟩ := ih.2 m hm hcall
        exact ⟨claims, hgrow _ hclaims, hgranted⟩
      · rintro session_id claims rfl
        exact ⟨session_id, List.mem_append_right _ List.mem_cons_self⟩
  exact hboth.2

end Laws

end Gateway

end trading_platform.mcp_web_gateway
