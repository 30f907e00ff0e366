-- The codes and the bearer tokens of the OAuth endpoints, whatever requests come between the
-- authorize request of a code and the token request that takes it.
import TradingPlatform.McpServer.OAuth

open trading_platform.shared

namespace trading_platform.mcp_server

namespace OAuthServer

/-! ## Steps -/

inductive OAuthAct where
  | authorize (request : AuthorizeRequest) (code : String)
  | token (request : TokenRequest) (bearer : String)
  /-- The transaction of a token request is run, and its answer is lost. -/
  | lost (request : TokenRequest)
  /-- The bearer token of an exchange is stored, at any time after it was generated. -/
  | store (x : Exchange)
  | elapse (ms : Nat)
  deriving DecidableEq

variable (settings : OAuthSettings) (self : OAuthServer)

/-- One step, if it can happen. No code and no bearer token is generated twice. -/
def step (self : OAuthServer) : OAuthAct → Option OAuthServer
  | .authorize request code =>
    if code ∈ self.issued.map (·.code) then none else some (self.authorize settings request code).2
  | .token request bearer =>
    if bearer ∈ self.exchanges.map (·.bearer) then none
    else some (self.token settings request bearer).2
  | .lost request => some (self.consume_auth_code request.code).2
  | .store x =>
    if x ∈ self.exchanges ∧ x ∉ self.granted.map (·.exchange) then
      some (self.store_bearer_token settings x).2
    else none
  | .elapse ms => some { self with now := self.now + ms }

def run : OAuthServer → List OAuthAct → Option OAuthServer
  | self, [] => some self
  | self, a :: acts => (self.step settings a).bind fun s => run s acts

/-- A token request that takes a code with its verifier presents the client of the code, and
some redirect URI. -/
def presents_its_own : OAuthAct → Bool
  | .token request _ =>
    match self.codes.live self.now request.code with
    | some code_data =>
      check_token request ≠ .ok () ||
        verify_pkce_s256 settings request.code_verifier code_data.code_challenge ≠ .ok true ||
        (request.client_id = code_data.client_id && request.redirect_uri ≠ "")
    | none => true
  | _ => true

/-- In a run every token request presents its own. -/
def all_present_their_own : OAuthServer → List OAuthAct → Bool
  | _, [] => true
  | self, a :: acts =>
    self.presents_its_own settings a &&
      match self.step settings a with
      | some s => all_present_their_own s acts
      | none => true

/-! ## What a step does -/

section Steps

variable {settings : OAuthSettings} {self : OAuthServer}

/-- An authorize request gives out a code to its user, or it changes nothing. -/
theorem authorize_cases (settings : OAuthSettings) (self : OAuthServer)
    (request : AuthorizeRequest) (code : String) :
    (self.authorize settings request code).2 = self ∨
    ∃ user_id expires, resolve_user settings self.now request = some user_id ∧
      (self.authorize settings request code).2 =
        { self with
          codes := fun k => if k = code then
            some ((⟨code, request, user_id, self.now⟩ : Issued).data, expires) else self.codes k
          issued := ⟨code, request, user_id, self.now⟩ :: self.issued } := by
  unfold authorize
  cases check_authorize settings request with
  | error e => exact Or.inl rfl
  | ok u =>
    cases huser : resolve_user settings self.now request with
    | none => exact Or.inl rfl
    | some user_id =>
      by_cases httl : 0 < settings.auth_code_ttl_s
      · right
        refine ⟨user_id, self.now + 1000 * settings.auth_code_ttl_s.toNat, rfl, ?_⟩
        simp only [Keys.setex, if_pos httl]
      · left
        simp only [Keys.setex, if_neg httl]

/-- What an exchange that is begun says: the code was stored, its verifier matches, and the
redirect URI is the one of the code if it is given. -/
structure Verified (settings : OAuthSettings) (x : Exchange) : Prop where
  pkce : verify_pkce_s256 settings x.request.code_verifier x.code_data.code_challenge = .ok true
  redirect : x.request.redirect_uri ≠ "" → x.request.redirect_uri = x.code_data.redirect_uri

theorem verified_of_check {request : TokenRequest} {code_data : AuthCode} {bearer : String}
    (h : check_code_data settings request code_data = .ok ()) :
    Verified settings ⟨request, code_data, bearer⟩ := by
  unfold check_code_data at h
  cases hpkce : verify_pkce_s256 settings request.code_verifier code_data.code_challenge with
  | error e =>
    rw [hpkce] at h
    cases h
  | ok matches_challenge =>
    rw [hpkce] at h
    cases matches_challenge with
    | false => cases h
    | true =>
      refine ⟨hpkce, ?_⟩
      intro hgiven
      by_contra hother
      have herr : check_code_data settings request code_data =
          .error (bad_request "invalid_grant: redirect_uri mismatch") := by
        unfold check_code_data
        rw [hpkce]
        exact if_pos ⟨hgiven, hother⟩
      unfold check_code_data at herr
      rw [hpkce, h] at herr
      cases herr

/-- A token request changes nothing, or it takes its code, and then begins an exchange if the
code was stored and every check passes. -/
theorem token_cases (settings : OAuthSettings) (self : OAuthServer) (request : TokenRequest)
    (bearer : String) :
    (self.token settings request bearer).2 = self ∨
    (self.token settings request bearer).2 = (self.consume_auth_code request.code).2 ∨
    ∃ code_data, self.codes.live self.now request.code = some code_data ∧
      check_token request = .ok () ∧ check_code_data settings request code_data = .ok () ∧
      (self.token settings request bearer).2 =
        { (self.consume_auth_code request.code).2 with
          exchanges := ⟨request, code_data, bearer⟩ :: self.exchanges } := by
  unfold token
  cases hcheck : check_token request with
  | error e => exact Or.inl rfl
  | ok u =>
    right
    unfold consume_auth_code
    cases hlive : self.codes.live self.now request.code with
    | none => exact Or.inl rfl
    | some code_data =>
      cases hdata : check_code_data settings request code_data with
      | error e =>
        left
        simp only [hdata]
      | ok u =>
        right
        refine ⟨code_data, rfl, rfl, hdata, ?_⟩
        simp only [hdata]

/-- The bearer token of an exchange is stored for the user of its code, or nothing changes. -/
theorem store_cases (settings : OAuthSettings) (self : OAuthServer) (x : Exchange) :
    (self.store_bearer_token settings x).2 = self ∨
    ∃ expires, (self.store_bearer_token settings x).2 =
      { self with
        tokens := fun k => if k = x.bearer then some (self.bearer_payload settings x, expires)
          else self.tokens k
        granted := ⟨x, self.bearer_payload settings x⟩ :: self.granted } := by
  unfold store_bearer_token
  by_cases httl : 0 < settings.access_token_ttl_s
  · right
    refine ⟨self.now + 1000 * settings.access_token_ttl_s.toNat, ?_⟩
    simp only [Keys.setex, if_pos httl]
  · left
    simp only [Keys.setex, if_neg httl]

end Steps

/-! ## The books of the server -/

/-- What holds in every state: a code is stored, or an exchange has taken it, and what is
stored or taken is what the code was given out for. -/
structure Books (settings : OAuthSettings) (s : OAuthServer) : Prop where
  unique : (s.issued.map (·.code)).Nodup
  users : ∀ c ∈ s.issued, resolve_user settings c.issued_at c.request = some c.user_id
  stored : ∀ code entry, s.codes code = some entry → ∃ c ∈ s.issued, c.code = code ∧ c.data = entry.1
  taken : ∀ x ∈ s.exchanges, s.codes x.request.code = none
  once : (s.exchanges.map (·.request.code)).Nodup
  bearers : (s.exchanges.map (·.bearer)).Nodup
  begun : ∀ x ∈ s.exchanges, Verified settings x ∧
    ∃ c ∈ s.issued, c.code = x.request.code ∧ c.data = x.code_data
  ended : ∀ g ∈ s.granted, g.exchange ∈ s.exchanges ∧
    g.payload.user_id = g.exchange.code_data.user_id ∧
    g.payload.client_id = g.exchange.code_data.client_id
  grants : (s.granted.map (·.exchange)).Nodup
  tokens : ∀ token entry, s.tokens token = some entry →
    ∃ g ∈ s.granted, g.exchange.bearer = token ∧ g.payload = entry.1

section Laws

variable {settings : OAuthSettings} {self s : OAuthServer}

theorem books_authorize (h : self.Books settings) {request : AuthorizeRequest} {code : String}
    (hfresh : code ∉ self.issued.map (·.code)) :
    (self.authorize settings request code).2.Books settings := by
  rcases authorize_cases settings self request code with hsame | ⟨user_id, expires, huser, hnext⟩
  · rw [hsame]
    exact h
  · rw [hnext]
    have hold : ∀ {k : String}, (∃ c ∈ self.issued, c.code = k) → k ≠ code := by
      rintro k ⟨c, hc, rfl⟩ rfl
      exact hfresh (List.mem_map_of_mem hc)
    constructor
    · exact List.nodup_cons.mpr ⟨hfresh, h.unique⟩
    · intro c hc
      rcases List.mem_cons.mp hc with rfl | hc
      · exact huser
      · exact h.users c hc
    · intro k entry hentry
      dsimp only at hentry
      split at hentry
      · rename_i hk
        cases hentry
        exact ⟨_, List.mem_cons_self, hk.symm, rfl⟩
      · obtain ⟨c, hc, hcode⟩ := h.stored k entry hentry
        exact ⟨c, List.mem_cons_of_mem _ hc, hcode⟩
    · intro x hx
      obtain ⟨-, c, hc, hcode, -⟩ := h.begun x hx
      dsimp only
      rw [if_neg (hold ⟨c, hc, hcode⟩)]
      exact h.taken x hx
    · exact h.once
    · exact h.bearers
    · intro x hx
      obtain ⟨hverified, c, hc, hdata⟩ := h.begun x hx
      exact ⟨hverified, c, List.mem_cons_of_mem _ hc, hdata⟩
    · exact h.ended
    · exact h.grants
    · exact h.tokens

/-- A code that is taken is taken for good. -/
theorem books_consume (h : self.Books settings) (code : String) :
    (self.consume_auth_code code).2.Books settings where
  unique := h.unique
  users := h.users
  stored := fun k entry hentry => h.stored k entry (Keys.of_delete _ hentry).2
  taken := by
    intro x hx
    show (self.codes.delete code) x.request.code = none
    unfold Keys.delete
    rw [h.taken x hx]
    exact ite_self _
  once := h.once
  bearers := h.bearers
  begun := h.begun
  ended := h.ended
  grants := h.grants
  tokens := h.tokens

theorem books_token (h : self.Books settings) {request : TokenRequest} {bearer : String}
    (hfresh : bearer ∉ self.exchanges.map (·.bearer)) :
    (self.token settings request bearer).2.Books settings := by
  have hconsumed := books_consume h request.code
  rcases token_cases settings self request bearer with
    hsame | hconsume | ⟨code_data, hlive, -, hcheck, hnext⟩
  · rw [hsame]
    exact h
  · rw [hconsume]
    exact hconsumed
  · rw [hnext]
    obtain ⟨expires, hstored⟩ := Keys.of_live _ hlive
    obtain ⟨c, hc, hcode, hdata⟩ := h.stored _ _ hstored
    have hnew : request.code ∉ self.exchanges.map (·.request.code) := by
      intro hmem
      obtain ⟨x, hx, hsame⟩ := List.mem_map.mp hmem
      have hgone := h.taken x hx
      rw [hsame, hstored] at hgone
      cases hgone
    refine { hconsumed with
      taken := ?_
      once := List.nodup_cons.mpr ⟨hnew, h.once⟩
      bearers := List.nodup_cons.mpr ⟨hfresh, h.bearers⟩
      begun := ?_
      ended := ?_ }
    · intro x hx
      rcases List.mem_cons.mp hx with rfl | hx
      · show (self.codes.delete request.code) request.code = none
        exact if_pos rfl
      · exact hconsumed.taken x hx
    · intro x hx
      rcases List.mem_cons.mp hx with rfl | hx
      · exact ⟨verified_of_check hcheck, c, hc, hcode, hdata⟩
      · exact h.begun x hx
    · intro g hg
      obtain ⟨hmem, hpayload⟩ := h.ended g hg
      exact ⟨List.mem_cons_of_mem _ hmem, hpayload⟩

theorem books_store (h : self.Books settings) {x : Exchange} (hx : x ∈ self.exchanges)
    (hnew : x ∉ self.granted.map (·.exchange)) :
    (self.store_bearer_token settings x).2.Books settings := by
  rcases store_cases settings self x with hsame | ⟨expires, hnext⟩
  · rw [hsame]
    exact h
  · rw [hnext]
    refine { h with
      ended := ?_
      grants := List.nodup_cons.mpr ⟨hnew, h.grants⟩
      tokens := ?_ }
    · intro g hg
      rcases List.mem_cons.mp hg with rfl | hg
      · exact ⟨hx, rfl, rfl⟩
      · exact h.ended g hg
    · intro token entry hentry
      dsimp only at hentry
      split at hentry
      · rename_i htoken
        cases hentry
        exact ⟨_, List.mem_cons_self, htoken.symm, rfl⟩
      · obtain ⟨g, hg, hpayload⟩ := h.tokens token entry hentry
        exact ⟨g, List.mem_cons_of_mem _ hg, hpayload⟩

theorem books_step (h : self.Books settings) {a : OAuthAct}
    (hstep : self.step settings a = some s) : s.Books settings := by
  cases a with
  | authorize request code =>
    simp only [step] at hstep
    split at hstep
    · cases hstep
    · rename_i hfresh
      cases hstep
      exact books_authorize h hfresh
  | token request bearer =>
    simp only [step] at hstep
    split at hstep
    · cases hstep
    · rename_i hfresh
      cases hstep
      exact books_token h hfresh
  | lost request =>
    cases hstep
    exact books_consume h request.code
  | store x =>
    simp only [step] at hstep
    split at hstep
    · rename_i hx
      cases hstep
      exact books_store h hx.1 hx.2
    · cases hstep
  | elapse ms =>
    cases hstep
    exact { h with }

theorem books_run {acts : List OAuthAct} (h : self.Books settings)
    (hrun : self.run settings acts = some s) : s.Books settings := by
  induction acts generalizing self with
  | nil =>
    cases hrun
    exact h
  | cons a acts ih =>
    obtain ⟨next, hstep, hrest⟩ := Option.bind_eq_some_iff.mp hrun
    exact ih (books_step h hstep) hrest

theorem books_empty (settings : OAuthSettings) : ({} : OAuthServer).Books settings where
  unique := List.nodup_nil
  users := fun _ hc => by cases hc
  stored := fun _ _ hentry => by cases hentry
  taken := fun _ hx => by cases hx
  once := List.nodup_nil
  bearers := List.nodup_nil
  begun := fun _ hx => by cases hx
  ended := fun _ hg => by cases hg
  grants := List.nodup_nil
  tokens := fun _ _ hentry => by cases hentry

end Laws

/-! ## Tokens and their codes -/

/-- SHA-256 of the verifier is the challenge. -/
def Matches (settings : OAuthSettings) (code_verifier code_challenge : String) : Prop :=
  ∃ ascii, encode_ascii code_verifier = .ok ascii ∧
    base64url (settings.sha256 ascii) = code_challenge

/-- A token is granted for what its code was given out for, to the user who was authenticated
then. -/
structure Redeems (settings : OAuthSettings) (g : Granted) (c : Issued) : Prop where
  code : c.code = g.exchange.request.code
  pkce : Matches settings g.exchange.request.code_verifier c.request.code_challenge
  client : g.exchange.request.client_id = c.request.client_id
  redirect : g.exchange.request.redirect_uri = c.request.redirect_uri
  user : resolve_user settings c.issued_at c.request = some g.payload.user_id

/-- No code is given out twice, no code yields two tokens, and every stored token is one
that redeems its code. -/
structure Exchanged (settings : OAuthSettings) (s : OAuthServer) : Prop where
  unique : (s.issued.map (·.code)).Nodup
  once : (s.granted.map (·.exchange.request.code)).Nodup
  stored : ∀ token payload expires, s.tokens token = some (payload, expires) →
    ∃ g ∈ s.granted, g.exchange.bearer = token ∧ g.payload = payload
  redeemed : ∀ g ∈ s.granted, ∃ c ∈ s.issued, Redeems settings g c

section Runs

variable {settings : OAuthSettings} {self s : OAuthServer}

theorem matches_of_verify {code_verifier code_challenge : String}
    (h : verify_pkce_s256 settings code_verifier code_challenge = .ok true) :
    Matches settings code_verifier code_challenge := by
  unfold verify_pkce_s256 at h
  cases hascii : encode_ascii code_verifier with
  | error e =>
    rw [hascii] at h
    cases h
  | ok ascii =>
    rw [hascii] at h
    refine ⟨ascii, hascii, ?_⟩
    dsimp only [bind, Except.bind] at h
    unfold compare_digest at h
    split at h
    · simpa using Except.ok.inj h
    · cases h

/-- A code yields one exchange, and an exchange one token. -/
theorem once_of_books (h : s.Books settings) :
    (s.granted.map (·.exchange.request.code)).Nodup := by
  have hcodes : (s.granted.map (·.exchange)).map (·.request.code) =
      s.granted.map (·.exchange.request.code) := List.map_map
  rw [← hcodes]
  apply List.Nodup.map_on _ h.grants
  intro x hx y hy hcode
  obtain ⟨g, hg, rfl⟩ := List.mem_map.mp hx
  obtain ⟨g', hg', rfl⟩ := List.mem_map.mp hy
  exact List.inj_on_of_nodup_map h.once (h.ended g hg).1 (h.ended g' hg').1 hcode

/-- The exchange was asked for by the client of the code, with a redirect URI. -/
def Exchange.PresentsItsOwn (x : Exchange) : Prop :=
  x.request.client_id = x.code_data.client_id ∧ x.request.redirect_uri ≠ ""

theorem presented_step (h : ∀ x ∈ self.exchanges, Exchange.PresentsItsOwn x) {a : OAuthAct}
    (hown : self.presents_its_own settings a = true) (hstep : self.step settings a = some s) :
    ∀ x ∈ s.exchanges, Exchange.PresentsItsOwn x := by
  cases a with
  | authorize request code =>
    simp only [step] at hstep
    split at hstep
    · cases hstep
    · cases hstep
      rcases authorize_cases settings self request code with hsame | ⟨user_id, expires, -, hnext⟩
      · rw [hsame]
        exact h
      · rw [hnext]
        exact h
  | token request bearer =>
    simp only [step] at hstep
    split at hstep
    · cases hstep
    · cases hstep
      rcases token_cases settings self request bearer with
        hsame | hconsume | ⟨code_data, hlive, hcheck, hdata, hnext⟩
      · rw [hsame]
        exact h
      · rw [hconsume]
        exact h
      · rw [hnext]
        intro x hx
        rcases List.mem_cons.mp hx with rfl | hx
        · have hverified : Verified settings ⟨request, code_data, bearer⟩ := verified_of_check hdata
          have hpkce := hverified.pkce
          simp only [presents_its_own] at hown
          rw [hlive] at hown
          simpa [Exchange.PresentsItsOwn, hcheck, hpkce] using hown
        · exact h x hx
  | lost request =>
    cases hstep
    exact h
  | store x =>
    simp only [step] at hstep
    split at hstep
    · cases hstep
      rcases store_cases settings self x with hsame | ⟨expires, hnext⟩
      · rw [hsame]
        exact h
      · rw [hnext]
        exact h
    · cases hstep
  | elapse ms =>
    cases hstep
    exact h

theorem presented_run {acts : List OAuthAct}
    (h : ∀ x ∈ self.exchanges, Exchange.PresentsItsOwn x)
    (hown : self.all_present_their_own settings acts = true)
    (hrun : self.run settings acts = some s) : ∀ x ∈ s.exchanges, Exchange.PresentsItsOwn x := by
  induction acts generalizing self with
  | nil =>
    cases hrun
    exact h
  | cons a acts ih =>
    obtain ⟨hfirst, hrest⟩ := Bool.and_eq_true_iff.mp hown
    obtain ⟨next, hstep, hrun⟩ := Option.bind_eq_some_iff.mp hrun
    rw [hstep] at hrest
    exact ih (presented_step h hfirst hstep) hrest hrun

/-- An exchange that presents its own redeems its code. -/
theorem redeems_of_books (h : s.Books settings) {g : Granted} (hg : g ∈ s.granted)
    (hown : Exchange.PresentsItsOwn g.exchange) : ∃ c ∈ s.issued, Redeems settings g c := by
  obtain ⟨hmem, huser, -⟩ := h.ended g hg
  obtain ⟨hverified, c, hc, hcode, hdata⟩ := h.begun g.exchange hmem
  refine ⟨c, hc, hcode, ?_, ?_, ?_, ?_⟩
  · have hpkce := matches_of_verify hverified.pkce
    rw [← hdata] at hpkce
    exact hpkce
  · rw [hown.1, ← hdata]
    rfl
  · rw [hverified.redirect hown.2, ← hdata]
    rfl
  · rw [h.users c hc, huser, ← hdata]
    rfl

end Runs

/-- In a run in which every token request that takes a code with its verifier presents the
client of the code and some redirect URI, each code yields at most one token, and every token
is for the verifier, the client, the redirect URI and the user of its code. -/
theorem codes_are_exchanged_by_their_client (settings : OAuthSettings) (acts : List OAuthAct)
    (s : OAuthServer) (hown : ({} : OAuthServer).all_present_their_own settings acts = true)
    (hrun : ({} : OAuthServer).run settings acts = some s) : s.Exchanged settings := by
  have hbooks := books_run (books_empty settings) hrun
  have hempty : ∀ x ∈ ({} : OAuthServer).exchanges, Exchange.PresentsItsOwn x := by
    intro x hx
    cases hx
  have hpresented := presented_run hempty hown hrun
  refine ⟨hbooks.unique, once_of_books hbooks, ?_, ?_⟩
  · intro token payload expires hentry
    exact hbooks.tokens token (payload, expires) hentry
  · intro g hg
    exact redeems_of_books hbooks hg (hpresented g.exchange (hbooks.ended g hg).1)

/-- A caller with a bearer token is the user who was authenticated when the code of the token
was given out, in every run. -/
theorem caller_is_authenticated {settings : OAuthSettings} {acts : List OAuthAct} {s : OAuthServer}
    (hrun : ({} : OAuthServer).run settings acts = some s)
    {mcp_api_key authorization x_api_key : String} {identity : McpIdentity}
    (hverify : verify_mcp_auth mcp_api_key s.lookup_bearer_token authorization x_api_key =
      .ok identity) (hoauth : identity.auth_method = .oauth) :
    ∃ c ∈ s.issued, resolve_user settings c.issued_at c.request = some identity.user_id := by
  have hbooks := books_run (books_empty settings) hrun
  unfold verify_mcp_auth at hverify
  split at hverify
  · cases hlookup : s.lookup_bearer_token (strip (authorization.toList.drop 7)) with
    | none =>
      rw [hlookup] at hverify
      cases hverify
    | some payload =>
      rw [hlookup] at hverify
      cases hverify
      obtain ⟨expires, hentry⟩ := Keys.of_live _ hlookup
      obtain ⟨g, hg, -, hpayload⟩ := hbooks.tokens _ _ hentry
      obtain ⟨hmem, huser, -⟩ := hbooks.ended g hg
      obtain ⟨-, c, hc, -, hdata⟩ := hbooks.begun g.exchange hmem
      refine ⟨c, hc, ?_⟩
      have hsame : payload.user_id = c.user_id :=
        calc payload.user_id = g.payload.user_id := congrArg BearerPayload.user_id hpayload.symm
          _ = g.exchange.code_data.user_id := huser
          _ = c.user_id := congrArg AuthCode.user_id hdata.symm
      rw [hsame]
      exact hbooks.users c hc
  · split at hverify
    · cases hverify
      cases hoauth
    · cases hverify

/-- SHA-256 of "my-verifier". -/
def digest_of_my_verifier : List UInt8 :=
  [236, 66, 162, 7, 128, 138, 2, 163, 109, 0, 205, 117, 177, 146, 233, 129, 159, 112, 14, 64, 45,
    80, 115, 51, 25, 151, 223, 83, 61, 248, 22, 214]

def default_settings : OAuthSettings where
  upper := fun text => text
  sha256 := fun bytes =>
    if bytes = "my-verifier".toList.map (fun c => UInt8.ofNat c.toNat) then digest_of_my_verifier
    else []
  verify_session_cookie := fun _ _ => some "alice"

def login_of_alice : AuthorizeRequest where
  response_type := "code"
  client_id := "claude"
  redirect_uri := "https://example.com/cb"
  code_challenge := "7EKiB4CKAqNtAM11sZLpgZ9wDkAtUHMzGZffUz34FtY"
  code_challenge_method := "S256"
  state := ""
  cookie := some "cookie"
  user_id := none
  path_with_query := "/oauth/authorize"

/-- A token request for the code of Alice. -/
def redeem_by (client_id redirect_uri : String) : TokenRequest :=
  ⟨"authorization_code", "code-1", "my-verifier", redirect_uri, client_id⟩

/-- The code is given out and redeemed, and then asked for once more. -/
def redeemed_by (client_id redirect_uri : String) : List OAuthAct :=
  [.authorize login_of_alice "code-1", .elapse 1000, .token (redeem_by client_id redirect_uri) "bearer-1",
    .token (redeem_by client_id redirect_uri) "bearer-2", .store ⟨redeem_by client_id redirect_uri,
      (⟨"code-1", login_of_alice, "alice", 0⟩ : Issued).data, "bearer-1"⟩]

theorem a_code_is_redeemed_once :
    (({} : OAuthServer).run default_settings
      (redeemed_by "claude" "https://example.com/cb")).isSome = true ∧
    ∀ s, ({} : OAuthServer).run default_settings
      (redeemed_by "claude" "https://example.com/cb") = some s → s.Exchanged default_settings :=
  ⟨by decide +kernel, fun s hrun =>
    codes_are_exchanged_by_their_client default_settings _ s (by decide +kernel) hrun⟩

/-- Another client redeems the code of Claude, without a redirect URI. -/
theorem another_client_redeems_the_code :
    ¬ ∀ settings acts s, ({} : OAuthServer).run settings acts = some s → s.Exchanged settings := by
  intro h
  have hend : (({} : OAuthServer).run default_settings (redeemed_by "other" "")).map
      (fun s => (s.issued.map (·.request.client_id), s.granted.map (·.exchange.request.client_id))) =
        some (["claude"], ["other"]) := by decide +kernel
  obtain ⟨s, hrun, hs⟩ := Option.map_eq_some_iff.mp hend
  obtain ⟨hissued, hgranted⟩ := Prod.mk.inj hs
  have hmem : "other" ∈ s.granted.map (·.exchange.request.client_id) := by
    rw [hgranted]
    exact List.mem_cons_self
  obtain ⟨g, hg, hother⟩ := List.mem_map.mp hmem
  obtain ⟨c, hc, hredeems⟩ := (h default_settings _ s hrun).redeemed g hg
  have hclient : c.request.client_id ∈ s.issued.map (·.request.client_id) := List.mem_map_of_mem hc
  rw [hissued, ← hredeems.client, hother] at hclient
  exact absurd hclient (by decide)

end OAuthServer

end trading_platform.mcp_server
