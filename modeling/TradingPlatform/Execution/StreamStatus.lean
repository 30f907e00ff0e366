-- The status of the user-data stream. `connected` is told behind a first message
-- that may answer another request, and `auth_error` for every failure of the
-- listen key, but for no status of a handshake.
import TradingPlatform.Execution.StreamListener

open backoff
open trading_platform.shared

namespace trading_platform.execution

/-! ## What a status is about -/

/-- The message answers the request `id` with this status. -/
def AnswersWith (id : String) (status : ℚ) (m : Json) : Prop :=
  ∃ i s, m.get "id" = .ok (some i) ∧ i.isStr id = true ∧
    m.get "status" = .ok (some s) ∧ s.isNum status = true

def AnswersAuth (id : String) (m : Json) : Prop := AnswersWith id 401 m ∨ AnswersWith id 403 m

/-- The status `connected` is told, to the database or to Redis. -/
def StreamEvent.TellsConnected : StreamEvent → Prop
  | .status told _ => told = "connected"
  | .mark_event => True
  | _ => False

/-- `connected` is told only behind a message that acknowledges the request. -/
def ConnectedWhenAcked (req_id : String) (seen : List StreamEvent) : Prop :=
  ∀ before e behind, seen = before ++ e :: behind → e.TellsConnected →
    ∃ m, .received m ∈ before ∧ AnswersWith req_id 200 m

def TellsAuthError (seen : List StreamEvent) : Prop := ∃ error, .status "auth_error" error ∈ seen

/-- The handshake or the subscribe request was answered with 401 or 403. -/
def WsApiConnection.AuthAnswered (conn : WsApiConnection) (seen : List StreamEvent) : Prop :=
  conn.RefusedAuth ∨ ∃ m, .received m ∈ seen ∧ AnswersAuth conn.req_id m

namespace AccountStreamListener

variable (self : AccountStreamListener)

/-! ## The acknowledgement -/

/-- A message carries the id of the request. -/
def Carries (id : String) (m : Json) : Prop := ∃ i, m.get "id" = .ok (some i) ∧ i.isStr id = true

theorem answersWith_carries {id : String} {status : ℚ} {m : Json} (h : AnswersWith id status m) :
    Carries id m := by
  obtain ⟨i, -, hi, his, -⟩ := h
  exact ⟨i, hi, his⟩

theorem answersAuth_carries {id : String} {m : Json} (h : AnswersAuth id m) : Carries id m := by
  rcases h with h | h
  · exact answersWith_carries h
  · exact answersWith_carries h

/-- A value equals one number at most. -/
theorem isNum_unique {j : Json} {a b : ℚ} (ha : j.isNum a = true) (hb : j.isNum b = true) :
    a = b := by
  cases j with
  | num text =>
    have h1 : Decimal.ofText text = .ok a := of_decide_eq_true ha
    have h2 : Decimal.ofText text = .ok b := of_decide_eq_true hb
    rw [h1] at h2
    exact Except.ok.inj h2
  | null | bool _ | str _ | arr _ | obj _ => cases ha

theorem answersWith_unique {id : String} {a b : ℚ} {m : Json} (ha : AnswersWith id a m)
    (hb : AnswersWith id b m) : a = b := by
  obtain ⟨-, s, -, -, hs, hsa⟩ := ha
  obtain ⟨-, s', -, -, hs', hsb⟩ := hb
  rw [hs] at hs'
  obtain rfl : s = s' := Option.some.inj (Except.ok.inj hs')
  exact isNum_unique hsa hsb

/-- An answer to the request says the status that is read of it. -/
theorem answersWith_iff {id : String} {number : ℚ} {m : Json} (hc : Carries id m)
    (hnum : number ≠ 0) :
    AnswersWith id number m ↔ ((m.field "status").getD (.num "0")).isNum number = true := by
  obtain ⟨i, hi, his⟩ := hc
  cases m with
  | null | bool _ | num _ | str _ | arr _ => cases hi
  | obj fields =>
    have hget : Json.get "status" (.obj fields) = .ok (Json.field "status" (.obj fields)) := rfl
    constructor
    · rintro ⟨-, s, -, -, hs, hnumber⟩
      rw [hget] at hs
      rw [Except.ok.inj hs]
      exact hnumber
    · intro h
      cases hfield : Json.field "status" (.obj fields) with
      | none =>
        rw [hfield] at h
        have hzero : Json.isNum 0 (.num "0") = true := by decide +kernel
        exact absurd (isNum_unique hzero h).symm hnum
      | some s =>
        rw [hfield] at h
        exact ⟨i, s, hi, his, hget.trans (congrArg _ hfield), h⟩

theorem answersAuth_iff {id : String} {m : Json} (hc : Carries id m) :
    AnswersAuth id m ↔ ((m.field "status").getD (.num "0")).isNum 401 = true ∨
      ((m.field "status").getD (.num "0")).isNum 403 = true := by
  unfold AnswersAuth
  rw [answersWith_iff hc (by norm_num), answersWith_iff hc (by norm_num)]

theorem check_status_ok {status : Json} {text : String} :
    check_status status text = .ok () ↔ status.isNum 200 = true := by
  unfold check_status
  by_cases h : status.isNum 200 = true
  · rw [if_pos h]
    exact iff_of_true rfl h
  · rw [if_neg h]
    refine iff_of_false ?_ h
    intro hok
    split at hok
    · cases hok
    · cases hok
    · split at hok <;> cases hok

theorem check_status_auth {status : Json} {text : String} :
    (∃ told, check_status status text = .error (.auth told)) ↔
      status.isNum 401 = true ∨ status.isNum 403 = true := by
  unfold check_status
  by_cases h : status.isNum 200 = true
  · rw [if_pos h]
    refine iff_of_false ?_ ?_
    · rintro ⟨told, htold⟩
      cases htold
    · rintro (h' | h')
      · exact absurd (isNum_unique h h') (by norm_num)
      · exact absurd (isNum_unique h h') (by norm_num)
  · rw [if_neg h]
    split
    · refine iff_of_false ?_ ?_
      · rintro ⟨told, htold⟩
        cases htold
      · rintro (h' | h') <;> cases h'
    · refine iff_of_false ?_ ?_
      · rintro ⟨told, htold⟩
        cases htold
      · rintro (h' | h') <;> cases h'
    · split
      · rename_i hauth
        exact iff_of_true ⟨text, rfl⟩ hauth
      · rename_i hauth
        refine iff_of_false ?_ hauth
        rintro ⟨told, htold⟩
        cases htold

/-- An answer to the request is judged by its status. -/
theorem check_of_carries {id : String} {m : Json} (hc : Carries id m) :
    self.check_subscribe_response m id =
      check_status ((m.field "status").getD (.num "0"))
        (self.err_text m ((m.field "status").getD (.num "0"))) := by
  obtain ⟨i, hi, his⟩ := hc
  unfold check_subscribe_response
  rw [hi]
  exact if_neg (not_not.mpr his)

/-- Any other dict passes, and what is no dict has no `get`. -/
theorem check_of_not_carries {id : String} {m : Json} (hc : ¬ Carries id m) :
    (m.isDict = true ∧ self.check_subscribe_response m id = .ok ()) ∨
      (m.isDict = false ∧
        ∃ text, self.check_subscribe_response m id = .error (.other text)) := by
  cases m with
  | null | bool _ | num _ | str _ | arr _ => exact Or.inr ⟨rfl, _, rfl⟩
  | obj fields =>
    left
    refine ⟨rfl, ?_⟩
    have hget : Json.get "id" (.obj fields) = .ok (Json.field "id" (.obj fields)) := rfl
    unfold check_subscribe_response
    rw [hget]
    dsimp only
    refine if_pos ?_
    intro his
    cases hfield : Json.field "id" (.obj fields) with
    | none =>
      rw [hfield] at his
      cases his
    | some i =>
      rw [hfield] at his
      exact hc ⟨i, hget.trans (congrArg _ hfield), his⟩

/-- A first message passes when it acknowledges the request, or when it is a dict
about something else. -/
theorem check_ok_iff (m : Json) (id : String) :
    self.check_subscribe_response m id = .ok () ↔
      AnswersWith id 200 m ∨ m.isDict = true ∧ ¬ Carries id m := by
  by_cases hc : Carries id m
  · rw [self.check_of_carries hc, check_status_ok, ← answersWith_iff hc (by norm_num)]
    exact ⟨Or.inl, fun h => h.resolve_right fun h' => h'.2 hc⟩
  · have hanswers : ¬ AnswersWith id 200 m := fun h => hc (answersWith_carries h)
    rcases self.check_of_not_carries hc with ⟨hdict, hok⟩ | ⟨hdict, text, herror⟩
    · exact iff_of_true hok (Or.inr ⟨hdict, hc⟩)
    · refine iff_of_false ?_ ?_
      · rw [herror]
        exact fun h => nomatch h
      · rintro (h | ⟨h, -⟩)
        · exact hanswers h
        · rw [hdict] at h
          cases h

theorem check_auth_iff (m : Json) (id : String) :
    (∃ text, self.check_subscribe_response m id = .error (.auth text)) ↔ AnswersAuth id m := by
  by_cases hc : Carries id m
  · rw [self.check_of_carries hc, check_status_auth, answersAuth_iff hc]
  · refine iff_of_false ?_ fun h => hc (answersAuth_carries h)
    rintro ⟨text, h⟩
    rcases self.check_of_not_carries hc with ⟨-, hok⟩ | ⟨-, told, herror⟩
    · rw [hok] at h
      cases h
    · rw [herror] at h
      cases h

/-! ## One connection of the spot path -/

/-- The messages behind the acknowledgement that are read. -/
def taken : List WsMessage → List Json
  | [] => []
  | msg :: rest =>
    if msg.stop then []
    else match msg.payload with
      | .error _ => []
      | .ok payload =>
        match payload.contains "id" with
        | .error _ => [payload]
        | .ok _ => payload :: taken rest

/-- What is seen of the messages: those that are read, and marks between them. -/
theorem mem_read_events {ending : WsEnd} {msgs : List WsMessage} {e : StreamEvent}
    (h : e ∈ (read_events ending msgs).1) :
    e = .mark_event ∨ ∃ m ∈ taken msgs, e = .received m := by
  induction msgs with
  | nil => cases h
  | cons msg rest ih =>
    unfold read_events at h
    unfold taken
    by_cases hstop : msg.stop = true
    · rw [if_pos hstop] at h
      cases h
    · rw [if_neg hstop] at h ⊢
      cases hpayload : msg.payload with
      | error text =>
        rw [hpayload] at h
        cases h
      | ok payload =>
        rw [hpayload] at h
        dsimp only at h ⊢
        cases hcontains : payload.contains "id" with
        | error e' =>
          rw [hcontains] at h
          rcases List.mem_cons.mp h with rfl | h
          · exact Or.inr ⟨payload, List.mem_cons_self, rfl⟩
          · cases h
        | ok answers =>
          rw [hcontains] at h
          rcases List.mem_cons.mp h with rfl | h
          · exact Or.inr ⟨payload, List.mem_cons_self, rfl⟩
          · rcases List.mem_append.mp h with h | h
            · left
              split at h
              · exact List.mem_singleton.mp h
              · cases h
            · rcases ih h with h | ⟨m, hm, h⟩
              · exact Or.inl h
              · exact Or.inr ⟨m, List.mem_cons_of_mem _ hm, h⟩

theorem taken_seen {ending : WsEnd} {msgs : List WsMessage} {m : Json} (h : m ∈ taken msgs) :
    StreamEvent.received m ∈ (read_events ending msgs).1 := by
  induction msgs with
  | nil => cases h
  | cons msg rest ih =>
    unfold taken at h
    unfold read_events
    by_cases hstop : msg.stop = true
    · rw [if_pos hstop] at h
      cases h
    · rw [if_neg hstop] at h ⊢
      cases hpayload : msg.payload with
      | error text =>
        rw [hpayload] at h
        cases h
      | ok payload =>
        rw [hpayload] at h
        dsimp only at h ⊢
        cases hcontains : payload.contains "id" with
        | error e' =>
          rw [hcontains] at h
          rw [List.mem_singleton.mp h]
          exact List.mem_singleton.mpr rfl
        | ok answers =>
          rw [hcontains] at h
          rcases List.mem_cons.mp h with rfl | h
          · exact List.mem_cons_self
          · exact List.mem_cons_of_mem _ (List.mem_append_right _ (ih h))

/-- The end of a connection is no failure of the authentication. -/
theorem outcome_not_auth (ending : WsEnd) (text : String) :
    outcome ending ≠ .error (.auth text) := by
  cases ending <;> exact fun h => nomatch h

theorem read_events_not_auth (ending : WsEnd) (msgs : List WsMessage) (text : String) :
    (read_events ending msgs).2 ≠ .error (.auth text) := by
  induction msgs with
  | nil => exact outcome_not_auth ending text
  | cons msg rest ih =>
    unfold read_events
    split
    · exact fun h => nomatch h
    · split
      · exact fun h => nomatch h
      · split
        · exact fun h => nomatch h
        · exact ih

/-- The first message of a connection. -/
def First (conn : WsApiConnection) (ack : Json) : Prop :=
  conn.handshake = .ok () ∧ conn.answer = .ok (.ok ack)

theorem first_unique {conn : WsApiConnection} {a b : Json} (ha : First conn a)
    (hb : First conn b) : a = b := by
  have h := ha.2.symm.trans hb.2
  exact Except.ok.inj (Except.ok.inj h)

/-- A connection on which no first message is read shows nothing. -/
theorem connect_without_first {conn : WsApiConnection} (h : ∀ ack, ¬ First conn ack) :
    (self.connect_and_subscribe conn).1 = [] ∧
      ∀ text, (self.connect_and_subscribe conn).2 ≠ .error (.auth text) := by
  unfold connect_and_subscribe
  cases hhandshake : conn.handshake with
  | error refusal => exact ⟨rfl, fun _ h => nomatch h⟩
  | ok u =>
    dsimp only
    cases hanswer : conn.answer with
    | error ending =>
      refine ⟨rfl, fun text => ?_⟩
      cases ending <;> exact fun h => nomatch h
    | ok raw =>
      cases raw with
      | error text => exact ⟨rfl, fun _ h => nomatch h⟩
      | ok ack => exact absurd ⟨hhandshake, hanswer⟩ (h ack)

theorem connect_of_first {conn : WsApiConnection} {ack : Json} (h : First conn ack) :
    self.connect_and_subscribe conn =
      match self.check_subscribe_response ack conn.req_id with
      | .error exc => ([.received ack], .error exc)
      | .ok () =>
        (.received ack :: .status "connected" none :: (read_events conn.ending conn.messages).1,
          (read_events conn.ending conn.messages).2) := by
  cases hcheck : self.check_subscribe_response ack conn.req_id with
  | error exc => simp only [connect_and_subscribe, h.1, h.2, hcheck]
  | ok u => simp only [connect_and_subscribe, h.1, h.2, hcheck]

/-- The authentication fails exactly when the first message says so. -/
theorem connect_auth_iff (conn : WsApiConnection) :
    (∃ text, (self.connect_and_subscribe conn).2 = .error (.auth text)) ↔
      ∃ ack, First conn ack ∧ AnswersAuth conn.req_id ack := by
  constructor
  · rintro ⟨text, htext⟩
    by_cases hfirst : ∃ ack, First conn ack
    · obtain ⟨ack, hack⟩ := hfirst
      refine ⟨ack, hack, (self.check_auth_iff ack conn.req_id).mp ?_⟩
      rw [self.connect_of_first hack] at htext
      cases hcheck : self.check_subscribe_response ack conn.req_id with
      | error exc =>
        rw [hcheck] at htext
        exact ⟨text, htext⟩
      | ok u =>
        rw [hcheck] at htext
        exact absurd htext (read_events_not_auth _ _ text)
    · exact absurd htext
        ((self.connect_without_first fun ack hack => hfirst ⟨ack, hack⟩).2 text)
  · rintro ⟨ack, hack, hauth⟩
    obtain ⟨text, hcheck⟩ := (self.check_auth_iff ack conn.req_id).mpr hauth
    refine ⟨text, ?_⟩
    rw [self.connect_of_first hack, hcheck]

/-- What is seen of a connection: the first message, the status when it passes
the check, and what is read behind it. -/
theorem mem_connect {conn : WsApiConnection} {e : StreamEvent}
    (h : e ∈ (self.connect_and_subscribe conn).1) :
    ∃ ack, First conn ack ∧ (e = .received ack ∨
      self.check_subscribe_response ack conn.req_id = .ok () ∧
        (e = .status "connected" none ∨ e = .mark_event ∨
          ∃ m ∈ taken conn.messages, e = .received m)) := by
  by_cases hfirst : ∃ ack, First conn ack
  · obtain ⟨ack, hack⟩ := hfirst
    refine ⟨ack, hack, ?_⟩
    rw [self.connect_of_first hack] at h
    cases hcheck : self.check_subscribe_response ack conn.req_id with
    | error exc =>
      rw [hcheck] at h
      exact Or.inl (List.mem_singleton.mp h)
    | ok u =>
      rw [hcheck] at h
      rcases List.mem_cons.mp h with h | h
      · exact Or.inl h
      · rcases List.mem_cons.mp h with h | h
        · exact Or.inr ⟨rfl, Or.inl h⟩
        · exact Or.inr ⟨rfl, Or.inr (mem_read_events h)⟩
  · rw [(self.connect_without_first fun ack hack => hfirst ⟨ack, hack⟩).1] at h
    cases h

/-! ## One pass of the spot path -/

/-- A status other than `connected` and `auth_error`. -/
def IsOther (e : StreamEvent) : Prop :=
  ∃ told error, e = .status told error ∧ told ≠ "connected" ∧ told ≠ "auth_error"

theorem reconnect_seen (seen : List StreamEvent) (stopped : Bool) (n : Nat) :
    ∃ tail, (reconnect seen stopped n).1 = seen ++ tail ∧ ∀ e ∈ tail, IsOther e := by
  unfold reconnect
  cases stopped with
  | true =>
    refine ⟨_, rfl, ?_⟩
    intro e he
    exact ⟨"stopped", none, List.mem_singleton.mp he, by decide, by decide⟩
  | false => exact ⟨[], (List.append_nil seen).symm, fun e he => nomatch he⟩

theorem not_tells_of_other {tail : List StreamEvent} (h : ∀ e ∈ tail, IsOther e) :
    (∀ e ∈ tail, ¬ e.TellsConnected ∧ ∀ m, e ≠ .received m) ∧ ¬ TellsAuthError tail := by
  refine ⟨?_, ?_⟩
  · intro e he
    obtain ⟨told, error, rfl, hconnected, -⟩ := h e he
    exact ⟨hconnected, fun m hm => nomatch hm⟩
  · rintro ⟨error, he⟩
    obtain ⟨told, error', heq, -, hauth⟩ := h _ he
    cases heq
    exact hauth rfl

/-- A pass shows its connection and a tail of other statuses. -/
theorem ws_api_pass_seen (n : Nat) (conn : WsApiConnection) :
    ∃ tail, (self.ws_api_pass n (.attempt conn)).1 = (self.connect_and_subscribe conn).1 ++ tail ∧
      (∀ e ∈ tail, ¬ e.TellsConnected ∧ ∀ m, e ≠ .received m) ∧
      (TellsAuthError tail ↔
        ∃ text, (self.connect_and_subscribe conn).2 = .error (.auth text)) := by
  unfold ws_api_pass
  dsimp only
  rcases self.connect_and_subscribe conn with ⟨seen, ends⟩
  -- whatever does not fail the authentication goes on to the reconnect
  have hother (extra : List StreamEvent) (k : Nat) (hextra : ∀ e ∈ extra, IsOther e)
      (hends : ∀ text, ends ≠ .error (.auth text)) :
      ∃ tail, (reconnect (seen ++ extra) conn.stopped k).1 = seen ++ tail ∧
        (∀ e ∈ tail, ¬ e.TellsConnected ∧ ∀ m, e ≠ .received m) ∧
        (TellsAuthError tail ↔ ∃ text, ends = .error (.auth text)) := by
    obtain ⟨tail, htail, hmore⟩ := reconnect_seen (seen ++ extra) conn.stopped k
    have hall : ∀ e ∈ extra ++ tail, IsOther e := by
      intro e he
      rcases List.mem_append.mp he with he | he
      · exact hextra e he
      · exact hmore e he
    obtain ⟨htells, hauth⟩ := not_tells_of_other hall
    refine ⟨extra ++ tail, ?_, htells, ?_⟩
    · rw [htail, List.append_assoc]
    · refine iff_of_false hauth ?_
      rintro ⟨text, h⟩
      exact hends text h
  have hreconnecting (text : String) :
      ∀ e ∈ [StreamEvent.status "reconnecting" (some text)], IsOther e := by
    intro e he
    exact ⟨"reconnecting", some text, List.mem_singleton.mp he, by decide, by decide⟩
  cases ends with
  | ok u =>
    have h := hother [] 0 (fun e he => nomatch he) fun _ h => nomatch h
    rw [List.append_nil] at h
    exact h
  | error exc =>
    cases exc with
    | auth text =>
      refine ⟨_, rfl, ?_, ⟨fun _ => ⟨text, rfl⟩, fun _ => ⟨_, List.mem_cons_self⟩⟩⟩
      intro e he
      rcases List.mem_cons.mp he with rfl | he
      · refine ⟨?_, fun m hm => nomatch hm⟩
        show "auth_error" ≠ "connected"
        decide
      · rw [List.mem_singleton.mp he]
        exact ⟨id, fun m hm => nomatch hm⟩
    | closed text => exact hother _ n (hreconnecting text) fun _ h => nomatch h
    | other text => exact hother _ n (hreconnecting text) fun _ h => nomatch h

theorem returned_of_auth {conn : WsApiConnection} (n : Nat)
    (h : ∃ text, (self.connect_and_subscribe conn).2 = .error (.auth text)) :
    (self.ws_api_pass n (.attempt conn)).2 = .returned := by
  obtain ⟨text, htext⟩ := h
  unfold ws_api_pass
  dsimp only
  rcases hconnect : self.connect_and_subscribe conn with ⟨seen, ends⟩
  rw [hconnect] at htext
  obtain rfl : ends = .error (.auth text) := htext
  rfl

/-- `connected` is told behind an acknowledgement exactly when a first message
that is a dict carries the id of the request. -/
theorem connected_when_acked_iff (n : Nat) (conn : WsApiConnection) :
    ConnectedWhenAcked conn.req_id (self.ws_api_pass n (.attempt conn)).1 ↔
      ∀ ack, First conn ack → ack.isDict = true → Carries conn.req_id ack := by
  obtain ⟨tail, hseen, htail, -⟩ := self.ws_api_pass_seen n conn
  rw [hseen]
  constructor
  · intro hacked ack hack hdict
    by_contra hc
    have hok := (self.check_ok_iff ack conn.req_id).mpr (Or.inr ⟨hdict, hc⟩)
    have hconnect := self.connect_of_first hack
    rw [hok] at hconnect
    rw [hconnect] at hacked
    obtain ⟨m, hm, hanswer⟩ := hacked [.received ack] (.status "connected" none) _ rfl rfl
    rcases List.mem_singleton.mp hm with h
    cases h
    exact hc (answersWith_carries hanswer)
  · intro hcarries before e behind hsplit htells
    have he : e ∈ (self.connect_and_subscribe conn).1 ++ tail := by
      rw [hsplit]
      exact List.mem_append_right _ List.mem_cons_self
    rcases List.mem_append.mp he with he | he
    · obtain ⟨ack, hack, he⟩ := self.mem_connect he
      rcases he with rfl | ⟨hok, he⟩
      · cases htells
      · have hanswers : AnswersWith conn.req_id 200 ack := by
          rcases (self.check_ok_iff ack conn.req_id).mp hok with h | ⟨hdict, hc⟩
          · exact h
          · exact absurd (hcarries ack hack hdict) hc
        -- the acknowledgement is the first that is seen
        have hconnect := self.connect_of_first hack
        rw [hok] at hconnect
        rw [hconnect] at hsplit
        cases before with
        | nil =>
          obtain rfl : StreamEvent.received ack = e := (List.cons.inj hsplit).1
          cases htells
        | cons b before =>
          obtain rfl : StreamEvent.received ack = b := (List.cons.inj hsplit).1
          exact ⟨ack, List.mem_cons_self, hanswers⟩
    · exact absurd htells (htail e he).1

/-- The authentication error is told exactly when the first message says so. -/
theorem tells_auth_error_iff (n : Nat) (conn : WsApiConnection) :
    TellsAuthError (self.ws_api_pass n (.attempt conn)).1 ↔
      ∃ ack, First conn ack ∧ AnswersAuth conn.req_id ack := by
  obtain ⟨tail, hseen, -, htells⟩ := self.ws_api_pass_seen n conn
  rw [hseen, ← self.connect_auth_iff conn, ← htells]
  constructor
  · rintro ⟨error, he⟩
    rcases List.mem_append.mp he with he | he
    · obtain ⟨ack, -, he⟩ := self.mem_connect he
      rcases he with h | ⟨-, h | h | ⟨m, -, h⟩⟩
      · cases h
      · exact absurd (StreamEvent.status.inj h).1 (by decide)
      · cases h
      · cases h
    · exact ⟨error, he⟩
  · rintro ⟨error, he⟩
    exact ⟨error, List.mem_append_right _ he⟩

/-- An attempt was answered with 401 or 403: its handshake, its first message, or
a message that is read behind a first message that passed. -/
theorem auth_answered_iff (n : Nat) (conn : WsApiConnection) :
    conn.AuthAnswered (self.ws_api_pass n (.attempt conn)).1 ↔
      conn.RefusedAuth ∨ ∃ ack, First conn ack ∧ (AnswersAuth conn.req_id ack ∨
        self.check_subscribe_response ack conn.req_id = .ok () ∧
          ∃ m ∈ taken conn.messages, AnswersAuth conn.req_id m) := by
  obtain ⟨tail, hseen, htail, -⟩ := self.ws_api_pass_seen n conn
  unfold WsApiConnection.AuthAnswered
  rw [hseen]
  refine or_congr_right ?_
  constructor
  · rintro ⟨m, hm, hauth⟩
    rcases List.mem_append.mp hm with hm | hm
    · obtain ⟨ack, hack, he⟩ := self.mem_connect hm
      refine ⟨ack, hack, ?_⟩
      rcases he with h | ⟨hok, h | h | ⟨m', hm', h⟩⟩
      · cases h
        exact Or.inl hauth
      · cases h
      · cases h
      · cases h
        exact Or.inr ⟨hok, m, hm', hauth⟩
    · exact absurd rfl ((htail _ hm).2 m)
  · rintro ⟨ack, hack, hauth⟩
    have hconnect := self.connect_of_first hack
    rcases hauth with hauth | ⟨hok, m, hm, hauth⟩
    · refine ⟨ack, List.mem_append_left _ ?_, hauth⟩
      rw [hconnect]
      split <;> exact List.mem_cons_self
    · refine ⟨m, List.mem_append_left _ ?_, hauth⟩
      rw [hconnect, hok]
      exact List.mem_cons_of_mem _ (List.mem_cons_of_mem _ (taken_seen hm))

/-! ## The status is truthful -/

/-- The answer to the subscribe request, if it comes, is the first message of its
connection, and the only one that tells of a failed authentication. -/
structure AnsweredFirst (conn : WsApiConnection) : Prop where
  handshake : ¬ conn.RefusedAuth
  first : ∀ ack, First conn ack → ack.isDict = true → Carries conn.req_id ack
  later : ∀ ack, First conn ack → AnswersWith conn.req_id 200 ack →
    ∀ m ∈ taken conn.messages, ¬ AnswersAuth conn.req_id m

/-- What the statuses of one connection attempt have to tell. -/
structure TellsTrue (conn : WsApiConnection) (seen : List StreamEvent) : Prop where
  connected : ConnectedWhenAcked conn.req_id seen
  auth_error : TellsAuthError seen ↔ conn.AuthAnswered seen

theorem refused_without_first {conn : WsApiConnection} (h : conn.RefusedAuth) (ack : Json) :
    ¬ First conn ack := by
  obtain ⟨refusal, hrefused, -⟩ := h
  rintro ⟨hhandshake, -⟩
  rw [hrefused] at hhandshake
  cases hhandshake

/-- A message that says 200 says neither 401 nor 403. -/
theorem not_auth_of_ack {id : String} {m : Json} (h : AnswersWith id 200 m) :
    ¬ AnswersAuth id m := by
  rintro (h' | h')
  · exact absurd (answersWith_unique h h') (by norm_num)
  · exact absurd (answersWith_unique h h') (by norm_num)

theorem tellsTrue_iff (n : Nat) (conn : WsApiConnection) :
    TellsTrue conn (self.ws_api_pass n (.attempt conn)).1 ↔ AnsweredFirst conn := by
  have hconnected := self.connected_when_acked_iff n conn
  have htells := self.tells_auth_error_iff n conn
  have hanswered := self.auth_answered_iff n conn
  constructor
  · rintro ⟨hacked, hauth⟩
    rw [htells, hanswered] at hauth
    refine ⟨?_, hconnected.mp hacked, ?_⟩
    · intro hrefused
      obtain ⟨ack, hack, -⟩ := hauth.mpr (Or.inl hrefused)
      exact refused_without_first hrefused ack hack
    · intro ack hack h200 m hm hmauth
      have hok := (self.check_ok_iff ack conn.req_id).mpr (Or.inl h200)
      obtain ⟨ack', hack', hauth'⟩ :=
        hauth.mpr (Or.inr ⟨ack, hack, Or.inr ⟨hok, m, hm, hmauth⟩⟩)
      rw [first_unique hack' hack] at hauth'
      exact not_auth_of_ack h200 hauth'
  · rintro ⟨hhandshake, hfirst, hlater⟩
    refine ⟨hconnected.mpr hfirst, ?_⟩
    rw [htells, hanswered]
    constructor
    · rintro ⟨ack, hack, hauth⟩
      exact Or.inr ⟨ack, hack, Or.inl hauth⟩
    · rintro (h | ⟨ack, hack, hauth | ⟨hok, m, hm, hauth⟩⟩)
      · exact absurd h hhandshake
      · exact ⟨ack, hack, hauth⟩
      · rcases (self.check_ok_iff ack conn.req_id).mp hok with h200 | ⟨hdict, hc⟩
        · exact absurd hauth (hlater ack hack h200 m hm)
        · exact absurd (hfirst ack hack hdict) hc

/-! ## The futures path -/

/-- The listen key request was answered with a listen key. -/
def GivesKey (reply : Except String ListenKeyReply) : Prop :=
  ∃ resp data key, reply = .ok resp ∧ resp.status < 400 ∧ resp.json = .ok data ∧
    data.get "listenKey" = .ok (some key)

/-- The listen key request was answered with 401 or 403. -/
def KeyRefused (reply : Except String ListenKeyReply) : Prop :=
  ∃ resp, reply = .ok resp ∧ (resp.status = 401 ∨ resp.status = 403)

theorem create_listen_key_iff (reply : Except String ListenKeyReply) :
    (∃ key, create_listen_key reply = .ok key) ↔ GivesKey reply := by
  constructor
  · rintro ⟨key, h⟩
    unfold create_listen_key at h
    cases reply with
    | error text => cases h
    | ok resp =>
      dsimp only at h
      split at h
      · cases h
      split at h
      · cases h
      rename_i hstatus
      cases hjson : resp.json with
      | error text =>
        rw [hjson] at h
        cases h
      | ok data =>
        rw [hjson] at h
        dsimp only at h
        cases hget : data.get "listenKey" with
        | error e =>
          rw [hget] at h
          cases h
        | ok found =>
          rw [hget] at h
          cases found with
          | none => cases h
          | some key' => exact ⟨resp, data, key', rfl, not_le.mp hstatus, hjson, hget⟩
  · rintro ⟨resp, data, key, rfl, hstatus, hjson, hget⟩
    refine ⟨key, ?_⟩
    unfold create_listen_key
    dsimp only
    rw [if_neg (by omega), if_neg (by omega), hjson]
    dsimp only
    rw [hget]

theorem not_refused_of_key {reply : Except String ListenKeyReply} (h : GivesKey reply) :
    ¬ KeyRefused reply := by
  obtain ⟨resp, -, -, rfl, hstatus, -⟩ := h
  rintro ⟨resp', hresp, hrefused⟩
  obtain rfl : resp = resp' := Except.ok.inj hresp
  omega

theorem read_stream_seen {ending : WsEnd} {msgs : List WsMessage} {e : StreamEvent}
    (h : e ∈ (read_stream ending msgs).1) : ∀ told error, e ≠ .status told error := by
  induction msgs with
  | nil => cases h
  | cons msg rest ih =>
    unfold read_stream at h
    split at h
    · cases h
    · dsimp only at h
      split at h
      · exact ih h
      · rcases List.mem_cons.mp h with rfl | h
        · exact fun _ _ h => nomatch h
        · rcases List.mem_append.mp h with h | h
          · split at h
            · rw [List.mem_singleton.mp h]
              exact fun _ _ h => nomatch h
            · cases h
          · exact ih h

theorem legacy_seen_statuses {conn : WsConnection} {told : String} {error : Option String}
    (h : .status told error ∈ legacy_seen conn) : told = "connected" ∨ told = "reconnecting" := by
  unfold legacy_seen at h
  cases hhandshake : conn.handshake with
  | error refusal =>
    rw [hhandshake] at h
    exact Or.inr (StreamEvent.status.inj (List.mem_singleton.mp h)).1
  | ok u =>
    rw [hhandshake] at h
    dsimp only at h
    rcases hread : read_stream conn.ending conn.messages with ⟨seen, ends⟩
    rw [hread] at h
    have hseen : ∀ e ∈ seen, ∀ told error, e ≠ .status told error := by
      intro e he
      have hmem : e ∈ (read_stream conn.ending conn.messages).1 := by
        rw [hread]
        exact he
      exact read_stream_seen hmem
    cases ends with
    | ok u =>
      rcases List.mem_cons.mp h with h | h
      · exact Or.inl (StreamEvent.status.inj h).1
      · exact absurd rfl (hseen _ h told error)
    | error exc =>
      rcases List.mem_cons.mp h with h | h
      · exact Or.inl (StreamEvent.status.inj h).1
      · rcases List.mem_append.mp h with h | h
        · exact absurd rfl (hseen _ h told error)
        · exact Or.inr (StreamEvent.status.inj (List.mem_singleton.mp h)).1

/-- No pass of the futures loop tells of a failed authentication. -/
theorem legacy_pass_tells (listen_key : Json) (n : Nat) (pass : Pass WsConnection) :
    ¬ TellsAuthError (legacy_pass listen_key n pass).1 := by
  have hclosing : ∀ error, StreamEvent.status "auth_error" error ∉ closing listen_key := by
    intro error h
    unfold closing at h
    rcases List.mem_append.mp h with h | h
    · split at h
      · cases List.mem_singleton.mp h
      · cases h
    · exact absurd (StreamEvent.status.inj (List.mem_singleton.mp h)).1 (by decide)
  have hseen (conn : WsConnection) :
      ∀ error, StreamEvent.status "auth_error" error ∉
        StreamEvent.status "connecting" none :: legacy_seen conn := by
    intro error h
    rcases List.mem_cons.mp h with h | h
    · exact absurd (StreamEvent.status.inj h).1 (by decide)
    · rcases legacy_seen_statuses h with h | h
      · exact absurd h (by decide)
      · exact absurd h (by decide)
  rintro ⟨error, h⟩
  cases pass with
  | stop => exact hclosing error h
  | attempt conn =>
    unfold legacy_pass at h
    dsimp only at h
    split at h
    · rcases List.mem_append.mp h with h | h
      · exact hseen conn error h
      · exact hclosing error h
    · split at h
      · exact hseen conn error h
      · rcases List.mem_append.mp h with h | h
        · exact hseen conn error h
        · exact hclosing error h

/-! ## The status is truthful -/

/-- The status of every connection attempt of the spot path is true, and a failed
authentication is the end of the loop, whatever would come. -/
def SpotTruthful (passes : List (Pass WsApiConnection)) : Prop :=
  ∀ i conn made, passes[i]? = some (.attempt conn) → (self.run_ws_api passes)[i]? = some made →
    TellsTrue conn made.1 ∧ (TellsAuthError made.1 →
      ∀ more, (self.run_ws_api (passes.take (i + 1) ++ more)).length = i + 1)

/-- The futures path tells of a failed authentication exactly when an attempt was
answered with 401 or 403, and then it makes no attempt. -/
def FuturesTruthful (reply : Except String ListenKeyReply) (passes : List (Pass WsConnection)) :
    Prop :=
  let run := run_legacy_stream reply passes
  let tells := TellsAuthError run.1 ∨ ∃ made ∈ run.2, TellsAuthError made.1
  (tells ↔ KeyRefused reply ∨
    ∃ i, ∃ conn : WsConnection, passes[i]? = some (.attempt conn) ∧ i < run.2.length ∧
      conn.RefusedAuth) ∧
  (tells → ∀ more, (run_legacy_stream reply more).2 = [])

theorem spotTruthful_iff (passes : List (Pass WsApiConnection)) :
    self.SpotTruthful passes ↔
      ∀ i conn, passes[i]? = some (.attempt conn) → i < (self.run_ws_api passes).length →
        AnsweredFirst conn := by
  constructor
  · intro h i conn hconn hi
    obtain ⟨htrue, -⟩ := h i conn _ hconn (List.getElem?_eq_getElem hi)
    obtain ⟨n, x, hx, hmade⟩ := loop_at (List.getElem?_eq_getElem hi)
    rw [hconn] at hx
    obtain rfl : Pass.attempt conn = x := Option.some.inj hx
    rw [hmade] at htrue
    exact (self.tellsTrue_iff n conn).mp htrue
  · intro h i conn made hconn hmade
    have hi : i < (self.run_ws_api passes).length := by
      by_contra hle
      rw [List.getElem?_eq_none (not_lt.mp hle)] at hmade
      cases hmade
    obtain ⟨n, x, hx, hpass⟩ := loop_at hmade
    rw [hconn] at hx
    obtain rfl : Pass.attempt conn = x := Option.some.inj hx
    refine ⟨?_, ?_⟩
    · rw [hpass]
      exact (self.tellsTrue_iff n conn).mpr (h i conn hconn hi)
    · intro htells
      rw [hpass, self.tells_auth_error_iff, ← self.connect_auth_iff] at htells
      have hreturned : made = (made.1, .returned) := by
        rw [hpass, ← self.returned_of_auth n htells]
      rw [hreturned] at hmade
      exact loop_left hmade

theorem futuresTruthful_iff (reply : Except String ListenKeyReply)
    (passes : List (Pass WsConnection)) :
    FuturesTruthful reply passes ↔
      (KeyRefused reply ∨ GivesKey reply) ∧
        ∀ i, ∀ conn : WsConnection, passes[i]? = some (.attempt conn) →
          i < (run_legacy_stream reply passes).2.length → ¬ conn.RefusedAuth := by
  unfold FuturesTruthful
  dsimp only
  by_cases hkey : GivesKey reply
  · -- the loop is entered, and it never tells of a failed authentication
    obtain ⟨key, hcreate⟩ := (create_listen_key_iff reply).mpr hkey
    have hrun : run_legacy_stream reply passes = ([], loop (legacy_pass key) 0 passes) := by
      unfold run_legacy_stream
      rw [hcreate]
    rw [hrun]
    have htells : ¬ (TellsAuthError [] ∨
        ∃ made ∈ loop (legacy_pass key) 0 passes, TellsAuthError made.1) := by
      rintro (⟨error, h⟩ | ⟨made, hmade, h⟩)
      · cases h
      · obtain ⟨i, hi⟩ := List.getElem?_of_mem hmade
        obtain ⟨n, pass, -, rfl⟩ := loop_at hi
        exact legacy_pass_tells key n pass h
    constructor
    · rintro ⟨hiff, -⟩
      refine ⟨Or.inr hkey, ?_⟩
      intro i conn hconn hi hrefused
      exact htells (hiff.mpr (Or.inr ⟨i, conn, hconn, hi, hrefused⟩))
    · rintro ⟨-, hconns⟩
      refine ⟨iff_of_false htells ?_, fun h => absurd h htells⟩
      rintro (h | ⟨i, conn, hconn, hi, hrefused⟩)
      · exact not_refused_of_key hkey h
      · exact hconns i conn hconn hi hrefused
  · -- whatever went wrong, a failed authentication is told
    obtain ⟨text, hcreate⟩ : ∃ text, create_listen_key reply = .error text := by
      cases h : create_listen_key reply with
      | error text => exact ⟨text, rfl⟩
      | ok key => exact absurd ((create_listen_key_iff reply).mp ⟨key, h⟩) hkey
    have hrun (more : List (Pass WsConnection)) : run_legacy_stream reply more =
        ([.status "auth_error" (some text), .incident "stream_auth_error" text "error"], []) := by
      unfold run_legacy_stream
      rw [hcreate]
    rw [hrun passes]
    constructor
    · rintro ⟨hiff, -⟩
      rcases hiff.mp (Or.inl ⟨_, List.mem_cons_self⟩) with h | ⟨i, conn, -, hi, -⟩
      · exact ⟨Or.inl h, fun i conn _ hi => absurd hi (Nat.not_lt_zero i)⟩
      · exact absurd hi (Nat.not_lt_zero i)
    · rintro ⟨hreply, -⟩
      refine ⟨iff_of_true (Or.inl ⟨_, List.mem_cons_self⟩) ?_, ?_⟩
      · exact Or.inl (hreply.resolve_right hkey)
      · intro _ more
        rw [hrun more]

/-- For every sequence of connections and messages on either path: the status is
truthful exactly when on the spot path every first message that is a dict carries
the id of the subscribe request and nothing but such a first message tells of a
failed authentication, and on the futures path the listen key request gives a
key or is refused with 401 or 403, and no handshake is refused so. -/
theorem stream_status_is_truthful_iff (spot : List (Pass WsApiConnection))
    (reply : Except String ListenKeyReply) (futures : List (Pass WsConnection)) :
    (self.SpotTruthful spot ∧ FuturesTruthful reply futures) ↔
      (∀ i conn, spot[i]? = some (.attempt conn) → i < (self.run_ws_api spot).length →
          AnsweredFirst conn) ∧
        (KeyRefused reply ∨ GivesKey reply) ∧
        ∀ i, ∀ conn : WsConnection, futures[i]? = some (.attempt conn) →
          i < (run_legacy_stream reply futures).2.length → ¬ conn.RefusedAuth := by
  rw [self.spotTruthful_iff spot, futuresTruthful_iff reply futures]

/-- A message about something else is the first one that comes. -/
def demo_unacked : WsApiConnection where
  req_id := "r1"
  answer := .ok (.ok (.obj [("e", .str "balanceUpdate")]))

def demo_listener : AccountStreamListener where
  str := Json.pyStr

/-- It makes the spot path connected, and an outage of the listen key endpoint
counts as a failed authentication. -/
theorem connected_without_an_ack :
    ¬ demo_listener.SpotTruthful [.attempt demo_unacked] ∧
      ¬ FuturesTruthful (.ok ⟨500, .error ""⟩) [] := by
  constructor
  · rw [spotTruthful_iff]
    intro h
    obtain ⟨i, hi, -⟩ := (h 0 demo_unacked rfl (by decide +kernel)).first
      (.obj [("e", .str "balanceUpdate")]) ⟨rfl, rfl⟩ rfl
    cases hi
  · rw [futuresTruthful_iff]
    rintro ⟨⟨resp, hresp, h⟩ | ⟨resp, -, -, hresp, h, -⟩, -⟩
    · rw [← Except.ok.inj hresp] at h
      rcases h with h | h <;> cases h
    · rw [← Except.ok.inj hresp] at h
      exact absurd h (by decide)

end AccountStreamListener

end trading_platform.execution
