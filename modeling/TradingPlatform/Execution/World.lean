-- The world that the execution service runs in: Redis, the tables, the
-- exchange and the clock. A `Choice` is what the environment does in one
-- call: let it pass, fail it with or without its effect, and let time pass.
import TradingPlatform.Lib.Pool
import TradingPlatform.Execution.AccountStream

open resumption
open trading_platform.shared

namespace trading_platform.execution

/-! ## Commands -/

inductive RepoCmd where
  | create_job (job_id : Uuid) (request : ExecutionRequest) (client_order_id : String)
  | get_job_by_client_order_id (client_order_id : String)
  | update_job_status (job_id : Uuid) (new_status : JobStatus)
      (event_data result_json : Option Json) (error : Option String)
  | create_order (job_id : Uuid) (request : ExecutionRequest) (client_order_id : String)
      (response : AdapterResponse)
  | save_fill (order_id : Nat) (request : ExecutionRequest) (response : AdapterResponse)
  | get_order_by_client_order_id (client_order_id : String)
  | get_fill_by_exchange_trade_id (account_id : Uuid) (exchange_trade_id : String)
  | insert_fill (args : FillArgs)
  | update_order_filled_qty (order_id : Nat) (filled_qty avg_fill_price : ℚ)
      (new_status : Option String)
  | get_daily_realized_loss_usd (account_id : String)
  | get_open_positions_count (account_id : String)
  | select_account (account : Uuid)
  | insert_incident (incident : IncidentLog)
  | upsert_futures_report (account_id : Uuid) (found : Option Order) (report : FuturesReport)

abbrev RepoCmd.Ans : RepoCmd → Type
  | .create_job .. => Unit
  | .get_job_by_client_order_id _ => Option ExecutionJob
  | .update_job_status .. => Unit
  | .create_order .. => Nat
  | .save_fill .. => Unit
  | .get_order_by_client_order_id _ => Option Order
  | .get_fill_by_exchange_trade_id .. => Option Fill
  | .insert_fill _ => Unit
  | .update_order_filled_qty .. => Unit
  | .get_daily_realized_loss_usd _ => ℚ
  | .get_open_positions_count _ => Nat
  | .select_account _ => Option AccountRows
  | .insert_incident _ => Unit
  | .upsert_futures_report .. => Unit

def RepoCmd.txn (now : Nat) : (c : RepoCmd) → Txn c.Ans
  | .create_job job_id request client_order_id =>
    execution.create_job now job_id request client_order_id
  | .get_job_by_client_order_id client_order_id =>
    execution.get_job_by_client_order_id client_order_id
  | .update_job_status job_id new_status event_data result_json error =>
    execution.update_job_status now job_id new_status event_data result_json error
  | .create_order job_id request client_order_id response =>
    execution.create_order now job_id request client_order_id response
  | .save_fill order_id request response => execution.save_fill now order_id request response
  | .get_order_by_client_order_id client_order_id =>
    execution.get_order_by_client_order_id client_order_id
  | .get_fill_by_exchange_trade_id account_id exchange_trade_id =>
    execution.get_fill_by_exchange_trade_id account_id exchange_trade_id
  | .insert_fill args => execution.insert_fill args
  | .update_order_filled_qty order_id filled_qty avg_fill_price new_status =>
    execution.update_order_filled_qty now order_id filled_qty avg_fill_price new_status
  | .get_daily_realized_loss_usd account_id =>
    execution.get_daily_realized_loss_usd now account_id
  | .get_open_positions_count account_id => execution.get_open_positions_count account_id
  | .select_account account => execution.select_account account
  | .insert_incident incident => execution.insert_incident incident
  | .upsert_futures_report account_id found report =>
    execution.upsert_futures_report account_id found report

/-- The parameters of `POST /api/v3/order`. Decimals are kept as they are, not
as their texts. -/
structure OrderParams where
  symbol : String
  side : String
  type : String
  quantity : ℚ
  newClientOrderId : String
  timestamp : Nat
  recvWindow : Nat
  price : Option ℚ
  timeInForce : Option String
  signature : String

/-- An HTTP answer: the status code, `resp.json()` (`none` when the body is no
JSON) and `resp.text`. -/
structure HttpReply where
  status_code : Nat
  json : Option Json
  text : String
  deriving Inhabited

inductive Cmd where
  | redis (c : RedisCmd)
  | repo (c : RepoCmd)
  /-- `self._adapter.submit(request, client_order_id)` of an adapter that is
  seen from outside only. -/
  | submit (request : ExecutionRequest) (client_order_id : String)
  /-- The `POST` of a signed order to the exchange. -/
  | post_order (params : OrderParams)
  /-- `int(time.time() * 1000)`. -/
  | time_ms

/-- A call of the adapter. -/
def Cmd.isSubmit : Cmd → Bool
  | .submit .. => true
  | _ => false

abbrev Ans : Cmd → Type
  | .redis c => c.Ans
  | .repo c => c.Ans
  | .submit .. => AdapterResponse
  | .post_order _ => HttpReply
  | .time_ms => Nat

/-- A program of the execution service. -/
abbrev Py (α : Type) := Prog PyErr Cmd Ans α

/-- A program that uses Redis only. -/
abbrev RedisPy (α : Type) := Prog PyErr RedisCmd RedisCmd.Ans α

/-- A program of Redis calls, as a program of the service. -/
def onRedis {α : Type} : RedisPy α → Py α
  | .done a => .done a
  | .raise e => .raise e
  | .call c k => .call (.redis c) fun r => onRedis (k r)

def redis (c : RedisCmd) : RedisPy c.Ans := Prog.perform c

def repo (c : RepoCmd) : Py c.Ans := Prog.perform (V := Ans) (.repo c)

/-! ## The environment -/

structure World where
  /-- The time in ms. -/
  now : Nat
  redis : Redis
  db : Db
  /-- The client order ids that the adapter was called with, oldest first. -/
  submits : List String
  /-- The orders that reached the exchange, oldest first. -/
  exchange : List OrderParams

def World.empty : World := ⟨0, .empty, .empty, [], []⟩

/-- What the environment does with a call. -/
inductive Fault where
  | none
  /-- The call raises and has no effect. -/
  | before (e : PyErr)
  /-- The call has its effect, but its answer is lost and it raises. -/
  | after (e : PyErr)

structure Choice where
  fault : Fault := .none
  /-- The answer of an adapter. -/
  reply : AdapterResponse := default
  /-- The answer of the exchange. -/
  http : HttpReply := default
  /-- The time in ms that passes after the call. -/
  dt : Nat := 0

/-- Nothing fails and no time passes. -/
def Choice.idle : Choice := {}

def World.tick (w : World) (dt : Nat) : World := { w with now := w.now + dt }

/-- A call of the adapter counts from the moment it is made. -/
def World.called (w : World) : Cmd → World
  | .submit _ client_order_id => { w with submits := w.submits ++ [client_order_id] }
  | _ => w

/-- A call that does not fail. -/
def World.effect (w : World) (o : Choice) : (c : Cmd) → Except PyErr (Ans c) × World
  | .redis c =>
    let r := w.redis.exec w.now c
    (r.1, { w with redis := r.2 })
  | .repo c =>
    match c.txn w.now w.db with
    | .ok (a, db) => (.ok a, { w with db })
    | .error e => (.error e, w)
  | .submit .. => (.ok o.reply, w)
  | .post_order params => (.ok o.http, { w with exchange := w.exchange ++ [params] })
  | .time_ms => (.ok w.now, w)

/-- The fault of a call. The clock never fails. -/
def Choice.faultOf (o : Choice) : Cmd → Fault
  | .time_ms => .none
  | _ => o.fault

def World.exec (w : World) (c : Cmd) (o : Choice) : Except PyErr (Ans c) × World :=
  let r := match o.faultOf c with
    | .none => (w.called c).effect o c
    | .before e => (.error e, w.called c)
    | .after e => (.error e, ((w.called c).effect o c).2)
  (r.1, r.2.tick o.dt)

/-- A program alone in a world. -/
def World.run {α : Type} (w : World) (p : Py α) (os : List Choice) :
    Except PyErr α × World × List Choice :=
  resumption.run World.exec .idle p w os

/-- The world after a program that ran alone with no fault. -/
def World.after {α : Type} (w : World) (p : Py α) : World := (w.run p []).2.1

/-! ## What a call can change -/

@[simp] theorem World.tick_redis (w : World) (dt : Nat) : (w.tick dt).redis = w.redis := rfl

@[simp] theorem World.tick_db (w : World) (dt : Nat) : (w.tick dt).db = w.db := rfl

@[simp] theorem World.tick_submits (w : World) (dt : Nat) : (w.tick dt).submits = w.submits := rfl

@[simp] theorem World.tick_exchange (w : World) (dt : Nat) :
    (w.tick dt).exchange = w.exchange := rfl

@[simp] theorem World.tick_now (w : World) (dt : Nat) : (w.tick dt).now = w.now + dt := rfl

@[simp] theorem World.called_redis (w : World) (c : Cmd) : (w.called c).redis = w.redis := by
  cases c <;> rfl

@[simp] theorem World.called_db (w : World) (c : Cmd) : (w.called c).db = w.db := by
  cases c <;> rfl

@[simp] theorem World.called_now (w : World) (c : Cmd) : (w.called c).now = w.now := by
  cases c <;> rfl

/-- A call takes the time that the environment lets pass. -/
theorem World.exec_now (w : World) (c : Cmd) (o : Choice) : (w.exec c o).2.now = w.now + o.dt := by
  have heff : ((w.called c).effect o c).2.now = w.now := by
    cases c with
    | repo c =>
      simp only [effect, called]
      split <;> rfl
    | redis _ | submit _ _ | post_order _ | time_ms => rfl
  unfold exec
  cases o.faultOf c <;> simp [heff]

/-- Time never runs backwards in a call. -/
theorem World.now_le_exec (w : World) (c : Cmd) (o : Choice) : w.now ≤ (w.exec c o).2.now := by
  rw [World.exec_now]
  exact Nat.le_add_right _ _

/-- Only a call of the adapter adds to `submits`, and it adds its own id. -/
theorem World.exec_submits (w : World) (c : Cmd) (o : Choice) :
    (w.exec c o).2.submits = (w.called c).submits := by
  have heff : ((w.called c).effect o c).2.submits = (w.called c).submits := by
    cases c with
    | repo c =>
      simp only [effect]
      split <;> rfl
    | redis _ | submit _ _ | post_order _ | time_ms => rfl
  unfold exec
  cases o.faultOf c <;> simp [heff]

/-- A call of something other than the adapter adds no submission. -/
theorem World.exec_submits_of_ne (w : World) (c : Cmd) (o : Choice)
    (h : ∀ r i, c ≠ .submit r i) : (w.exec c o).2.submits = w.submits := by
  rw [World.exec_submits]
  cases c with
  | submit r i => exact absurd rfl (h r i)
  | redis _ | repo _ | post_order _ | time_ms => rfl

/-- A read of a key that answers "absent" was made when the key was absent. -/
theorem World.absent_of_exists {w : World} {k : String} {o : Choice}
    (h : (w.exec (.redis (.exists k)) o).1 = .ok false) : w.redis.live w.now k = none := by
  unfold exec at h
  split at h
  · simpa [effect, called, Redis.exec] using h
  · cases h
  · cases h

/-- `SET NX` that answers "set" found the key absent. -/
theorem World.absent_of_setnx {w : World} {k v : String} {ex : Option Int} {o : Choice}
    (h : (w.exec (.redis (.set k v true ex)) o).1 = .ok true) : w.redis.live w.now k = none := by
  unfold exec at h
  split at h
  · simp only [effect, called, Redis.exec] at h
    cases hexp : expiry w.now ex with
    | error e => simp [hexp] at h
    | ok t =>
      simp only [hexp] at h
      by_cases hl : (w.redis.live w.now k).isSome = true
      · simp [hl] at h
      · simpa using hl
  · cases h
  · cases h

/-- The keys that a call can change. -/
def Cmd.writes : Cmd → String → Prop
  | .redis c, k => c.writes k
  | _, _ => False

/-- A call that does not write a key leaves it as it was. -/
theorem World.exec_keys (w : World) (c : Cmd) (o : Choice) (k : String) (h : ¬ c.writes k) :
    (w.exec c o).2.redis.keys k = w.redis.keys k := by
  have heff : ((w.called c).effect o c).2.redis.keys k = w.redis.keys k := by
    cases c with
    | redis c => exact Redis.exec_keys w.redis w.now c k h
    | repo c =>
      simp only [effect, called]
      split <;> rfl
    | submit _ _ | post_order _ | time_ms => rfl
  unfold exec
  cases o.faultOf c <;> simp [heff]

/-- The tables after a call of something other than the repository. -/
theorem World.exec_db (w : World) (c : Cmd) (o : Choice) (h : ∀ d, c ≠ .repo d) :
    (w.exec c o).2.db = w.db := by
  have heff : ((w.called c).effect o c).2.db = w.db := by
    cases c with
    | repo c => exact absurd rfl (h c)
    | redis _ | submit _ _ | post_order _ | time_ms => rfl
  unfold exec
  cases o.faultOf c <;> simp [heff]

/-- The tables after a repository call: as before, or as its transaction left
them. -/
theorem World.exec_repo (w : World) (c : RepoCmd) (o : Choice) :
    ((w.exec (.repo c) o).2.db = w.db ∧ ∀ a, (w.exec (.repo c) o).1 = .ok a →
      c.txn w.now w.db = .ok (a, w.db)) ∨
    ∃ a db, c.txn w.now w.db = .ok (a, db) ∧ (w.exec (.repo c) o).2.db = db ∧
      ∀ a', (w.exec (.repo c) o).1 = .ok a' → a' = a := by
  unfold exec
  cases o.faultOf (.repo c) with
  | none =>
    simp only [called, effect]
    cases htxn : c.txn w.now w.db with
    | ok r =>
      obtain ⟨a, db⟩ := r
      exact Or.inr ⟨a, db, rfl, rfl, fun a' h => by cases h; rfl⟩
    | error e => exact Or.inl ⟨rfl, fun a h => by cases h⟩
  | before e => exact Or.inl ⟨rfl, fun a h => by cases h⟩
  | after e =>
    simp only [called, effect]
    cases htxn : c.txn w.now w.db with
    | ok r =>
      obtain ⟨a, db⟩ := r
      exact Or.inr ⟨a, db, rfl, rfl, fun a' h => by cases h⟩
    | error e => exact Or.inl ⟨rfl, fun a h => by cases h⟩

/-- A repository call comes back with what its transaction gives; or it raises,
and its transaction was made or was not. -/
theorem World.exec_repo_cases (w : World) (c : RepoCmd) (o : Choice) :
    (∃ a, (w.exec (.repo c) o).1 = .ok a ∧
      c.txn w.now w.db = .ok (a, (w.exec (.repo c) o).2.db)) ∨
    (∃ e, (w.exec (.repo c) o).1 = .error e) ∧
      ((w.exec (.repo c) o).2.db = w.db ∨
        ∃ a, c.txn w.now w.db = .ok (a, (w.exec (.repo c) o).2.db)) := by
  unfold exec
  cases o.faultOf (.repo c) with
  | none =>
    simp only [called, effect]
    cases htxn : c.txn w.now w.db with
    | ok r => exact Or.inl ⟨r.1, rfl, rfl⟩
    | error e => exact Or.inr ⟨⟨e, rfl⟩, Or.inl rfl⟩
  | before e => exact Or.inr ⟨⟨e, rfl⟩, Or.inl rfl⟩
  | after e =>
    simp only [called, effect]
    cases htxn : c.txn w.now w.db with
    | ok r => exact Or.inr ⟨⟨e, rfl⟩, Or.inr ⟨r.1, rfl⟩⟩
    | error e' => exact Or.inr ⟨⟨e, rfl⟩, Or.inl rfl⟩

/-! ## Programs that run alone -/

/-- The program runs alone, no call of it fails, and it ends in `Q`. -/
abbrev World.Alone {α : Type} (w : World) (p : Py α) (Q : Except PyErr α → World → Prop) : Prop :=
  resumption.Alone World.exec .idle w p Q

theorem World.alone_repo {w : World} {c : RepoCmd} {Q : Except PyErr c.Ans → World → Prop} :
    w.Alone (repo c) Q ↔
      match c.txn w.now w.db with
      | .ok (a, db) => Q (.ok a) { w with db }
      | .error e => Q (.error e) w := by
  unfold repo
  rw [World.Alone, alone_perform]
  simp only [exec, Choice.faultOf, Choice.idle, called, effect]
  cases c.txn w.now w.db <;> exact Iff.rfl

/-- A repository call, and what follows it when its transaction passes. -/
theorem World.alone_repo_bind {w : World} {c : RepoCmd} {α : Type} {f : c.Ans → Py α}
    {Q : Except PyErr α → World → Prop}
    (hok : ∀ a db, c.txn w.now w.db = .ok (a, db) → World.Alone { w with db } (f a) Q)
    (herr : ∀ e, c.txn w.now w.db = .error e → Q (.error e) w) : w.Alone (repo c >>= f) Q := by
  rw [World.Alone, alone_bind, ← World.Alone, World.alone_repo]
  cases h : c.txn w.now w.db with
  | ok r => exact hok r.1 r.2 h
  | error e => exact herr e h

/-- An environment that answers each command in a way of its own. -/
def World.answer (env : Cmd → Choice) (w : World) (c : Cmd) (_ : Unit) :
    Except PyErr (Ans c) × World := w.exec c (env c)

/-! ## Programs of Redis calls -/

/-- The protocol over the Redis calls alone. -/
def redisPart {G : Type} (P : Protocol PyErr Cmd Ans G) :
    Protocol PyErr RedisCmd RedisCmd.Ans G where
  allows g c := P.allows g (.redis c)
  next g c r := P.next g (.redis c) r

theorem onRedis_bind {α β : Type} (p : RedisPy α) (f : α → RedisPy β) :
    onRedis (p >>= f) = onRedis p >>= fun a => onRedis (f a) := by
  induction p with
  | done a => rfl
  | raise e => rfl
  | call c k ih => exact congrArg (Prog.call (V := Ans) (.redis c)) (funext ih)

theorem calls_onRedis {α : Type} {A : Cmd → Prop} {p : RedisPy α}
    (h : p.Calls fun c => A (.redis c)) : (onRedis p).Calls A := by
  induction p with
  | done a => trivial
  | raise e => trivial
  | call c k ih => exact ⟨h.1, fun r => ih r (h.2 r)⟩

theorem obeys_onRedis {G : Type} {P : Protocol PyErr Cmd Ans G} {g : G} {α : Type} {p : RedisPy α}
    {Q : Except PyErr α → G → Prop} :
    Obeys P g (onRedis p) Q ↔ Obeys (redisPart P) g p Q := by
  induction p generalizing g with
  | done a => exact Iff.rfl
  | raise e => exact Iff.rfl
  | call c k ih => exact and_congr_right fun _ => forall_congr' fun r => ih r

/-- A key that is read, and what follows each answer. -/
theorem obeys_exists {G : Type} {P : Protocol PyErr RedisCmd RedisCmd.Ans G} {g : G} {key : String}
    {α : Type} {present absent : RedisPy α} {Q : Except PyErr α → G → Prop}
    (hallowed : P.allows g (.exists key))
    (herr : ∀ e, Q (.error e) (P.next g (.exists key) (.error e)))
    (hpresent : Obeys P (P.next g (.exists key) (.ok true)) present Q)
    (habsent : Obeys P (P.next g (.exists key) (.ok false)) absent Q) :
    Obeys P g (redis (.exists key) >>= fun b => if b = true then present else absent) Q := by
  rw [obeys_bind]
  apply obeys_perform.mpr
  refine ⟨hallowed, ?_⟩
  rintro (e | _ | _)
  · exact herr e
  · exact habsent
  · exact hpresent

end trading_platform.execution
