-- One submission per intent. Deliveries of stream entries come one after
-- another, at any times, and any call of them may fail. While the lock of a
-- submitted client order id, or a control of its account, is in force at each
-- redelivery, the adapter is called once per client order id.
import TradingPlatform.Execution.Gate

open resumption
open trading_platform.shared

namespace trading_platform.execution

/-! ## Deliveries -/

/-- One delivery of an entry to `_process`: the time since the one before, the
UUID that is drawn for it, and what the environment does in its calls. -/
structure Delivery where
  gap : Nat
  entry : IntentEntry
  job_id : Uuid
  choices : List Choice := []

/-- The key is there from now until past time `t`. -/
def HeldUntil (w : World) (t : Nat) (key : String) : Prop :=
  match w.redis.keys key with
  | some e => ∀ x ∈ e.expires, t < x
  | none => False

instance (w : World) (t : Nat) (key : String) : Decidable (HeldUntil w t key) := by
  unfold HeldUntil
  split <;> infer_instance

namespace ExecutionConsumer

variable (self : ExecutionConsumer) (sha256 : String → String)

def deliver (w : World) (d : Delivery) : World :=
  ((w.tick d.gap).run (self.process sha256 d.job_id d.entry) d.choices).2.1

def deliverAll (w : World) (ds : List Delivery) : World := ds.foldl (self.deliver sha256) w

/-! ## What stops a redelivery -/

/-- A delivery is covered when its intent was not submitted before, or its
lock is still live, or one of its controls is in force until the delivery
ends. -/
def Covered (w : World) (d : Delivery) : Prop :=
  match d.entry.intent with
  | .valid intent =>
    self.client_order_id sha256 intent ∈ w.submits →
      (w.redis.live (w.now + d.gap) (RedisKeys.job_lock (self.client_order_id sha256 intent))).isSome
        ∨ ∃ k ∈ control_keys self.account_id intent.symbol,
          HeldUntil w (self.deliver sha256 w d).now k
  | _ => True

instance (w : World) (d : Delivery) : Decidable (self.Covered sha256 w d) := by
  unfold Covered
  split <;> infer_instance

/-- Every delivery of the run is covered when it starts. -/
def AllCovered : World → List Delivery → Prop
  | _, [] => True
  | w, d :: ds => self.Covered sha256 w d ∧ AllCovered (self.deliver sha256 w d) ds

instance decidableAllCovered : ∀ (w : World) (ds : List Delivery),
    Decidable (self.AllCovered sha256 w ds)
  | _, [] => isTrue trivial
  | w, d :: ds =>
    haveI := decidableAllCovered (self.deliver sha256 w d) ds
    inferInstanceAs (Decidable (_ ∧ _))

end ExecutionConsumer

/-! ## Keys that differ -/

theorem job_lock_ne_control (c account_id symbol : String) :
    RedisKeys.job_lock c ∉ control_keys account_id symbol := by
  simp only [control_keys, List.mem_cons, List.not_mem_nil, or_false, not_or]
  refine ⟨?_, ?_, ?_, ?_, ?_⟩
  all_goals exact RedisKeys.ne_of_prefix (by decide) (by decide) (by decide)

/-! ## One delivery -/

/-- The key was not live at some time of the delivery so far. -/
def WasAbsent (w0 w : World) (key : String) : Prop :=
  ∃ t, w0.now ≤ t ∧ t ≤ w.now ∧ w0.redis.live t key = none

theorem WasAbsent.mono {w0 w w' : World} {key : String} (h : WasAbsent w0 w key)
    (hw : w.now ≤ w'.now) : WasAbsent w0 w' key := by
  obtain ⟨t, h1, h2, h3⟩ := h
  exact ⟨t, h1, h2.trans hw, h3⟩

/-- A key that holds until past the end of the delivery was never absent. -/
theorem not_wasAbsent_of_heldUntil {w0 w : World} {key : String}
    (h : HeldUntil w0 w.now key) : ¬ WasAbsent w0 w key := by
  rintro ⟨t, _, ht, hlive⟩
  unfold HeldUntil at h
  unfold Redis.live at hlive
  cases hk : w0.redis.keys key with
  | none => simp [hk] at h
  | some e =>
    simp only [hk] at h hlive
    cases he : e.expires with
    | none => simp [he] at hlive
    | some x =>
      have := h x he
      simp only [he] at hlive
      split at hlive
      · cases hlive
      · omega

section Delivery

variable (self : ExecutionConsumer) (sha256 : String → String) (job_id : Uuid)
  (intent : TradeIntent)

/-- The lock of the intent was free when the delivery started. -/
def LockWasFree (w0 : World) : Prop :=
  w0.redis.live w0.now (RedisKeys.job_lock (self.client_order_id sha256 intent)) = none

/-- What is true in each state of the gate during one delivery. -/
def DeliveryInv (w0 w : World) : Gate → Prop
  | .start => w.now = w0.now ∧ w.redis.keys = w0.redis.keys ∧ w.submits = w0.submits
  | .refused => w.submits = w0.submits
  | .locked seen =>
    w.submits = w0.submits ∧ LockWasFree self sha256 intent w0 ∧ w0.now ≤ w.now ∧
      (∀ k ∈ control_keys self.account_id intent.symbol, w.redis.keys k = w0.redis.keys k) ∧
      ∀ k ∈ seen.clear, k ∈ control_keys self.account_id intent.symbol → WasAbsent w0 w k
  | .submitted =>
    w.submits = w0.submits ++ [self.client_order_id sha256 intent] ∧
      LockWasFree self sha256 intent w0 ∧
      ∀ k ∈ control_keys self.account_id intent.symbol, WasAbsent w0 w k

/-- Calls that are no `SET NX`, before the lock is taken, are not allowed; a
`SET NX` takes the lock only when it was free. -/
theorem deliveryInv_start {w0 w : World} {c : Cmd} (o : Choice)
    (h : DeliveryInv self sha256 intent w0 w .start)
    (ha : (self.gate sha256 job_id intent).allows .start c) :
    DeliveryInv self sha256 intent w0 (w.exec c o).2
      ((self.gate sha256 job_id intent).next .start c (w.exec c o).1) := by
  obtain ⟨hnow, hkeys, hsub⟩ := h
  cases c with
  | redis c =>
    cases c with
    | set key value nx ex =>
      obtain ⟨rfl, rfl⟩ := ha
      have hsub' : (w.exec (.redis (.set (RedisKeys.job_lock (self.client_order_id sha256 intent))
          value true ex)) o).2.submits = w0.submits := by
        rw [World.exec_submits_of_ne _ _ _ (by simp), hsub]
      cases hr : (w.exec (.redis (.set (RedisKeys.job_lock (self.client_order_id sha256 intent))
          value true ex)) o).1 with
      | error e => exact hsub'
      | ok b =>
        cases b with
        | false => exact hsub'
        | true =>
          refine ⟨hsub', ?_, ?_, fun k hk => ?_, by simp⟩
          · have habs := World.absent_of_setnx hr
            rw [hnow] at habs
            rw [LockWasFree, ← habs]
            exact Redis.live_congr (congrFun hkeys _).symm _
          · exact hnow ▸ World.now_le_exec w _ o
          · rw [World.exec_keys _ _ _ _ ?_, hkeys]
            rintro rfl
            exact job_lock_ne_control _ _ _ hk
    | get _ | «exists» _ | delete _ | ttl _ | xadd _ _ | xack _ _ _ => exact absurd ha id
  | repo _ | submit _ _ | post_order _ | time_ms => exact absurd ha id

theorem deliveryInv_locked {w0 w : World} {seen : Seen} {c : Cmd} (o : Choice)
    (h : DeliveryInv self sha256 intent w0 w (.locked seen))
    (ha : (self.gate sha256 job_id intent).allows (.locked seen) c) :
    DeliveryInv self sha256 intent w0 (w.exec c o).2
      ((self.gate sha256 job_id intent).next (.locked seen) c (w.exec c o).1) := by
  obtain ⟨hsub, hfree, hnow, hkeys, hclear⟩ := h
  have hmono := World.now_le_exec w c o
  have hstay : (∀ r i, c ≠ .submit r i) → (∀ k, ¬ c.writes k) →
      ∀ seen' : Seen, seen'.clear = seen.clear →
        DeliveryInv self sha256 intent w0 (w.exec c o).2 (.locked seen') := by
    intro hne hw seen' hs
    refine ⟨by rw [World.exec_submits_of_ne _ _ _ hne, hsub], hfree, hnow.trans hmono,
      fun k hk => by rw [World.exec_keys _ _ _ _ (hw k), hkeys k hk], fun k hk hk' => ?_⟩
    rw [hs] at hk
    exact (hclear k hk hk').mono hmono
  cases c with
  | redis c =>
    cases c with
    | set _ _ _ _ => exact absurd ha id
    | delete _ => exact absurd ha id
    | «exists» k =>
      have hst := hstay (by simp) (fun _ => id)
      cases hr : (w.exec (.redis (.exists k)) o).1 with
      | error e => exact hst seen rfl
      | ok b =>
        cases b with
        | true => exact hst seen rfl
        | false =>
          obtain ⟨h1, h2, h3, h4, _⟩ := hst seen rfl
          refine ⟨h1, h2, h3, h4, fun k' hk' hc => ?_⟩
          rcases List.mem_append.mp hk' with hk' | hk'
          · exact (hclear k' hk' hc).mono hmono
          · -- the key that was read just now
            simp only [List.mem_singleton] at hk'
            subst hk'
            refine ⟨w.now, hnow, hmono, ?_⟩
            rw [← World.absent_of_exists hr]
            exact Redis.live_congr (hkeys k' hc).symm _
    | get _ | ttl _ | xadd _ _ | xack _ _ _ => exact hstay (by simp) (fun _ => id) seen rfl
  | repo c =>
    have hst := hstay (by simp) (fun _ => id)
    cases c with
    | select_account _ => exact hst _ rfl
    | get_daily_realized_loss_usd a =>
      cases hr : (w.exec (.repo (.get_daily_realized_loss_usd a)) o).1 <;> exact hst _ rfl
    | get_open_positions_count a =>
      cases hr : (w.exec (.repo (.get_open_positions_count a)) o).1 <;> exact hst _ rfl
    | _ => exact hst _ rfl
  | submit request i =>
    obtain ⟨_, rfl, hall, _⟩ := ha
    refine ⟨by rw [World.exec_submits, World.called, hsub], hfree, fun k hk => ?_⟩
    exact (hclear k (hall k hk) hk).mono hmono
  | post_order _ => exact absurd ha id
  | time_ms => exact hstay (by simp) (fun _ => id) seen rfl

/-- Every call that the gate allows keeps what is true of the delivery. -/
theorem deliveryInv_step {w0 w : World} {g : Gate} {c : Cmd} (o : Choice)
    (h : DeliveryInv self sha256 intent w0 w g)
    (ha : (self.gate sha256 job_id intent).allows g c) :
    DeliveryInv self sha256 intent w0 (w.exec c o).2
      ((self.gate sha256 job_id intent).next g c (w.exec c o).1) := by
  cases g with
  | start => exact deliveryInv_start self sha256 job_id intent o h ha
  | locked seen => exact deliveryInv_locked self sha256 job_id intent o h ha
  | refused =>
    have hne : ∀ r i, c ≠ .submit r i := by
      rintro r i rfl
      exact ha
    have hsub : (w.exec c o).2.submits = w0.submits := by
      rw [World.exec_submits_of_ne _ _ _ hne]; exact h
    exact hsub
  | submitted =>
    have hne : ∀ r i, c ≠ .submit r i := by
      rintro r i rfl
      exact ha
    obtain ⟨hsub, hfree, hclear⟩ := h
    have : DeliveryInv self sha256 intent w0 (w.exec c o).2 .submitted :=
      ⟨by rw [World.exec_submits_of_ne _ _ _ hne, hsub], hfree,
        fun k hk => (hclear k hk).mono (World.now_le_exec w c o)⟩
    exact this

/-- One delivery of a valid intent submits nothing, or its own id once, and
then its lock was free and each of its controls was absent at some time. -/
theorem deliver_valid (hadapter : self.adapter = some_adapter) (w : World) (d : Delivery)
    (hd : d.entry.intent = .valid intent) :
    (self.deliver sha256 w d).submits = w.submits ∨
      (self.deliver sha256 w d).submits = w.submits ++ [self.client_order_id sha256 intent] ∧
        LockWasFree self sha256 intent (w.tick d.gap) ∧
        ∀ k ∈ control_keys self.account_id intent.symbol,
          WasAbsent (w.tick d.gap) (self.deliver sha256 w d) k := by
  have hob := self.process_keeps_to_the_gate sha256 d.job_id intent hadapter d.entry.msg_id
  have he : d.entry = ⟨d.entry.msg_id, .valid intent⟩ := by rw [← hd]
  rw [← he] at hob
  obtain ⟨g, hinv, _⟩ := resumption.run_keeps World.exec .idle
    (I := fun w' g => DeliveryInv self sha256 intent (w.tick d.gap) w' g)
    (fun w' g c o h ha => deliveryInv_step self sha256 d.job_id intent o h ha)
    (w.tick d.gap) d.choices hob ⟨rfl, rfl, rfl⟩
  cases g with
  | start => exact Or.inl hinv.2.2
  | refused => exact Or.inl hinv
  | locked seen => exact Or.inl hinv.1
  | submitted => exact Or.inr hinv

/-- An entry without a valid intent submits nothing. -/
theorem deliver_invalid (w : World) (d : Delivery)
    (hd : ∀ intent, d.entry.intent ≠ .valid intent) :
    (self.deliver sha256 w d).submits = w.submits := by
  have hack : (self.process sha256 d.job_id d.entry).Calls Cmd.reports := by
    unfold ExecutionConsumer.process
    split
    · exact self.ack_calls _
    · exact self.ack_calls _
    · exact absurd ‹_› (hd _)
  refine run_keeps_of_calls (I := fun w' => w'.submits = w.submits) hack (fun w' c o hc h => ?_)
    (w.tick d.gap) d.choices rfl
  rw [World.exec_submits_of_ne _ _ _ ?_, h]
  rintro r i rfl
  exact hc

/-- A covered delivery keeps the submissions free of duplicates. -/
theorem deliver_nodup (hadapter : self.adapter = some_adapter) {w : World} {d : Delivery}
    (hw : w.submits.Nodup) (hc : self.Covered sha256 w d) :
    (self.deliver sha256 w d).submits.Nodup := by
  cases hd : d.entry.intent with
  | empty => rw [deliver_invalid self sha256 w d (by simp [hd])]; exact hw
  | malformed => rw [deliver_invalid self sha256 w d (by simp [hd])]; exact hw
  | valid intent =>
    rcases deliver_valid self sha256 intent hadapter w d hd with h | ⟨h, hfree, habs⟩
    · rw [h]; exact hw
    · rw [h, List.nodup_append]
      refine ⟨hw, List.nodup_singleton _, ?_⟩
      rintro i hi _ hj rfl
      rw [List.mem_singleton] at hj
      subst hj
      -- a second submission: neither the lock nor a control was in force
      simp only [ExecutionConsumer.Covered, hd] at hc
      rcases hc hi with hlive | ⟨k, hk, hheld⟩
      · have : w.redis.live (w.now + d.gap) _ = none := hfree
        rw [this] at hlive
        cases hlive
      · have hheld' : HeldUntil (w.tick d.gap) (self.deliver sha256 w d).now k := hheld
        exact not_wasAbsent_of_heldUntil hheld' (habs k hk)

end Delivery

/-! ## Every sequence of deliveries -/

/-- For every sequence of deliveries, with any timing and any failures: while
no submitted intent comes back after its lock and its controls have lapsed, no
client order id is submitted twice. -/
theorem each_intent_is_submitted_once (self : ExecutionConsumer) (sha256 : String → String)
    (hadapter : self.adapter = some_adapter) (w : World) (ds : List Delivery)
    (hw : w.submits.Nodup) (hc : self.AllCovered sha256 w ds) :
    (self.deliverAll sha256 w ds).submits.Nodup := by
  induction ds generalizing w with
  | nil => exact hw
  | cons d ds ih => exact ih _ (deliver_nodup self sha256 hadapter hw hc.1) hc.2

/-! ## A redelivery after the lock and the cooldown -/

/-- The account of the runs below. -/
def demo_account : String := "00000000000000000000000000000001"

def demo_world : World :=
  { World.empty with
    now := 1000
    db := { Db.empty with accounts := [{ id := "00000000-0000-0000-0000-000000000001", user_id := "u" }] } }

def demo_consumer : ExecutionConsumer := { settings := { default_account_id := demo_account } }

def demo_intent : TradeIntent :=
  { intent_id := "7", symbol := "BTCUSDT", market_type := .spot, side := .buy, size := 1 }

/-- Every call passes, and the adapter fills the order. -/
def demo_filled : Choice :=
  { reply := { success := true, client_order_id := "c", exchange_order_id := some "x",
               fill_price := some 100, fill_quantity := some 1 } }

def demo_delivery (gap : Nat) (job_id : Uuid) : Delivery :=
  { gap, entry := ⟨"1-0", .valid demo_intent⟩, job_id, choices := List.replicate 40 demo_filled }

/-- The intent is filled; 301 s later it is delivered again. The second
`create_job` is refused by the unique column, its exception is logged, and the
adapter is called a second time. -/
theorem a_late_redelivery_submits_twice :
    ¬ (demo_consumer.deliverAll id demo_world
      [demo_delivery 0 "j1", demo_delivery 301000 "j2"]).submits.Nodup := by
  decide +kernel

/-- A redelivery within the cooldown is stopped. -/
theorem each_intent_is_submitted_once_within_the_cooldown :
    (demo_consumer.deliverAll id demo_world
      [demo_delivery 0 "j1", demo_delivery 31000 "j2"]).submits.Nodup :=
  each_intent_is_submitted_once demo_consumer id rfl demo_world _ (by decide) (by decide +kernel)

end trading_platform.execution
