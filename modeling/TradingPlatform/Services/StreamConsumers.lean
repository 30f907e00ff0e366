-- The services that read a stream for a group: each reads with the id `>`, handles the
-- entries of a batch in turn, and acknowledges an entry when its handling is over. Nothing
-- reads the entries that were given out and never acknowledged.
import TradingPlatform.Lib.ConsumerGroup
import TradingPlatform.Execution.Consumer
import TradingPlatform.Execution.EventConsumer
import TradingPlatform.Analytics.Dispatcher
import TradingPlatform.Strategy.Consumer

open resumption
open trading_platform.shared

namespace trading_platform.services

/-! ## The four consumers -/

/-- `job_ids` are the UUIDs that the consumer draws, one for each entry. -/
def intent_stream (self : execution.ExecutionConsumer) (sha256 : String → String)
    (job_ids : Nat → Uuid) (batch_size : Nat) :
    Consumer PyErr execution.Cmd execution.Ans execution.IntentField where
  count := batch_size
  process id field := self.process sha256 (job_ids id) ⟨toString id, field⟩

def order_event_stream (self : execution.NormalizedEventConsumer) (batch_size : Nat) :
    Consumer PyErr execution.Cmd execution.Ans execution.EventField where
  count := batch_size
  process id field := self.process ⟨toString id, field⟩

/-- The field `event` of a stream entry, as pydantic reads it. -/
inductive EventField where
  | empty
  | malformed
  | valid (event : NormalizedEvent)

/-- The snapshots that a round publishes at its end are left open. -/
def market_event_stream (publish_all : analytics.MarketPy Unit) (batch_size : Nat) :
    Consumer PyErr analytics.MarketCmd analytics.MarketCmd.Ans EventField where
  count := batch_size
  process id field :=
    match field with
    | .empty => analytics.AnalyticsConsumer.ack id
    | .malformed => analytics.AnalyticsConsumer.ack id
    | .valid event => analytics.AnalyticsConsumer.process id event
  after := publish_all

def snapshot_stream {Strategy Snapshot : Type} (self : strategy_service.StrategyConsumer)
    (classes : strategy_service.StrategyClasses Strategy Snapshot) :
    Consumer PyErr (strategy_service.StrategyCmd Strategy) strategy_service.StrategyCmd.Ans
      (strategy_service.SnapshotField Snapshot) where
  count := self.settings.batch_size
  before := self.reload_when_due classes
  process id field := self.process classes id field

/-! ## Lost entries -/

section Lost

variable {S O : Type}

/-- From every state of the stream, and whatever the environment does: no entry of a batch is
lost exactly when no handling of one raises. -/
def LosesWhenRaising {E C α : Type} {V : C → Type}
    (exec : S → (c : C) → O → Except E (V c) × S) (idle : O) (c : Consumer E C V α) : Prop :=
  ∀ (g : Group S α) (os : List O), c.NothingLost exec idle g os ↔ c.handling exec idle g os = .ok ()

/-- In every environment, the consumers of intents, of order events and of market events lose
the rest of a batch with the entry that raises. The consumer of snapshots lets no exception
out of the handling of an entry, and loses none. -/
theorem entries_are_lost_when_one_raises
    (service : S → (c : execution.Cmd) → O → Except PyErr (execution.Ans c) × S)
    (market : S → (c : analytics.MarketCmd) → O → Except PyErr c.Ans × S) (idle : O)
    (batch_size : Nat) :
    (∀ self sha256 job_ids,
      LosesWhenRaising service idle (intent_stream self sha256 job_ids batch_size)) ∧
    (∀ self, LosesWhenRaising service idle (order_event_stream self batch_size)) ∧
    (∀ publish_all, LosesWhenRaising market idle (market_event_stream publish_all batch_size)) ∧
    ∀ (Strategy Snapshot : Type) self
      (classes : strategy_service.StrategyClasses Strategy Snapshot) idle g os,
      (snapshot_stream self classes).NothingLost strategy_service.Attributes.exec idle g os := by
  refine ⟨?_, ?_, ?_, ?_⟩
  · intro self sha256 job_ids g os
    exact nothing_lost_iff service idle _ g os
  · intro self g os
    exact nothing_lost_iff service idle _ g os
  · intro publish_all g os
    exact nothing_lost_iff market idle _ g os
  · intro Strategy Snapshot self classes idle g os
    apply nothing_lost_of_returns
    intro id field
    exact self.returns_process classes id field

end Lost

/-- Two intents in the stream. -/
def two_intents : Group execution.World execution.IntentField where
  shared := .empty
  entries := [
    .valid { intent_id := "i1", symbol := "BTCUSDT", market_type := .spot, side := .buy, size := 1 },
    .valid { intent_id := "i2", symbol := "BTCUSDT", market_type := .spot, side := .buy, size := 1 }]
  cursor := 0
  handled := []
  handled_lt := by simp

/-- Redis fails the lock of the first intent, and the second one is never handled either. -/
theorem an_intent_behind_a_failure_is_lost :
    ¬ (intent_stream {} id toString 50).NothingLost execution.World.exec .idle two_intents
      [{ fault := .before ⟨"ConnectionError", "connection lost"⟩ }] := by
  rw [nothing_lost_iff]
  decide +kernel

end trading_platform.services
