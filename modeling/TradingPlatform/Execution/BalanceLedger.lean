-- The balances as a ledger. The three events of a balance mean different
-- things: one sets the free and the locked amount, one adds to the free amount,
-- and one sets the wallet balance. The writer takes all three for the first.
import TradingPlatform.Execution.AccountTables
import Mathlib.Tactic.Linarith

open keyed
open trading_platform.shared

namespace trading_platform.execution.account_stream

/-! ## The reference -/

/-- What the account holds of an asset. -/
structure Holding where
  free : ℚ
  locked : ℚ
  deriving DecidableEq

/-- The holding of each asset that has one. -/
abbrev Holdings := String → Option Holding

/-- Assigns to each named entry of a list. -/
def assign {β : Type} (name : β → String) (h : β → Holding) (bs : List β) (m : Holdings) :
    Holdings :=
  (bs.filter fun b => name b ≠ "").foldl (fun m b => Function.update m (name b) (some (h b))) m

/-- The meaning of an event for the holdings. -/
def reference (m : Holdings) : AccountEvent → Holdings
  | .outbound_account_position _ B =>
    assign (·.asset) (fun b => ⟨b.free.value, b.locked.value⟩) B m
  | .balance_update _ asset delta =>
    if asset = "" then m
    else
      let h := (m asset).getD ⟨0, 0⟩
      Function.update m asset (some ⟨h.free + delta.value, h.locked⟩)
  | .account_update _ B _ => assign (·.asset) (fun b => ⟨b.wallet_balance.value, 0⟩) B m

/-- What the table says that an account holds. -/
def holdings (account_id : Uuid) (t : Table Balance Balance.key) : Holdings :=
  fun asset => (t.find (account_id, asset)).map fun r => ⟨r.free, r.locked⟩

/-- The total of each row is the sum of its amounts. -/
def TotalsAgree (t : Table Balance Balance.key) : Prop := ∀ r ∈ t.rows, r.total = r.free + r.locked

theorem assign_apply {β : Type} (name : β → String) (h : β → Holding) (bs : List β) (m : Holdings)
    (x : String) :
    assign name h bs m x =
      if x = "" then m x else ((lastOf name bs x).map fun b => some (h b)).getD (m x) := by
  unfold assign
  rw [foldl_update]
  by_cases hx : x = ""
  · have hnone : lastOf name (bs.filter fun b => name b ≠ "") x = none := by
      unfold lastOf
      rw [List.getLast?_eq_none_iff, List.filter_eq_nil_iff]
      intro b hb
      have hne := (List.mem_filter.mp hb).2
      simp_all
    rw [if_pos hx, hnone]
    rfl
  · have hsame : lastOf name (bs.filter fun b => name b ≠ "") x = lastOf name bs x := by
      unfold lastOf
      rw [List.filter_filter]
      congr 1
      refine List.filter_congr fun b _ => ?_
      by_cases hb : name b = x
      · simp [hb, hx]
      · simp [hb]
    rw [if_neg hx, hsame]

/-! ## What the writer does -/

/-- The writer reads an entry as a name and two amounts. -/
def Reads (e : Entry) (asset : String) (h : Holding) : Prop :=
  e.getOr "a" "asset" "" = asset ∧ Decimal.ofText (e.getOr "f" "free" "0") = .ok h.free ∧
    Decimal.ofText (e.getOr "l" "locked" "0") = .ok h.locked

/-- Each row of the account keeps its total. -/
theorem totalsAgree_upsert {t : Table Balance Balance.key} (ht : TotalsAgree t) {new : Balance}
    {write : Balance → Balance} {hw : ∀ r, Balance.key (write r) = Balance.key r}
    (hnew : new.total = new.free + new.locked)
    (hwrite : ∀ r, (write r).total = (write r).free + (write r).locked) :
    TotalsAgree (t.upsert new write hw) := by
  intro r hr
  have hf := Table.find_eq_some.mpr ⟨hr, rfl⟩
  rw [Table.find_upsert] at hf
  split at hf
  · obtain rfl := Option.some.inj hf
    cases t.find (Balance.key new) with
    | none => exact hnew
    | some r' => exact hwrite r'
  · exact ht r (Table.find_eq_some.mp hf).1

/-- A row that is written or added is what the account holds of its asset. -/
theorem holdings_upsert {account_id : Uuid} {t : Table Balance Balance.key} {new : Balance}
    {write : Balance → Balance} {hw : ∀ r, Balance.key (write r) = Balance.key r}
    {asset : String} {h : Holding} (hkey : Balance.key new = (account_id, asset))
    (hnew : Holding.mk new.free new.locked = h)
    (hwrite : ∀ r, Holding.mk (write r).free (write r).locked = h) :
    holdings account_id (t.upsert new write hw) =
      Function.update (holdings account_id t) asset (some h) := by
  funext x
  refine (congrFun (Table.map_find_upsert (fun r : Balance => Holding.mk r.free r.locked)
    hkey hnew hwrite) (account_id, x)).trans ?_
  by_cases hx : x = asset
  · subst hx
    rw [Function.update_self, Function.update_self]
  · have hne : (account_id, x) ≠ (account_id, asset) := fun hpair => hx (Prod.mk.inj hpair).2
    rw [Function.update_of_ne hx, Function.update_of_ne hne]
    rfl

/-- One entry: the table says that the account holds what the writer read. -/
theorem upsert_balance_reads (account_id : Uuid) (now_ms : Nat) (t : Table Balance Balance.key)
    {e : Entry} {asset : String} {h : Holding} (he : Reads e asset h) :
    ∃ t', upsert_balance account_id now_ms t e = .ok t' ∧ (TotalsAgree t → TotalsAgree t') ∧
      holdings account_id t' =
        if asset = "" then holdings account_id t
        else Function.update (holdings account_id t) asset (some h) := by
  obtain ⟨hasset, hfree, hlocked⟩ := he
  have htotal : total_of (e.getOr "f" "free" "0") (e.getOr "l" "locked" "0") =
      h.free + h.locked := by
    unfold total_of
    rw [hfree, hlocked]
  unfold upsert_balance amount
  simp only [hasset, hfree, hlocked, htotal]
  by_cases hempty : asset = ""
  · rw [if_pos hempty, if_pos hempty]
    exact ⟨t, rfl, id, rfl⟩
  · rw [if_neg hempty, if_neg hempty]
    exact ⟨_, rfl, fun ht => totalsAgree_upsert ht rfl fun r => rfl,
      holdings_upsert rfl rfl fun r => rfl⟩

/-- A list of entries: the table says that the account holds what the writer read. -/
theorem upsert_entries {β : Type} (account_id : Uuid) (now_ms : Nat) (entry : β → Entry)
    (name : β → String) (h : β → Holding) (bs : List β)
    (hreads : ∀ b ∈ bs, Reads (entry b) (name b) (h b)) (t : Table Balance Balance.key) :
    ∃ t', (bs.map entry).foldlM (upsert_balance account_id now_ms) t = .ok t' ∧
      (TotalsAgree t → TotalsAgree t') ∧
      holdings account_id t' = assign name h bs (holdings account_id t) := by
  induction bs generalizing t with
  | nil => exact ⟨t, rfl, id, rfl⟩
  | cons b bs ih =>
    obtain ⟨t1, hone, ht1, hh1⟩ :=
      upsert_balance_reads account_id now_ms t (hreads b List.mem_cons_self)
    obtain ⟨t', hrest, ht', hh'⟩ := ih (fun b hb => hreads b (List.mem_cons_of_mem _ hb)) t1
    refine ⟨t', ?_, fun ht => ht' (ht1 ht), ?_⟩
    · rw [List.map_cons, List.foldlM_cons, hone]
      exact hrest
    · rw [hh', hh1]
      unfold assign
      by_cases hname : name b = ""
      · simp [hname]
      · simp [hname]

/-- The writer stores what it reads. -/
theorem upsert_balances_reads {β : Type} (account_id : Uuid) (now ts : Nat) (entry : β → Entry)
    (name : β → String) (h : β → Holding) (bs : List β)
    (hreads : ∀ b ∈ bs, Reads (entry b) (name b) (h b)) (s : Store) :
    (upsert_balances account_id now ts (bs.map entry) s).1 = .ok () ∧
      (TotalsAgree s.balances →
        TotalsAgree (upsert_balances account_id now ts (bs.map entry) s).2.balances) ∧
      holdings account_id (upsert_balances account_id now ts (bs.map entry) s).2.balances =
        assign name h bs (holdings account_id s.balances) := by
  obtain ⟨t', hfold, ht', hh'⟩ :=
    upsert_entries account_id (stamp ts now) entry name h bs hreads s.balances
  unfold upsert_balances
  rw [hfold]
  exact ⟨rfl, ht', hh'⟩

theorem upsert_positions_balances (account_id : Uuid) (now ts : Nat) (ps : List Entry) (s : Store) :
    (upsert_positions account_id now ts ps s).2.balances = s.balances := by
  unfold upsert_positions
  split <;> rfl

theorem reads_spot (b : SpotBalance) : Reads b.entry b.asset ⟨b.free.value, b.locked.value⟩ := by
  refine ⟨?_, ?_, ?_⟩
  · by_cases hb : b.asset = "" <;> simp [Entry.getOr, Entry.getD, Entry.get, SpotBalance.entry, hb]
  · simp [Entry.getOr, Entry.get, SpotBalance.entry, b.free.text_ne_empty, b.free.parses]
  · simp [Entry.getOr, Entry.get, SpotBalance.entry, b.locked.text_ne_empty, b.locked.parses]

/-- The writer finds no amount of its own in a balance of an ACCOUNT_UPDATE. -/
theorem reads_futures (b : FuturesBalance) : Reads b.entry b.asset ⟨0, 0⟩ := by
  have hzero : Decimal.ofText "0" = .ok 0 := by decide +kernel
  refine ⟨?_, ?_, ?_⟩
  · by_cases hb : b.asset = "" <;>
      simp [Entry.getOr, Entry.getD, Entry.get, FuturesBalance.entry, hb]
  · simpa [Entry.getOr, Entry.getD, Entry.get, FuturesBalance.entry] using hzero
  · simpa [Entry.getOr, Entry.getD, Entry.get, FuturesBalance.entry] using hzero

/-- The writer takes the change of a balanceUpdate for a free amount. -/
theorem reads_delta (asset : String) (delta : Amount) :
    Reads [("a", asset), ("f", delta.text), ("l", "0")] asset ⟨delta.value, 0⟩ := by
  have hzero : Decimal.ofText "0" = .ok 0 := by decide +kernel
  refine ⟨?_, ?_, ?_⟩
  · by_cases hb : asset = "" <;> simp [Entry.getOr, Entry.getD, Entry.get, hb]
  · simp [Entry.getOr, Entry.get, delta.text_ne_empty, delta.parses]
  · simpa [Entry.getOr, Entry.get] using hzero

/-- The meaning of an event as the writer takes it. -/
def written (m : Holdings) : AccountEvent → Holdings
  | .outbound_account_position _ B =>
    assign (·.asset) (fun b => ⟨b.free.value, b.locked.value⟩) B m
  | .balance_update _ asset delta =>
    assign (fun _ => asset) (fun _ => ⟨delta.value, 0⟩) [()] m
  | .account_update _ B _ => assign (·.asset) (fun _ => ⟨0, 0⟩) B m

/-- The balances after an ACCOUNT_UPDATE are those after its list of balances. -/
theorem handle_account_update_balances (account_id : Uuid) (now : Nat) (E : Option Nat)
    (B P : List Entry) (s : Store) :
    (handle_event account_id now (.ACCOUNT_UPDATE E B P) s).2.balances =
      if B.isEmpty then s.balances
      else (upsert_balances account_id now (E.getD now) B s).2.balances := by
  unfold handle_event
  dsimp only
  by_cases hB : B.isEmpty = true
  · simp only [if_pos hB]
    split
    · rfl
    · exact upsert_positions_balances account_id now _ _ _
  · simp only [if_neg hB]
    split
    · rename_i e s' hs'
      rw [hs']
    · rename_i s' hs'
      rw [hs']
      split
      · rfl
      · exact upsert_positions_balances account_id now _ _ _

/-- One event: the totals stay sums, and the holdings are as the writer takes the
event. -/
theorem handle_event_written (account_id : Uuid) (now : Nat) (e : AccountEvent) (s : Store) :
    (TotalsAgree s.balances →
      TotalsAgree (handle_event account_id now e.payload s).2.balances) ∧
      holdings account_id (handle_event account_id now e.payload s).2.balances =
        written (holdings account_id s.balances) e := by
  cases e with
  | outbound_account_position E B =>
    exact (upsert_balances_reads account_id now (E.getD now) _ _ _ B (fun b _ => reads_spot b) s).2
  | balance_update E asset delta =>
    unfold AccountEvent.payload handle_event
    dsimp only
    by_cases hb : asset = ""
    · rw [if_pos hb]
      refine ⟨id, ?_⟩
      simp [hb, written, assign]
    · rw [if_neg hb]
      exact (upsert_balances_reads account_id now (E.getD now)
        (fun _ : Unit => [("a", asset), ("f", delta.text), ("l", "0")]) (fun _ => asset)
        (fun _ => ⟨delta.value, 0⟩) [()] (fun _ _ => reads_delta asset delta) s).2
  | account_update E B P =>
    have h := upsert_balances_reads account_id now (E.getD now) _ _ _ B
      (fun b _ => reads_futures b) s
    unfold AccountEvent.payload
    rw [handle_account_update_balances]
    by_cases hB : (B.map (·.entry)).isEmpty = true
    · rw [if_pos hB]
      rw [List.isEmpty_iff, List.map_eq_nil_iff] at hB
      subst hB
      exact ⟨id, rfl⟩
    · rw [if_neg hB]
      exact h.2

/-! ## Runs -/

/-- The writer's way to take an event agrees with its meaning: a balanceUpdate
finds nothing to add to, and an ACCOUNT_UPDATE has wallet balances of zero only,
where the last entry of an asset counts. -/
def TakenAsMeant (m : Holdings) : AccountEvent → Prop
  | .outbound_account_position _ _ => True
  | .balance_update _ asset _ => asset = "" ∨ (m asset).getD ⟨0, 0⟩ = ⟨0, 0⟩
  | .account_update _ B _ => ∀ b ∈ B, b.asset ≠ "" →
      ∀ last ∈ lastOf (fun b : FuturesBalance => b.asset) B b.asset, last.wallet_balance.value = 0

instance decidableTakenAsMeant (m : Holdings) : ∀ e : AccountEvent, Decidable (TakenAsMeant m e)
  | .outbound_account_position _ _ => isTrue trivial
  | .balance_update _ asset _ =>
    inferInstanceAs (Decidable (asset = "" ∨ (m asset).getD ⟨0, 0⟩ = ⟨0, 0⟩))
  | .account_update _ B _ => inferInstanceAs (Decidable (∀ b ∈ B, b.asset ≠ "" →
      ∀ last ∈ lastOf (fun b : FuturesBalance => b.asset) B b.asset, last.wallet_balance.value = 0))

theorem written_eq_reference_iff (m : Holdings) (e : AccountEvent) :
    written m e = reference m e ↔ TakenAsMeant m e := by
  cases e with
  | outbound_account_position E B => exact ⟨fun _ => trivial, fun _ => rfl⟩
  | balance_update E asset delta =>
    by_cases hb : asset = ""
    · exact ⟨fun _ => Or.inl hb, fun _ => by simp [written, reference, assign, hb]⟩
    · have hw : written m (.balance_update E asset delta) =
          Function.update m asset (some ⟨delta.value, 0⟩) := by
        simp [written, assign, hb]
      have hr : reference m (.balance_update E asset delta) = Function.update m asset
          (some ⟨((m asset).getD ⟨0, 0⟩).free + delta.value, ((m asset).getD ⟨0, 0⟩).locked⟩) :=
        if_neg hb
      rw [hw, hr]
      simp only [TakenAsMeant, hb, false_or]
      constructor
      · intro h
        have hat := congrFun h asset
        simp only [Function.update_self, Option.some.injEq, Holding.mk.injEq] at hat
        obtain ⟨hfree, hlocked⟩ := hat
        have hzero : ((m asset).getD ⟨0, 0⟩).free = 0 := by linarith
        cases hm : (m asset).getD ⟨0, 0⟩ with
        | mk f l =>
          rw [hm] at hzero hlocked
          simp only at hzero hlocked
          rw [hzero, ← hlocked]
      · intro h
        rw [h, zero_add]
  | account_update E B P =>
    constructor
    · intro h b hb hne last hlast
      have hat := congrFun h b.asset
      simp only [written, reference, assign_apply, if_neg hne, Option.mem_def.mp hlast,
        Option.map_some, Option.getD_some, Option.some.injEq, Holding.mk.injEq, and_true] at hat
      exact hat.symm
    · intro h
      funext x
      simp only [written, reference, assign_apply]
      by_cases hx : x = ""
      · rw [if_pos hx, if_pos hx]
      · rw [if_neg hx, if_neg hx]
        cases hlast : lastOf (fun b : FuturesBalance => b.asset) B x with
        | none => rfl
        | some last =>
          obtain ⟨hmem, hname⟩ := lastOf_eq_some hlast
          have hzero := h last hmem (hname ▸ hx) last (by rw [hname]; exact hlast)
          simp [hzero]

/-- After each of the events the table holds what the reference says, and every total
is the sum of its amounts. -/
structure FollowsReference (account_id : Uuid) (s : Store) (events : List (Nat × AccountEvent)) :
    Prop where
  stored : ∀ pre, pre <+: events →
    holdings account_id (run account_id s pre).balances =
      (pre.map (·.2)).foldl reference (holdings account_id s.balances)
  totals : ∀ pre, pre <+: events → TotalsAgree (run account_id s pre).balances

/-- Each event of the run is taken as it is meant, at the balances that it finds. -/
def EachTakenAsMeant (account_id : Uuid) : Store → List (Nat × AccountEvent) → Prop
  | _, [] => True
  | s, e :: events =>
    TakenAsMeant (holdings account_id s.balances) e.2 ∧
      EachTakenAsMeant account_id (handle_event account_id e.1 e.2.payload s).2 events

instance decidableEachTakenAsMeant (account_id : Uuid) :
    ∀ (s : Store) (events : List (Nat × AccountEvent)), Decidable (EachTakenAsMeant account_id s events)
  | _, [] => isTrue trivial
  | s, e :: events =>
    haveI := decidableEachTakenAsMeant account_id
      (handle_event account_id e.1 e.2.payload s).2 events
    inferInstanceAs (Decidable (TakenAsMeant (holdings account_id s.balances) e.2 ∧ _))

/-- The stored balances follow the reference if, and only if, each event finds
balances where the writer's way to take it agrees with its meaning. -/
theorem balances_follow_the_reference_iff (account_id : Uuid) (s : Store)
    (hs : TotalsAgree s.balances) (events : List (Nat × AccountEvent)) :
    FollowsReference account_id s events ↔ EachTakenAsMeant account_id s events := by
  induction events generalizing s with
  | nil =>
    refine ⟨fun _ => trivial, fun _ => ⟨?_, ?_⟩⟩
    · intro pre hpre
      rw [List.prefix_nil.mp hpre]
      rfl
    · intro pre hpre
      rw [List.prefix_nil.mp hpre]
      exact hs
  | cons e events ih =>
    obtain ⟨ht, hw⟩ := handle_event_written account_id e.1 e.2 s
    have ih := ih (handle_event account_id e.1 e.2.payload s).2 (ht hs)
    constructor
    · intro hf
      have hone := hf.stored [e] (List.prefix_append [e] events)
      have htaken := (written_eq_reference_iff _ _).mp (hw.symm.trans hone)
      have href := (written_eq_reference_iff _ _).mpr htaken
      refine ⟨htaken, ih.mp ⟨?_, ?_⟩⟩
      · intro pre hpre
        have hcons := hf.stored (e :: pre) (List.cons_prefix_cons.mpr ⟨rfl, hpre⟩)
        rw [hw, href]
        exact hcons
      · intro pre hpre
        exact hf.totals (e :: pre) (List.cons_prefix_cons.mpr ⟨rfl, hpre⟩)
    · rintro ⟨htaken, hrest⟩
      have href := (written_eq_reference_iff _ _).mpr htaken
      obtain ⟨hstored, htotals⟩ := ih.mpr hrest
      refine ⟨?_, ?_⟩
      · intro pre hpre
        rcases List.prefix_cons_iff.mp hpre with rfl | ⟨pre', rfl, hpre'⟩
        · rfl
        · have h := hstored pre' hpre'
          rw [hw, href] at h
          exact h
      · intro pre hpre
        rcases List.prefix_cons_iff.mp hpre with rfl | ⟨pre', rfl, hpre'⟩
        · exact hs
        · exact htotals pre' hpre'

/-! ## Runs on fixed events -/

/-- A position update, a deposit of an asset that is not there yet, and a second
position update. -/
theorem a_first_deposit_is_stored :
    FollowsReference "acc" .empty
      [(0, .outbound_account_position (some 1)
          [⟨"USDT", ⟨"5", 5, by decide +kernel⟩, ⟨"1", 1, by decide +kernel⟩⟩]),
        (0, .balance_update (some 2) "BTC" ⟨"2", 2, by decide +kernel⟩),
        (0, .outbound_account_position (some 3)
          [⟨"BTC", ⟨"1.5", 3 / 2, by decide +kernel⟩, ⟨"0.5", 1 / 2, by decide +kernel⟩⟩])] :=
  (balances_follow_the_reference_iff "acc" .empty (fun _ hr => absurd hr List.not_mem_nil) _).mpr
    (by decide +kernel)

/-- A deposit replaces the balance that it should be added to. -/
theorem a_deposit_replaces_the_balance :
    ¬ FollowsReference "acc" .empty
      [(0, .outbound_account_position (some 1)
          [⟨"USDT", ⟨"5", 5, by decide +kernel⟩, ⟨"1", 1, by decide +kernel⟩⟩]),
        (0, .balance_update (some 2) "USDT" ⟨"2", 2, by decide +kernel⟩)] := by
  intro hf
  have hstored := congrFun (hf.stored _ (List.prefix_refl _)) "USDT"
  revert hstored
  decide +kernel

end trading_platform.execution.account_stream
