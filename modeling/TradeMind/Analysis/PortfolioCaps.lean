import Mathlib.Tactic.Linarith
import TradeMind.Analysis.WebhookEffects

/-!
# Entries in flight and the portfolio caps

Rule 7 counts OPEN positions, and a position appears only when the webhook of its fill
arrives.  `Trading` adds to the services the entries Freqtrade has accepted and not yet
reported filled, and `trade` lets signals and fills interleave freely.  Where every
approval also leaves room for the entries in flight (`LeavesRoom`), the open positions
and the entries in flight together stay within the cap and on different pairs.
-/

set_option autoImplicit false

namespace TradeMind.Analysis

open TradeMind.Library TradeMind.Model

/-- The services, and the pair and trade id of every accepted entry whose fill has not
been reported. -/
structure Trading where
  world : World
  inFlight : List (Symbol × ℤ) := []

/-- A signal is processed, or the fill of an accepted entry is reported. -/
inductive TradingEvent
  | signal (d : Delivery)
  | fill (ctx : WebhookContext) (payload : FreqtradeWebhookPayload)

/-- The trade id in Freqtrade's answer to a force-entry. -/
def acceptedTrade : ForceenterReply → Option ℤ
  | .body response => response.tradeRef
  | _ => none

/-- The entries Freqtrade accepts among the requests of an attempt. -/
def acceptedEntries (reply : ForceenterReply) (calls : List FreqtradeCall) :
    List (Symbol × ℤ) :=
  calls.filterMap fun call =>
    match call with
    | .forceenter pair _ _ => (acceptedTrade reply).map fun tradeId => (pair, tradeId)
    | .forceexit _ => none

/-- One event. -/
def trade (s : Trading) : TradingEvent → Trading
  | .signal d =>
    let attempt := processSignal s.world d
    ⟨attempt.world, s.inFlight ++ acceptedEntries d.forceenterReply attempt.calls⟩
  | .fill ctx payload =>
    ⟨step s.world (.webhook ctx payload), s.inFlight.erase (payload.pair, payload.tradeId)⟩

/-- Freqtrade accepts every force-entry and reports each fill once; all signals meet one
configuration. -/
def Admissible (config : RiskConfig) (s : Trading) : TradingEvent → Prop
  | .signal d => d.config = config ∧ acceptedTrade d.forceenterReply ≠ none
  | .fill _ payload =>
    payload.event = .entry_fill ∧ (payload.pair, payload.tradeId) ∈ s.inFlight

/-- The pairs of the OPEN positions. -/
def openPairs (db : Database) : List Symbol := db.openPositions.map Position.symbol

/-- An approved entry is on no pair in flight, and with it the open positions and the
entries in flight are within the cap. -/
def LeavesRoom (config : RiskConfig) (s : Trading) : TradingEvent → Prop
  | .signal d => ∀ signal balance, ApprovesEntry s.world d signal balance →
      signal.symbol ∉ s.inFlight.map Prod.fst ∧
        ((openPairs s.world.db).length + s.inFlight.length : ℤ) <
          config.maxOpenPositions
  | .fill _ _ => True

/-- The caps hold of the OPEN positions. -/
def WithinCaps (config : RiskConfig) (s : Trading) : Prop :=
  (s.world.db.openPositions.length : ℤ) ≤ config.maxOpenPositions ∧
    (openPairs s.world.db).Nodup

instance (config : RiskConfig) (s : Trading) : Decidable (WithinCaps config s) :=
  inferInstanceAs (Decidable (_ ∧ _))

/-- The caps hold of the OPEN positions and the entries in flight together. -/
structure RoomForAll (config : RiskConfig) (s : Trading) : Prop where
  distinct : (openPairs s.world.db ++ s.inFlight.map Prod.fst).Nodup
  count : ((openPairs s.world.db).length + s.inFlight.length : ℤ) ≤ config.maxOpenPositions

variable {config : RiskConfig} {s : Trading}

/-- What holds of all holds of the open ones. -/
theorem RoomForAll.withinCaps (h : RoomForAll config s) : WithinCaps config s := by
  refine ⟨?_, (List.nodup_append.mp h.distinct).1⟩
  have hcount := h.count
  have hlength : (openPairs s.world.db).length = s.world.db.openPositions.length :=
    List.length_map _
  rw [hlength] at hcount
  omega

/-- What leaves the open pairs and the entries in flight alone keeps room for all. -/
theorem RoomForAll.of_same {s' : Trading} (h : RoomForAll config s)
    (hpairs : openPairs s'.world.db = openPairs s.world.db) (hflight : s'.inFlight = s.inFlight) :
    RoomForAll config s' := by
  refine ⟨?_, ?_⟩
  · rw [hpairs, hflight]
    exact h.distinct
  · rw [hpairs, hflight]
    exact h.count

/-- An entry on a new pair below the cap is accepted. -/
theorem RoomForAll.accept {s' : Trading} (h : RoomForAll config s)
    (hpairs : openPairs s'.world.db = openPairs s.world.db) {pair : Symbol} {tradeId : ℤ}
    (hflight : s'.inFlight = s.inFlight ++ [(pair, tradeId)])
    (hclosed : pair ∉ openPairs s.world.db) (hfresh : pair ∉ s.inFlight.map Prod.fst)
    (hcount : ((openPairs s.world.db).length + s.inFlight.length : ℤ) <
      config.maxOpenPositions) : RoomForAll config s' := by
  refine ⟨?_, ?_⟩
  · rw [hpairs, hflight, List.map_append, List.map_singleton, ← List.append_assoc,
      List.nodup_append]
    refine ⟨h.distinct, List.nodup_singleton _, ?_⟩
    intro other hother pair' hpair' heq
    rw [List.mem_singleton] at hpair'
    rw [heq, hpair', List.mem_append] at hother
    exact hother.elim hclosed hfresh
  · rw [hpairs, hflight, List.length_append, List.length_singleton]
    push_cast
    omega

/-- An entry in flight is reported filled: it opens a position on its pair, or nothing. -/
theorem RoomForAll.fill {s' : Trading} (h : RoomForAll config s) {pair : Symbol} {tradeId : ℤ}
    (hmem : (pair, tradeId) ∈ s.inFlight) (hflight : s'.inFlight = s.inFlight.erase (pair, tradeId))
    (hpairs : openPairs s'.world.db = openPairs s.world.db ∨
      openPairs s'.world.db = openPairs s.world.db ++ [pair]) : RoomForAll config s' := by
  have hperm := List.perm_cons_erase hmem
  have hlength : s.inFlight.length = (s.inFlight.erase (pair, tradeId)).length + 1 :=
    hperm.length_eq
  have hcount := h.count
  rcases hpairs with hpairs | hpairs
  · refine ⟨?_, ?_⟩
    · rw [hpairs, hflight]
      have hsub : (openPairs s.world.db ++
          (s.inFlight.erase (pair, tradeId)).map Prod.fst).Sublist
            (openPairs s.world.db ++ s.inFlight.map Prod.fst) :=
        List.Sublist.append_left (List.erase_sublist.map _) _
      exact h.distinct.sublist hsub
    · rw [hpairs, hflight]
      omega
  · refine ⟨?_, ?_⟩
    · -- the pair moves from the entries in flight to the open ones
      have hmoved : (openPairs s.world.db ++ [pair] ++
          (s.inFlight.erase (pair, tradeId)).map Prod.fst).Perm
            (openPairs s.world.db ++ s.inFlight.map Prod.fst) := by
        rw [List.append_assoc]
        exact ((hperm.map Prod.fst).symm).append_left _
      rw [hpairs, hflight]
      exact hmoved.nodup_iff.mpr h.distinct
    · rw [hpairs, hflight, List.length_append, List.length_singleton]
      push_cast
      omega

/-- The open pairs depend on the positions alone. -/
theorem openPairs_congr {db db' : Database} (h : db'.positions = db.positions) :
    openPairs db' = openPairs db := by
  unfold openPairs Database.openPositions
  rw [h]

/-- Linking an exit order leaves the open pairs alone. -/
theorem openPairs_link {db db' : Database} {id orderId : Uuid}
    (h : db'.positions = modifyRow Position.id id
      (fun p => { p with exitOrderId := some orderId }) db.positions) :
    openPairs db' = openPairs db := by
  unfold openPairs Database.openPositions
  rw [h]
  exact map_filter_modifyRow _ _ (fun _ => rfl) (fun _ => rfl)

/-- An entry fill opens at most one position, on the pair it names. -/
theorem entryFill_openPairs (ctx : WebhookContext) (db : Database)
    (payload : FreqtradeWebhookPayload) :
    openPairs (handleEntryFill ctx db payload) = openPairs db ∨
      openPairs (handleEntryFill ctx db payload) = openPairs db ++ [payload.pair] := by
  cases handleEntryFill_entryFill ctx db payload with
  | ignored _ h => exact Or.inl (openPairs_congr (by rw [h, findOrder_positions]))
  | filled order db₁ openRate amount _ _ _ _ hpositions _ =>
    refine Or.inr ?_
    unfold openPairs Database.openPositions
    rw [hpositions, List.filter_append, List.map_append]
    rfl

/-- **A signal** keeps room for all: an approval adds its pair to the ones in flight, and
anything else leaves both lists alone. -/
theorem signal_roomForAll {d : Delivery} (h : RoomForAll config s)
    (hadmissible : Admissible config s (.signal d))
    (hroom : LeavesRoom config s (.signal d)) : RoomForAll config (trade s (.signal d)) := by
  have hkept : openPairs (processSignal s.world d).world.db = openPairs s.world.db →
      acceptedEntries d.forceenterReply (processSignal s.world d).calls = [] →
        RoomForAll config (trade s (.signal d)) :=
    fun hpairs hcalls => h.of_same hpairs (by rw [trade, hcalls, List.append_nil])
  cases processSignal_effect s.world d with
  | quiet hcalls hbook _ _ =>
    exact hkept (openPairs_congr hbook.positions) (by rw [hcalls]; rfl)
  | entry signal balance happroves _ hcalls hbook =>
    obtain ⟨tradeId, htrade⟩ := Option.ne_none_iff_exists'.mp hadmissible.2
    obtain ⟨hfresh, hcount⟩ := hroom signal balance happroves
    have hclosed : signal.symbol ∉ openPairs s.world.db := by
      have hrule := happroves.rules.2.2.1
      simpa [Delivery.account, loadAccountState, openPairs] using hrule
    have hpairs : openPairs (processSignal s.world d).world.db = openPairs s.world.db := by
      rcases hbook with hdb | ⟨_, _, _, _, hentered⟩
      · rw [hdb]
      · exact openPairs_congr hentered.positions
    have haccepted : acceptedEntries d.forceenterReply (processSignal s.world d).calls =
        [(signal.symbol, tradeId)] := by
      obtain ⟨sizeUsdt, tag, hcalls⟩ := hcalls
      rcases forceenter_calls d.forceenterReply signal.symbol sizeUsdt tag
        with hone | ⟨emergency, htwo⟩
      · rw [hcalls, hone]
        simp [acceptedEntries, htrade]
      · rw [hcalls, htwo]
        simp [acceptedEntries, htrade]
    exact h.accept hpairs (by rw [trade, haccepted]) hclosed hfresh hcount
  | exit signal balance _ _ hcalls hbook =>
    refine hkept ?_ ?_
    · rcases hbook with hdb | ⟨_, _, _, hsame | ⟨_, _, hexited⟩⟩
      · rw [hdb]
      · exact openPairs_congr hsame.positions
      · rcases hexited.positions with ⟨_, hpositions⟩ | ⟨_, hpositions⟩
        · exact openPairs_link hpositions
        · exact openPairs_congr hpositions
    · rcases hcalls with hcalls | ⟨tradeId, hcalls⟩
      · rw [hcalls]
        rfl
      · rw [hcalls]
        rfl

/-- **A fill** keeps room for all: the pair it opens is the one it takes out of flight. -/
theorem fill_roomForAll {ctx : WebhookContext} {payload : FreqtradeWebhookPayload}
    (h : RoomForAll config s) (hadmissible : Admissible config s (.fill ctx payload)) :
    RoomForAll config (trade s (.fill ctx payload)) := by
  obtain ⟨hevent, hmem⟩ := hadmissible
  refine h.fill hmem rfl ?_
  by_cases hauth : Authenticated ctx payload
  · simp only [trade, step, freqtradeWebhook_of_authenticated hauth, Option.getD_some, hevent]
    exact entryFill_openPairs ctx s.world.db payload
  · refine Or.inl ?_
    simp only [trade, step, freqtradeWebhook_of_not_authenticated hauth, Option.getD_none]

/-- **The caps hold where approvals leave room.**  In every state that signals and fills
reach from one with room for all, the OPEN positions are at most `max_open_positions` and on
different pairs, provided every approval left room for the entries in flight. -/
theorem caps_hold (config : RiskConfig) (s : Trading)
    (h : Reachable trade
      (fun s event => Admissible config s event ∧ LeavesRoom config s event)
      (RoomForAll config) s) :
    WithinCaps config s := by
  refine RoomForAll.withinCaps (h.inv (fun _ hs => hs) ?_)
  rintro s event hs ⟨hadmissible, hroom⟩
  cases event with
  | signal d => exact signal_roomForAll hs hadmissible hroom
  | fill ctx payload => exact fill_roomForAll hs hadmissible

/-- Nothing is open and nothing is in flight. -/
def Flat (s : Trading) : Prop := s.world.db.openPositions = [] ∧ s.inFlight = []

/-- A flat start has room for all under a cap that is not negative. -/
theorem Flat.roomForAll (h : Flat s) (hcap : 0 ≤ config.maxOpenPositions) :
    RoomForAll config s := by
  obtain ⟨hopen, hflight⟩ := h
  refine ⟨?_, ?_⟩
  · simp [openPairs, hopen, hflight]
  · simpa [openPairs, hopen, hflight] using hcap

/-- Nothing open, nothing in flight, and the BUY signal on record twice. -/
def twoBuys : Trading :=
  { world := { db := { signals := [btcBuy, { btcBuy with id := 2 }] } } }

/-- A BUY signal of each of two coins. -/
def twoCoins : Trading :=
  { world := { db := { signals := [btcBuy, { btcBuy with id := 2, symbol := "ETH/USDT" }] } } }

/-- Two entries, the second approved while the first is in flight, and their fills. -/
def twoEntries : List TradingEvent :=
  [.signal (deliveryOpening 1 7), .signal (deliveryOpening 2 8),
    .fill (receivedAt 1) (btcEntryFill 7),
    .fill (receivedAt 1) { btcEntryFill 8 with pair := "ETH/USDT" }]

/-- Entries in flight on two coins stay within a cap of two, and both are opened. -/
theorem two_entries_within_caps :
    WithinCaps {} (runFrom trade twoCoins twoEntries) ∧
      openPairs (runFrom trade twoCoins twoEntries).world.db = ["BTC/USDT", "ETH/USDT"] := by
  have hstart : RoomForAll {} twoCoins := Flat.roomForAll ⟨rfl, rfl⟩ (by decide)
  have hreached : Reachable trade
      (fun s event => Admissible {} s event ∧ LeavesRoom {} s event) (RoomForAll {})
      (runFrom trade twoCoins twoEntries) := by
    refine reachable_runFrom (.start twoCoins hstart) _ ⟨⟨⟨rfl, by decide⟩, ?_⟩,
      ⟨⟨rfl, by decide⟩, ?_⟩, ⟨⟨rfl, by decide +kernel⟩, trivial⟩,
      ⟨⟨rfl, by decide +kernel⟩, trivial⟩, trivial⟩
    · intro signal balance _
      exact ⟨by simp [twoCoins], by decide⟩
    · intro signal balance happroves
      -- the signal is the ETH one, the entry in flight the BTC one
      have hfound : (trade twoCoins (.signal (deliveryOpening 1 7))).world.db.getSignal 2 =
          some { btcBuy with id := 2, symbol := "ETH/USDT" } := by decide +kernel
      cases Option.some.inj (hfound.symm.trans happroves.asks.found)
      exact ⟨by decide +kernel, by decide +kernel⟩
  exact ⟨caps_hold {} _ hreached, by decide +kernel⟩

/-- A delivery under a cap of one position; Freqtrade opens the given trade. -/
def cappedDelivery (signalId : Uuid) (tradeId : ℤ) : Delivery :=
  { deliveryOpening signalId tradeId with config := { maxOpenPositions := 1 } }

/-- Two entries approved before either is filled break the caps: two positions are open on
one pair under a cap of one. -/
theorem entries_in_flight_break_caps :
    ¬ ∀ config : RiskConfig, 0 ≤ config.maxOpenPositions → ∀ s : Trading,
      Reachable trade (Admissible config) Flat s → WithinCaps config s := by
  intro h
  have hreached : Reachable trade (Admissible { maxOpenPositions := 1 }) Flat
      (runFrom trade twoBuys
        [.signal (cappedDelivery 1 7), .signal (cappedDelivery 2 8),
          .fill (receivedAt 1) (btcEntryFill 7), .fill (receivedAt 1) (btcEntryFill 8)]) := by
    refine reachable_runFrom (.start twoBuys ⟨rfl, rfl⟩) _ ⟨⟨rfl, by decide⟩, ⟨rfl, by decide⟩,
      ⟨rfl, by decide +kernel⟩, ⟨rfl, by decide +kernel⟩, trivial⟩
  exact absurd (h { maxOpenPositions := 1 } (by decide) _ hreached) (by decide +kernel)

end TradeMind.Analysis
