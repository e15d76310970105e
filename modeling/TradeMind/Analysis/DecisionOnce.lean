import Mathlib.Tactic.Linarith
import TradeMind.Analysis.SignalEffects

/-!
# At most one order per signal

A signal id may be delivered any number of times.  For the first 24 hours the idempotency
key makes every further delivery a duplicate; by the time it expires the signal is older
than any admissible `signal_max_age_minutes`, and both pipelines call it stale.  Between
two deliveries the tables, the configuration and the rest of Redis may change at will.
-/

set_option autoImplicit false

namespace TradeMind.Analysis

open TradeMind.Library TradeMind.Model

/-- One delivery, with the world it finds. -/
structure Visit where
  world : World
  delivery : Delivery

namespace Visit

/-- The attempt the visit makes. -/
def attempt (v : Visit) : Attempt := processSignal v.world v.delivery

/-- The approved decisions the visit commits. -/
def newApprovals (v : Visit) : List RiskDecision :=
  (v.attempt.world.db.riskDecisions.drop v.world.db.riskDecisions.length).filter
    RiskDecision.approved

/-- The orders the visit commits. -/
def newOrders (v : Visit) : List Order :=
  v.attempt.world.db.orders.drop v.world.db.orders.length

/-- The `forceenter` requests the visit makes. -/
def forceenters (v : Visit) : List FreqtradeCall :=
  v.attempt.calls.filter fun call =>
    match call with
    | .forceenter _ _ _ => true
    | .forceexit _ => false

/-- The `forceexit` submissions the visit makes. -/
def forceexits (v : Visit) : List FreqtradeCall :=
  v.attempt.calls.filter fun call =>
    match call with
    | .forceenter _ _ _ => false
    | .forceexit _ => true

/-- The visit finds the signal fresh, claims its key and approves it. -/
def Acts (v : Visit) : Prop :=
  ∃ signal balance, (ApprovesEntry v.world v.delivery signal balance ∨
      ApprovesExit v.world v.delivery signal balance) ∧
    v.attempt.world.redis.decisionKeys =
      (v.world.redis.claim signal.id v.delivery.now).decisionKeys

end Visit

/-- The idempotency keys of one signal. -/
def keysOf (signalId : Uuid) (redis : Redis) : List (Uuid × Time) :=
  redis.decisionKeys.filter fun entry => entry.1 = signalId

/-- A history of deliveries of `signal`: the clock does not run backwards and starts after
the candle, the signal's row is immutable, every configuration bounds the age by less than
a day, and Redis keeps the signal's keys from one delivery to the next. -/
structure DeliveryHistory (signal : Signal) (visits : List Visit) : Prop where
  delivered : ∀ v ∈ visits, v.delivery.signalId = signal.id
  row : ∀ v ∈ visits, ∀ row, v.world.db.getSignal signal.id = some row → row = signal
  maxAge : ∀ v ∈ visits, v.delivery.config.signalMaxAgeMinutes < 1440
  start : ∀ v ∈ visits.head?, signal.candleTs ≤ v.delivery.now
  clock : visits.IsChain fun v v' => v.delivery.now ≤ v'.delivery.now
  keys : visits.IsChain fun v v' =>
    keysOf signal.id v'.world.redis = keysOf signal.id v.attempt.world.redis

/-- An attempt adds at most the key of its own signal. -/
theorem decisionKeys_mono (w : World) (d : Delivery) {entry : Uuid × Time}
    (h : entry ∈ w.redis.decisionKeys) :
    entry ∈ (processSignal w d).world.redis.decisionKeys := by
  cases processSignal_effect w d with
  | quiet _ _ hkeys _ =>
    rcases hkeys with hkeys | ⟨signal, _, _, hkeys⟩
    · rw [hkeys]
      exact h
    · rw [hkeys]
      exact List.mem_cons_of_mem _ h
  | entry signal _ _ hkeys _ _ =>
    rw [hkeys]
    exact List.mem_cons_of_mem _ h
  | exit signal _ _ hkeys _ _ =>
    rw [hkeys]
    exact List.mem_cons_of_mem _ h

/-- A visit that does not act commits no approval and no order and asks nothing of
Freqtrade. -/
theorem quiet_of_not_acts {v : Visit} (h : ¬ v.Acts) :
    v.newApprovals = [] ∧ v.newOrders = [] ∧ v.attempt.calls = [] := by
  have heffect : Effect v.world v.delivery v.attempt := processSignal_effect _ _
  cases heffect with
  | quiet hcalls hbook _ hdecision =>
    refine ⟨?_, ?_, hcalls⟩
    · unfold Visit.newApprovals
      rcases hdecision with hsame | ⟨_, decision, _, hdecided, hrejected, _⟩
      · simp [hsame]
      · simp [hdecided.riskDecisions, hrejected]
    · simp [Visit.newOrders, hbook.orders]
  | entry signal balance happroves hkeys _ _ =>
    exact absurd ⟨signal, balance, Or.inl happroves, hkeys⟩ h
  | exit signal balance happroves hkeys _ _ =>
    exact absurd ⟨signal, balance, Or.inr happroves, hkeys⟩ h

theorem newApprovals_le_one (v : Visit) : v.newApprovals.length ≤ 1 := by
  have hdecided : ∀ {signal decision},
      Decided v.world signal decision v.attempt.world.db → v.newApprovals.length ≤ 1 := by
    intro signal decision h
    unfold Visit.newApprovals
    rw [h.riskDecisions, List.drop_left]
    exact List.length_filter_le _ _
  have hsame : v.attempt.world.db.riskDecisions = v.world.db.riskDecisions →
      v.newApprovals.length ≤ 1 := by
    intro h
    simp [Visit.newApprovals, h]
  have heffect : Effect v.world v.delivery v.attempt := processSignal_effect _ _
  cases heffect with
  | quiet _ _ _ hdecision =>
    rcases hdecision with h | ⟨_, _, _, h, _⟩
    · exact hsame h
    · exact hdecided h
  | entry _ _ _ _ _ hbook =>
    rcases hbook with h | ⟨_, _, h, _⟩
    · exact hsame (by rw [h])
    · exact hdecided h
  | exit _ _ _ _ _ hbook =>
    rcases hbook with h | ⟨_, h, _⟩
    · exact hsame (by rw [h])
    · exact hdecided h

theorem newOrders_le_one (v : Visit) : v.newOrders.length ≤ 1 := by
  have hsame : v.attempt.world.db.orders = v.world.db.orders → v.newOrders.length ≤ 1 := by
    intro h
    simp [Visit.newOrders, h]
  have hone : ∀ order, v.attempt.world.db.orders = v.world.db.orders ++ [order] →
      v.newOrders.length ≤ 1 := by
    intro order h
    simp [Visit.newOrders, h]
  have heffect : Effect v.world v.delivery v.attempt := processSignal_effect _ _
  cases heffect with
  | quiet _ hbook _ _ => exact hsame hbook.orders
  | entry _ _ _ _ _ hbook =>
    rcases hbook with h | ⟨_, order, _, _, hentered⟩
    · exact hsame (by rw [h])
    · exact hone order hentered.orders
  | exit _ _ _ _ _ hbook =>
    rcases hbook with h | ⟨_, _, _, h | ⟨order, _, hexited⟩⟩
    · exact hsame (by rw [h])
    · exact hsame h.orders
    · exact hone order hexited.orders

/-- One visit makes at most one `forceenter` request and at most one `forceexit`
submission. -/
theorem calls_le_one (v : Visit) : v.forceenters.length ≤ 1 ∧ v.forceexits.length ≤ 1 := by
  have heffect : Effect v.world v.delivery v.attempt := processSignal_effect _ _
  unfold Visit.forceenters Visit.forceexits
  cases heffect with
  | quiet hcalls _ _ _ => simp [hcalls]
  | entry signal _ _ _ hcalls _ =>
    obtain ⟨sizeUsdt, tag, hcalls⟩ := hcalls
    rcases forceenter_calls v.delivery.forceenterReply signal.symbol sizeUsdt tag
      with h | ⟨tradeId, h⟩
    · simp [hcalls, h]
    · simp [hcalls, h]
  | exit _ _ _ _ hcalls _ =>
    rcases hcalls with hcalls | ⟨tradeId, hcalls⟩
    · simp [hcalls]
    · simp [hcalls]

section History

variable {signal : Signal} {visits : List Visit}

/-- Between two visits of a history no key of the signal is lost and no time passes
backwards. -/
theorem DeliveryHistory.pairwise (h : DeliveryHistory signal visits) :
    visits.Pairwise fun v v' => v.delivery.now ≤ v'.delivery.now ∧
      ∀ entry ∈ keysOf signal.id v.attempt.world.redis,
        entry ∈ keysOf signal.id v'.world.redis := by
  have hclock : visits.Pairwise fun v v' => v.delivery.now ≤ v'.delivery.now := by
    have : IsTrans Visit fun v v' => v.delivery.now ≤ v'.delivery.now :=
      ⟨fun _ _ _ => le_trans⟩
    exact List.isChain_iff_pairwise.mp h.clock
  have hkeys : visits.Pairwise fun v v' =>
      ∀ entry ∈ keysOf signal.id v.attempt.world.redis,
        entry ∈ keysOf signal.id v'.world.redis := by
    have : IsTrans Visit fun v v' =>
        ∀ entry ∈ keysOf signal.id v.attempt.world.redis,
          entry ∈ keysOf signal.id v'.world.redis := by
      refine ⟨fun v v' v'' hv hv' entry hentry => hv' entry ?_⟩
      have hmem := List.mem_filter.mp (hv entry hentry)
      exact List.mem_filter.mpr ⟨decisionKeys_mono _ _ hmem.1, hmem.2⟩
    apply List.isChain_iff_pairwise.mp
    refine h.keys.imp ?_
    intro v v' hkept entry hentry
    rw [hkept]
    exact hentry
  exact hclock.and hkeys

/-- The age a visit sees is not negative. -/
theorem DeliveryHistory.notEarly (h : DeliveryHistory signal visits) :
    ∀ v ∈ visits, signal.candleTs ≤ v.delivery.now := by
  cases visits with
  | nil => intro v hv; cases hv
  | cons first rest =>
    have hfirst := h.start first rfl
    intro v hv
    rcases List.mem_cons.mp hv with rfl | hv
    · exact hfirst
    · exact le_trans hfirst ((List.pairwise_cons.mp h.pairwise).1 v hv).1

/-- **No two visits act.**  The first one claims the key for a day; where a later one
finds it expired, the signal is at least a day old, which the age bound rules out. -/
theorem DeliveryHistory.not_both_act (h : DeliveryHistory signal visits) :
    visits.Pairwise fun v v' => ¬ (v.Acts ∧ v'.Acts) := by
  refine h.pairwise.imp_of_mem ?_
  rintro v v' hv hv' ⟨_, hkept⟩ ⟨hacts, hacts'⟩
  have hsignal : ∀ u ∈ visits, ∀ row,
      u.world.db.getSignal u.delivery.signalId = some row → row = signal := by
    intro u hu row hrow
    rw [h.delivered u hu] at hrow
    exact h.row u hu row hrow
  -- the key the first visit claims
  have hkey : (signal.id, v.delivery.now + decisionIdempotencyTtl) ∈
      v'.world.redis.decisionKeys := by
    obtain ⟨row, balance, happroves, hclaimed⟩ := hacts
    have hrow : row = signal := by
      rcases happroves with happroves | happroves
      · exact hsignal v hv row happroves.asks.found
      · exact hsignal v hv row happroves.asks.found
    subst hrow
    have hmem := hkept (row.id, v.delivery.now + decisionIdempotencyTtl)
      (List.mem_filter.mpr ⟨by rw [hclaimed]; exact List.mem_cons_self, by simp⟩)
    exact (List.mem_filter.mp hmem).1
  -- what the approval of the second visit says
  obtain ⟨row, balance, happroves, _⟩ := hacts'
  have hfree : ¬ v'.world.redis.holds signal.id v'.delivery.now ∧
      v'.delivery.now - signal.candleTs ≤
        minutes v'.delivery.config.signalMaxAgeMinutes := by
    rcases happroves with happroves | happroves
    · have hrow := hsignal v' hv' row happroves.asks.found
      subst hrow
      exact ⟨happroves.free, happroves.rules.2.1⟩
    · have hrow := hsignal v' hv' row happroves.asks.found
      subst hrow
      exact ⟨happroves.free, happroves.rules.1⟩
  have hexpired : v.delivery.now + decisionIdempotencyTtl ≤ v'.delivery.now := by
    by_contra hlive
    exact hfree.1 ⟨_, hkey, rfl, not_le.mp hlive⟩
  have hearly := h.notEarly v hv
  have hage := h.maxAge v' hv'
  have hbound := hfree.2
  unfold decisionIdempotencyTtl at hexpired
  unfold minutes at hbound
  have hminutes : v'.delivery.config.signalMaxAgeMinutes ≤ 1439 := by linarith
  linarith

/-- **At most one order per signal.**  Over any history of deliveries of one signal, at
most one approved decision is committed, at most one order, and Freqtrade is asked at most
once to enter and at most once to exit. -/
theorem delivered_at_most_once (h : DeliveryHistory signal visits) :
    (visits.flatMap Visit.newApprovals).length ≤ 1 ∧
      (visits.flatMap Visit.newOrders).length ≤ 1 ∧
      (visits.flatMap Visit.forceenters).length ≤ 1 ∧
      (visits.flatMap Visit.forceexits).length ≤ 1 := by
  have hpairs := h.not_both_act
  refine ⟨?_, ?_, ?_, ?_⟩
  · exact length_flatMap_le_one Visit.Acts _ (fun v hv => (quiet_of_not_acts hv).1)
      newApprovals_le_one hpairs
  · exact length_flatMap_le_one Visit.Acts _ (fun v hv => (quiet_of_not_acts hv).2.1)
      newOrders_le_one hpairs
  · exact length_flatMap_le_one Visit.Acts _
      (fun v hv => by simp [Visit.forceenters, (quiet_of_not_acts hv).2.2])
      (fun v => (calls_le_one v).1) hpairs
  · exact length_flatMap_le_one Visit.Acts _
      (fun v hv => by simp [Visit.forceexits, (quiet_of_not_acts hv).2.2])
      (fun v => (calls_le_one v).2) hpairs

end History

/-- A delivery that submits an entry, and a redelivery a minute later. -/
def twoVisits : List Visit :=
  [⟨{ db := { signals := [btcBuy] } }, cleanDelivery 1 0⟩,
    ⟨{ db := { signals := [btcBuy] }, redis := ({} : Redis).claim 1 0 },
      cleanDelivery 1 (minutes 1)⟩]

/-- The two deliveries are a history of the signal, and submit it once. -/
theorem twoVisits_submit_once : DeliveryHistory btcBuy twoVisits ∧
    (twoVisits.flatMap Visit.forceenters).length ≤ 1 := by
  have h : DeliveryHistory btcBuy twoVisits :=
    { delivered := by decide
      row := by
        intro v hv row hrow
        have hworld : v.world.db.getSignal 1 = some btcBuy := by
          rcases List.mem_cons.mp hv with rfl | hv
          · rfl
          · rw [List.mem_singleton.mp hv]
            rfl
        exact (Option.some.inj (hworld.symm.trans hrow)).symm
      maxAge := by decide +kernel
      start := by decide +kernel
      clock := by decide +kernel
      keys := by decide +kernel }
  exact ⟨h, (delivered_at_most_once h).2.2.1⟩

end TradeMind.Analysis
