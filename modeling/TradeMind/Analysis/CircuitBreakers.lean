import TradeMind.Analysis.KillSwitchLatch

/-!
# The circuit breakers

Rules 9 and 10 trip the kill switch.  They stand behind rules 3 to 8, and the first
violation decides, so a breaker whose condition holds trips only on a signal that none of
these rejects; then the switch is on, and no entry is approved until an operator disables
it.
-/

set_option autoImplicit false

namespace TradeMind.Analysis

open TradeMind.Library TradeMind.Model

/-- The account has lost more than a day may lose, or too often in a row. -/
def BreakerCondition (config : RiskConfig) (account : AccountState) : Prop :=
  account.dailyPnlPct ≤ -config.maxDailyLossPct ∨
    config.consecutiveLossLimit ≤ account.consecutiveLosses

/-- The delivery is of a BUY signal that is no duplicate, and its account meets a breaker's
condition. -/
structure SeesBreaker (w : World) (d : Delivery) (signal : Signal)
    (balance : AccountBalanceSnapshot) : Prop where
  found : w.db.getSignal d.signalId = some signal
  snapshot : getAccountBalance d.balance d.now = some balance
  window : timedeltaMinutes d.config.consecutiveLossClusterMinutes ≠ none
  action : signal.action = .BUY
  fresh : ¬ w.redis.holds signal.id d.now
  condition : BreakerCondition d.config (d.account w.db balance)

/-- What the rules see of a fresh entry signal with the given sizing. -/
def ruleContext (w : World) (d : Delivery) (signal : Signal) (balance : AccountBalanceSnapshot)
    (candidate : SizingResult) : RuleContext :=
  { signal := signal.view
    account := d.account w.db balance
    config := d.config
    now := d.now
    killswitchEnabled := KillSwitch.isEnabled w.db
    isDuplicateDecision := false
    candidate
    expectancy := d.expectancy w.db signal }

/-- The rules between the duplicate check and the breakers, 3 to 8. -/
def rulesBeforeBreakers : List RuleFunc :=
  [Rules.signalAction, Rules.signalStaleness, Rules.minConfidence, Rules.expectancyFilter,
    Rules.maxOpenPositions, Rules.maxTotalExposure]

/-- The evaluation comes as far as the breakers: the signal can be sized, and none of the
rules 3 to 8 rejects it. -/
def ReachesBreakers (w : World) (d : Delivery) (signal : Signal)
    (balance : AccountBalanceSnapshot) : Prop :=
  ∃ candidate, computeSizing (d.account w.db balance).equityUsdt
      (d.account w.db balance).freeBalanceUsdt signal.price signal.atr14 signal.confidence
      d.config = some candidate ∧
    ∀ rule ∈ rulesBeforeBreakers, rule (ruleContext w d signal balance candidate) = none

variable {w : World} {d : Delivery} {signal : Signal} {balance : AccountBalanceSnapshot}

/-- Where a breaker's condition holds, one of the two breakers trips. -/
theorem breaker_violation {ctx : RuleContext} (h : BreakerCondition ctx.config ctx.account) :
    ∃ violation, violation.autoTripKillswitch = true ∧
      ([Rules.maxDailyLoss, Rules.consecutiveLosses, Rules.cooldown,
        Rules.insufficientBalance].findSome? fun rule => rule ctx) =
          some (.violation violation) := by
  by_cases hdaily : ctx.account.dailyPnlPct ≤ -ctx.config.maxDailyLossPct
  · refine ⟨{ reason := .DAILY_LOSS_LIMIT_HIT, autoTripKillswitch := true }, rfl, ?_⟩
    simp [Rules.maxDailyLoss, hdaily]
  · have hlosses : ¬ ctx.account.consecutiveLosses < ctx.config.consecutiveLossLimit :=
      not_lt.mpr (h.resolve_left hdaily)
    refine ⟨{ reason := .CONSECUTIVE_LOSS_PAUSE, autoTripKillswitch := true }, rfl, ?_⟩
    simp [Rules.maxDailyLoss, Rules.consecutiveLosses, hdaily, hlosses]

/-- **The breakers trip** on an evaluation that comes as far as them. -/
theorem breakers_trip (hsees : SeesBreaker w d signal balance)
    (hreaches : ReachesBreakers w d signal balance)
    (hoff : KillSwitch.isEnabled w.db = false) : AutoTrips w d signal balance where
  found := hsees.found
  snapshot := hsees.snapshot
  window := hsees.window
  action := by
    rw [hsees.action]
    nofun
  trips := by
    obtain ⟨candidate, hsizing, hrules⟩ := hreaches
    obtain ⟨violation, htrip, hviolation⟩ :=
      @breaker_violation (ruleContext w d signal balance candidate) hsees.condition
    have hfirst : (Rules.rulesInOrder.findSome? fun rule =>
        rule (ruleContext w d signal balance candidate)) = some (.violation violation) := by
      have hsplit : Rules.rulesInOrder = [Rules.killSwitch, Rules.duplicateSignal] ++
          (rulesBeforeBreakers ++ [Rules.maxDailyLoss, Rules.consecutiveLosses, Rules.cooldown,
            Rules.insufficientBalance]) := rfl
      have hgates : ([Rules.killSwitch, Rules.duplicateSignal].findSome? fun rule =>
          rule (ruleContext w d signal balance candidate)) = none := by
        simp [Rules.killSwitch, Rules.duplicateSignal, ruleContext, hoff]
      rw [hsplit, List.findSome?_append, hgates, Option.none_or, List.findSome?_append,
        List.findSome?_eq_none_iff.mpr hrules, Option.none_or]
      exact hviolation
    have hevaluate := evaluate_violation hsizing hfirst
    rw [decide_eq_false hsees.fresh]
    unfold entryEvaluation entryResult
    cases heval : evaluate signal.view (d.account w.db balance) d.config d.now
      (KillSwitch.isEnabled w.db) false (d.expectancy w.db signal) with
    | none =>
      rw [heval] at hevaluate
      cases hevaluate
    | some result =>
      rw [heval] at hevaluate
      exact (Option.some.inj hevaluate).trans htrip

/-! ## The latch -/

/-- No evaluation approves an entry. -/
def BlocksEntries (w : World) : Prop :=
  KillSwitch.isEnabled w.db = true ∧ ∀ d signal balance isDuplicate,
    (entryEvaluation w d signal balance isDuplicate).approved = false

/-- A delivery that meets no failure, sees a breaker's condition, and is evaluated as far as
the breakers. -/
def TripsBreaker (w : World) : Operation → Prop
  | .transaction (.signal d) => Faultless d ∧
    ∃ signal balance, SeesBreaker w d signal balance ∧ ReachesBreakers w d signal balance
  | _ => False

/-- A delivery that sees a breaker's condition and comes as far as the breakers leaves the
switch on. -/
theorem enabled_of_breaker (hclean : Faultless d) (hsees : SeesBreaker w d signal balance)
    (hreaches : ReachesBreakers w d signal balance) :
    KillSwitch.isEnabled (processSignal w d).world.db = true := by
  cases hflag : KillSwitch.isEnabled w.db with
  | true => exact (processSignal_switch w d).stays hflag
  | false =>
    exact (trip_committed_iff (fun a _ => hclean a) (breakers_trip hsees hreaches hflag)).mpr
      (hclean _)

/-- **The circuit breakers latch.**  In every run, after a delivery that sees a breaker's
condition and that rules 3 to 8 let through to the breakers, the switch is on and no entry
is approved, until a disable request. -/
theorem circuit_breakers_latch (w : World) (ops : List Operation) :
    Latches operate TripsBreaker BlocksEntries Disables w ops := by
  refine latches_of_kept ?_ ?_ w ops
  · intro w op htrips
    cases op with
    | killSwitch r => exact htrips.elim
    | transaction t =>
      cases t with
      | webhook ctx payload => exact htrips.elim
      | reconcile ctx => exact htrips.elim
      | signal d =>
        obtain ⟨hclean, signal, balance, hsees, hreaches⟩ := htrips
        have hflag := enabled_of_breaker hclean hsees hreaches
        exact ⟨hflag, fun _ _ balance isDuplicate =>
          entryEvaluation_enabled hflag balance isDuplicate⟩
  · intro w op hblocks hkeeps
    have hflag := operate_stays w op hblocks.1 hkeeps
    exact ⟨hflag, fun _ _ balance isDuplicate =>
      entryEvaluation_enabled hflag balance isDuplicate⟩

/-! ## A stale signal on a losing day -/

/-- The fills of an ETH trade that loses 5% of the flat account. -/
def ethEntryFill : FreqtradeWebhookPayload :=
  { btcEntryFill 7 with
    pair := "ETH/USDT"
    amount := some 2 }

/-- The `exit_fill` of the ETH trade, sold at 75 USDT. -/
def ethExitFill : FreqtradeWebhookPayload :=
  { btcExitFill 7 with
    pair := "ETH/USDT"
    closeRate := some 75
    amount := some 2
    profitAmount := some (-50)
    profitRatio := some (-1 / 4) }

/-- The BUY signal waits while a trade on ETH loses more than a day may lose. -/
def losingDay : World :=
  runFrom step
    { db := { signals := [btcBuy, { btcBuy with id := 2, traceId := 2, symbol := "ETH/USDT" }] } }
    [.signal (cleanDelivery 2 0), .webhook (receivedAt (minutes 2)) ethEntryFill,
      .webhook (receivedAt (minutes 3)) ethExitFill]

/-- **The breakers do not trip on a signal that is rejected before them**: a stale signal on
the losing day leaves the switch off. -/
theorem stale_signal_trips_nothing :
    ¬ ∀ (w : World) (d : Delivery) (signal : Signal) (balance : AccountBalanceSnapshot),
      Faultless d → SeesBreaker w d signal balance →
        KillSwitch.isEnabled (processSignal w d).world.db = true := by
  intro h
  have hsees : SeesBreaker losingDay (cleanDelivery 1 (minutes 66)) btcBuy
      (flatSnapshot (minutes 66)) :=
    ⟨by decide +kernel, flatBalances_snapshot _, by decide, rfl, by decide +kernel,
      Or.inl (by decide +kernel)⟩
  have hflag := h _ _ _ _ (fun _ => rfl) hsees
  revert hflag
  decide +kernel

/-- The same signal delivered in time trips the breaker. -/
example : let tripped := (processSignal losingDay (cleanDelivery 1 (minutes 5))).world
    tripped.db.riskDecisions.map RiskDecision.rejectionReason =
        [none, some .DAILY_LOSS_LIMIT_HIT] ∧
      KillSwitch.isEnabled tripped.db = true := by
  decide +kernel

end TradeMind.Analysis
