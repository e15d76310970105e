import TradeMind.Model.Freqtrade

/-!
# The stop of a live trade

`freqtrade/user_data/strategies/ExternalSignalStrategy.py`: the per-trade stop that
`custom_stoploss` derives from the entry tag and the peak price.  Freqtrade's
`stoploss_from_absolute` and Python's `float` of a tag's text are parameters; the text
`slpct:<number>` is the tag `EntryTag.slpct` itself.
-/

set_option autoImplicit false

namespace TradeMind.Model.Strategy

open TradeMind.Model

/-- `stoploss`. -/
def stoploss : ℚ := -8 / 100

/-- `trailing_activation_pct`. -/
def trailingActivationPct : ℚ := 2 / 100

/-- `trailing_distance_pct`. -/
def trailingDistancePct : ℚ := 15 / 1000

/-- Freqtrade's `Trade`, the fields the strategy reads. -/
structure Trade where
  enterTag : Option EntryTag
  openRate : ℚ
  maxRate : ℚ
  deriving DecidableEq, Repr

/-- The stop rate the tag asks for; `none` where the static stop applies. -/
def taggedStopRate (float : String → Option ℚ) (trade : Trade) : Option ℚ :=
  match trade.enterTag with
  | none => none
  | some (.slpct stopDistancePct) =>
    if 0 < stopDistancePct ∧ stopDistancePct ≤ |stoploss| then
      some (trade.openRate * (1 - stopDistancePct))
    else none
  | some (.other text) =>
    if "sl:".isPrefixOf text then float (text.drop "sl:".length).toString else none

/-- The stop rate, trailed behind the peak once the peak profit clears the activation. -/
def stopRate (float : String → Option ℚ) (trade : Trade) : Option ℚ :=
  (taggedStopRate float trade).map fun stopRate =>
    let peakProfit := (trade.maxRate - trade.openRate) / trade.openRate
    if trailingActivationPct ≤ peakProfit then
      max stopRate (trade.maxRate * (1 - trailingDistancePct))
    else stopRate

/-- `custom_stoploss`. -/
def customStoploss (stoplossFromAbsolute : ℚ → ℚ → ℚ) (float : String → Option ℚ)
    (trade : Trade) (currentRate : ℚ) : ℚ :=
  match stopRate float trade with
  | none => stoploss
  | some stopRate => stoplossFromAbsolute stopRate currentRate

end TradeMind.Model.Strategy
