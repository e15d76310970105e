import TradeMind.Model.AccountState

/-!
# The Freqtrade client

`risk_engine/freqtrade_client.py`: what Freqtrade's REST API answers is an input, and the
client turns it into a result or into `FreqtradeUnavailable`.  The `entry_tag` string
`slpct:<distance>` stands for the distance it carries.
-/

set_option autoImplicit false

namespace TradeMind.Model

/-- The `entry_tag` of a force-entry: a stop distance, or any other text. -/
inductive EntryTag
  | slpct (stopDistancePct : ℚ)
  | other (text : String)
  deriving DecidableEq, Repr

/-- Freqtrade's trade record, the typed subset used here. -/
structure FreqtradeTrade where
  tradeId : ℤ
  pair : Symbol
  isOpen : Bool
  amount : Option ℚ := none
  hasOpenOrders : Option Bool := none
  openRate : Option ℚ := none
  openFillDate : Option Time := none
  closeRate : Option ℚ := none
  profitAbs : Option ℚ := none
  profitRatio : Option ℚ := none
  openDate : Option Time := none
  closeDate : Option Time := none
  deriving DecidableEq, Repr

/-- A request that reached for Freqtrade's trading endpoints. -/
inductive FreqtradeCall
  | forceenter (pair : Symbol) (stakeAmount : ℚ) (entryTag : Option EntryTag)
  | forceexit (tradeId : ℤ)
  deriving DecidableEq, Repr

/-- How a client method ends: a value, `FreqtradeUnavailable`, or another exception. -/
inductive ClientResult (α : Type)
  | ok (a : α)
  | unavailable
  | raised
  deriving DecidableEq, Repr

/-! ## Balance -/

structure FreqtradeCurrencyBalance where
  currency : String
  free : ℚ
  stake : String
  free_nonneg : 0 ≤ free

structure FreqtradeBalances where
  currencies : List FreqtradeCurrencyBalance
  total : ℚ
  stake : String
  total_nonneg : 0 ≤ total

/-- `get_account_balance`, given the validated answer of `/api/v1/balance` or `none` where
the request or its validation failed; `none` is `FreqtradeUnavailable`. -/
def getAccountBalance (reply : Option FreqtradeBalances) (now : Time) :
    Option AccountBalanceSnapshot :=
  match reply with
  | none => none
  | some balances =>
    if balances.stake ≠ "USDT" then none
    else
      match balances.currencies.filter fun row =>
          row.currency = balances.stake ∧ row.stake = balances.stake with
      | [row] =>
        if h : row.free ≤ balances.total then
          some
            { equityUsdt := balances.total
              freeBalanceUsdt := row.free
              capturedAt := now
              equity_nonneg := balances.total_nonneg
              free_nonneg := row.free_nonneg
              free_le_equity := h }
        else none
      | _ => none

/-! ## Entries and exits -/

/-- The fields of the force-entry response the code looks up. -/
structure ForceenterBody where
  tradeId : Option ℤ := none
  id : Option ℤ := none
  enterTag : Option EntryTag := none
  deriving DecidableEq, Repr

/-- What comes back from `POST /api/v1/forceenter`. -/
inductive ForceenterReply
  /-- A transport error, a timeout or an error status. -/
  | httpError
  /-- The body is not JSON. -/
  | notJson
  /-- The body is JSON without a `get` method. -/
  | notObject
  | body (response : ForceenterBody)
  deriving DecidableEq, Repr

/-- `response.get("trade_id") or response.get("id")`; `0` is falsy. -/
def ForceenterBody.tradeRef (response : ForceenterBody) : Option ℤ :=
  match response.tradeId with
  | some t => if t = 0 then response.id else some t
  | none => response.id

/-- `forceenter`: the result and the requests it made.  A response whose tag is not the
one sent triggers an emergency exit and is reported as unavailable, whatever the
emergency exit's own result. -/
def forceenter (reply : ForceenterReply) (pair : Symbol) (stakeAmount : ℚ)
    (entryTag : Option EntryTag) : ClientResult ForceenterBody × List FreqtradeCall :=
  let enter := FreqtradeCall.forceenter pair stakeAmount entryTag
  match reply with
  | .httpError => (.unavailable, [enter])
  | .notJson => (.unavailable, [enter])
  | .notObject => (.raised, [enter])
  | .body response =>
    if entryTag.isSome ∧ response.enterTag ≠ entryTag then
      match response.tradeRef with
      | some tradeId => (.unavailable, [enter, .forceexit tradeId])
      | none => (.unavailable, [enter])
    else (.ok response, [enter])

/-- `forceexit`: at most `max(1, attempts)` posts, stopping at the first that succeeds. -/
def forceexit (retryAttempts : ℤ) (post : ℕ → Bool) : Bool :=
  (List.range (max 1 retryAttempts).toNat).any post

end TradeMind.Model
