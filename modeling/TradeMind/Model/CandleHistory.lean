import TradeMind.Library.Dictionary
import TradeMind.Library.KeySort
import TradeMind.Library.Multiples
import TradeMind.Model.Records

/-!
# The candle history

`scripts/backtest/history.py` and the `CandleCache` of `scripts/backtest/cache.py`: the candles
of a range come from a local mirror or, page by page, from the exchange.

The exchange is outside the repository.  It is taken with what the code relies on: candles open
at every multiple of the timeframe, a request is answered with the first ones from `since` on
that have opened, and a candle that has closed keeps its values.
-/

set_option autoImplicit false

namespace TradeMind.Model.History

open TradeMind.Model TradeMind.Library

/-! ## Timeframes and candles -/

/-- The keys of `_TIMEFRAME_UNIT_MS`. -/
inductive TimeframeUnit
  | s | m | h | d
  deriving DecidableEq, Repr

/-- `_TIMEFRAME_UNIT_MS`. -/
def timeframeUnitMs : TimeframeUnit → ℤ
  | .s => 1000
  | .m => 60000
  | .h => 3600000
  | .d => 86400000

/-- The two parts of a timeframe such as `15m`. -/
structure Timeframe where
  count : ℕ
  unit : TimeframeUnit
  pos : 0 < count
  deriving DecidableEq

/-- `timeframe_to_ms`. -/
def timeframeToMs (timeframe : Timeframe) : ℤ := timeframe.count * timeframeUnitMs timeframe.unit

theorem timeframeToMs_pos (timeframe : Timeframe) : 0 < timeframeToMs timeframe := by
  have hunit : 0 < timeframeUnitMs timeframe.unit := by cases timeframe.unit <;> decide
  exact mul_pos (Int.natCast_pos.mpr timeframe.pos) hunit

/-- What a candle says about its interval. -/
structure Ohlcv where
  o : ℚ
  h : ℚ
  l : ℚ
  c : ℚ
  v : ℚ
  deriving DecidableEq, Repr

/-- A candle and the time it opens at, in milliseconds. -/
structure Candle where
  t : ℤ
  ohlcv : Ohlcv
  deriving DecidableEq, Repr

/-! ## `CandleCache` -/

/-- The rows of `ohlcv` under their primary key. -/
abbrev CandleCache := Dict (Symbol × Timeframe × ℤ) Ohlcv

/-- The row of a symbol and timeframe whose candle opens in a range. -/
def candleOf (symbol : Symbol) (timeframe : Timeframe) (sinceMs untilMs : ℤ) :
    (Σ _ : Symbol × Timeframe × ℤ, Ohlcv) → Option Candle
  | ⟨(rowSymbol, rowTimeframe, ts), ohlcv⟩ =>
    if rowSymbol = symbol ∧ rowTimeframe = timeframe ∧ sinceMs ≤ ts ∧ ts < untilMs then
      some { t := ts, ohlcv }
    else none

/-- `CandleCache.get_range`. -/
def CandleCache.getRange (cache : CandleCache) (symbol : Symbol) (timeframe : Timeframe)
    (sinceMs untilMs : ℤ) : List Candle :=
  sortBy Candle.t (cache.entries.filterMap (candleOf symbol timeframe sinceMs untilMs))

/-- `CandleCache.put_many`. -/
def CandleCache.putMany (cache : CandleCache) (symbol : Symbol) (timeframe : Timeframe)
    (candles : List Candle) : CandleCache :=
  candles.foldl (fun rows c => rows.insert (symbol, timeframe, c.t) c.ohlcv) cache

/-! ## The exchange -/

/-- What a request to the exchange raises: a network error, which is tried again, or another one. -/
inductive FetchError
  | network
  | other
  deriving DecidableEq, Repr

/-- The values that each candle of a market has once it is closed, by symbol, timeframe and opening
time. -/
abbrev Market := Symbol → Timeframe → ℤ → Ohlcv

/-- The `limit` of a request. -/
def pageLimit : ℕ := 1000

/-- The candles that opened by a moment, from a time on, up to the limit. -/
def openedCandles (timeframe : Timeframe) (shown : ℤ → Ohlcv) (now since : ℤ) : List Candle :=
  ((multiples (timeframeToMs timeframe) since (now + 1)).take pageLimit).map fun t =>
    { t, ohlcv := shown t }

/-- The exchange at the moment a call reads it.  `shown` is what it says of a candle then, and
`fetchOhlcv` what the given attempt of a request brings. -/
structure Exchange (market : Market) where
  now : ℤ
  shown : Market
  fetchOhlcv : Symbol → Timeframe → (since : ℤ) → (attempt : ℕ) → Except FetchError (List Candle)
  /-- A closed candle is final. -/
  shown_closed : ∀ symbol timeframe t, timeframeToMs timeframe ∣ t →
    t + timeframeToMs timeframe ≤ now → shown symbol timeframe t = market symbol timeframe t
  /-- An answer is the page of the candles that opened. -/
  answers : ∀ symbol timeframe since attempt raw,
    fetchOhlcv symbol timeframe since attempt = .ok raw →
      raw = openedCandles timeframe (shown symbol timeframe) now since

/-! ## `fetch_history` -/

/-- `_MAX_ATTEMPTS`. -/
def maxAttempts : ℕ := 5

/-- The attempts of a request from the given one on, with `left` more after it. -/
def attemptsFrom (request : ℕ → Except FetchError (List Candle)) :
    (attempt left : ℕ) → Except FetchError (List Candle)
  | attempt, 0 => request attempt
  | attempt, left + 1 =>
    match request attempt with
    | .error .network => attemptsFrom request (attempt + 1) left
    | outcome => outcome

/-- `_fetch_ohlcv_with_retry`: a network error is retried, the last one raised. -/
def fetchOhlcvWithRetry {market : Market} (exchange : Exchange market) (symbol : Symbol)
    (timeframe : Timeframe) (cursor : ℤ) : Except FetchError (List Candle) :=
  attemptsFrom (exchange.fetchOhlcv symbol timeframe cursor) 1 (maxAttempts - 1)

/-- The `while cursor < until_ms` loop: the pages from a cursor on. -/
def fetchPages (page : ℤ → Except FetchError (List Candle)) (timeframeMs untilMs cursor : ℤ)
    (fetched : List Candle) : Except FetchError (List Candle) :=
  if cursor < untilMs then
    match page cursor with
    | .error e => .error e
    | .ok raw =>
      match raw.getLast? with
      | none => .ok fetched
      | some last =>
        let fetched := fetched ++ raw.filter fun c => c.t < untilMs
        let nextCursor := last.t + timeframeMs
        if nextCursor ≤ cursor then .ok fetched
        else fetchPages page timeframeMs untilMs nextCursor fetched
  else .ok fetched
termination_by (untilMs - cursor).toNat

/-- `fetch_history`: what it returns or raises, and the cache it leaves. -/
def fetchHistory {market : Market} (exchange : Exchange market) (symbol : Symbol)
    (timeframe : Timeframe) (sinceMs untilMs : ℤ) (cache : CandleCache) :
    Except FetchError (List Candle) × CandleCache :=
  let timeframeMs := timeframeToMs timeframe
  let expected := (untilMs - sinceMs) / timeframeMs
  let cached := cache.getRange symbol timeframe sinceMs untilMs
  if expected ≤ cached.length then (.ok cached, cache)
  else
    match fetchPages (fetchOhlcvWithRetry exchange symbol timeframe) timeframeMs untilMs sinceMs []
    with
    | .error e => (.error e, cache)
    | .ok fetched =>
      let after := if fetched = [] then cache else cache.putMany symbol timeframe fetched
      (.ok (after.getRange symbol timeframe sinceMs untilMs), after)

end TradeMind.Model.History
