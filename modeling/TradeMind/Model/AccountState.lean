import Mathlib.Data.Finset.Dedup
import TradeMind.Model.Performance
import TradeMind.Model.Rules

/-!
# What a decision reads

`risk_engine/account_state.py` and `risk_engine/expectancy_state.py`: the account state
and the setup cohort's expectancy, resolved from the database before the pure evaluation
runs.  An `AccountBalanceSnapshot` carries the checks its validator makes.
-/

set_option autoImplicit false

namespace TradeMind.Model

/-- `common/account_balance.py`: Freqtrade's equity and free stake balance. -/
structure AccountBalanceSnapshot where
  equityUsdt : ℚ
  freeBalanceUsdt : ℚ
  capturedAt : Time
  equity_nonneg : 0 ≤ equityUsdt
  free_nonneg : 0 ≤ freeBalanceUsdt
  free_le_equity : freeBalanceUsdt ≤ equityUsdt

/-- The newest run of losing closes after the reset boundary, newest first. -/
def streakCloseTimes (resetAt : Option Time) : List Position → List (Option Time)
  | [] => []
  | position :: rest =>
    if resetAt.any fun reset => position.closedAt.any fun closedAt => closedAt ≤ reset then []
    else if position.pnlUsdt.any fun pnl => pnl < 0 then
      position.closedAt :: streakCloseTimes resetAt rest
    else []

/-- One round of the clustering loop: the events so far and the first loss of the current
cluster. -/
def clusterStep (clusterWindow : Time) (acc : ℤ × Option Time) (closedAt : Option Time) :
    ℤ × Option Time :=
  match closedAt, acc.2 with
  | some t, some start => if t - start > clusterWindow then (acc.1 + 1, some t) else acc
  | closedAt, _ => (acc.1 + 1, closedAt)

/-- `_count_consecutive_losses`, over positions ordered newest close first. -/
def countConsecutiveLosses (closedPositions : List Position) (resetAt : Option Time)
    (clusterWindow : Time) : ℤ × Option Time :=
  let streak := streakCloseTimes resetAt closedPositions
  let lossEvents := (streak.reverse.foldl (clusterStep clusterWindow) (0, none)).1
  (lossEvents, streak.head?.join)

namespace Database

/-- The OPEN positions. -/
def openPositions (db : Database) : List Position :=
  db.positions.filter fun p => p.status = .OPEN

/-- The CLOSED positions with a close time, newest first. -/
def closedPositions (db : Database) (rows : RowOrder) : List Position :=
  rows.positions.sortedDesc (fun p => p.closedAt.getD 0)
    (db.positions.filter fun p => p.status = .CLOSED ∧ p.closedAt.isSome)

end Database

/-- `load_account_state`. -/
def loadAccountState (rows : RowOrder) (db : Database) (balance : AccountBalanceSnapshot)
    (lossClusterWindow now : Time) : AccountState :=
  let openPositions := db.openPositions
  let closedPositions := db.closedPositions rows
  let consecutiveLossResetAt := db.systemState.bind SystemState.consecutiveLossResetAt
  let streak := countConsecutiveLosses closedPositions consecutiveLossResetAt lossClusterWindow
  let equityUsdt := balance.equityUsdt
  let closedToday := closedPositions.filter fun p =>
    p.closedAt.any fun closedAt => dateOf closedAt = dateOf now
  let dailyPnlUsdt := (closedToday.map fun p => p.pnlUsdt.getD 0).sum
  { equityUsdt
    freeBalanceUsdt := balance.freeBalanceUsdt
    openPositionSymbols := (openPositions.map Position.symbol).toFinset
    totalExposureUsdt := (openPositions.map fun p => p.amount * p.entryPrice).sum
    dailyPnlPct := if 0 < equityUsdt then dailyPnlUsdt / equityUsdt else 0
    consecutiveLosses := streak.1
    lastLossClosedAt := streak.2
    symbolLastClosedAt := fun symbol =>
      (closedPositions.find? fun p => p.symbol = symbol).bind Position.closedAt }

/-- `setup_key`. -/
def setupKey (marketRegime : Option String) (tradeScore : Option ℤ) : String :=
  let regime := match marketRegime with
    | some r => if r.isEmpty then "(unclassified)" else r
    | none => "(unclassified)"
  regime ++ " | " ++ scoreBucketLabel tradeScore

/-- `_score_bucket_bounds`. -/
def scoreBucketBounds (tradeScore : Option ℤ) : Option (ℤ × ℤ) :=
  (tradeScore.bind scoreBucket).map Prod.snd

/-- `build_expectancy_view`. -/
def buildExpectancyView (trades : List ClosedTradeMetrics) (key : String) :
    ExpectancyView :=
  { setupKey := key
    sampleSize := (trades.filter fun t => t.rMultiple.isSome).length
    expectancyR := computeExpectancyR trades }

/-- `load_expectancy_state`. -/
def loadExpectancyState (rows : RowOrder) (db : Database) (marketRegime : Option String)
    (tradeScore : Option ℤ) : ExpectancyView :=
  let key := setupKey marketRegime tradeScore
  match marketRegime, scoreBucketBounds tradeScore with
  | some regime, some (scoreMin, scoreMax) =>
    buildExpectancyView
      (loadClosedTradeMetrics rows db
        { regime := some regime, scoreMin := some scoreMin, scoreMax := some scoreMax })
      key
  | _, _ => { setupKey := key, sampleSize := 0, expectancyR := none }

end TradeMind.Model
