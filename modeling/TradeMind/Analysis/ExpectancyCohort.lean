import TradeMind.Model.AccountState
import TradeMind.Model.PerformanceReport

/-!
# The cohort of the expectancy filter

The filter asks the database for the trades of a regime within a score band; the reports load
the trades of the regime and group them by the band's label.  Both see the same trades up to
order, so the sample and the expectancy are the same.
-/

set_option autoImplicit false

namespace TradeMind.Analysis

open TradeMind.Model TradeMind.Library

/-! ## What does not depend on the order -/

/-- The expectancy of a cohort does not depend on the order of its trades. -/
theorem computeExpectancyR_perm {trades trades' : List ClosedTradeMetrics}
    (h : trades.Perm trades') : computeExpectancyR trades = computeExpectancyR trades' := by
  have hvalues := h.filterMap ClosedTradeMetrics.rMultiple
  have hempty : (trades.filterMap ClosedTradeMetrics.rMultiple).isEmpty =
      (trades'.filterMap ClosedTradeMetrics.rMultiple).isEmpty := hvalues.isEmpty_eq
  simp only [computeExpectancyR, hempty, hvalues.sum_eq, hvalues.length_eq]

/-- The view of a cohort is its report's figures, in any order of the trades. -/
theorem buildExpectancyView_report {trades trades' : List ClosedTradeMetrics}
    (h : trades.Perm trades') (key : String) (startingEquityUsdt : Option ℚ) :
    (buildExpectancyView trades key).sampleSize =
        (summarize trades' startingEquityUsdt).tradesWithR ∧
      (buildExpectancyView trades key).expectancyR =
        (summarize trades' startingEquityUsdt).expectancyR := by
  refine ⟨?_, computeExpectancyR_perm h⟩
  exact congrArg Nat.cast (h.filter _).length_eq

/-! ## Score bands -/

/-- A score lies in a band. -/
def InBand (bucket : String × ℤ × ℤ) (score : ℤ) : Prop :=
  bucket.2.1 ≤ score ∧ score ≤ bucket.2.2

instance (bucket : String × ℤ × ℤ) (score : ℤ) : Decidable (InBand bucket score) :=
  inferInstanceAs (Decidable (bucket.2.1 ≤ score ∧ score ≤ bucket.2.2))

/-- A band is found by one of its scores only. -/
theorem scoreBucket_some {bucket : String × ℤ × ℤ} {score : ℤ}
    (h : scoreBucket score = some bucket) : bucket ∈ scoreBuckets ∧ InBand bucket score :=
  ⟨List.mem_of_find?_eq_some h, by simpa [InBand] using List.find?_some h⟩

theorem scoreBucket_of_range {score : ℤ} (hlow : 0 ≤ score) (hhigh : score ≤ 100) :
    ∃ bucket, scoreBucket score = some bucket := by
  rw [← Option.isSome_iff_exists, scoreBucket, List.find?_isSome]
  simp only [scoreBuckets, List.mem_cons, List.not_mem_nil, or_false, exists_eq_or_imp,
    exists_eq_left, decide_eq_true_eq]
  omega

/-- The bands do not overlap: the band of a score is the one it lies in. -/
theorem scoreBucket_of_inBand {bucket : String × ℤ × ℤ} {score : ℤ}
    (hbucket : bucket ∈ scoreBuckets) (h : InBand bucket score) :
    scoreBucket score = some bucket := by
  simp only [scoreBuckets, List.mem_cons, List.not_mem_nil, or_false] at hbucket
  rcases hbucket with rfl | rfl | rfl
  all_goals
    obtain ⟨hlow, hhigh⟩ := h
    simp only at hlow hhigh
    simp only [scoreBucket, scoreBuckets, List.find?_cons]
    grind

/-- **A score has the label of a band exactly when it lies in it.** -/
theorem scoreBucketLabel_eq_iff {bucket : String × ℤ × ℤ} (hbucket : bucket ∈ scoreBuckets)
    (score : Option ℤ) : scoreBucketLabel score = bucket.1 ↔ score.any (InBand bucket ·) := by
  have hlabels : ∀ b ∈ scoreBuckets, b.1 ≠ "(unscored)" ∧
      ∀ b' ∈ scoreBuckets, b.1 = b'.1 → b = b' := by decide
  constructor
  · intro h
    unfold scoreBucketLabel at h
    split at h
    · rename_i found hfound
      obtain ⟨t, rfl, hscore⟩ := Option.bind_eq_some_iff.mp hfound
      obtain ⟨hmem, hband⟩ := scoreBucket_some hscore
      cases (hlabels found hmem).2 bucket hbucket h
      simpa using hband
    · exact absurd h.symm (hlabels bucket hbucket).1
  · intro h
    cases score with
    | none => simp at h
    | some t =>
      have hband : InBand bucket t := by simpa using h
      simp [scoreBucketLabel, scoreBucket_of_inBand hbucket hband]

/-! ## The two queries -/

/-- The trades a query loads, in the order the database chose. -/
theorem loadClosedTradeMetrics_perm (rows : RowOrder) (db : Database) (f : MetricsFilter) :
    (loadClosedTradeMetrics rows db f).Perm
      ((db.positions.filter f.selects).filterMap Position.toMetrics) :=
  ((List.perm_insertionSort _ _).trans (rows.positions.perm _)).filterMap _

/-- The trade of a row has the row's score. -/
theorem toMetrics_tradeScore {row : Position} {trade : ClosedTradeMetrics}
    (h : row.toMetrics = some trade) : trade.tradeScore = row.tradeScore := by
  unfold Position.toMetrics at h
  split at h
  · cases Option.some.inj h
    rfl
  · cases h

/-- The query of a regime within a band. -/
def bandFilter (regime : String) (bucket : String × ℤ × ℤ) : MetricsFilter :=
  { regime := some regime, scoreMin := some bucket.2.1, scoreMax := some bucket.2.2 }

/-- A query with a band's bounds selects the rows of the regime that lie in the band. -/
theorem selects_bandFilter (regime : String) (bucket : String × ℤ × ℤ) (row : Position) :
    (bandFilter regime bucket).selects row =
      (MetricsFilter.selects { regime := some regime } row &&
        row.tradeScore.any (InBand bucket ·)) := by
  cases hscore : row.tradeScore with
  | none => simp [bandFilter, MetricsFilter.selects, hscore]
  | some score =>
    have hband : InBand bucket score ↔ bucket.2.1 ≤ score ∧ score ≤ bucket.2.2 := Iff.rfl
    rw [Bool.eq_iff_iff]
    simp [bandFilter, MetricsFilter.selects, hscore, hband, and_assoc]

/-- **The filter's trades are the report's cohort**, up to order. -/
theorem cohort_perm (rows rows' : RowOrder) (db : Database) (regime : String)
    {bucket : String × ℤ × ℤ} (hbucket : bucket ∈ scoreBuckets) :
    (loadClosedTradeMetrics rows db (bandFilter regime bucket)).Perm
      ((loadClosedTradeMetrics rows' db { regime := some regime }).filter fun trade =>
        scoreBucketLabel trade.tradeScore = bucket.1) := by
  refine (loadClosedTradeMetrics_perm rows db _).trans ?_
  refine List.Perm.trans (List.Perm.of_eq ?_)
    ((loadClosedTradeMetrics_perm rows' db { regime := some regime }).filter _).symm
  rw [List.filter_filterMap, List.filterMap_filter, List.filterMap_filter]
  refine List.filterMap_congr fun row _ => ?_
  cases hrow : row.toMetrics with
  | none => simp
  | some trade =>
    have hlabel := scoreBucketLabel_eq_iff hbucket trade.tradeScore
    rw [toMetrics_tradeScore hrow] at hlabel
    by_cases hband : row.tradeScore.any (InBand bucket ·) = true
    · simp [selects_bandFilter, hband, Option.filter_some, toMetrics_tradeScore hrow,
        hlabel.mpr hband]
    · simp [selects_bandFilter, hband, Option.filter_some, toMetrics_tradeScore hrow, hlabel]

/-! ## Both readers of a cohort -/

/-- **The expectancy filter consults the cohort the reports show.**  For every regime and score
in range its view has the sample and the expectancy of the report's cohort with the score's
band, or none of either where the report has no such cohort; the report has at most one. -/
theorem expectancy_matches_report (rows rows' : RowOrder) (db : Database) (regime : String)
    (score : ℤ) (startingEquityUsdt : Option ℚ) (hregime : regime ≠ "") (hlow : 0 ≤ score)
    (hhigh : score ≤ 100) :
    let view := loadExpectancyState rows db (some regime) (some score)
    let label := scoreBucketLabel (some score)
    let breakdown := (summarizeBreakdowns
      (loadClosedTradeMetrics rows' db { regime := some regime }) startingEquityUsdt).byScoreBucket
    view.setupKey = regime ++ " | " ++ label ∧
    (∀ cohort ∈ breakdown, cohort.key = label →
      view.sampleSize = cohort.report.tradesWithR ∧
        view.expectancyR = cohort.report.expectancyR) ∧
    ((∀ cohort ∈ breakdown, cohort.key ≠ label) →
      view.sampleSize = 0 ∧ view.expectancyR = none) ∧
    (breakdown.map BreakdownCohort.key).Nodup := by
  intro view label breakdown
  obtain ⟨bucket, hbucket⟩ := scoreBucket_of_range hlow hhigh
  obtain ⟨hmem, hband⟩ := scoreBucket_some hbucket
  have hlabel : label = bucket.1 := (scoreBucketLabel_eq_iff hmem _).mpr (by simpa using hband)
  have hkey : setupKey (some regime) (some score) = regime ++ " | " ++ label := by
    simp [setupKey, hregime, label]
  have hview : view = buildExpectancyView
      (loadClosedTradeMetrics rows db (bandFilter regime bucket))
      (setupKey (some regime) (some score)) := by
    simp [view, loadExpectancyState, scoreBucketBounds, hbucket, bandFilter]
  have hperm := cohort_perm rows rows' db regime hmem
  refine ⟨?_, ?_, ?_, cohorts_nodup _ _ _ _⟩
  · rw [hview]
    exact hkey
  · intro cohort hcohort hcohortKey
    obtain ⟨-, hreport⟩ := mem_cohorts.mp hcohort
    rw [hreport, hview, hcohortKey, hlabel]
    exact buildExpectancyView_report hperm _ _
  · intro habsent
    have hempty : (loadClosedTradeMetrics rows' db { regime := some regime }).filter (fun trade =>
        scoreBucketLabel trade.tradeScore = bucket.1) = [] := by
      by_contra hfull
      refine habsent
        { key := bucket.1
          report := summarize ((loadClosedTradeMetrics rows' db
            { regime := some regime }).filter fun trade =>
              scoreBucketLabel trade.tradeScore = bucket.1) startingEquityUsdt }
        (mem_cohorts.mpr ⟨hfull, rfl⟩) hlabel.symm
    rw [hempty] at hperm
    rw [hview, hperm.eq_nil]
    exact ⟨rfl, rfl⟩

/-- A closed trade at the lower edge of a band. -/
def edgePosition : Position :=
  { id := 1
    symbol := "BTC/USDT"
    status := .CLOSED
    entryOrderId := 2
    entryPrice := 100
    amount := 1
    pnlUsdt := some 5
    openedAt := 0
    closedAt := some (minutes 60)
    rMultiple := some 2
    marketRegime := some "TRENDING"
    tradeScore := some 70 }

/-- A score at the edge of a band. -/
theorem expectancy_matches_report_edge :
    let db : Database := { positions := [edgePosition] }
    let view := loadExpectancyState RowOrder.stored db (some "TRENDING") (some 70)
    view.setupKey = "TRENDING" ++ " | " ++ scoreBucketLabel (some 70) ∧
      ∀ cohort ∈ (summarizeBreakdowns (loadClosedTradeMetrics RowOrder.stored db
          { regime := some "TRENDING" }) (some 1000)).byScoreBucket,
        cohort.key = scoreBucketLabel (some 70) →
          view.sampleSize = cohort.report.tradesWithR ∧
            view.expectancyR = cohort.report.expectancyR := by
  intro db view
  obtain ⟨hkey, hcohort, -⟩ := expectancy_matches_report RowOrder.stored RowOrder.stored db
    "TRENDING" 70 (some 1000) (by decide) (by decide) (by decide)
  exact ⟨hkey, hcohort⟩

example : loadExpectancyState RowOrder.stored { positions := [edgePosition] } (some "TRENDING")
    (some 70) =
      { setupKey := "TRENDING | 70–100", sampleSize := 1, expectancyR := some 2 } := by
  decide +kernel

end TradeMind.Analysis
