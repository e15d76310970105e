import Mathlib.Data.List.Nodup
import TradeMind.Library.Machine
import TradeMind.Model.CandleHistory

/-!
# The candles of a range

What `fetch_history` returns over a run of calls that share a cache.  While the cache holds
final values of closed candles only (`FinalValues`), a call returns the closed candles of its
range exactly unless the counts agree with a candle missing, or it asks for the candle that
still forms (`exact_iff_spared`).
-/

set_option autoImplicit false

namespace TradeMind.Analysis

open TradeMind.Model TradeMind.Model.History TradeMind.Library

/-! ## What the cache holds -/

section Cache

variable {cache : CandleCache} {symbol : Symbol} {timeframe : Timeframe} {sinceMs untilMs : ℤ}

/-- A row the range selects opens where the range says. -/
theorem candleOf_eq_some {row : Σ _ : Symbol × Timeframe × ℤ, Ohlcv} {candle : Candle} :
    candleOf symbol timeframe sinceMs untilMs row = some candle ↔
      row = ⟨(symbol, timeframe, candle.t), candle.ohlcv⟩ ∧ sinceMs ≤ candle.t ∧
        candle.t < untilMs := by
  obtain ⟨⟨rowSymbol, rowTimeframe, ts⟩, ohlcv⟩ := row
  obtain ⟨t, values⟩ := candle
  simp only [candleOf, Option.ite_none_right_eq_some, Option.some.injEq, Candle.mk.injEq,
    Sigma.mk.injEq, Prod.mk.injEq, heq_eq_eq]
  constructor
  · rintro ⟨⟨rfl, rfl, hsince, huntil⟩, rfl, rfl⟩
    exact ⟨⟨⟨rfl, rfl, rfl⟩, rfl⟩, hsince, huntil⟩
  · rintro ⟨⟨⟨rfl, rfl, rfl⟩, rfl⟩, hsince, huntil⟩
    exact ⟨⟨rfl, rfl, hsince, huntil⟩, rfl, rfl⟩

/-- **`get_range` returns the rows of the range.** -/
theorem mem_getRange {candle : Candle} :
    candle ∈ cache.getRange symbol timeframe sinceMs untilMs ↔
      cache.lookup (symbol, timeframe, candle.t) = some candle.ohlcv ∧ sinceMs ≤ candle.t ∧
        candle.t < untilMs := by
  rw [CandleCache.getRange, (sortBy_perm _ _).mem_iff, List.mem_filterMap]
  simp only [candleOf_eq_some]
  constructor
  · rintro ⟨row, hrow, rfl, hrange⟩
    exact ⟨AList.mem_lookup_iff.mpr hrow, hrange⟩
  · rintro ⟨hrow, hrange⟩
    exact ⟨_, AList.mem_lookup_iff.mp hrow, rfl, hrange⟩

/-- `get_range` returns each time once, ascending. -/
theorem getRange_ascending (cache : CandleCache) (symbol : Symbol) (timeframe : Timeframe)
    (sinceMs untilMs : ℤ) :
    (cache.getRange symbol timeframe sinceMs untilMs).Pairwise fun a b => a.t < b.t := by
  refine sortBy_strict (List.pairwise_map.mpr ?_)
  have hkeys : cache.entries.Pairwise fun a b => a.1 ≠ b.1 :=
    List.nodupKeys_iff_pairwise.mp cache.nodupKeys
  refine hkeys.filterMap _ fun row row' hne candle hrow candle' hrow' heq => hne ?_
  rw [(candleOf_eq_some.mp hrow).1, (candleOf_eq_some.mp hrow').1, heq]

/-- **`put_many` writes the candles it is given and leaves the other rows.** -/
theorem lookup_putMany {candles : List Candle} {values : ℤ → Ohlcv}
    (hvalues : ∀ candle ∈ candles, candle.ohlcv = values candle.t) (rowSymbol : Symbol)
    (rowTimeframe : Timeframe) (ts : ℤ) :
    (cache.putMany symbol timeframe candles).lookup (rowSymbol, rowTimeframe, ts) =
      if rowSymbol = symbol ∧ rowTimeframe = timeframe ∧ ∃ candle ∈ candles, candle.t = ts then
        some (values ts)
      else cache.lookup (rowSymbol, rowTimeframe, ts) := by
  induction candles using List.reverseRecOn with
  | nil => simp [CandleCache.putMany]
  | append_singleton candles last ih =>
    have hlast : last.ohlcv = values last.t := hvalues last (by simp)
    have hput : cache.putMany symbol timeframe (candles ++ [last]) =
        (cache.putMany symbol timeframe candles).insert (symbol, timeframe, last.t) last.ohlcv :=
      List.foldl_append
    rw [hput]
    by_cases hkey : (rowSymbol, rowTimeframe, ts) = (symbol, timeframe, last.t)
    · obtain ⟨rfl, rfl, rfl⟩ : rowSymbol = symbol ∧ rowTimeframe = timeframe ∧ ts = last.t := by
        simpa using hkey
      rw [AList.lookup_insert, hlast, if_pos ⟨rfl, rfl, last, by simp, rfl⟩]
    · rw [AList.lookup_insert_ne hkey, ih fun candle hc => hvalues candle (by simp [hc])]
      refine if_congr (and_congr_right fun hsymbol => and_congr_right fun htimeframe => ?_) rfl rfl
      have hts : last.t ≠ ts := fun h => hkey (by rw [hsymbol, htimeframe, h])
      simp [or_and_right, exists_or, hts]

end Cache

/-! ## What the exchange sends -/

section Pages

variable {timeframe : Timeframe} {shown : ℤ → Ohlcv} {now untilMs : ℤ}

/-- An attempt that brings a page is what the request brings. -/
theorem attemptsFrom_ok {request : ℕ → Except FetchError (List Candle)} {raw : List Candle}
    {attempt left : ℕ} (h : attemptsFrom request attempt left = .ok raw) :
    ∃ k, request k = .ok raw := by
  induction left generalizing attempt with
  | zero => exact ⟨attempt, h⟩
  | succ left ih =>
    rw [attemptsFrom] at h
    split at h
    · exact ih h
    · exact ⟨attempt, h⟩

/-- A candle as the exchange shows it that opened by now, from a time on. -/
def Opened (timeframe : Timeframe) (shown : ℤ → Ohlcv) (now since : ℤ) (candle : Candle) : Prop :=
  timeframeToMs timeframe ∣ candle.t ∧ since ≤ candle.t ∧ candle.t ≤ now ∧
    candle.ohlcv = shown candle.t

/-- The last candle of a page opens at the last time of the page. -/
theorem openedCandles_getLast? {cursor : ℤ} {last : Candle}
    (h : (openedCandles timeframe shown now cursor).getLast? = some last) :
    ((multiples (timeframeToMs timeframe) cursor (now + 1)).take pageLimit).getLast? =
      some last.t := by
  rw [openedCandles, List.getLast?_map, Option.map_eq_some_iff] at h
  obtain ⟨t, ht, rfl⟩ := h
  exact ht

/-- **A page ends where its last candle opens.**  Its candles are those that opened from its
cursor up to that time. -/
theorem mem_openedCandles {cursor : ℤ} {last candle : Candle}
    (h : (openedCandles timeframe shown now cursor).getLast? = some last) :
    candle ∈ openedCandles timeframe shown now cursor ↔
      Opened timeframe shown now cursor candle ∧ candle.t ≤ last.t := by
  have hms := timeframeToMs_pos timeframe
  have htake := fun t => mem_take_of_ascending (x := t)
    (multiples_ascending hms cursor (now + 1)) (openedCandles_getLast? h)
  simp only [openedCandles, List.mem_map, htake, mem_multiples hms, Int.lt_add_one_iff]
  obtain ⟨t, ohlcv⟩ := candle
  simp only [Candle.mk.injEq, Opened]
  constructor
  · rintro ⟨t, ⟨⟨hdvd, hcursor, hnow⟩, hlast⟩, rfl, rfl⟩
    exact ⟨⟨hdvd, hcursor, hnow, rfl⟩, hlast⟩
  · rintro ⟨⟨hdvd, hcursor, hnow, rfl⟩, hlast⟩
    exact ⟨t, ⟨⟨hdvd, hcursor, hnow⟩, hlast⟩, rfl, rfl⟩

theorem opened_last {cursor : ℤ} {last : Candle}
    (h : (openedCandles timeframe shown now cursor).getLast? = some last) :
    Opened timeframe shown now cursor last :=
  ((mem_openedCandles h).mp (List.mem_of_getLast? h)).1

/-- An empty page means that no candle opened from its cursor on. -/
theorem not_opened_of_nil {cursor : ℤ}
    (h : (openedCandles timeframe shown now cursor).getLast? = none) (candle : Candle) :
    ¬Opened timeframe shown now cursor candle := by
  have hms := timeframeToMs_pos timeframe
  rw [List.getLast?_eq_none_iff, openedCandles, List.map_eq_nil_iff, List.take_eq_nil_iff] at h
  have hnil : multiples (timeframeToMs timeframe) cursor (now + 1) = [] :=
    h.resolve_left (by decide)
  rintro ⟨hdvd, hcursor, hnow, -⟩
  have ht := (mem_multiples hms).mpr ⟨hdvd, hcursor, Int.lt_add_one_iff.mpr hnow⟩
  rw [hnil] at ht
  cases ht

/-- The candles that opened from a cursor on are those of its page and those that opened from
the next cursor on. -/
theorem opened_iff_page_or_next {cursor : ℤ} {last : Candle}
    (h : (openedCandles timeframe shown now cursor).getLast? = some last) (candle : Candle) :
    Opened timeframe shown now cursor candle ↔
      candle ∈ openedCandles timeframe shown now cursor ∨
        Opened timeframe shown now (last.t + timeframeToMs timeframe) candle := by
  have hms := timeframeToMs_pos timeframe
  obtain ⟨hlastDvd, hlastCursor, -, -⟩ := opened_last h
  rw [mem_openedCandles h]
  constructor
  · rintro hopened
    rcases le_or_gt candle.t last.t with hle | hlt
    · exact .inl ⟨hopened, hle⟩
    · obtain ⟨hdvd, -, hrest⟩ := hopened
      exact .inr ⟨hdvd, add_step_le hlastDvd hdvd hlt, hrest⟩
  · rintro (⟨hopened, -⟩ | ⟨hdvd, hnext, hrest⟩)
    · exact hopened
    · exact ⟨hdvd, by omega, hrest⟩

variable {page : ℤ → Except FetchError (List Candle)}

/-- **The pages bring the candles that opened in the range.**  Each page goes on where the one
before it ended. -/
theorem mem_fetchPages
    (hpage : ∀ cursor raw, page cursor = .ok raw →
      raw = openedCandles timeframe shown now cursor)
    {cursor : ℤ} {fetched result : List Candle}
    (h : fetchPages page (timeframeToMs timeframe) untilMs cursor fetched = .ok result)
    (candle : Candle) :
    candle ∈ result ↔
      candle ∈ fetched ∨ Opened timeframe shown now cursor candle ∧ candle.t < untilMs := by
  have hms := timeframeToMs_pos timeframe
  fun_induction fetchPages page (timeframeToMs timeframe) untilMs cursor fetched with
  | case1 => cases h
  | case2 cursor fetched hcursor raw hraw hlast =>
    cases h
    rw [hpage cursor raw hraw] at hlast
    simp [not_opened_of_nil hlast candle]
  | case3 cursor fetched hcursor raw hraw last hlast more next hback =>
    -- a page never ends before its cursor
    rw [hpage cursor raw hraw] at hlast
    obtain ⟨-, hlastCursor, -⟩ := opened_last hlast
    exact absurd hback (by omega)
  | case4 cursor fetched hcursor raw hraw last hlast more next hforth ih =>
    cases hpage cursor raw hraw
    refine (ih h).trans ?_
    rw [opened_iff_page_or_next hlast]
    simp only [more, next, List.mem_append, List.mem_filter, decide_eq_true_eq, or_and_right,
      or_assoc]
  | case5 cursor fetched hdone =>
    cases h
    refine ⟨.inl, fun hmem => hmem.elim id ?_⟩
    rintro ⟨⟨-, hcursor, -⟩, huntil⟩
    exact absurd (hcursor.trans_lt huntil) hdone

/-- **The loop ends with a result when every page arrives.** -/
theorem fetchPages_total (hanswered : ∀ cursor, ∃ raw, page cursor = .ok raw)
    (timeframeMs cursor : ℤ) (fetched : List Candle) :
    ∃ result, fetchPages page timeframeMs untilMs cursor fetched = .ok result := by
  fun_induction fetchPages page timeframeMs untilMs cursor fetched with
  | case1 cursor _ _ e herror =>
    obtain ⟨raw, hraw⟩ := hanswered cursor
    rw [hraw] at herror
    cases herror
  | case2 => exact ⟨_, rfl⟩
  | case3 => exact ⟨_, rfl⟩
  | case4 _ _ _ _ _ _ _ _ _ _ ih => exact ih
  | case5 => exact ⟨_, rfl⟩

end Pages

/-! ## One call -/

variable {market : Market}

/-- A call of `fetch_history` and the exchange as it finds it. -/
structure HistoryCall (market : Market) where
  symbol : Symbol
  timeframe : Timeframe
  sinceMs : ℤ
  untilMs : ℤ
  exchange : Exchange market

namespace HistoryCall

/-- What the call returns or raises. -/
def result (call : HistoryCall market) (cache : CandleCache) : Except FetchError (List Candle) :=
  (fetchHistory call.exchange call.symbol call.timeframe call.sinceMs call.untilMs cache).1

/-- The cache the call leaves. -/
def step (cache : CandleCache) (call : HistoryCall market) : CandleCache :=
  (fetchHistory call.exchange call.symbol call.timeframe call.sinceMs call.untilMs cache).2

/-- The times of the range whose candles have closed. -/
def closedTimes (call : HistoryCall market) : List ℤ :=
  (multiples (timeframeToMs call.timeframe) call.sinceMs call.untilMs).filter fun t =>
    t + timeframeToMs call.timeframe ≤ call.exchange.now

/-- The closed candles of the range. -/
def closedCandles (call : HistoryCall market) : List Candle :=
  call.closedTimes.map fun t => { t, ohlcv := market call.symbol call.timeframe t }

/-- The rows the cache has of the range. -/
def cached (call : HistoryCall market) (cache : CandleCache) : List Candle :=
  cache.getRange call.symbol call.timeframe call.sinceMs call.untilMs

/-- The number of candles the call expects. -/
def expected (call : HistoryCall market) : ℤ :=
  (call.untilMs - call.sinceMs) / timeframeToMs call.timeframe

/-- When the candle opened that still forms. -/
def formingOpen (call : HistoryCall market) : ℤ :=
  call.exchange.now / timeframeToMs call.timeframe * timeframeToMs call.timeframe

/-- The call does not raise. -/
def Returns (call : HistoryCall market) (cache : CandleCache) : Prop :=
  ∃ candles, call.result cache = .ok candles

/-- Every request is answered within its attempts. -/
def Answered (call : HistoryCall market) : Prop :=
  ∀ cursor, ∃ raw,
    fetchOhlcvWithRetry call.exchange call.symbol call.timeframe cursor = .ok raw

/-- What the call returns, if it does, is the closed candles of the range. -/
def Exact (cache : CandleCache) (call : HistoryCall market) : Prop :=
  ∀ candles, call.result cache = .ok candles → candles = call.closedCandles

/-- The cache has as many rows as expected, and the range one closed candle more. -/
def MiscountedBy (call : HistoryCall market) (cache : CandleCache) : Prop :=
  ((call.cached cache).length : ℤ) = call.expected ∧
    (call.closedTimes.length : ℤ) = call.expected + 1

/-- The cache has fewer rows than expected, and the candle that still forms is in the range. -/
def AsksForForming (call : HistoryCall market) (cache : CandleCache) : Prop :=
  ((call.cached cache).length : ℤ) < call.expected ∧ call.sinceMs ≤ call.formingOpen ∧
    call.formingOpen < call.untilMs

/-- At a call that returns, the cache is not miscounted and the forming candle is not asked for. -/
def Spared (cache : CandleCache) (call : HistoryCall market) : Prop :=
  call.Returns cache → ¬call.MiscountedBy cache ∧ ¬call.AsksForForming cache

end HistoryCall

/-- The cache holds final values of candles that have closed, and nothing else. -/
def FinalValues (market : Market) (now : ℤ) (cache : CandleCache) : Prop :=
  ∀ symbol timeframe t ohlcv, cache.lookup (symbol, timeframe, t) = some ohlcv →
    timeframeToMs timeframe ∣ t ∧ t + timeframeToMs timeframe ≤ now ∧
      ohlcv = market symbol timeframe t

theorem finalValues_empty (market : Market) (now : ℤ) : FinalValues market now ∅ := by
  intro symbol timeframe t ohlcv h
  simp at h

theorem FinalValues.mono {now later : ℤ} {cache : CandleCache}
    (h : FinalValues market now cache) (hle : now ≤ later) : FinalValues market later cache := by
  intro symbol timeframe t ohlcv hrow
  obtain ⟨hdvd, hclosed, hvalue⟩ := h symbol timeframe t ohlcv hrow
  exact ⟨hdvd, hclosed.trans hle, hvalue⟩

variable {call : HistoryCall market} {cache : CandleCache}

theorem mem_closedCandles {candle : Candle} :
    candle ∈ call.closedCandles ↔
      (timeframeToMs call.timeframe ∣ candle.t ∧
        candle.t + timeframeToMs call.timeframe ≤ call.exchange.now ∧
        candle.ohlcv = market call.symbol call.timeframe candle.t) ∧
      call.sinceMs ≤ candle.t ∧ candle.t < call.untilMs := by
  obtain ⟨t, ohlcv⟩ := candle
  simp only [HistoryCall.closedCandles, HistoryCall.closedTimes, List.mem_map, List.mem_filter,
    mem_multiples (timeframeToMs_pos _), decide_eq_true_eq, Candle.mk.injEq]
  constructor
  · rintro ⟨t, ⟨⟨hdvd, hsince, huntil⟩, hclosed⟩, rfl, rfl⟩
    exact ⟨⟨hdvd, hclosed, rfl⟩, hsince, huntil⟩
  · rintro ⟨⟨hdvd, hclosed, rfl⟩, hsince, huntil⟩
    exact ⟨t, ⟨⟨hdvd, hsince, huntil⟩, hclosed⟩, rfl, rfl⟩

theorem closedCandles_ascending (call : HistoryCall market) :
    call.closedCandles.Pairwise fun a b => a.t < b.t :=
  List.pairwise_map.mpr ((multiples_ascending (timeframeToMs_pos _) _ _).filter _)

/-- A multiple of the timeframe is when the forming candle opened exactly if it has opened and
not closed. -/
theorem eq_formingOpen_iff {t : ℤ} (hdvd : timeframeToMs call.timeframe ∣ t) :
    t = call.formingOpen ↔
      t ≤ call.exchange.now ∧ call.exchange.now < t + timeframeToMs call.timeframe := by
  have hms := timeframeToMs_pos call.timeframe
  obtain ⟨i, rfl⟩ := hdvd
  rw [HistoryCall.formingOpen, mul_comm (timeframeToMs call.timeframe) i, mul_left_inj' hms.ne',
    eq_comm, Int.ediv_eq_iff_of_pos hms]

/-! ### Served from the cache -/

/-- **Enough rows are returned as they are.** -/
theorem result_of_cached (h : call.expected ≤ (call.cached cache).length) :
    call.result cache = .ok (call.cached cache) ∧ call.step cache = cache := by
  have hcall : fetchHistory call.exchange call.symbol call.timeframe call.sinceMs call.untilMs
      cache = (.ok (call.cached cache), cache) := if_pos h
  rw [HistoryCall.result, HistoryCall.step, hcall]
  exact ⟨rfl, rfl⟩

/-- A cached row of the range is a closed candle of it. -/
theorem mem_closedCandles_of_cached (hfinal : FinalValues market call.exchange.now cache)
    {candle : Candle} (h : candle ∈ call.cached cache) : candle ∈ call.closedCandles := by
  obtain ⟨hrow, hrange⟩ := mem_getRange.mp h
  exact mem_closedCandles.mpr ⟨hfinal _ _ _ _ hrow, hrange⟩

/-- The cached rows are among the closed candles of the range. -/
theorem cached_subperm (hfinal : FinalValues market call.exchange.now cache) :
    (call.cached cache).Subperm call.closedCandles := by
  have hnodup : (call.cached cache).Nodup :=
    (getRange_ascending cache _ _ _ _).imp fun h heq => (heq ▸ h).false
  exact List.subperm_of_subset hnodup fun _ => mem_closedCandles_of_cached hfinal

/-- The cached rows of the range are no more than its closed candles. -/
theorem cached_length_le (hfinal : FinalValues market call.exchange.now cache) :
    (call.cached cache).length ≤ call.closedTimes.length :=
  (cached_subperm hfinal).length_le.trans (List.length_map _).le

/-- The cached rows are the closed candles of the range when there are as many. -/
theorem cached_eq_iff (hfinal : FinalValues market call.exchange.now cache) :
    call.cached cache = call.closedCandles ↔
      call.closedTimes.length ≤ (call.cached cache).length := by
  have hlength : call.closedCandles.length = call.closedTimes.length := List.length_map _
  constructor
  · intro heq
    rw [heq, hlength]
  · intro hle
    have hperm := (cached_subperm hfinal).perm_of_length_le (hlength.le.trans hle)
    exact eq_of_mem_iff_of_strict (getRange_ascending cache _ _ _ _)
      (closedCandles_ascending call) fun _ => hperm.mem_iff

/-- **The count expected is at most one too low**, and no candle is missed in an empty range. -/
theorem closedTimes_length_le (call : HistoryCall market) (h : call.closedTimes ≠ []) :
    (call.closedTimes.length : ℤ) ≤ call.expected + 1 := by
  have hms := timeframeToMs_pos call.timeframe
  obtain ⟨t, ht⟩ := List.exists_mem_of_ne_nil _ h
  obtain ⟨-, hsince, huntil⟩ := (mem_multiples hms).mp (List.mem_of_mem_filter ht)
  have hrange : call.sinceMs ≤ call.untilMs := by omega
  have hfilter : (call.closedTimes.length : ℤ) ≤
      (multiples (timeframeToMs call.timeframe) call.sinceMs call.untilMs).length :=
    Int.ofNat_le.mpr (List.length_filter_le _ _)
  exact hfilter.trans (length_multiples_le hms hrange)

/-- **A call the cache serves is exact unless the counts agree with a candle missing.** -/
theorem exact_of_cached_iff (hfinal : FinalValues market call.exchange.now cache)
    (h : call.expected ≤ (call.cached cache).length) :
    HistoryCall.Exact cache call ↔ ¬call.MiscountedBy cache := by
  obtain ⟨hresult, -⟩ := result_of_cached h
  have hexact : HistoryCall.Exact cache call ↔ call.cached cache = call.closedCandles := by
    rw [HistoryCall.Exact, hresult]
    simp only [Except.ok.injEq, forall_eq']
  have hatMost := cached_length_le hfinal
  rw [hexact, cached_eq_iff hfinal, HistoryCall.MiscountedBy]
  constructor
  · rintro hle ⟨hcount, hmore⟩
    omega
  · intro hspared
    by_contra hless
    have hbound := closedTimes_length_le call fun hnil => hless (by rw [hnil]; exact Nat.zero_le _)
    exact hspared ⟨by omega, by omega⟩

/-! ### Asked of the exchange -/

/-- The candles of the range that opened, as the exchange shows them. -/
def OpenedInRange (call : HistoryCall market) (candle : Candle) : Prop :=
  Opened call.timeframe (call.exchange.shown call.symbol call.timeframe) call.exchange.now
    call.sinceMs candle ∧ candle.t < call.untilMs

theorem fetchOhlcvWithRetry_ok {cursor : ℤ} {raw : List Candle}
    (h : fetchOhlcvWithRetry call.exchange call.symbol call.timeframe cursor = .ok raw) :
    raw = openedCandles call.timeframe (call.exchange.shown call.symbol call.timeframe)
      call.exchange.now cursor := by
  obtain ⟨attempt, hanswer⟩ := attemptsFrom_ok h
  exact call.exchange.answers _ _ _ _ _ hanswer

/-- **Too few rows are filled up.**  A request that fails leaves the cache; otherwise the cache
has the candles of the range that opened, and the range of it is returned. -/
theorem result_of_fetched (h : ((call.cached cache).length : ℤ) < call.expected) :
    (¬call.Answered ∧ (∃ e, call.result cache = .error e) ∧ call.step cache = cache) ∨
      ∃ fetched, (∀ candle, candle ∈ fetched ↔ OpenedInRange call candle) ∧
        call.step cache = cache.putMany call.symbol call.timeframe fetched ∧
        call.result cache = .ok (call.cached (call.step cache)) := by
  have hfetch : ¬call.expected ≤ (call.cached cache).length := not_le.mpr h
  cases hpages : fetchPages
      (fetchOhlcvWithRetry call.exchange call.symbol call.timeframe)
      (timeframeToMs call.timeframe) call.untilMs call.sinceMs [] with
  | error e =>
    have hcall : fetchHistory call.exchange call.symbol call.timeframe call.sinceMs call.untilMs
        cache = (.error e, cache) := by
      rw [fetchHistory]
      exact (if_neg hfetch).trans (by rw [hpages])
    left
    rw [HistoryCall.result, HistoryCall.step, hcall]
    refine ⟨fun hanswered => ?_, ⟨e, rfl⟩, rfl⟩
    obtain ⟨fetched, hfetched⟩ := fetchPages_total hanswered _ _ []
    rw [hpages] at hfetched
    cases hfetched
  | ok fetched =>
    have hput : (if fetched = [] then cache else cache.putMany call.symbol call.timeframe fetched)
        = cache.putMany call.symbol call.timeframe fetched := by
      split
      · rename_i hnil
        rw [hnil]
        rfl
      · rfl
    have hcall : fetchHistory call.exchange call.symbol call.timeframe call.sinceMs call.untilMs
        cache = (.ok (call.cached (cache.putMany call.symbol call.timeframe fetched)),
          cache.putMany call.symbol call.timeframe fetched) := by
      rw [fetchHistory]
      exact (if_neg hfetch).trans (by rw [hpages]; simp only [hput]; rfl)
    right
    refine ⟨fetched, fun candle => ?_, ?_, ?_⟩
    · have hmem := mem_fetchPages (fun cursor raw => fetchOhlcvWithRetry_ok) hpages candle
      simpa [OpenedInRange] using hmem
    · rw [HistoryCall.step, hcall]
    · rw [HistoryCall.result, HistoryCall.step, hcall]

/-- A closed candle has opened, and the exchange shows its final values. -/
theorem opened_of_closed {candle : Candle} (h : candle ∈ call.closedCandles) :
    OpenedInRange call candle := by
  have hms := timeframeToMs_pos call.timeframe
  obtain ⟨⟨hdvd, hclosed, hvalue⟩, hsince, huntil⟩ := mem_closedCandles.mp h
  refine ⟨⟨hdvd, hsince, by omega, ?_⟩, huntil⟩
  rw [hvalue, call.exchange.shown_closed _ _ _ hdvd hclosed]

/-- A candle of the range that opened has closed, or it is the one that still forms. -/
theorem closed_or_forming {candle : Candle} (h : OpenedInRange call candle) :
    candle ∈ call.closedCandles ∨ candle.t = call.formingOpen := by
  obtain ⟨⟨hdvd, hsince, hopened, hvalue⟩, huntil⟩ := h
  rcases le_or_gt (candle.t + timeframeToMs call.timeframe) call.exchange.now with hclosed | hopen
  · rw [call.exchange.shown_closed _ _ _ hdvd hclosed] at hvalue
    exact .inl (mem_closedCandles.mpr ⟨⟨hdvd, hclosed, hvalue⟩, hsince, huntil⟩)
  · exact .inr ((eq_formingOpen_iff hdvd).mpr ⟨hopened, hopen⟩)

/-- **After the pages, the range of the cache is the candles that opened.** -/
theorem mem_cached_step (hfinal : FinalValues market call.exchange.now cache)
    {fetched : List Candle} (hfetched : ∀ candle, candle ∈ fetched ↔ OpenedInRange call candle)
    (candle : Candle) :
    candle ∈ call.cached (cache.putMany call.symbol call.timeframe fetched) ↔
      OpenedInRange call candle := by
  have hvalues : ∀ candle ∈ fetched,
      candle.ohlcv = call.exchange.shown call.symbol call.timeframe candle.t := by
    intro candle hcandle
    obtain ⟨⟨-, -, -, hvalue⟩, -⟩ := (hfetched candle).mp hcandle
    exact hvalue
  rw [HistoryCall.cached, mem_getRange, lookup_putMany hvalues]
  split
  · rename_i hkey
    obtain ⟨-, -, other, hother, hsame⟩ := hkey
    obtain ⟨⟨hdvd, hsince, hopened, -⟩, huntil⟩ := (hfetched other).mp hother
    rw [hsame] at hdvd hsince hopened huntil
    simp only [Option.some.injEq, OpenedInRange, Opened, hdvd, hsince, hopened, huntil, true_and,
      and_true]
    exact eq_comm
  · rename_i hkey
    -- a row of the range that was not written would be a closed candle, and those are
    have hmissing : ∀ candle', OpenedInRange call candle' → candle'.t ≠ candle.t :=
      fun candle' h' heq => hkey ⟨rfl, rfl, candle', (hfetched candle').mpr h', heq⟩
    constructor
    · rintro ⟨hrow, hrange⟩
      have hclosed := mem_closedCandles.mpr ⟨hfinal _ _ _ _ hrow, hrange⟩
      exact absurd rfl (hmissing candle (opened_of_closed hclosed))
    · intro hopened
      exact absurd rfl (hmissing candle hopened)

/-- **A call the exchange serves is exact unless the range has the candle that forms.** -/
theorem exact_of_fetched_iff (hfinal : FinalValues market call.exchange.now cache)
    (h : ((call.cached cache).length : ℤ) < call.expected) :
    HistoryCall.Exact cache call ↔ (call.Returns cache → ¬call.AsksForForming cache) := by
  rcases result_of_fetched h with ⟨-, ⟨e, hresult⟩, -⟩ | ⟨fetched, hfetched, hstep, hresult⟩
  · rw [HistoryCall.Exact, HistoryCall.Returns, hresult]
    simp
  have hmem := fun candle => mem_cached_step hfinal hfetched candle
  rw [← hstep] at hmem
  have hexact : HistoryCall.Exact cache call ↔
      call.cached (call.step cache) = call.closedCandles := by
    rw [HistoryCall.Exact, hresult]
    simp only [Except.ok.injEq, forall_eq']
  have hreturns : call.Returns cache := ⟨_, hresult⟩
  rw [hexact, HistoryCall.AsksForForming]
  simp only [hreturns, h, forall_const, true_and]
  constructor
  · rintro heq ⟨hsince, huntil⟩
    -- the candle that forms is returned, so it would have closed
    have hdvd : timeframeToMs call.timeframe ∣ call.formingOpen := dvd_mul_left _ _
    obtain ⟨hopened, hopen⟩ := (eq_formingOpen_iff hdvd).mp rfl
    have hforming : OpenedInRange call ⟨call.formingOpen,
        call.exchange.shown call.symbol call.timeframe call.formingOpen⟩ :=
      ⟨⟨hdvd, hsince, hopened, rfl⟩, huntil⟩
    have hclosed := (hmem _).mpr hforming
    rw [heq] at hclosed
    obtain ⟨⟨-, hclosed, -⟩, -⟩ := mem_closedCandles.mp hclosed
    exact hopen.not_ge hclosed
  · intro hspared
    refine eq_of_mem_iff_of_strict (getRange_ascending _ _ _ _ _) (closedCandles_ascending call)
      fun candle => (hmem candle).trans ⟨fun hopened => ?_, opened_of_closed⟩
    obtain hclosed | hforming := closed_or_forming hopened
    · exact hclosed
    · obtain ⟨⟨-, hsince, -⟩, huntil⟩ := hopened
      rw [hforming] at hsince huntil
      exact absurd ⟨hsince, huntil⟩ hspared

/-! ### Either way -/

/-- **When a call is exact**, from a cache of final values. -/
theorem exact_iff_spared (hfinal : FinalValues market call.exchange.now cache) :
    HistoryCall.Exact cache call ↔ HistoryCall.Spared cache call := by
  rw [HistoryCall.Spared]
  rcases le_or_gt call.expected (call.cached cache).length with hcached | hfetch
  · have hreturns : call.Returns cache := ⟨_, (result_of_cached hcached).1⟩
    have hnone : ¬call.AsksForForming cache := fun h => h.1.not_ge hcached
    rw [exact_of_cached_iff hfinal hcached]
    simp [hreturns, hnone]
  · have hnone : ¬call.MiscountedBy cache := fun h => hfetch.ne h.1
    rw [exact_of_fetched_iff hfinal hfetch]
    simp [hnone]

/-- **A spared call leaves final values.** -/
theorem finalValues_step (hfinal : FinalValues market call.exchange.now cache)
    (hspared : HistoryCall.Spared cache call) :
    FinalValues market call.exchange.now (call.step cache) := by
  rcases le_or_gt call.expected (call.cached cache).length with hcached | hfetch
  · rwa [(result_of_cached hcached).2]
  rcases result_of_fetched hfetch with ⟨-, -, hstep⟩ | ⟨fetched, hfetched, hstep, hresult⟩
  · rwa [hstep]
  obtain ⟨-, hnone⟩ := hspared ⟨_, hresult⟩
  have hclosed : ∀ candle ∈ fetched, candle ∈ call.closedCandles := by
    intro candle hcandle
    have hopened := (hfetched candle).mp hcandle
    refine (closed_or_forming hopened).resolve_right fun hforming => hnone ⟨hfetch, ?_⟩
    obtain ⟨⟨-, hsince, -⟩, huntil⟩ := hopened
    rw [hforming] at hsince huntil
    exact ⟨hsince, huntil⟩
  have hvalues : ∀ candle ∈ fetched,
      candle.ohlcv = market call.symbol call.timeframe candle.t :=
    fun candle hcandle => (mem_closedCandles.mp (hclosed candle hcandle)).1.2.2
  rw [hstep]
  intro symbol timeframe t ohlcv hrow
  rw [lookup_putMany hvalues] at hrow
  split at hrow
  · rename_i hkey
    obtain ⟨rfl, rfl, candle, hcandle, rfl⟩ := hkey
    obtain ⟨hdvd, hend, -⟩ := (mem_closedCandles.mp (hclosed candle hcandle)).1
    exact ⟨hdvd, hend, (Option.some.inj hrow).symm⟩
  · exact hfinal symbol timeframe t ohlcv hrow

theorem returns_of_answered (cache : CandleCache) (h : call.Answered) : call.Returns cache := by
  rcases le_or_gt call.expected (call.cached cache).length with hcached | hfetch
  · exact ⟨_, (result_of_cached hcached).1⟩
  rcases result_of_fetched hfetch with ⟨hunanswered, -⟩ | ⟨fetched, -, -, hresult⟩
  · exact absurd h hunanswered
  · exact ⟨_, hresult⟩

/-! ## A run of calls -/

/-- **What a run of `fetch_history` calls returns.**  In any run from an empty cache, every call
that returns gives exactly the closed candles of its range if and only if every one of them is
spared; and a call returns when its requests are answered. -/
theorem history_exact_iff (market : Market) (calls : List (HistoryCall market))
    (hclock : calls.Pairwise fun a b => a.exchange.now ≤ b.exchange.now) :
    (AllSteps HistoryCall.step HistoryCall.Exact ∅ calls ↔
      AllSteps HistoryCall.step HistoryCall.Spared ∅ calls) ∧
    ∀ (call : HistoryCall market) (cache : CandleCache), call.Answered → call.Returns cache := by
  refine ⟨?_, fun call cache => returns_of_answered cache⟩
  -- at every call to come, the cache holds final values and the calls are in order
  refine @allSteps_congr _ _ _ _ _
    (fun cache calls => (∀ call ∈ calls, FinalValues market call.exchange.now cache) ∧
      calls.Pairwise fun a b => a.exchange.now ≤ b.exchange.now) ?_ ?_ _ _
    ⟨fun call _ => finalValues_empty market _, hclock⟩
  · rintro cache call rest ⟨hfinal, -⟩
    exact exact_iff_spared (hfinal call List.mem_cons_self)
  · rintro cache call rest ⟨hfinal, hordered⟩ hspared
    have hstep := finalValues_step (hfinal call List.mem_cons_self) hspared
    obtain ⟨hlater, hrest⟩ := List.pairwise_cons.mp hordered
    exact ⟨fun next hnext => hstep.mono (hlater next hnext), hrest⟩

/-- An exchange that answers every request at once, with one preview of the forming candle. -/
def answeringExchange (market : Market) (preview : Ohlcv) (now : ℤ) : Exchange market where
  now
  shown symbol timeframe t :=
    if t + timeframeToMs timeframe ≤ now then market symbol timeframe t else preview
  fetchOhlcv symbol timeframe since _ :=
    .ok (openedCandles timeframe
      (fun t => if t + timeframeToMs timeframe ≤ now then market symbol timeframe t else preview)
      now since)
  shown_closed _ _ _ _ hclosed := if_pos hclosed
  answers _ _ _ _ _ h := (Except.ok.inj h).symm

/-- The exchange that shows the given preview of the forming candle answers every call. -/
theorem answered_answeringExchange (market : Market) (preview : Ohlcv) (now : ℤ) (symbol : Symbol)
    (timeframe : Timeframe) (sinceMs untilMs : ℤ) :
    (HistoryCall.mk symbol timeframe sinceMs untilMs
      (answeringExchange market preview now)).Answered :=
  fun _ => ⟨_, rfl⟩

/-- Every candle closes where it opened. -/
def flatMarket : Market := fun _ _ _ => { o := 100, h := 101, l := 99, c := 100, v := 50 }

/-- A call for hourly candles of `flatMarket`, whose forming candle has traded little. -/
def hourlyCall (sinceMs untilMs now : ℤ) : HistoryCall flatMarket where
  symbol := "BTC/USDT"
  timeframe := { count := 1, unit := .h, pos := by decide }
  sinceMs
  untilMs
  exchange := answeringExchange flatMarket { o := 100, h := 100, l := 100, c := 100, v := 1 } now

/-- Two calls for ranges that are over. -/
theorem history_exact_iff_past :
    AllSteps HistoryCall.step HistoryCall.Exact ∅
      [hourlyCall 0 7200000 36000000, hourlyCall 3600000 10800000 39600000] := by
  refine (history_exact_iff flatMarket _ (by decide)).1.mpr ⟨?_, ?_, trivial⟩
  · exact fun _ => ⟨fun h => absurd h.2 (by decide), fun h => absurd h.2.2 (by decide)⟩
  · exact fun _ => ⟨fun h => absurd h.2 (by decide), fun h => absurd h.2.2 (by decide)⟩

/-- At half past one, a call for the first two hours returns the second candle as it forms; a
call for the half hour around three returns nothing, at any time. -/
theorem forming_candle_returned :
    (∃ candles, (hourlyCall 0 7200000 5400000).result ∅ = .ok candles ∧
      { t := 3600000, ohlcv := { o := 100, h := 100, l := 100, c := 100, v := 1 } } ∈ candles) ∧
    ¬HistoryCall.Exact ∅ (hourlyCall 0 7200000 5400000) ∧
    ¬HistoryCall.Exact ∅ (hourlyCall 9900000 11700000 36000000) := by
  have hanswered : ∀ sinceMs untilMs now, (hourlyCall sinceMs untilMs now).Answered :=
    fun _ _ _ => answered_answeringExchange _ _ _ _ _ _ _
  refine ⟨?_, fun hexact => ?_, fun hexact => ?_⟩
  · have hfetch : (((hourlyCall 0 7200000 5400000).cached ∅).length : ℤ) <
        (hourlyCall 0 7200000 5400000).expected := by decide
    obtain ⟨hunanswered, -⟩ | ⟨fetched, hfetched, hstep, hresult⟩ := result_of_fetched hfetch
    · exact absurd (hanswered _ _ _) hunanswered
    · rw [hstep] at hresult
      refine ⟨_, hresult, (mem_cached_step (finalValues_empty _ _) hfetched _).mpr ?_⟩
      exact ⟨⟨by decide, by decide, by decide, by decide⟩, by decide⟩
  · have hspared := (exact_iff_spared (finalValues_empty _ _)).mp hexact
    exact (hspared (returns_of_answered ∅ (hanswered _ _ _))).2 ⟨by decide, by decide, by decide⟩
  · have hspared := (exact_iff_spared (finalValues_empty _ _)).mp hexact
    exact (hspared (returns_of_answered ∅ (hanswered _ _ _))).1 ⟨by decide, by decide⟩

end TradeMind.Analysis
