import TradeMind.Analysis.NoLookahead
import TradeMind.Analysis.SignalReplay

/-!
# What the replay of the signals knows

Nor does the replay of the signals look ahead, with its sentiment, its requests and its cache, if
its lookback is at least two: with a lookback of one the first candle is decided, and the candle
before it is the last one fetched.  Each part of a close is the same over either history; the calls
of a close are, where the service and their order are the same up to the horizon.
-/

set_option autoImplicit false

namespace TradeMind.Analysis

open TradeMind.Library TradeMind.Model TradeMind.Model.Backtest

/-! ## Other histories and surroundings -/

/-- The replay of the signals over other histories, to another end. -/
def signalsWithHistories (replay : SignalReplay) (histories : Dict Symbol CandleSeries)
    (endMs : ℤ) : SignalReplay :=
  { replay with candlesBySymbol := histories, endMs }

/-- Two surroundings of a run are the same up to a horizon. -/
structure SurroundingsUntil (horizon : ℤ) (around around' : SignalReplay.Surroundings) : Prop where
  service : ∀ event : ReplayEvent, event.closeTs ≤ horizon →
    around.service event = around'.service event
  turns : ∀ closeTs ≤ horizon, around.turns closeTs = around'.turns closeTs

section Signals

variable {replay : SignalReplay} {horizon endMs : ℤ} {histories : Dict Symbol CandleSeries}
  {event : ReplayEvent} {group : List ReplayEvent}

/-- What an event up to the horizon is asked over other histories. -/
theorem requestAt_withHistories {series other : CandleSeries} (ledger : Ledger)
    (hlookup : replay.candlesBySymbol.lookup event.symbol = some series)
    (hother : histories.lookup event.symbol = some other)
    (hseen : EventSeen event series other) (hindex : 0 < event.index) :
    (signalsWithHistories replay histories endMs).requestAt ledger event =
      replay.requestAt ledger event := by
  have hcandle := hseen.candle le_rfl
  have hbefore := hseen.candle (Nat.sub_le event.index 1)
  simp only [SignalReplay.requestAt, SignalReplay.window, SignalReplay.candleAt,
    SignalReplay.candleBefore, signalsWithHistories, hlookup, hother, Option.map_some,
    Option.bind_some, hseen.taken _ le_rfl, hcandle, hbefore, if_neg hindex.ne']

theorem act_withHistories {series other : CandleSeries} (ledger : Ledger) (view : SignalView)
    (hlookup : replay.candlesBySymbol.lookup event.symbol = some series)
    (hother : histories.lookup event.symbol = some other)
    (hseen : EventSeen event series other) :
    (signalsWithHistories replay histories endMs).act ledger event view =
      replay.act ledger event view := by
  -- it looks at the next candle for its open alone
  have hopens : ((signalsWithHistories replay histories endMs).candleAt event.symbol
      (event.index + 1)).map (·.ohlcv.o) =
        (replay.candleAt event.symbol (event.index + 1)).map (·.ohlcv.o) := by
    simp only [SignalReplay.candleAt, signalsWithHistories, hlookup, hother, Option.bind_some,
      hseen.following]
  unfold SignalReplay.act
  generalize (signalsWithHistories replay histories endMs).candleAt event.symbol
    (event.index + 1) = next at hopens ⊢
  generalize replay.candleAt event.symbol (event.index + 1) = following at hopens ⊢
  cases following with
  | none =>
    cases next with
    | none => rfl
    | some candle => cases hopens
  | some candle =>
    cases next with
    | none => cases hopens
    | some candle' =>
      have hopen : candle'.ohlcv.o = candle.ohlcv.o := Option.some.inj hopens
      simp only [Option.bind_eq_bind, Option.bind_some, hopen]
      rfl

/-- The closes up to the horizon. -/
def closesUntil (replay : SignalReplay) (horizon : ℤ) : List (List ReplayEvent) :=
  replay.closes.filter fun group => group.all fun event => event.closeTs ≤ horizon

/-- The closes are those of the events up to the horizon, then those of the later ones. -/
theorem signalCloses_eq_append (replay : SignalReplay) (horizon : ℤ) :
    replay.closes =
      ((eventsUntil (asMechanical replay) horizon).splitBy fun a b => a.closeTs == b.closeTs) ++
        (eventsAfter (asMechanical replay) horizon).splitBy fun a b => a.closeTs == b.closeTs :=
  closes_eq_append (asMechanical replay) horizon

/-- The closes of the events up to the horizon are the closes up to it. -/
theorem closesUntil_eq (replay : SignalReplay) (horizon : ℤ) : closesUntil replay horizon =
    (eventsUntil (asMechanical replay) horizon).splitBy fun a b => a.closeTs == b.closeTs := by
  have hearly : ∀ group ∈ (eventsUntil (asMechanical replay) horizon).splitBy
      (fun a b => a.closeTs == b.closeTs),
      (group.all fun event => event.closeTs ≤ horizon) = true :=
    fun group hgroup => List.all_eq_true.mpr fun event hevent =>
      (List.mem_filter.mp (mem_of_mem_splitBy hgroup hevent)).2
  have hlate : ∀ group ∈ (eventsAfter (asMechanical replay) horizon).splitBy
      (fun a b => a.closeTs == b.closeTs),
      ¬ (group.all fun event => event.closeTs ≤ horizon) = true := by
    intro group hgroup hall
    obtain ⟨event, hevent⟩ := List.exists_mem_of_ne_nil group (List.ne_nil_of_mem_splitBy hgroup)
    have hafter := (List.mem_filter.mp (mem_of_mem_splitBy hgroup hevent)).2
    rw [List.all_eq_true.mp hall event hevent] at hafter
    cases hafter
  rw [closesUntil, signalCloses_eq_append replay horizon, List.filter_append,
    List.filter_eq_self.mpr hearly, List.filter_eq_nil_iff.mpr hlate, List.append_nil]

/-- What all events of a close up to the horizon have over either history: the candles up to
theirs, and one before it. -/
def GroupSeen (replay : SignalReplay) (histories : Dict Symbol CandleSeries)
    (group : List ReplayEvent) : Prop :=
  ∀ event ∈ group, 0 < event.index ∧ ∃ series other,
    replay.candlesBySymbol.lookup event.symbol = some series ∧
    histories.lookup event.symbol = some other ∧ EventSeen event series other

/-- From a lookback of two on, the first candle that is decided is not the first of the history. -/
theorem groupSeen (hlookback : 2 ≤ replay.candleLookback)
    (hagree : AgreeUntil (History.timeframeToMs replay.timeframe) horizon replay.candlesBySymbol
      histories)
    (hgroup : group ∈ closesUntil replay horizon) : GroupSeen replay histories group := by
  intro event hevent
  obtain ⟨hgroup, hall⟩ := List.mem_filter.mp hgroup
  have hmem : event ∈ (asMechanical replay).events := mem_events_of_mem_close hgroup hevent
  obtain ⟨series, -, hof⟩ := mem_events_iff.mp hmem
  have hfirst : replay.candleLookback - 1 ≤ event.index := (mem_eventsOf_iff.mp hof).2.1
  exact ⟨by omega,
    eventSeen hagree hmem (of_decide_eq_true (List.all_eq_true.mp hall event hevent))⟩

/-- The exits of a close over other histories. -/
theorem staticExits_withHistories (h : GroupSeen replay histories group) (ledger : Ledger) :
    (signalsWithHistories replay histories endMs).staticExits ledger group =
      replay.staticExits ledger group := by
  refine runPartial_congr (fun ledger event hevent => ?_) ledger
  obtain ⟨-, series, other, hlookup, hother, hseen⟩ := h event hevent
  have hcandle := hseen.candle le_rfl
  simp only [SignalReplay.candleAt, signalsWithHistories, hlookup, hother, Option.bind_some,
    hcandle]

/-- The requests of a close over other histories. -/
theorem requestsAt_withHistories (h : GroupSeen replay histories group) (ledger : Ledger) :
    (signalsWithHistories replay histories endMs).requestsAt ledger group =
      replay.requestsAt ledger group := by
  refine mapM_congr fun event hevent => ?_
  obtain ⟨hindex, series, other, hlookup, hother, hseen⟩ := h event hevent
  rw [requestAt_withHistories ledger hlookup hother hseen hindex]

/-- The decisions of a close over other histories. -/
theorem decideAll_withHistories (h : GroupSeen replay histories group)
    {results : List SignalReplay.Result} (hresults : ∀ result ∈ results, result.event ∈ group)
    (run : SignalRun) :
    (signalsWithHistories replay histories endMs).decideAll run results =
      replay.decideAll run results := by
  refine runPartial_congr (fun run result hresult => ?_) run
  obtain ⟨-, series, other, hlookup, hother, hseen⟩ := h result.event (hresults result hresult)
  have hcandle : (signalsWithHistories replay histories endMs).candleAt result.event.symbol
      result.event.index = replay.candleAt result.event.symbol result.event.index := by
    simp only [SignalReplay.candleAt, signalsWithHistories, hlookup, hother, Option.bind_some,
      hseen.candle le_rfl]
  simp only [SignalReplay.decide, hcandle, act_withHistories _ _ hlookup hother hseen]

variable {κ : Type} [DecidableEq κ] {key : SignalRequest → κ}
  {around around' : SignalReplay.Surroundings}

/-- The calls of a close in the same surroundings. -/
theorem gather_congr (hsame : SurroundingsUntil horizon around around')
    {requests : List (ReplayEvent × SignalRequest)}
    (hrequests : ∀ asked ∈ requests, asked.1.closeTs ≤ horizon) (cache : Dict κ SignalAnswer)
    {closeTs : ℤ} (hclose : closeTs ≤ horizon) :
    SignalReplay.gather key around cache closeTs requests =
      SignalReplay.gather key around' cache closeTs requests := by
  have hservice : (fun symbol => (SignalReplay.requestOf requests symbol).bind fun asked =>
        around.service asked.1 asked.2) =
      fun symbol => (SignalReplay.requestOf requests symbol).bind fun asked =>
        around'.service asked.1 asked.2 := by
    funext symbol
    cases hasked : SignalReplay.requestOf requests symbol with
    | none => rfl
    | some asked =>
      exact congrFun (hsame.service asked.1 (hrequests asked (requestOf_mem hasked).1)) asked.2
  unfold SignalReplay.gather
  rw [hservice, hsame.turns closeTs hclose]

theorem resultOf_event {asked : ReplayEvent × SignalRequest} {phase : CallPhase SignalAnswer}
    {result : SignalReplay.Result} (h : SignalReplay.resultOf asked phase = some result) :
    result.event = asked.1 := by
  cases phase with
  | waiting | sent => cases h
  | answered answer hit =>
    cases Option.some.inj h
    rfl
  | failed =>
    cases Option.some.inj h
    rfl

/-- **A close up to the horizon is the same over either history.** -/
theorem close_withHistories (hsame : SurroundingsUntil horizon around around')
    (hgroup : group ∈ closesUntil replay horizon) (hseen : GroupSeen replay histories group)
    (state : SignalRun × Dict κ SignalAnswer) :
    (signalsWithHistories replay histories endMs).close key around' state group =
      replay.close key around state group := by
  have hclose : ∀ event ∈ group, event.closeTs ≤ horizon := fun event hevent =>
    of_decide_eq_true (List.all_eq_true.mp (List.mem_filter.mp hgroup).2 event hevent)
  unfold SignalReplay.close
  rw [staticExits_withHistories hseen]
  cases replay.staticExits state.1.ledger group with
  | none => rfl
  | some ledger =>
    simp only [Option.bind_eq_bind, Option.bind_some]
    rw [requestsAt_withHistories hseen]
    cases hrequests : replay.requestsAt ledger group with
    | none => rfl
    | some requests =>
      have hasked : ∀ asked ∈ requests, asked.1 ∈ group := fun asked hasked =>
        requestsAt_events hrequests ▸ List.mem_map_of_mem hasked
      simp only [Option.bind_some]
      cases hhead : group.head?.map ReplayEvent.closeTs with
      | none => rfl
      | some closeTs =>
        obtain ⟨first, hfirst, rfl⟩ := Option.map_eq_some_iff.mp hhead
        simp only [Option.bind_some]
        rw [← gather_congr hsame (fun asked h => hclose _ (hasked asked h)) state.2
          (hclose first (List.mem_of_mem_head? hfirst))]
        cases hresults : requests.mapM fun asked => SignalReplay.resultOf asked
            ((SignalReplay.gather key around state.2 first.closeTs requests).phase
              asked.1.symbol) with
        | none => rfl
        | some results =>
          simp only [Option.bind_some]
          rw [decideAll_withHistories hseen]
          intro result hresult
          obtain ⟨asked, hmem, hof⟩ := mem_of_mapM hresults result hresult
          rw [resultOf_event hof]
          exact hasked asked hmem

/-- The results of a close are of its events. -/
theorem event_mem_of_results {ledger : Ledger} {requests : List (ReplayEvent × SignalRequest)}
    (hrequests : replay.requestsAt ledger group = some requests)
    {phase : Symbol → CallPhase SignalAnswer} {results : List SignalReplay.Result}
    (hresults : requests.mapM (fun asked => SignalReplay.resultOf asked
      (phase asked.1.symbol)) = some results) : ∀ result ∈ results, result.event ∈ group := by
  intro result hresult
  obtain ⟨asked, hmem, hof⟩ := mem_of_mapM hresults result hresult
  rw [resultOf_event hof, ← requestsAt_events hrequests]
  exact List.mem_map_of_mem hmem

/-! ## The stamps of the rows and the trades -/

theorem act_closesAt {ledger : Ledger} {view : SignalView} {out : Ledger × String × String}
    (h : replay.act ledger event view = some out) : ClosesAt event.now ledger out.1 := by
  unfold SignalReplay.act at h
  split at h
  · obtain ⟨following, -, h⟩ := Option.bind_eq_some_iff.mp h
    obtain ⟨⟨ledger', result, position⟩, hentry, h⟩ := Option.bind_eq_some_iff.mp h
    cases Option.some.inj h
    exact applyEntry_closesAt hentry
  · obtain ⟨following, -, h⟩ := Option.bind_eq_some_iff.mp h
    obtain ⟨⟨ledger', result, trade⟩, hexit, h⟩ := Option.bind_eq_some_iff.mp h
    cases Option.some.inj h
    exact applyExitSignal_closesAt hexit
  · cases Option.some.inj h
    exact .of_eq rfl

/-- The loop over the results adds a row for each. -/
theorem decide_stamps {run next : SignalRun} {result : SignalReplay.Result}
    (h : replay.decide run result.event result.request result.answer result.cacheHit =
      some next) :
    (∃ row, next.rows = run.rows ++ [row] ∧ row.timestamp = result.event.now) ∧
      ClosesAt result.event.now run.ledger next.ledger := by
  unfold SignalReplay.decide at h
  obtain ⟨action, -, h⟩ := Option.bind_eq_some_iff.mp h
  obtain ⟨confidence, -, h⟩ := Option.bind_eq_some_iff.mp h
  obtain ⟨latest, -, h⟩ := Option.bind_eq_some_iff.mp h
  obtain ⟨⟨ledger, outcome, reason⟩, hact, h⟩ := Option.bind_eq_some_iff.mp h
  cases Option.some.inj h
  exact ⟨⟨_, rfl, rfl⟩, act_closesAt hact⟩

/-- What a close adds to the rows is stamped with an event of it. -/
theorem close_rows : Logs (replay.close key around) (fun state => state.1.rows)
    fun group row => ∃ event ∈ group, row.timestamp = event.now := by
  intro state group next h
  obtain ⟨ledger, requests, closeTs, results, run, -, hrequests, -, hresults, hdecide, rfl⟩ :=
    close_eq_some h
  have hlogs : Logs (fun run (result : SignalReplay.Result) =>
      replay.decide run result.event result.request result.answer result.cacheHit)
      SignalRun.rows fun result row => row.timestamp = result.event.now := by
    intro run result next hstep
    obtain ⟨⟨row, hrow, hstamp⟩, -⟩ := decide_stamps hstep
    exact ⟨[row], hrow, fun a ha => List.mem_singleton.mp ha ▸ hstamp⟩
  obtain ⟨more, hmore, hstamps⟩ := hlogs.run hdecide
  refine ⟨more, hmore, fun row hrow => ?_⟩
  obtain ⟨result, hresult, hstamp⟩ := hstamps row hrow
  exact ⟨result.event, event_mem_of_results hrequests hresults result hresult, hstamp⟩

/-- The trades that a close adds to the ledger are stamped with the time of one of its events. -/
theorem close_trades : Logs (replay.close key around) (fun state => state.1.ledger.closedTrades)
    fun group trade => ∃ event ∈ group, trade.exitTime = event.now := by
  intro state group next h
  obtain ⟨ledger, requests, closeTs, results, run, hexits, hrequests, -, hresults, hdecide, rfl⟩ :=
    close_eq_some h
  have hexitLogs : Logs (fun ledger (event : ReplayEvent) => do
      let candle ← replay.candleAt event.symbol event.index
      let exited ← ledger.checkStaticExit event.symbol
        ⟨candle.ohlcv.o, candle.ohlcv.h, candle.ohlcv.l⟩ event.now
      some exited.1) Ledger.closedTrades fun event trade => trade.exitTime = event.now := by
    intro ledger event next hstep
    obtain ⟨candle, -, hstep⟩ := Option.bind_eq_some_iff.mp hstep
    obtain ⟨exited, hexit, hstep⟩ := Option.bind_eq_some_iff.mp hstep
    cases Option.some.inj hstep
    exact checkStaticExit_closesAt hexit
  have hlogs : Logs (fun run (result : SignalReplay.Result) =>
      replay.decide run result.event result.request result.answer result.cacheHit)
      (fun run => run.ledger.closedTrades)
      fun result trade => trade.exitTime = result.event.now :=
    fun run result next hstep => (decide_stamps hstep).2
  obtain ⟨exits, hexits, hexitStamps⟩ := hexitLogs.run hexits
  obtain ⟨more, hmore, hstamps⟩ := hlogs.run hdecide
  dsimp only at hmore
  refine ⟨exits ++ more, by simp only [hmore, hexits, List.append_assoc], fun trade htrade => ?_⟩
  rcases List.mem_append.mp htrade with htrade | htrade
  · exact hexitStamps trade htrade
  · obtain ⟨result, hresult, hstamp⟩ := hstamps trade htrade
    exact ⟨result.event, event_mem_of_results hrequests hresults result hresult, hstamp⟩

/-- The rows of the decisions up to the horizon. -/
def rowsUntil (horizon : ℤ) (run : SignalRun) : List SignalRow :=
  run.rows.filter fun row => row.timestamp ≤ (horizon * 1000 : ℤ)

/-- The run up to the horizon. -/
def runUntil (replay : SignalReplay) (horizon : ℤ) (key : SignalRequest → κ)
    (around : SignalReplay.Surroundings) (cache : Dict κ SignalAnswer) :
    Option (SignalRun × Dict κ SignalAnswer) :=
  runPartial (replay.close key around) (replay.start, cache) (closesUntil replay horizon)

/-- **A whole run goes on from its part up to the horizon**, which has the rows and the trades
stamped by then. -/
theorem run_until {cache : Dict κ SignalAnswer} {state : SignalRun × Dict κ SignalAnswer}
    (h : replay.run key around cache = some state) (horizon : ℤ) :
    ∃ mid, runUntil replay horizon key around cache = some mid ∧
      rowsUntil horizon state.1 = mid.1.rows ∧
      tradesUntil horizon state.1.ledger = mid.1.ledger.closedTrades := by
  rw [SignalReplay.run, signalCloses_eq_append replay horizon, ← closesUntil_eq] at h
  have hearly : ∀ group ∈ closesUntil replay horizon, ∀ time : Time,
      (∃ event ∈ group, time = event.now) → decide (time ≤ (horizon * 1000 : ℤ)) = true := by
    rintro group hgroup time ⟨event, hevent, rfl⟩
    have hclose := List.all_eq_true.mp (List.mem_filter.mp hgroup).2 event hevent
    exact decide_eq_true (now_le_iff.mpr (of_decide_eq_true hclose))
  have hlate : ∀ group ∈ (eventsAfter (asMechanical replay) horizon).splitBy
      (fun a b => a.closeTs == b.closeTs), ∀ time : Time,
      (∃ event ∈ group, time = event.now) → decide (time ≤ (horizon * 1000 : ℤ)) = false := by
    rintro group hgroup time ⟨event, hevent, rfl⟩
    have hafter := (List.mem_filter.mp (mem_of_mem_splitBy hgroup hevent)).2
    refine decide_eq_false fun hle => ?_
    simp [now_le_iff.mp hle] at hafter
  obtain ⟨mid, hmid, hrows⟩ := close_rows.run_until
    (fun row => decide (row.timestamp ≤ (horizon * 1000 : ℤ))) rfl
    (fun group hgroup row hrow => hearly group hgroup _ hrow)
    (fun group hgroup row hrow => hlate group hgroup _ hrow) h
  obtain ⟨mid', hmid', htrades⟩ := close_trades.run_until
    (fun trade => decide (trade.exitTime ≤ (horizon * 1000 : ℤ))) rfl
    (fun group hgroup trade htrade => hearly group hgroup _ htrade)
    (fun group hgroup trade htrade => hlate group hgroup _ htrade) h
  cases Option.some.inj (hmid.symm.trans hmid')
  exact ⟨mid, hmid, hrows, htrades⟩

end Signals

/-- **The replay of the signals does not look ahead** from a lookback of two on: over histories,
and behind a service, that are the same up to a horizon, whatever comes after it and to whatever
end, the loop and the cache are in the same state at the horizon, and whole runs have the same
decisions and the same closed trades up to it. -/
theorem replay_no_lookahead {κ : Type} [DecidableEq κ] (replay : SignalReplay)
    (hlookback : 2 ≤ replay.candleLookback) (horizon endMs : ℤ)
    (histories : Dict Symbol CandleSeries)
    (hagree : AgreeUntil (History.timeframeToMs replay.timeframe) horizon replay.candlesBySymbol
      histories)
    (hend : horizon < replay.endMs) (hend' : horizon < endMs)
    (around around' : SignalReplay.Surroundings)
    (hsame : SurroundingsUntil horizon around around') (key : SignalRequest → κ)
    (cache : Dict κ SignalAnswer) :
    let other := signalsWithHistories replay histories endMs
    runUntil other horizon key around' cache = runUntil replay horizon key around cache ∧
      ∀ state state', replay.run key around cache = some state →
        other.run key around' cache = some state' →
        rowsUntil horizon state'.1 = rowsUntil horizon state.1 ∧
        tradesUntil horizon state'.1.ledger = tradesUntil horizon state.1.ledger := by
  intro other
  have hcloses : closesUntil other horizon = closesUntil replay horizon := by
    have hevents : eventsUntil (withHistories (asMechanical replay) histories endMs) horizon =
        eventsUntil (asMechanical replay) horizon := eventsUntil_withHistories hagree hend hend'
    rw [closesUntil_eq, closesUntil_eq]
    exact congrArg _ hevents
  have huntil : runUntil other horizon key around' cache =
      runUntil replay horizon key around cache := by
    unfold runUntil
    rw [hcloses]
    exact runPartial_congr (fun state group hgroup =>
      close_withHistories hsame hgroup (groupSeen hlookback hagree hgroup) state) _
  refine ⟨huntil, fun state state' h h' => ?_⟩
  obtain ⟨mid, hmid, hrows, htrades⟩ := run_until h horizon
  obtain ⟨mid', hmid', hrows', htrades'⟩ := run_until h' horizon
  have heq : mid' = mid := Option.some.inj (hmid'.symm.trans (huntil.trans hmid))
  subst heq
  exact ⟨hrows'.trans hrows.symm, htrades'.trans htrades.symm⟩

/-- Twenty hours at one price, and a fall after them. -/
def fallingSeries : CandleSeries where
  candles := stillSeries.candles.take 20 ++ [⟨72000000, 2, 2, 1, 1, 5⟩]
  ascending := by decide

/-- The service that says so until the fall, and is down from then on. -/
def failingService : SignalReplay.Surroundings where
  service event _ := if event.closeTs ≤ 72000000 then some entryAnswer else none
  turns _ := [.ask "BTC/USDT", .reply "BTC/USDT"]

/-- The fall does not reach the entry that was made before it. -/
theorem still_no_lookahead : ∃ state state', stillReplay.run id buyingService ∅ = some state ∧
    (signalsWithHistories stillReplay (AList.singleton "BTC/USDT" fallingSeries) 90000000).run id
      failingService ∅ = some state' ∧
    (rowsUntil 72000000 state.1).length = 1 ∧
    rowsUntil 72000000 state'.1 = rowsUntil 72000000 state.1 := by
  have hagree : AgreeUntil 3600000 72000000 (AList.singleton "BTC/USDT" stillSeries)
      (AList.singleton "BTC/USDT" fallingSeries) := .singleton ⟨by decide, by decide⟩
  have hsame : SurroundingsUntil 72000000 buyingService failingService :=
    ⟨fun event h => funext fun _ => (if_pos h).symm, fun _ _ => rfl⟩
  have hone : ((stillReplay.run id buyingService ∅).any fun state =>
      (rowsUntil 72000000 state.1).length == 1) = true := by decide +kernel
  have hruns : ((signalsWithHistories stillReplay (AList.singleton "BTC/USDT" fallingSeries)
      90000000).run id failingService ∅).isSome = true := by decide +kernel
  obtain ⟨state', hrun'⟩ := Option.isSome_iff_exists.mp hruns
  cases hrun : stillReplay.run id buyingService ∅ with
  | none =>
    rw [hrun] at hone
    cases hone
  | some state =>
    rw [hrun] at hone
    refine ⟨state, state', rfl, hrun', eq_of_beq hone, ?_⟩
    exact ((replay_no_lookahead stillReplay (by decide) 72000000 90000000
      (AList.singleton "BTC/USDT" fallingSeries) hagree (by decide) (by decide) buyingService
      failingService hsame id ∅).2 state state' hrun hrun').1

end TradeMind.Analysis
