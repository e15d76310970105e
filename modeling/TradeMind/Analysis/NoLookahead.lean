import TradeMind.Analysis.JournalAttribution

/-!
# What the mechanical replay knows

The mechanical replay does not look ahead: what it decides and closes up to a horizon depends on
the candles closed by then and on the price the next ones open at.  The events up to the horizon
are a first part of the loop, its steps are the same over either history (`EventSeen`), and the
later steps only close trades later.
-/

set_option autoImplicit false

namespace TradeMind.Analysis

open TradeMind.Library TradeMind.Model TradeMind.Model.Backtest

/-! ## Histories up to a horizon -/

section Histories

variable {period horizon : ℤ} {series other : CandleSeries}

/-- The candles closed by the horizon. -/
def closedUntil (period horizon : ℤ) (series : CandleSeries) : List History.Candle :=
  series.candles.filter fun candle => candle.t + period ≤ horizon

/-- The candles of a history that close only after the horizon. -/
def closedLater (period horizon : ℤ) (series : CandleSeries) : List History.Candle :=
  series.candles.filter fun candle => !decide (candle.t + period ≤ horizon)

/-- Two histories of a symbol are the same by the horizon: in the candles closed, and in the price
the next one opens at. -/
structure SameUntil (period horizon : ℤ) (series other : CandleSeries) : Prop where
  closed : closedUntil period horizon series = closedUntil period horizon other
  opened : (closedLater period horizon series).head?.map (·.ohlcv.o) =
    (closedLater period horizon other).head?.map (·.ohlcv.o)

/-- The histories of the same symbols are given, and those of each symbol are the same by the
horizon. -/
def AgreeUntil (period horizon : ℤ) (histories others : Dict Symbol CandleSeries) : Prop :=
  ∀ symbol, Option.Rel (SameUntil period horizon) (histories.lookup symbol)
    (others.lookup symbol)

theorem SameUntil.symm (h : SameUntil period horizon series other) :
    SameUntil period horizon other series := ⟨h.closed.symm, h.opened.symm⟩

theorem AgreeUntil.symm {histories others : Dict Symbol CandleSeries}
    (h : AgreeUntil period horizon histories others) :
    AgreeUntil period horizon others histories := by
  intro symbol
  have hrel := h symbol
  generalize histories.lookup symbol = series at hrel ⊢
  generalize others.lookup symbol = other at hrel ⊢
  cases hrel with
  | some hsame => exact .some hsame.symm
  | none => exact .none

/-- What a symbol has in one it has in the other. -/
theorem AgreeUntil.lookup {histories others : Dict Symbol CandleSeries}
    (h : AgreeUntil period horizon histories others) {symbol : Symbol}
    (hlookup : histories.lookup symbol = some series) :
    ∃ other, others.lookup symbol = some other ∧ SameUntil period horizon series other := by
  have hrel := h symbol
  rw [hlookup] at hrel
  cases hother : others.lookup symbol with
  | none =>
    rw [hother] at hrel
    cases hrel
  | some other =>
    rw [hother] at hrel
    cases hrel with
    | some hsame => exact ⟨other, rfl, hsame⟩

/-- A series is closed up to the horizon and not after it. -/
theorem candles_eq_append (period horizon : ℤ) (series : CandleSeries) :
    series.candles = closedUntil period horizon series ++ closedLater period horizon series := by
  refine eq_filter_append (series.ascending.imp fun hlt hlate => ?_)
  have hclose := of_decide_eq_true hlate
  exact decide_eq_true (by omega)

/-- A candle closed by the horizon is among the first. -/
theorem index_lt_of_closed {i : ℕ} {candle : History.Candle}
    (hcandle : series.candles[i]? = some candle) (hclosed : candle.t + period ≤ horizon) :
    i < (closedUntil period horizon series).length := by
  by_contra hge
  rw [candles_eq_append period horizon series, List.getElem?_append_right (not_lt.mp hge)]
    at hcandle
  have hlate := (List.mem_filter.mp (List.mem_of_getElem? hcandle)).2
  simp [hclosed] at hlate

/-- The candles closed by the horizon come first in either history. -/
theorem SameUntil.take_eq (h : SameUntil period horizon series other) {n : ℕ}
    (hn : n ≤ (closedUntil period horizon series).length) :
    series.candles.take n = other.candles.take n := by
  rw [candles_eq_append period horizon series, candles_eq_append period horizon other, ← h.closed,
    List.take_append_of_le_length hn, List.take_append_of_le_length hn]

/-- Two series that agree up to the horizon agree on the price that the next candle opens at. -/
theorem SameUntil.open_eq (h : SameUntil period horizon series other) {i : ℕ}
    (hi : i ≤ (closedUntil period horizon series).length) :
    series.candles[i]?.map (·.ohlcv.o) = other.candles[i]?.map (·.ohlcv.o) := by
  rw [candles_eq_append period horizon series, candles_eq_append period horizon other, ← h.closed]
  rcases hi.lt_or_eq with hlt | heq
  · rw [List.getElem?_append_left hlt, List.getElem?_append_left hlt]
  · rw [List.getElem?_append_right heq.ge, List.getElem?_append_right heq.ge, heq, Nat.sub_self,
      ← List.head?_eq_getElem?, ← List.head?_eq_getElem?]
    exact h.opened

end Histories

/-! ## Events up to a horizon -/

/-- The mechanical replay over other histories, to another end. -/
def withHistories (replay : MechanicalReplay) (histories : Dict Symbol CandleSeries)
    (endMs : ℤ) : MechanicalReplay :=
  { replay with candlesBySymbol := histories, endMs }

section Events

variable {replay : MechanicalReplay} {horizon endMs : ℤ} {histories : Dict Symbol CandleSeries}
  {event : ReplayEvent}

theorem mem_eventsOf_iff {symbol : Symbol} {series : CandleSeries} :
    event ∈ replay.eventsOf symbol series ↔
      event.symbol = symbol ∧ replay.candleLookback - 1 ≤ event.index ∧
        event.index + 1 < series.candles.length ∧
        ∃ candle, series.candles[event.index]? = some candle ∧
          event.closeTs = candle.t + History.timeframeToMs replay.timeframe ∧
          replay.startMs ≤ event.closeTs ∧ event.closeTs < replay.endMs := by
  have hindex : ∀ i, i ∈ decisionIndices series.candles.length replay.candleLookback ↔
      replay.candleLookback - 1 ≤ i ∧ i + 1 < series.candles.length := by
    intro i
    rw [decisionIndices, List.mem_range'_1]
    omega
  unfold MechanicalReplay.eventsOf
  rw [List.mem_filterMap]
  constructor
  · rintro ⟨i, hi, hevent⟩
    obtain ⟨candle, hcandle, hevent⟩ := Option.bind_eq_some_iff.mp hevent
    dsimp only at hevent
    split at hevent
    · rename_i hbetween
      cases Option.some.inj hevent
      exact ⟨rfl, ((hindex i).mp hi).1, ((hindex i).mp hi).2, candle, hcandle, rfl, hbetween⟩
    · cases hevent
  · rintro ⟨rfl, hfirst, hlast, candle, hcandle, hclose, hbetween⟩
    refine ⟨event.index, (hindex _).mpr ⟨hfirst, hlast⟩, ?_⟩
    rw [hcandle, Option.bind_some]
    dsimp only
    rw [← hclose, if_pos hbetween]

theorem mem_events_iff : event ∈ replay.events ↔ ∃ series,
    replay.candlesBySymbol.lookup event.symbol = some series ∧
      event ∈ replay.eventsOf event.symbol series := by
  unfold MechanicalReplay.events
  rw [(sortBy_perm _ _).mem_iff, List.mem_flatMap]
  constructor
  · rintro ⟨⟨symbol, series⟩, hentry, hevent⟩
    have hsymbol : event.symbol = symbol := (mem_eventsOf_iff.mp hevent).1
    subst hsymbol
    exact ⟨series, AList.mem_lookup_iff.mpr hentry, hevent⟩
  · rintro ⟨series, hlookup, hevent⟩
    exact ⟨⟨event.symbol, series⟩, AList.mem_lookup_iff.mp hlookup, hevent⟩

/-- The events up to the horizon. -/
def eventsUntil (replay : MechanicalReplay) (horizon : ℤ) : List ReplayEvent :=
  replay.events.filter fun event => event.closeTs ≤ horizon

/-- The events of a replay whose candles close after the horizon. -/
def eventsAfter (replay : MechanicalReplay) (horizon : ℤ) : List ReplayEvent :=
  replay.events.filter fun event => !decide (event.closeTs ≤ horizon)

/-- The events up to the horizon come first. -/
theorem events_eq_append (replay : MechanicalReplay) (horizon : ℤ) :
    replay.events = eventsUntil replay horizon ++ eventsAfter replay horizon := by
  refine eq_filter_append ((sortBy_ascending _ _).imp fun hle hlate => ?_)
  have hfirst := Prod.Lex.monotone_fst _ _ hle
  exact decide_eq_true (hfirst.trans (of_decide_eq_true hlate))

theorem events_strict (replay : MechanicalReplay) : replay.events.Pairwise fun a b =>
    toLex (a.closeTs, a.symbol) < toLex (b.closeTs, b.symbol) := by
  refine sortBy_strict (List.pairwise_map.mpr ?_)
  have hkeys := events_nodup replay
  rw [MechanicalReplay.events, ((sortBy_perm _ _).map ReplayEvent.key).nodup_iff] at hkeys
  refine (List.pairwise_map.mp hkeys).imp fun {a b} hne heq => hne ?_
  have hpair : (a.closeTs, a.symbol) = (b.closeTs, b.symbol) := toLex.injective heq
  rw [Prod.mk.injEq] at hpair
  exact Prod.ext hpair.2 (congrArg (· * 1000) hpair.1)

/-- What two replays both see of an event: the candles up to its own, and the next open. -/
structure EventSeen (event : ReplayEvent) (series other : CandleSeries) : Prop where
  taken : ∀ n ≤ event.index + 1, series.candles.take n = other.candles.take n
  following : series.candles[event.index + 1]?.map (·.ohlcv.o) =
    other.candles[event.index + 1]?.map (·.ohlcv.o)

/-- **An event up to the horizon is seen over either history.** -/
theorem eventSeen
    (hagree : AgreeUntil (History.timeframeToMs replay.timeframe) horizon replay.candlesBySymbol
      histories)
    (hevent : event ∈ replay.events) (hclose : event.closeTs ≤ horizon) : ∃ series other,
      replay.candlesBySymbol.lookup event.symbol = some series ∧
      histories.lookup event.symbol = some other ∧ EventSeen event series other := by
  obtain ⟨series, hlookup, hevent⟩ := mem_events_iff.mp hevent
  obtain ⟨-, -, -, candle, hcandle, htime, -⟩ := mem_eventsOf_iff.mp hevent
  obtain ⟨other, hother, hsame⟩ := hagree.lookup hlookup
  have hindex := index_lt_of_closed hcandle (htime ▸ hclose)
  exact ⟨series, other, hlookup, hother, fun n hn => hsame.take_eq (hn.trans hindex),
    hsame.open_eq hindex⟩

/-- The candle of an event, over either history. -/
theorem EventSeen.candle {series other : CandleSeries} (h : EventSeen event series other) {i : ℕ}
    (hi : i ≤ event.index) : series.candles[i]? = other.candles[i]? := by
  have htaken : (series.candles.take (event.index + 1))[i]? =
      (other.candles.take (event.index + 1))[i]? := by rw [h.taken _ le_rfl]
  rwa [List.getElem?_take_of_lt (Nat.lt_succ_of_le hi),
    List.getElem?_take_of_lt (Nat.lt_succ_of_le hi)] at htaken

/-- An event up to the horizon is one over the other history. -/
theorem mem_events_withHistories
    (hagree : AgreeUntil (History.timeframeToMs replay.timeframe) horizon replay.candlesBySymbol
      histories)
    (hend : horizon < endMs) (hevent : event ∈ replay.events) (hclose : event.closeTs ≤ horizon) :
    event ∈ (withHistories replay histories endMs).events := by
  obtain ⟨series, other, hlookup, hother, hseen⟩ := eventSeen hagree hevent hclose
  obtain ⟨series', hlookup', hevent⟩ := mem_events_iff.mp hevent
  cases Option.some.inj (hlookup.symm.trans hlookup')
  obtain ⟨-, hfirst, hlast, candle, hcandle, htime, hstart, -⟩ := mem_eventsOf_iff.mp hevent
  -- the next candle is there in both, or in neither
  have hnext : event.index + 1 < other.candles.length := by
    have hsome : (series.candles[event.index + 1]?.map (·.ohlcv.o)).isSome := by
      rw [List.getElem?_eq_getElem hlast]
      rfl
    rw [hseen.following, Option.isSome_map] at hsome
    simpa using hsome
  exact mem_events_iff.mpr ⟨other, hother, mem_eventsOf_iff.mpr ⟨rfl, hfirst, hnext, candle,
    hseen.candle le_rfl ▸ hcandle, htime, hstart, hclose.trans_lt hend⟩⟩

/-- **The events up to the horizon are the same.** -/
theorem eventsUntil_withHistories
    (hagree : AgreeUntil (History.timeframeToMs replay.timeframe) horizon replay.candlesBySymbol
      histories)
    (hend : horizon < replay.endMs) (hend' : horizon < endMs) :
    eventsUntil (withHistories replay histories endMs) horizon = eventsUntil replay horizon := by
  refine eq_of_mem_iff_of_strict ((events_strict _).filter _) ((events_strict _).filter _)
    fun event => ?_
  rw [eventsUntil, eventsUntil, List.mem_filter, List.mem_filter]
  refine and_congr_left fun hclose => ?_
  have hback : withHistories (withHistories replay histories endMs) replay.candlesBySymbol
      replay.endMs = replay := rfl
  constructor
  · intro hevent
    have hagain : event ∈ (withHistories (withHistories replay histories endMs)
        replay.candlesBySymbol replay.endMs).events :=
      mem_events_withHistories hagree.symm hend hevent (of_decide_eq_true hclose)
    rwa [hback] at hagain
  · exact fun hevent => mem_events_withHistories hagree hend' hevent (of_decide_eq_true hclose)

/-- The closes up to the horizon come first. -/
theorem closes_eq_append (replay : MechanicalReplay) (horizon : ℤ) :
    (replay.events.splitBy fun a b => a.closeTs == b.closeTs) =
      ((eventsUntil replay horizon).splitBy fun a b => a.closeTs == b.closeTs) ++
        (eventsAfter replay horizon).splitBy fun a b => a.closeTs == b.closeTs := by
  rw [events_eq_append replay horizon]
  have hapart : ∀ x ∈ (eventsUntil replay horizon).getLast?,
      ∀ y ∈ (eventsAfter replay horizon).head?, (x.closeTs == y.closeTs) = false := by
    intro x hx y hy
    have hearly := (List.mem_filter.mp (List.mem_of_mem_getLast? hx)).2
    have hlate := (List.mem_filter.mp (List.mem_of_mem_head? hy)).2
    refine beq_false_of_ne fun heq => ?_
    rw [heq] at hearly
    simp [hearly] at hlate
  rw [List.splitBy_append hapart]

/-- What is in a close of some events is one of them. -/
theorem mem_of_mem_splitBy {events group : List ReplayEvent}
    (hgroup : group ∈ events.splitBy fun a b => a.closeTs == b.closeTs) (hevent : event ∈ group) :
    event ∈ events := by
  rw [← List.flatten_splitBy (fun a b : ReplayEvent => a.closeTs == b.closeTs) events]
  exact List.mem_flatten.mpr ⟨group, hgroup, hevent⟩

/-- Whether an event is up to the horizon. -/
theorem now_le_iff : event.now ≤ (horizon * 1000 : ℤ) ↔ event.closeTs ≤ horizon := by
  unfold ReplayEvent.now
  constructor
  · intro h
    have hms : (event.closeTs * 1000 : ℤ) ≤ horizon * 1000 := h
    omega
  · intro h
    have hms : (event.closeTs * 1000 : ℤ) ≤ horizon * 1000 := by omega
    exact hms

end Events

/-! ## The stamps of the trades -/

section Stamps

variable {ledger next : Ledger} {symbol : Symbol} {now : Time}

/-- What is closed from one ledger to the next is closed at `now`. -/
def ClosesAt (now : Time) (ledger next : Ledger) : Prop :=
  ∃ more, next.closedTrades = ledger.closedTrades ++ more ∧ ∀ trade ∈ more, trade.exitTime = now

theorem ClosesAt.of_eq (h : next.closedTrades = ledger.closedTrades) : ClosesAt now ledger next :=
  ⟨[], by rw [h, List.append_nil], fun trade htrade => absurd htrade List.not_mem_nil⟩

theorem recordClose_closesAt {base : Ledger} (hbase : base.closedTrades = ledger.closedTrades)
    (position : SimPosition) (exitPrice : ℚ) (reason : String) :
    ClosesAt now ledger (base.recordClose position now exitPrice reason).1 := by
  refine ⟨[(base.recordClose position now exitPrice reason).2], ?_, fun trade htrade => ?_⟩
  · rw [← hbase]
    rfl
  · rw [List.mem_singleton.mp htrade]
    rfl

theorem checkStaticExit_closesAt {candle : Backtest.Candle} {out : Ledger × Option ClosedTrade}
    (h : ledger.checkStaticExit symbol candle now = some out) : ClosesAt now ledger out.1 := by
  unfold Ledger.checkStaticExit at h
  split at h
  · cases Option.some.inj h
    exact .of_eq rfl
  · split at h
    · cases h
    · dsimp only at h
      split at h
      · cases Option.some.inj h
        exact recordClose_closesAt (by rfl) _ _ _
      · split at h
        · cases Option.some.inj h
          exact .of_eq rfl
        · split at h
          · cases Option.some.inj h
            exact recordClose_closesAt (by rfl) _ _ _
          · cases Option.some.inj h
            exact .of_eq rfl

variable {view : SignalView} {config : RiskConfig} {fillPrice : ℚ}

theorem applyExitSignal_closesAt {out : Ledger × ExitDecisionResult × Option ClosedTrade}
    (h : ledger.applyExitSignal symbol view config now fillPrice = some out) :
    ClosesAt now ledger out.1 := by
  unfold Ledger.applyExitSignal at h
  split at h
  · cases h
  · split at h
    · cases Option.some.inj h
      exact .of_eq rfl
    · split at h
      · cases h
      · cases Option.some.inj h
        exact recordClose_closesAt (by rfl) _ _ _

theorem applyEntry_closesAt {out : Ledger × RiskDecisionResult × Option SimPosition}
    (h : ledger.applyEntry symbol view config now fillPrice = some out) :
    ClosesAt now ledger out.1 := by
  cases applyEntry_outcome h with
  | entered sized _ _ => exact .of_eq rfl
  | rejected sized violation =>
    refine .of_eq ?_
    simp only
    split <;> rfl

end Stamps

/-! ## The mechanical replay -/

section Mechanical

variable {replay : MechanicalReplay} {horizon endMs : ℤ} {histories : Dict Symbol CandleSeries}
  {event : ReplayEvent}

/-- The visits of the closes of some events. -/
def visitsOf (events : List ReplayEvent) : List (ReplayPhase × ReplayEvent) :=
  (events.splitBy fun a b => a.closeTs == b.closeTs).flatMap fun group =>
    group.map (fun event => (.staticExit, event)) ++ group.map (fun event => (.decision, event))

/-- The visits up to the horizon. -/
def visitsUntil (replay : MechanicalReplay) (horizon : ℤ) : List (ReplayPhase × ReplayEvent) :=
  replay.schedule.filter fun visit => visit.2.closeTs ≤ horizon

theorem mem_visitsOf {events : List ReplayEvent} {visit : ReplayPhase × ReplayEvent}
    (h : visit ∈ visitsOf events) : visit.2 ∈ events := by
  obtain ⟨group, hgroup, hvisit⟩ := List.mem_flatMap.mp h
  rcases List.mem_append.mp hvisit with hvisit | hvisit
  · obtain ⟨event, hevent, rfl⟩ := List.mem_map.mp hvisit
    exact mem_of_mem_splitBy hgroup hevent
  · obtain ⟨event, hevent, rfl⟩ := List.mem_map.mp hvisit
    exact mem_of_mem_splitBy hgroup hevent

/-- The visits of the events up to the horizon come first. -/
theorem schedule_eq_append (replay : MechanicalReplay) (horizon : ℤ) :
    replay.schedule =
      visitsOf (eventsUntil replay horizon) ++ visitsOf (eventsAfter replay horizon) := by
  rw [MechanicalReplay.schedule, closes_eq_append replay horizon, List.flatMap_append]
  rfl

/-- The visits up to the horizon are those of the events up to the horizon. -/
theorem visitsUntil_eq (replay : MechanicalReplay) (horizon : ℤ) :
    visitsUntil replay horizon = visitsOf (eventsUntil replay horizon) := by
  have hearly : ∀ visit ∈ visitsOf (eventsUntil replay horizon),
      decide (visit.2.closeTs ≤ horizon) = true :=
    fun visit hvisit => (List.mem_filter.mp (mem_visitsOf hvisit)).2
  have hlate : ∀ visit ∈ visitsOf (eventsAfter replay horizon),
      ¬ decide (visit.2.closeTs ≤ horizon) = true := by
    intro visit hvisit
    have hafter := (List.mem_filter.mp (mem_visitsOf hvisit)).2
    simpa using hafter
  rw [visitsUntil, schedule_eq_append replay horizon, List.filter_append,
    List.filter_eq_self.mpr hearly, List.filter_eq_nil_iff.mpr hlate, List.append_nil]

/-- **A visit up to the horizon does the same over either history.** -/
theorem visit_withHistories
    (hagree : AgreeUntil (History.timeframeToMs replay.timeframe) horizon replay.candlesBySymbol
      histories)
    (hevent : event ∈ replay.events) (hclose : event.closeTs ≤ horizon) (phase : ReplayPhase) :
    (withHistories replay histories endMs).visit event phase = replay.visit event phase := by
  obtain ⟨series, other, hlookup, hother, hseen⟩ := eventSeen hagree hevent hclose
  cases phase with
  | staticExit =>
    have hcandle := hseen.candle le_rfl
    simp only [MechanicalReplay.visit, MechanicalReplay.candleAt, withHistories, hlookup, hother,
      Option.bind_some, hcandle]
  | decision =>
    have hrequest : (withHistories replay histories endMs).requestAt event =
        replay.requestAt event := by
      simp only [MechanicalReplay.requestAt, withHistories, hlookup, hother, Option.bind_eq_bind,
        Option.bind_some, hseen.taken _ le_rfl]
    -- the decision looks at the next candle for its open alone
    have hfollowing : ∀ (request : Llm.AnalyzeRequest) (following : Option History.Candle),
        (following.bind fun candle => some (MechanicalStep.decision event.symbol request event.now
          candle.ohlcv.o)) =
        (following.map (·.ohlcv.o)).map (MechanicalStep.decision event.symbol request event.now) :=
      fun request following => by cases following <;> rfl
    simp only [MechanicalReplay.visit, hrequest, MechanicalReplay.candleAt, Option.bind_eq_bind,
      hfollowing]
    simp only [withHistories, hlookup, hother, Option.bind_some, hseen.following]

theorem decide_closesAt {settings : MechanicalSettings} {run next : MechanicalRun}
    {symbol : Symbol} {request : Llm.AnalyzeRequest} {now : Time} {fillPrice : ℚ}
    (h : run.decide settings symbol request now fillPrice = some next) :
    ClosesAt now run.ledger next.ledger := by
  obtain ⟨latest, -, h⟩ := Option.bind_eq_some_iff.mp h
  obtain ⟨context, -, h⟩ := Option.bind_eq_some_iff.mp h
  dsimp only at h
  split at h
  · obtain ⟨⟨ledger, result, position⟩, hentry, h⟩ := Option.bind_eq_some_iff.mp h
    have hcloses := applyEntry_closesAt hentry
    dsimp only at h
    split at h
    · cases Option.some.inj h
      exact hcloses
    · cases Option.some.inj h
      exact hcloses
  · obtain ⟨⟨ledger, result, trade⟩, hexit, h⟩ := Option.bind_eq_some_iff.mp h
    have hcloses := applyExitSignal_closesAt hexit
    dsimp only at h
    split at h
    · cases Option.some.inj h
      exact hcloses
    · cases Option.some.inj h
      exact hcloses
  · cases Option.some.inj h
    exact .of_eq rfl

theorem step_closesAt {run next : MechanicalRun} {visit : ReplayPhase × ReplayEvent}
    (h : replay.step run visit = some next) : ClosesAt visit.2.now run.ledger next.ledger := by
  obtain ⟨step, hvisit, h⟩ := Option.bind_eq_some_iff.mp h
  obtain ⟨phase, event⟩ := visit
  cases phase with
  | staticExit =>
    obtain ⟨candle, -, hvisit⟩ := Option.bind_eq_some_iff.mp hvisit
    cases Option.some.inj hvisit
    obtain ⟨⟨ledger, closed⟩, hexit, h⟩ := Option.bind_eq_some_iff.mp h
    have hcloses := checkStaticExit_closesAt hexit
    cases closed with
    | none =>
      cases Option.some.inj h
      exact hcloses
    | some trade =>
      cases Option.some.inj h
      exact hcloses
  | decision =>
    obtain ⟨request, -, hvisit⟩ := Option.bind_eq_some_iff.mp hvisit
    obtain ⟨following, -, hvisit⟩ := Option.bind_eq_some_iff.mp hvisit
    cases Option.some.inj hvisit
    exact decide_closesAt h

/-- The trades closed up to the horizon. -/
def tradesUntil (horizon : ℤ) (ledger : Ledger) : List ClosedTrade :=
  ledger.closedTrades.filter fun trade => trade.exitTime ≤ (horizon * 1000 : ℤ)

/-- **A whole run goes on from its part up to the horizon**, which has the trades closed by then. -/
theorem runTo_until {run : MechanicalRun} (h : replay.runTo replay.schedule = some run)
    (horizon : ℤ) : ∃ mid, replay.runTo (visitsUntil replay horizon) = some mid ∧
      tradesUntil horizon run.ledger = mid.ledger.closedTrades := by
  have hlogs : Logs replay.step (fun run => run.ledger.closedTrades)
      fun visit trade => trade.exitTime = visit.2.now := fun _ _ _ hstep => step_closesAt hstep
  rw [MechanicalReplay.runTo, schedule_eq_append replay horizon] at h
  rw [visitsUntil_eq]
  refine hlogs.run_until _ rfl (fun visit hvisit trade htrade => ?_)
    (fun visit hvisit trade htrade => ?_) h
  · have hclose := (List.mem_filter.mp (mem_visitsOf hvisit)).2
    rw [htrade]
    exact decide_eq_true (now_le_iff.mpr (of_decide_eq_true hclose))
  · have hclose := (List.mem_filter.mp (mem_visitsOf hvisit)).2
    rw [htrade]
    refine decide_eq_false fun hle => ?_
    simp [now_le_iff.mp hle] at hclose

/-- The decision that opened a key is one. -/
theorem OpenedBy.unique {key : TradeKey} {decision decision' : MechanicalDecision}
    (h : OpenedBy replay replay.schedule key decision)
    (h' : OpenedBy replay replay.schedule key decision') : decision = decision' := by
  have hmem : ∀ {event decision}, OpenedAt replay replay.schedule event decision →
      (.decision, event) ∈ replay.schedule := by
    intro event decision hopened
    obtain ⟨before, after, mid, next, hvisited, -⟩ := hopened.visited
    rw [hvisited]
    exact List.mem_append_right _ List.mem_cons_self
  obtain ⟨event, rfl, hopened⟩ := h
  obtain ⟨other, hkey, hopened'⟩ := h'
  have hsame := decision_unique (hmem hopened) (hmem hopened') hkey
  subst hsame
  obtain ⟨request, hrequest, rfl⟩ := hopened.decided
  obtain ⟨request', hrequest', rfl⟩ := hopened'.decided
  rw [hrequest] at hrequest'
  rw [Option.some.inj hrequest']

/-- The journal row of a trade closed up to the horizon is final by then. -/
theorem metrics_until {run mid : MechanicalRun} (h : replay.runTo replay.schedule = some run)
    (hmid : replay.runTo (visitsUntil replay horizon) = some mid)
    (htrades : tradesUntil horizon run.ledger = mid.ledger.closedTrades) :
    metricsFromClosedTrades (tradesUntil horizon run.ledger) run.dims =
      metricsFromClosedTrades mid.ledger.closedTrades mid.dims := by
  have hprefix : visitsUntil replay horizon <+: replay.schedule := by
    rw [visitsUntil_eq, schedule_eq_append replay horizon]
    exact List.prefix_append _ _
  obtain ⟨later, hlater⟩ := hprefix
  have hearly := journal_runTo ⟨later, hlater⟩ hmid
  have hall := journal_runTo (List.prefix_refl _) h
  rw [htrades]
  refine List.map_congr_left fun trade htrade => ?_
  obtain ⟨decision, hopened, hrecorded⟩ := hearly.recorded trade htrade
  obtain ⟨decision', hopened', hrecorded'⟩ := hall.recorded trade
    (List.mem_of_mem_filter (htrades ▸ htrade))
  have hsame := OpenedBy.unique (hlater ▸ hopened.append later) hopened'
  subst hsame
  simp only [ClosedTrade.toMetrics, hrecorded.regime, hrecorded.score, hrecorded.volatility,
    hrecorded'.regime, hrecorded'.score, hrecorded'.volatility]

end Mechanical

/-- **The mechanical replay does not look ahead**: over histories that are the same by a horizon,
and whatever comes after it, to whatever end, the loop is in the same state at the horizon, and
whole runs report the same trades closed by then, with the same journal dimensions. -/
theorem mechanical_no_lookahead (replay : MechanicalReplay) (horizon endMs : ℤ)
    (histories : Dict Symbol CandleSeries)
    (hagree : AgreeUntil (History.timeframeToMs replay.timeframe) horizon replay.candlesBySymbol
      histories)
    (hend : horizon < replay.endMs) (hend' : horizon < endMs) :
    let other := withHistories replay histories endMs
    other.runTo (visitsUntil other horizon) = replay.runTo (visitsUntil replay horizon) ∧
      ∀ run run', replay.runTo replay.schedule = some run →
        other.runTo other.schedule = some run' →
        tradesUntil horizon run'.ledger = tradesUntil horizon run.ledger ∧
        metricsFromClosedTrades (tradesUntil horizon run'.ledger) run'.dims =
          metricsFromClosedTrades (tradesUntil horizon run.ledger) run.dims := by
  intro other
  have hvisits : visitsUntil other horizon = visitsUntil replay horizon := by
    rw [visitsUntil_eq, visitsUntil_eq, eventsUntil_withHistories hagree hend hend']
  have huntil : other.runTo (visitsUntil other horizon) =
      replay.runTo (visitsUntil replay horizon) := by
    rw [hvisits]
    refine runPartial_congr (fun run visit hvisit => ?_) _
    obtain ⟨hevent, hclose⟩ := List.mem_filter.mp (mem_visitsOf (visitsUntil_eq replay _ ▸ hvisit))
    unfold MechanicalReplay.step
    rw [visit_withHistories hagree hevent (of_decide_eq_true hclose)]
    rfl
  refine ⟨huntil, fun run run' h h' => ?_⟩
  obtain ⟨mid, hmid, htrades⟩ := runTo_until h horizon
  obtain ⟨mid', hmid', htrades'⟩ := runTo_until h' horizon
  have hsame : mid' = mid := Option.some.inj (hmid'.symm.trans (huntil.trans hmid))
  subst hsame
  exact ⟨htrades'.trans htrades.symm,
    (metrics_until h' hmid' htrades').trans (metrics_until h hmid htrades).symm⟩

/-- Where only one symbol is traded, its history is enough. -/
theorem AgreeUntil.singleton {period horizon : ℤ} {series other : CandleSeries} {symbol : Symbol}
    (h : SameUntil period horizon series other) :
    AgreeUntil period horizon (AList.singleton symbol series) (AList.singleton symbol other) := by
  intro traded
  by_cases htraded : traded = symbol
  · subst htraded
    have hlookup : ∀ series : CandleSeries,
        (AList.singleton traded series : Dict Symbol CandleSeries).lookup traded = some series :=
      fun series => List.dlookup_cons_eq _ _ _
    rw [hlookup, hlookup]
    exact .some h
  · have hlookup : ∀ series : CandleSeries,
        (AList.singleton symbol series : Dict Symbol CandleSeries).lookup traded = none :=
      fun series => List.dlookup_cons_ne [] (⟨symbol, series⟩ : Sigma fun _ => CandleSeries) htraded
    rw [hlookup, hlookup]
    exact .none

/-- The same market up to its gap, and a crash after it. -/
def crashingSeries : CandleSeries where
  candles := risingSeries.candles.take 6 ++
    [⟨21600000, 100, 100, 90, 91, 20⟩, ⟨25200000, 91, 92, 90, 91, 30⟩]
  ascending := by decide

/-- The crash does not reach the trade that was closed before it. -/
theorem rising_no_lookahead : ∃ run run', risingReplay.runTo risingReplay.schedule = some run ∧
    (withHistories risingReplay (AList.singleton "BTC/USDT" crashingSeries) 32400000).runTo
      (withHistories risingReplay (AList.singleton "BTC/USDT" crashingSeries) 32400000).schedule =
        some run' ∧
    (tradesUntil 21600000 run.ledger).length = 1 ∧
    tradesUntil 21600000 run'.ledger = tradesUntil 21600000 run.ledger := by
  have hagree : AgreeUntil 3600000 21600000 (AList.singleton "BTC/USDT" risingSeries)
      (AList.singleton "BTC/USDT" crashingSeries) :=
    .singleton ⟨by decide +kernel, by decide +kernel⟩
  have hone : ((risingReplay.runTo risingReplay.schedule).any fun run =>
      (tradesUntil 21600000 run.ledger).length == 1) = true := by decide +kernel
  have hruns : ((withHistories risingReplay (AList.singleton "BTC/USDT" crashingSeries)
      32400000).runTo (withHistories risingReplay (AList.singleton "BTC/USDT" crashingSeries)
      32400000).schedule).isSome = true := by decide +kernel
  obtain ⟨run', hrun'⟩ := Option.isSome_iff_exists.mp hruns
  cases hrun : risingReplay.runTo risingReplay.schedule with
  | none =>
    rw [hrun] at hone
    cases hone
  | some run =>
    rw [hrun] at hone
    refine ⟨run, run', rfl, hrun', eq_of_beq hone, ?_⟩
    exact ((mechanical_no_lookahead risingReplay 21600000 32400000
      (AList.singleton "BTC/USDT" crashingSeries) hagree (by decide) (by decide)).2 run run' hrun
      hrun').1

end TradeMind.Analysis
