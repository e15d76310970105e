import Mathlib.Data.List.SplitBy
import TradeMind.Analysis.FetchHistory
import TradeMind.Analysis.LedgerCalls
import TradeMind.Model.MechanicalReplay

/-!
# The journal of the mechanical replay

The three entry maps of a mechanical replay are kept in step with the positions of its ledger:
an entry writes all three, either exit clears them and writes the trade's dimensions under its
key.  What one visit of the schedule does to positions, trades and maps is read off once
(`JournalStep`); `Journal` is what every part of the schedule keeps.  It needs that no two
decisions have the same symbol and close (`decisionKeys_nodup`).
-/

set_option autoImplicit false

namespace TradeMind.Analysis

open TradeMind.Model TradeMind.Library TradeMind.Model.Backtest

/-! ## What a ledger holds -/

/-- The key of the trade a position becomes. -/
def tradeKeyOf (position : SimPosition) : TradeKey := (position.symbol, position.entryTime)

/-- The key of the trade the position of a symbol becomes. -/
def heldKey (ledger : Ledger) (symbol : Symbol) : Option TradeKey :=
  (ledger.positions.lookup symbol).map tradeKeyOf

/-- A symbol has a held key where it has a position. -/
theorem heldKey_isSome {ledger : Ledger} {symbol : Symbol} :
    (heldKey ledger symbol).isSome ↔ symbol ∈ ledger.positions := by
  rw [heldKey, Option.isSome_map, AList.lookup_isSome]

/-- What an exit does to a ledger: nothing to what is held and closed, or it closes the
position of a symbol. -/
inductive ExitStep (ledger : Ledger) (symbol : Symbol) : Ledger → Option ClosedTrade → Prop
  | kept {next : Ledger} (hheld : ∀ s, heldKey next s = heldKey ledger s)
      (htrades : next.closedTrades = ledger.closedTrades) : ExitStep ledger symbol next none
  | closed {next : Ledger} {trade : ClosedTrade} (hkey : heldKey ledger symbol = some trade.key)
      (hheld : ∀ s, heldKey next s = if s = trade.symbol then none else heldKey ledger s)
      (htrades : next.closedTrades = ledger.closedTrades ++ [trade]) :
      ExitStep ledger symbol next (some trade)

section Exits

variable {ledger : Ledger} {symbol : Symbol} {position : SimPosition}

theorem heldKey_moved (hlookup : ledger.positions.lookup symbol = some position)
    (peakPrice : ℚ) (s : Symbol) :
    heldKey { ledger with
        positions := ledger.positions.replace symbol { position with peakPrice } } s =
      heldKey ledger s := by
  by_cases hs : s = symbol
  · subst hs
    simp only [heldKey, hlookup, Dict.lookup_replace hlookup]
    rfl
  · simp only [heldKey, Dict.lookup_replace_ne _ hs]

/-- `_record_close` drops the position of the trade's symbol. -/
theorem heldKey_recordClose (position : SimPosition) (exitTime : Time) (exitPrice : ℚ)
    (reason : String) (s : Symbol) :
    heldKey (ledger.recordClose position exitTime exitPrice reason).1 s =
      if s = position.symbol then none else heldKey ledger s := by
  by_cases hs : s = position.symbol
  · subst hs
    simp [heldKey, Ledger.recordClose]
  · simp [heldKey, Ledger.recordClose, hs]

/-- Closing a position of the ledger, its peak moved or not. -/
theorem recordClose_exitStep {base : Ledger}
    (hlookup : ledger.positions.lookup symbol = some position)
    (hheld : ∀ s, heldKey base s = heldKey ledger s)
    (htrades : base.closedTrades = ledger.closedTrades) (peakPrice : ℚ) (exitTime : Time)
    (exitPrice : ℚ) (reason : String) :
    ExitStep ledger symbol
      (base.recordClose { position with peakPrice } exitTime exitPrice reason).1
      (some (base.recordClose { position with peakPrice } exitTime exitPrice reason).2) := by
  apply ExitStep.closed
  · rw [heldKey, hlookup]
    rfl
  · intro s
    rw [heldKey_recordClose, hheld]
    rfl
  · simp [Ledger.recordClose, htrades]

theorem checkStaticExit_step {candle : Backtest.Candle} {now : Time}
    {out : Ledger × Option ClosedTrade}
    (h : ledger.checkStaticExit symbol candle now = some out) :
    ExitStep ledger symbol out.1 out.2 := by
  unfold Ledger.checkStaticExit at h
  split at h
  · cases Option.some.inj h
    exact .kept (fun _ => rfl) rfl
  · rename_i position hlookup
    have hmoved := heldKey_moved hlookup (max position.peakPrice candle.h)
    split at h
    · cases h
    · dsimp only at h
      split at h
      · cases Option.some.inj h
        exact recordClose_exitStep hlookup hmoved rfl _ _ _ _
      · split at h
        · cases Option.some.inj h
          exact .kept hmoved rfl
        · split at h
          · cases Option.some.inj h
            exact recordClose_exitStep hlookup hmoved rfl _ _ _ _
          · cases Option.some.inj h
            exact .kept hmoved rfl

theorem applyExitSignal_step {view : SignalView} {config : RiskConfig} {now : Time}
    {fillPrice : ℚ} {out : Ledger × ExitDecisionResult × Option ClosedTrade}
    (h : ledger.applyExitSignal symbol view config now fillPrice = some out) :
    ExitStep ledger symbol out.1 out.2.2 := by
  unfold Ledger.applyExitSignal at h
  split at h
  · cases h
  · split at h
    · cases Option.some.inj h
      exact .kept (fun _ => rfl) rfl
    · split at h
      · cases h
      · rename_i position hlookup
        cases Option.some.inj h
        exact recordClose_exitStep hlookup (fun _ => rfl) rfl position.peakPrice _ _ _

end Exits

/-! ## What a step does to the journal -/

/-- The decision of an entry: on a flat account. -/
def openingDecision (settings : MechanicalSettings) (request : Llm.AnalyzeRequest) :
    MechanicalDecision :=
  mechanicalDecision settings
    (Llm.buildContext { request with positionContext := { hasOpenPosition := false } })

/-- The entry maps hold a decision's dimensions for a symbol. -/
structure Labelled (run : MechanicalRun) (symbol : Symbol) (decision : MechanicalDecision) :
    Prop where
  regime : run.entryRegimes symbol = some decision.regime.value
  score : run.entryScores symbol = some decision.tradeScore
  volatility : run.entryVolatility symbol = some decision.volatilityRegime.value

/-- The entry maps hold nothing for a symbol. -/
structure Unlabelled (run : MechanicalRun) (symbol : Symbol) : Prop where
  regime : run.entryRegimes symbol = none
  score : run.entryScores symbol = none
  volatility : run.entryVolatility symbol = none

/-- The trade maps hold a decision's dimensions for a trade. -/
structure DimsRecorded (dims : TradeDims) (key : TradeKey) (decision : MechanicalDecision) :
    Prop where
  regime : dims.regimes key = some decision.regime.value
  score : dims.scores key = some decision.tradeScore
  volatility : dims.volatilities key = some decision.volatilityRegime.value

/-- Two runs carry the same dimensions, of the open positions as well as of the closed trades. -/
structure SameMaps (run run' : MechanicalRun) : Prop where
  regimes : run.entryRegimes = run'.entryRegimes
  scores : run.entryScores = run'.entryScores
  volatility : run.entryVolatility = run'.entryVolatility
  dims : run.dims = run'.dims

/-- **What a step does**: nothing to positions, trades and maps, or it closes the position of a
symbol and carries its dimensions, or a decision opens one and writes its dimensions. -/
inductive JournalStep (settings : MechanicalSettings) (run : MechanicalRun) :
    MechanicalStep → MechanicalRun → Prop
  | stayed {step : MechanicalStep} {next : MechanicalRun}
      (hheld : ∀ s, heldKey next.ledger s = heldKey run.ledger s)
      (htrades : next.ledger.closedTrades = run.ledger.closedTrades)
      (hmaps : SameMaps next run) : JournalStep settings run step next
  | closed {step : MechanicalStep} {next : MechanicalRun} {symbol : Symbol}
      {trade : ClosedTrade} (hkey : heldKey run.ledger symbol = some trade.key)
      (hheld : ∀ s, heldKey next.ledger s =
        if s = trade.symbol then none else heldKey run.ledger s)
      (htrades : next.ledger.closedTrades = run.ledger.closedTrades ++ [trade])
      (hmaps : SameMaps next (run.carryEntryDims (symbol, trade.entryTime) symbol)) :
      JournalStep settings run step next
  | entered {symbol : Symbol} {request : Llm.AnalyzeRequest} {now : Time} {fillPrice : ℚ}
      {next : MechanicalRun} (hflat : heldKey run.ledger symbol = none)
      (hheld : ∀ s, heldKey next.ledger s =
        if s = symbol then some (symbol, now) else heldKey run.ledger s)
      (htrades : next.ledger.closedTrades = run.ledger.closedTrades)
      (hlabelled : Labelled next symbol (openingDecision settings request))
      (hothers : ∀ s ≠ symbol, next.entryRegimes s = run.entryRegimes s ∧
        next.entryScores s = run.entryScores s ∧
        next.entryVolatility s = run.entryVolatility s)
      (hdims : next.dims = run.dims) :
      JournalStep settings run (.decision symbol request now fillPrice) next

section Steps

variable {settings : MechanicalSettings} {run next : MechanicalRun}

/-- An exit site: the ledger call, then the dimensions where it closed a trade. -/
theorem exit_journalStep {step : MechanicalStep} {symbol : Symbol} {ledger : Ledger}
    {closed : Option ClosedTrade} (hexit : ExitStep run.ledger symbol ledger closed)
    (hkept : closed = none → next = { run with ledger })
    (hclosed : ∀ trade, closed = some trade →
      next = ({ run with ledger } : MechanicalRun).carryEntryDims (symbol, trade.entryTime)
        symbol) :
    JournalStep settings run step next := by
  cases hexit with
  | kept hheld htrades =>
    rw [hkept rfl]
    exact .stayed hheld htrades ⟨rfl, rfl, rfl, rfl⟩
  | closed hkey hheld htrades =>
    rw [hclosed _ rfl]
    exact .closed hkey hheld htrades ⟨rfl, rfl, rfl, rfl⟩

/-- An entry leaves what is held of the other symbols. -/
theorem heldKey_insert (ledger : Ledger) (symbol : Symbol) (position : SimPosition)
    (s : Symbol) :
    heldKey { ledger with positions := ledger.positions.insert symbol position } s =
      if s = symbol then some (tradeKeyOf position) else heldKey ledger s := by
  by_cases hs : s = symbol
  · subst hs
    simp [heldKey]
  · simp [heldKey, hs]

theorem decide_journalStep {symbol : Symbol} {request : Llm.AnalyzeRequest} {now : Time}
    {fillPrice : ℚ} (h : run.decide settings symbol request now fillPrice = some next) :
    JournalStep settings run (.decision symbol request now fillPrice) next := by
  obtain ⟨latest, -, h⟩ := Option.bind_eq_some_iff.mp h
  obtain ⟨context, hcontext, h⟩ := Option.bind_eq_some_iff.mp h
  dsimp only at h
  split at h
  · rename_i hflat
    rw [hflat] at hcontext
    cases Option.some.inj hcontext
    obtain ⟨⟨ledger, result, newPosition⟩, hentry, h⟩ := Option.bind_eq_some_iff.mp h
    have hnone : heldKey run.ledger symbol = none := by simp [heldKey, hflat]
    cases applyEntry_outcome hentry with
    | entered sized _ _ =>
      cases Option.some.inj h
      refine .entered hnone (heldKey_insert _ _ _) rfl ?_ ?_ rfl
      · exact ⟨Function.update_self _ _ _, Function.update_self _ _ _,
          Function.update_self _ _ _⟩
      · intro s hs
        exact ⟨Function.update_of_ne hs _ _, Function.update_of_ne hs _ _,
          Function.update_of_ne hs _ _⟩
    | rejected sized violation =>
      cases Option.some.inj h
      refine .stayed ?_ ?_ ⟨rfl, rfl, rfl, rfl⟩
      · intro s
        simp only
        split <;> rfl
      · simp only
        split <;> rfl
  · rename_i position _ hheld
    obtain ⟨⟨ledger, result, trade⟩, hexit, h⟩ := Option.bind_eq_some_iff.mp h
    have hstep := applyExitSignal_step hexit
    dsimp only at h hstep
    refine exit_journalStep hstep ?_ ?_
    · intro hnone
      subst hnone
      exact (Option.some.inj h).symm
    · intro closed hclosed
      subst hclosed
      -- the key the loop read off the position is the key of the trade
      have htime : position.entryTime = closed.entryTime := by
        cases hstep with
        | closed hkey _ _ =>
          rw [heldKey, hheld] at hkey
          exact congrArg Prod.snd (Option.some.inj hkey)
      rw [← htime]
      exact (Option.some.inj h).symm
  · cases Option.some.inj h
    exact .stayed (fun _ => rfl) rfl ⟨rfl, rfl, rfl, rfl⟩

/-- **What one step does.** -/
theorem apply_journalStep {step : MechanicalStep} (h : run.apply settings step = some next) :
    JournalStep settings run step next := by
  cases step with
  | staticExit symbol candle now =>
    obtain ⟨⟨ledger, closed⟩, hexit, h⟩ := Option.bind_eq_some_iff.mp h
    refine exit_journalStep (checkStaticExit_step hexit) ?_ ?_
    · intro hnone
      dsimp only at hnone
      subst hnone
      exact (Option.some.inj h).symm
    · intro trade hclosed
      dsimp only at hclosed
      subst hclosed
      exact (Option.some.inj h).symm
  | decision symbol request now fillPrice => exact decide_journalStep h

end Steps

/-! ## The maps of a closing trade -/

section Carry

variable {run : MechanicalRun} {key other : TradeKey} {symbol : Symbol}
  {decision : MechanicalDecision}

/-- The trade gets the dimensions its symbol was entered with. -/
theorem carry_records (h : Labelled run symbol decision) (key : TradeKey) :
    DimsRecorded (run.carryEntryDims key symbol).dims key decision where
  regime := by simp [MechanicalRun.carryEntryDims, h.regime]
  score := by simp [MechanicalRun.carryEntryDims, h.score]
  volatility := by simp [MechanicalRun.carryEntryDims, h.volatility]

theorem carry_keeps (h : DimsRecorded run.dims other decision) (hne : other ≠ key) :
    DimsRecorded (run.carryEntryDims key symbol).dims other decision where
  regime := by simp [MechanicalRun.carryEntryDims, hne, h.regime]
  score := by
    unfold MechanicalRun.carryEntryDims
    cases run.entryScores symbol <;> simp [hne, h.score]
  volatility := by
    unfold MechanicalRun.carryEntryDims
    cases run.entryVolatility symbol <;> simp [hne, h.volatility]

/-- The symbol is no longer in the entry maps. -/
theorem carry_clears (run : MechanicalRun) (key : TradeKey) (symbol : Symbol) :
    Unlabelled (run.carryEntryDims key symbol) symbol :=
  ⟨Function.update_self _ _ _, Function.update_self _ _ _, Function.update_self _ _ _⟩

theorem carry_others (run : MechanicalRun) (key : TradeKey) {s symbol : Symbol}
    (hs : s ≠ symbol) :
    (run.carryEntryDims key symbol).entryRegimes s = run.entryRegimes s ∧
      (run.carryEntryDims key symbol).entryScores s = run.entryScores s ∧
      (run.carryEntryDims key symbol).entryVolatility s = run.entryVolatility s :=
  ⟨Function.update_of_ne hs _ _, Function.update_of_ne hs _ _, Function.update_of_ne hs _ _⟩

variable {next : MechanicalRun} {s : Symbol}

/-- The labels of a symbol whose entries are the same. -/
theorem Labelled.congr (h : Labelled run s decision)
    (hsame : next.entryRegimes s = run.entryRegimes s ∧
      next.entryScores s = run.entryScores s ∧
      next.entryVolatility s = run.entryVolatility s) : Labelled next s decision :=
  ⟨hsame.1.trans h.regime, hsame.2.1.trans h.score, hsame.2.2.trans h.volatility⟩

/-- A symbol without labels stays so where its entries in the maps are the same. -/
theorem Unlabelled.congr (h : Unlabelled run s)
    (hsame : next.entryRegimes s = run.entryRegimes s ∧
      next.entryScores s = run.entryScores s ∧
      next.entryVolatility s = run.entryVolatility s) : Unlabelled next s :=
  ⟨hsame.1.trans h.regime, hsame.2.1.trans h.score, hsame.2.2.trans h.volatility⟩

/-- Runs with the same maps have the same entries of a symbol. -/
theorem SameMaps.entries (h : SameMaps next run) (s : Symbol) :
    next.entryRegimes s = run.entryRegimes s ∧ next.entryScores s = run.entryScores s ∧
      next.entryVolatility s = run.entryVolatility s :=
  ⟨congrFun h.regimes s, congrFun h.scores s, congrFun h.volatility s⟩

end Carry

/-! ## The journal over a run -/

/-- `event` is the decision that opened the position of its key, with the dimensions of
`decision`. -/
structure OpenedAt (replay : MechanicalReplay) (done : List (ReplayPhase × ReplayEvent))
    (event : ReplayEvent) (decision : MechanicalDecision) : Prop where
  visited : ∃ before after mid next, done = before ++ (.decision, event) :: after ∧
    replay.runTo before = some mid ∧ replay.step mid (.decision, event) = some next ∧
    heldKey mid.ledger event.symbol = none ∧
    heldKey next.ledger event.symbol = some event.key
  decided : ∃ request, replay.requestAt event = some request ∧
    decision = openingDecision replay.settings request

/-- A decision opened the position of the key. -/
def OpenedBy (replay : MechanicalReplay) (done : List (ReplayPhase × ReplayEvent))
    (key : TradeKey) (decision : MechanicalDecision) : Prop :=
  ∃ event : ReplayEvent, event.key = key ∧ OpenedAt replay done event decision

/-- The keys of the decisions of a part of the schedule. -/
def decisionKeys (visits : List (ReplayPhase × ReplayEvent)) : List TradeKey :=
  (visits.filter fun visit => visit.1 = .decision).map fun visit => visit.2.key

/-- **What every part of the schedule keeps.**  Each held position has the dimensions of the
decision that opened it in the entry maps, which hold nothing else; each closed trade has
those of its own in the trade maps; no key is closed twice or held and closed. -/
structure Journal (replay : MechanicalReplay) (done : List (ReplayPhase × ReplayEvent))
    (run : MechanicalRun) : Prop where
  symbol_eq : ∀ s key, heldKey run.ledger s = some key → key.1 = s
  held : ∀ s key, heldKey run.ledger s = some key →
    ∃ decision, OpenedBy replay done key decision ∧ Labelled run s decision
  flat : ∀ s, heldKey run.ledger s = none → Unlabelled run s
  nodup : (run.ledger.closedTrades.map ClosedTrade.key).Nodup
  apart : ∀ s key, heldKey run.ledger s = some key →
    key ∉ run.ledger.closedTrades.map ClosedTrade.key
  recorded : ∀ trade ∈ run.ledger.closedTrades,
    ∃ decision, OpenedBy replay done trade.key decision ∧ DimsRecorded run.dims trade.key decision

section Runs

variable {replay : MechanicalReplay} {done : List (ReplayPhase × ReplayEvent)}
  {run next : MechanicalRun} {key : TradeKey} {decision : MechanicalDecision}

theorem OpenedBy.append (h : OpenedBy replay done key decision)
    (more : List (ReplayPhase × ReplayEvent)) : OpenedBy replay (done ++ more) key decision := by
  obtain ⟨event, hkey, ⟨before, after, mid, next, rfl, hvisit⟩, hdecided⟩ := h
  refine ⟨event, hkey, ⟨before, after ++ more, mid, next, ?_, hvisit⟩, hdecided⟩
  simp

/-- A key was opened by a decision of that key. -/
theorem OpenedBy.mem_decisionKeys (h : OpenedBy replay done key decision) :
    key ∈ decisionKeys done := by
  obtain ⟨event, rfl, ⟨before, after, mid, next, rfl, -⟩, -⟩ := h
  simp [decisionKeys]

/-- Before the loop there is nothing to keep. -/
theorem journal_start (replay : MechanicalReplay) : Journal replay [] replay.start where
  symbol_eq := by
    intro s key h
    cases h
  held := by
    intro s key h
    cases h
  flat := fun s _ => ⟨rfl, rfl, rfl⟩
  nodup := List.nodup_nil
  apart := by
    intro s key h
    cases h
  recorded := by
    intro trade h
    cases h

theorem journal_stayed (hjournal : Journal replay done run)
    (more : List (ReplayPhase × ReplayEvent))
    (hheld : ∀ s, heldKey next.ledger s = heldKey run.ledger s)
    (htrades : next.ledger.closedTrades = run.ledger.closedTrades)
    (hmaps : SameMaps next run) : Journal replay (done ++ more) next where
  symbol_eq := fun s key h => hjournal.symbol_eq s key (hheld s ▸ h)
  held := by
    intro s key h
    obtain ⟨decision, hopened, hlabelled⟩ := hjournal.held s key (hheld s ▸ h)
    exact ⟨decision, hopened.append more, hlabelled.congr (hmaps.entries s)⟩
  flat := fun s h => (hjournal.flat s (hheld s ▸ h)).congr (hmaps.entries s)
  nodup := htrades ▸ hjournal.nodup
  apart := fun s key h => htrades ▸ hjournal.apart s key (hheld s ▸ h)
  recorded := by
    intro trade h
    rw [htrades] at h
    obtain ⟨decision, hopened, hrecorded⟩ := hjournal.recorded trade h
    exact ⟨decision, hopened.append more, hmaps.dims ▸ hrecorded⟩

theorem journal_closed (hjournal : Journal replay done run)
    (more : List (ReplayPhase × ReplayEvent)) {symbol : Symbol} {trade : ClosedTrade}
    (hkey : heldKey run.ledger symbol = some trade.key)
    (hheld : ∀ s, heldKey next.ledger s =
      if s = trade.symbol then none else heldKey run.ledger s)
    (htrades : next.ledger.closedTrades = run.ledger.closedTrades ++ [trade])
    (hmaps : SameMaps next (run.carryEntryDims (symbol, trade.entryTime) symbol)) :
    Journal replay (done ++ more) next := by
  have hsymbol : trade.symbol = symbol := hjournal.symbol_eq symbol _ hkey
  subst hsymbol
  have hfresh := hjournal.apart _ _ hkey
  -- what is still held was held before, of another symbol
  have hstill : ∀ s key, heldKey next.ledger s = some key →
      s ≠ trade.symbol ∧ heldKey run.ledger s = some key := by
    intro s key h
    rw [hheld] at h
    by_cases hs : s = trade.symbol
    · rw [if_pos hs] at h
      cases h
    · rw [if_neg hs] at h
      exact ⟨hs, h⟩
  constructor
  case symbol_eq => exact fun s key h => hjournal.symbol_eq s key (hstill s key h).2
  case held =>
    intro s key h
    obtain ⟨hs, hrun⟩ := hstill s key h
    obtain ⟨decision, hopened, hlabelled⟩ := hjournal.held s key hrun
    have hcarried := hlabelled.congr (carry_others run (trade.symbol, trade.entryTime) hs)
    exact ⟨decision, hopened.append more, hcarried.congr (hmaps.entries s)⟩
  case flat =>
    intro s h
    by_cases hs : s = trade.symbol
    · subst hs
      exact (carry_clears run _ _).congr (hmaps.entries _)
    · rw [hheld, if_neg hs] at h
      have hcarried := (hjournal.flat s h).congr
        (carry_others run (trade.symbol, trade.entryTime) hs)
      exact hcarried.congr (hmaps.entries s)
  case nodup =>
    rw [htrades, List.map_append]
    exact List.nodup_append.mpr ⟨hjournal.nodup, List.nodup_singleton _, by
      intro a ha b hb hab
      rw [List.map_singleton, List.mem_singleton] at hb
      exact hfresh (hb ▸ hab ▸ ha)⟩
  case apart =>
    intro s key h
    obtain ⟨hs, hrun⟩ := hstill s key h
    rw [htrades, List.map_append, List.mem_append, List.map_singleton, List.mem_singleton]
    rintro (hclosed | hsame)
    · exact hjournal.apart s key hrun hclosed
    · exact hs ((hjournal.symbol_eq s key hrun).symm.trans (congrArg Prod.fst hsame))
  case recorded =>
    intro closed h
    rw [htrades, List.mem_append, List.mem_singleton] at h
    rw [hmaps.dims]
    rcases h with hold | rfl
    · obtain ⟨decision, hopened, hrecorded⟩ := hjournal.recorded closed hold
      refine ⟨decision, hopened.append more, carry_keeps hrecorded ?_⟩
      intro hsame
      exact hfresh (List.mem_map.mpr ⟨closed, hold, hsame⟩)
    · obtain ⟨decision, hopened, hlabelled⟩ := hjournal.held _ _ hkey
      exact ⟨decision, hopened.append more, carry_records hlabelled _⟩

/-- A decision that opens a position under a new key. -/
theorem journal_entered (hjournal : Journal replay done run) {event : ReplayEvent}
    {request : Llm.AnalyzeRequest}
    (hopened : OpenedBy replay (done ++ [(.decision, event)]) event.key
      (openingDecision replay.settings request))
    (hfresh : event.key ∉ decisionKeys done)
    (hheld : ∀ s, heldKey next.ledger s =
      if s = event.symbol then some event.key else heldKey run.ledger s)
    (htrades : next.ledger.closedTrades = run.ledger.closedTrades)
    (hlabelled : Labelled next event.symbol (openingDecision replay.settings request))
    (hothers : ∀ s ≠ event.symbol, next.entryRegimes s = run.entryRegimes s ∧
      next.entryScores s = run.entryScores s ∧ next.entryVolatility s = run.entryVolatility s)
    (hdims : next.dims = run.dims) :
    Journal replay (done ++ [(.decision, event)]) next := by
  -- what is held is the new position, or was held before
  have hcases : ∀ s key, heldKey next.ledger s = some key →
      s = event.symbol ∧ key = event.key ∨
        s ≠ event.symbol ∧ heldKey run.ledger s = some key := by
    intro s key h
    rw [hheld] at h
    by_cases hs : s = event.symbol
    · rw [if_pos hs] at h
      exact .inl ⟨hs, (Option.some.inj h).symm⟩
    · rw [if_neg hs] at h
      exact .inr ⟨hs, h⟩
  constructor
  case symbol_eq =>
    intro s key h
    rcases hcases s key h with ⟨rfl, rfl⟩ | ⟨-, hrun⟩
    · rfl
    · exact hjournal.symbol_eq s key hrun
  case held =>
    intro s key h
    rcases hcases s key h with ⟨rfl, rfl⟩ | ⟨hs, hrun⟩
    · exact ⟨_, hopened, hlabelled⟩
    · obtain ⟨decision, hbefore, hrunLabelled⟩ := hjournal.held s key hrun
      exact ⟨decision, hbefore.append _, hrunLabelled.congr (hothers s hs)⟩
  case flat =>
    intro s h
    rw [hheld] at h
    by_cases hs : s = event.symbol
    · rw [if_pos hs] at h
      cases h
    · rw [if_neg hs] at h
      exact (hjournal.flat s h).congr (hothers s hs)
  case nodup => exact htrades ▸ hjournal.nodup
  case apart =>
    intro s key h
    rw [htrades]
    rcases hcases s key h with ⟨rfl, rfl⟩ | ⟨-, hrun⟩
    · -- a closed trade of this key was opened by an earlier decision of the key
      intro hclosed
      obtain ⟨trade, htrade, hkey⟩ := List.mem_map.mp hclosed
      obtain ⟨decision, hbefore, -⟩ := hjournal.recorded trade htrade
      exact hfresh (hkey ▸ hbefore.mem_decisionKeys)
    · exact hjournal.apart s key hrun
  case recorded =>
    intro trade h
    rw [htrades] at h
    obtain ⟨decision, hbefore, hrecorded⟩ := hjournal.recorded trade h
    exact ⟨decision, hbefore.append _, hdims ▸ hrecorded⟩

/-- **One visit** keeps the journal, where its decision is of a new key. -/
theorem journal_step (hrun : replay.runTo done = some run) (hjournal : Journal replay done run)
    {visit : ReplayPhase × ReplayEvent} (hfresh : (decisionKeys (done ++ [visit])).Nodup)
    (h : replay.step run visit = some next) : Journal replay (done ++ [visit]) next := by
  obtain ⟨phase, event⟩ := visit
  obtain ⟨step, hvisit, happly⟩ := Option.bind_eq_some_iff.mp h
  cases apply_journalStep happly with
  | stayed hheld htrades hmaps => exact journal_stayed hjournal _ hheld htrades hmaps
  | closed hkey hheld htrades hmaps =>
    exact journal_closed hjournal _ hkey hheld htrades hmaps
  | @entered symbol request now fillPrice _ hflat hheld htrades hlabelled hothers hdims =>
    cases phase with
    | staticExit =>
      obtain ⟨candle, -, hstep⟩ := Option.bind_eq_some_iff.mp hvisit
      cases hstep
    | decision =>
      obtain ⟨found, hrequest, hvisit⟩ := Option.bind_eq_some_iff.mp hvisit
      obtain ⟨following, -, hstep⟩ := Option.bind_eq_some_iff.mp hvisit
      cases hstep
      have hnew : event.key ∉ decisionKeys done := by
        intro hmem
        rw [decisionKeys, List.filter_append, List.map_append] at hfresh
        exact (List.nodup_append.mp hfresh).2.2 _ hmem _ (by simp) rfl
      have hopened : OpenedBy replay (done ++ [(.decision, event)]) event.key
          (openingDecision replay.settings request) := by
        refine ⟨event, rfl, ⟨done, [], run, next, rfl, hrun, h, hflat, ?_⟩,
          ⟨request, hrequest, rfl⟩⟩
        rw [hheld, if_pos rfl]
        rfl
      exact journal_entered hjournal hopened hnew hheld htrades hlabelled hothers hdims

end Runs

/-! ## The schedule -/

section Schedule

variable {replay : MechanicalReplay}

/-- **What `fetch_history` returns is a series**: it reads the rows of a primary key in order. -/
theorem fetchHistory_series {market : History.Market} {exchange : History.Exchange market}
    {symbol : Symbol} {timeframe : History.Timeframe} {sinceMs untilMs : ℤ}
    {cache : History.CandleCache} {candles : List History.Candle}
    (h : (History.fetchHistory exchange symbol timeframe sinceMs untilMs cache).1 =
      .ok candles) : ∃ series : CandleSeries, series.candles = candles := by
  have hrange : ∃ read : History.CandleCache,
      read.getRange symbol timeframe sinceMs untilMs = candles := by
    unfold History.fetchHistory at h
    dsimp only at h
    split at h
    · exact ⟨cache, Except.ok.inj h⟩
    · split at h
      · cases h
      · exact ⟨_, Except.ok.inj h⟩
  obtain ⟨read, rfl⟩ := hrange
  exact ⟨⟨_, getRange_ascending read symbol timeframe sinceMs untilMs⟩, rfl⟩

theorem eventsOf_eq {symbol : Symbol} {series : CandleSeries} {event : ReplayEvent}
    (h : event ∈ replay.eventsOf symbol series) :
    event.symbol = symbol ∧ ∃ candle, series.candles[event.index]? = some candle ∧
      event.closeTs = candle.t + History.timeframeToMs replay.timeframe := by
  obtain ⟨i, -, hevent⟩ := List.mem_filterMap.mp h
  obtain ⟨candle, hcandle, hevent⟩ := Option.bind_eq_some_iff.mp hevent
  dsimp only at hevent
  split at hevent
  · cases Option.some.inj hevent
    exact ⟨rfl, candle, hcandle, rfl⟩
  · cases hevent

/-- The closes of a symbol ascend with its candles. -/
theorem eventsOf_ascending (replay : MechanicalReplay) (symbol : Symbol)
    (series : CandleSeries) :
    (replay.eventsOf symbol series).Pairwise fun a b => a.closeTs < b.closeTs := by
  refine List.Pairwise.filterMap _ (fun i j hij a ha b hb => ?_) List.pairwise_lt_range'
  obtain ⟨candle, hcandle, ha⟩ := Option.bind_eq_some_iff.mp ha
  obtain ⟨later, hlater, hb⟩ := Option.bind_eq_some_iff.mp hb
  have hopen : candle.t < later.t := by
    obtain ⟨hi, rfl⟩ := List.getElem?_eq_some_iff.mp hcandle
    obtain ⟨hj, rfl⟩ := List.getElem?_eq_some_iff.mp hlater
    exact List.pairwise_iff_getElem.mp series.ascending i j hi hj hij
  dsimp only at ha hb
  split at ha
  · split at hb
    · cases Option.some.inj ha
      cases Option.some.inj hb
      simpa using hopen
    · cases hb
  · cases ha

/-- A symbol has one event for each close. -/
theorem eventsOf_nodup (replay : MechanicalReplay) (symbol : Symbol) (series : CandleSeries) :
    ((replay.eventsOf symbol series).map ReplayEvent.key).Nodup := by
  refine List.pairwise_map.mpr ((eventsOf_ascending replay symbol series).imp ?_)
  intro a b hlt hkey
  have hnow : (a.closeTs * 1000 : ℤ) = b.closeTs * 1000 := congrArg Prod.snd hkey
  omega

/-- **No two events have the same symbol and close.** -/
theorem events_nodup (replay : MechanicalReplay) :
    (replay.events.map ReplayEvent.key).Nodup := by
  rw [MechanicalReplay.events, ((sortBy_perm _ _).map ReplayEvent.key).nodup_iff,
    List.map_flatMap]
  refine List.nodup_flatMap.mpr ⟨fun entry _ => eventsOf_nodup replay _ _, ?_⟩
  refine (List.nodupKeys_iff_pairwise.mp replay.candlesBySymbol.nodupKeys).imp ?_
  intro entry other hne key hkey hother
  obtain ⟨event, hevent, rfl⟩ := List.mem_map.mp hkey
  obtain ⟨event', hevent', hsame⟩ := List.mem_map.mp hother
  have hsymbol : event'.symbol = event.symbol := congrArg Prod.fst hsame
  exact hne ((eventsOf_eq hevent).1.symm.trans (hsymbol.symm.trans (eventsOf_eq hevent').1))

/-- The decisions of the schedule are its events, in order. -/
theorem decisionKeys_schedule (replay : MechanicalReplay) :
    decisionKeys replay.schedule = replay.events.map ReplayEvent.key := by
  rw [decisionKeys, MechanicalReplay.schedule, List.filter_flatMap, List.map_flatMap]
  have hgroup : ∀ group : List ReplayEvent,
      (((group.map fun event => (ReplayPhase.staticExit, event)) ++
          group.map fun event => (ReplayPhase.decision, event)).filter
        fun visit => visit.1 = .decision).map (fun visit => visit.2.key) =
      group.map ReplayEvent.key := by
    intro group
    simp [List.filter_append, List.filter_map, Function.comp_def]
  simp only [hgroup]
  rw [← List.map_flatMap, List.flatMap_id', List.flatten_splitBy]

/-- No two decisions in a part of the schedule have the same key. -/
theorem decisionKeys_nodup {done : List (ReplayPhase × ReplayEvent)}
    (h : done <+: replay.schedule) : (decisionKeys done).Nodup := by
  have hall : (decisionKeys replay.schedule).Nodup :=
    decisionKeys_schedule replay ▸ events_nodup replay
  exact (((h.sublist.filter _).map _).nodup hall)

/-- A key determines the decision event of the schedule. -/
theorem decision_unique {event other : ReplayEvent}
    (h : (.decision, event) ∈ replay.schedule) (h' : (.decision, other) ∈ replay.schedule)
    (hkey : other.key = event.key) : other = event := by
  have hnodup := decisionKeys_nodup (List.prefix_refl replay.schedule)
  have hsame : ((.decision, other) : ReplayPhase × ReplayEvent) = (.decision, event) :=
    List.inj_on_of_nodup_map hnodup (List.mem_filter.mpr ⟨h', rfl⟩)
      (List.mem_filter.mpr ⟨h, rfl⟩) hkey
  exact congrArg Prod.snd hsame

variable {done : List (ReplayPhase × ReplayEvent)} {run : MechanicalRun}

/-- **Every part of the schedule keeps the journal.** -/
theorem journal_runTo (hdone : done <+: replay.schedule) (hrun : replay.runTo done = some run) :
    Journal replay done run := by
  refine (runPartial_inv (P := fun done run =>
    replay.runTo done = some run ∧ Journal replay done run) ?_ ?_ hdone hrun).2
  · exact ⟨rfl, journal_start replay⟩
  · intro before visit mid next hbefore hmid hstep
    obtain ⟨hmid, hjournal⟩ := hmid
    constructor
    · rw [MechanicalReplay.runTo] at hmid ⊢
      rw [runPartial_append, hmid, Option.bind_some, runPartial_cons, hstep]
      rfl
    · exact journal_step hmid hjournal (decisionKeys_nodup hbefore) hstep

end Schedule

/-- The entry maps have exactly the symbols of the open positions. -/
structure EntryKeysHeld (run : MechanicalRun) : Prop where
  regimes : ∀ symbol, (run.entryRegimes symbol).isSome ↔ symbol ∈ run.ledger.positions
  scores : ∀ symbol, (run.entryScores symbol).isSome ↔ symbol ∈ run.ledger.positions
  volatility : ∀ symbol, (run.entryVolatility symbol).isSome ↔ symbol ∈ run.ledger.positions

/-- The entry maps of a journal have the symbols that are held. -/
theorem Journal.entryKeysHeld {replay : MechanicalReplay}
    {done : List (ReplayPhase × ReplayEvent)} {run : MechanicalRun}
    (h : Journal replay done run) : EntryKeysHeld run := by
  have hlabels : ∀ symbol, (symbol ∈ run.ledger.positions ∧ ∃ decision,
      Labelled run symbol decision) ∨
        (symbol ∉ run.ledger.positions ∧ Unlabelled run symbol) := by
    intro symbol
    cases hheld : heldKey run.ledger symbol with
    | some key =>
      obtain ⟨decision, -, hlabelled⟩ := h.held symbol key hheld
      exact .inl ⟨heldKey_isSome.mp (by simp [hheld]), decision, hlabelled⟩
    | none =>
      refine .inr ⟨fun hmem => ?_, h.flat symbol hheld⟩
      have hsome := heldKey_isSome.mpr hmem
      rw [hheld] at hsome
      cases hsome
  constructor
  all_goals
    intro symbol
    rcases hlabels symbol with ⟨hmem, decision, hlabelled⟩ | ⟨hmem, hunlabelled⟩
  · simp [hmem, hlabelled.regime]
  · simp [hmem, hunlabelled.regime]
  · simp [hmem, hlabelled.score]
  · simp [hmem, hunlabelled.score]
  · simp [hmem, hlabelled.volatility]
  · simp [hmem, hunlabelled.volatility]

/-- **The journal of the mechanical replay is exact.**  After every visit the loop has made,
so after every decision, the entry maps have the symbols of the open positions.  No two closed
trades have the same symbol and entry time.  Each closed trade has the regime, the score and
the volatility of the one decision that opened it, whichever way it closed. -/
theorem mechanical_journal_exact (replay : MechanicalReplay)
    (done : List (ReplayPhase × ReplayEvent)) (run : MechanicalRun)
    (hdone : done <+: replay.schedule) (hrun : replay.runTo done = some run) :
    EntryKeysHeld run ∧ (run.ledger.closedTrades.map ClosedTrade.key).Nodup ∧
      ∀ trade ∈ run.ledger.closedTrades, ∃ event decision, event.key = trade.key ∧
        OpenedAt replay done event decision ∧
        (∀ other, (.decision, other) ∈ replay.schedule → other.key = trade.key →
          other = event) ∧
        DimsRecorded run.dims trade.key decision := by
  have hjournal := journal_runTo hdone hrun
  refine ⟨hjournal.entryKeysHeld, hjournal.nodup, ?_⟩
  intro trade htrade
  obtain ⟨decision, ⟨event, hkey, hopened⟩, hrecorded⟩ := hjournal.recorded trade htrade
  refine ⟨event, decision, hkey, hopened, ?_, hrecorded⟩
  intro other hother hsame
  obtain ⟨before, after, mid, next, hvisited, -⟩ := hopened.visited
  have hevent : (.decision, event) ∈ done := by simp [hvisited]
  exact decision_unique (hdone.subset hevent) hother (hsame.trans hkey.symm)

/-- The hourly candles of a market that rises and then gaps down. -/
def risingSeries : CandleSeries where
  candles :=
    [⟨0, 97, 98, 96, 97, 10⟩, ⟨3600000, 98, 99, 97, 98, 10⟩, ⟨7200000, 99, 101, 98, 100, 20⟩,
      ⟨10800000, 100, 1015 / 10, 995 / 10, 101, 20⟩,
      ⟨14400000, 101, 1022 / 10, 101, 102, 20⟩,
      ⟨18000000, 1002 / 10, 1002 / 10, 100, 100, 20⟩, ⟨21600000, 100, 100, 100, 100, 20⟩]
  ascending := by decide

/-- A mechanical replay over the candles of the rising market. -/
def risingReplay : MechanicalReplay where
  timeframe := ⟨1, .h, Nat.one_pos⟩
  timeframeText := "1h"
  startMs := 0
  endMs := 25200000
  candleLookback := 3
  lookback_pos := by decide
  llmOhlcvWindow := 3
  settings := { risk := {}, thresholds := {}, suppressBuyRegimes := [] }
  startingEquityUsdt := 10000
  feePct := 1 / 1000
  slippagePct := 0
  compounding := false
  ignoreKillswitch := false
  candlesBySymbol := AList.singleton "BTC/USDT" risingSeries
  computeIndicators := fun _ => some
    { rsi14 := 50
      ema50 := 995 / 10
      ema200 := 99
      macd := ⟨1, 1 / 2, 1 / 2⟩
      atr14 := 2
      volumeSma20 := 10 }
  iso := fun _ => ""

/-- The replay enters at the third candle and is stopped out by the gap. -/
theorem rising_journal_exact :
    ∃ run, risingReplay.runTo risingReplay.schedule = some run ∧
      (run.ledger.closedTrades.map ClosedTrade.key) = [("BTC/USDT", minutes 180)] ∧
      EntryKeysHeld run := by
  have hrun : ((risingReplay.runTo risingReplay.schedule).map fun run =>
      run.ledger.closedTrades.map ClosedTrade.key) = some [("BTC/USDT", minutes 180)] := by
    decide +kernel
  obtain ⟨run, hrun, hkeys⟩ := Option.map_eq_some_iff.mp hrun
  exact ⟨run, hrun, hkeys,
    (mechanical_journal_exact risingReplay _ run (List.prefix_refl _) hrun).1⟩

end TradeMind.Analysis
