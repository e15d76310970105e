import TradeMind.Analysis.ReplaySteps

/-!
# Pending orders of the historical replay

The symbols that are open or have a pending entry never exceed `max_open_positions`, a pending
exit's symbol is open, and an order waits for the first candle of its symbol that opens at or
after its signal's close.  `Orderly` is the invariant between the candles; inside a candle it
already speaks of that candle once its open has been handled.
-/

set_option autoImplicit false

namespace TradeMind.Analysis

open TradeMind.Model TradeMind.Library TradeMind.Model.Replay

/-! ## The candle order -/

/-- The candles of each symbol follow one another without overlap. -/
def Separated (candles : List Candle) : Prop :=
  candles.Pairwise fun a b => a.symbol = b.symbol → a.closeTime ≤ b.openTime

theorem acceptsFrom_cons {first : Candle} {rest : List Candle} {seen : List (Symbol × Time)}
    {lastClose : Symbol → Option Time}
    (h : acceptsFrom seen lastClose (first :: rest) = true) :
    (first.symbol, first.openTime) ∉ seen ∧
      (∀ previous, lastClose first.symbol = some previous → previous ≤ first.openTime) ∧
      acceptsFrom ((first.symbol, first.openTime) :: seen)
        (Function.update lastClose first.symbol (some first.closeTime)) rest = true := by
  cases hlast : lastClose first.symbol with
  | none => simpa [acceptsFrom, hlast] using h
  | some previous => simpa [acceptsFrom, hlast, and_assoc] using h

/-- Accepted candles open at or after the last close of their symbol, and are separated. -/
theorem acceptsFrom_separated {candles : List Candle} {seen : List (Symbol × Time)}
    {lastClose : Symbol → Option Time} (h : acceptsFrom seen lastClose candles = true) :
    (∀ candle ∈ candles, ∀ previous, lastClose candle.symbol = some previous →
      previous ≤ candle.openTime) ∧ Separated candles := by
  induction candles generalizing seen lastClose with
  | nil => exact ⟨fun candle hcandle => absurd hcandle List.not_mem_nil, .nil⟩
  | cons first rest ih =>
    obtain ⟨-, hfirst, haccepts⟩ := acceptsFrom_cons h
    obtain ⟨hrest, hseparated⟩ := ih haccepts
    refine ⟨?_, List.pairwise_cons.mpr ⟨?_, hseparated⟩⟩
    · intro candle hcandle previous hprevious
      rcases List.mem_cons.mp hcandle with rfl | hmem
      · exact hfirst previous hprevious
      · by_cases hsymbol : candle.symbol = first.symbol
        · have hclose := hrest candle hmem first.closeTime (by simp [hsymbol])
          exact (hfirst previous (hsymbol ▸ hprevious)).trans (first.times.le.trans hclose)
        · exact hrest candle hmem previous (by rwa [Function.update_of_ne hsymbol])
    · intro candle hmem hsymbol
      exact hrest candle hmem first.closeTime (by simp [← hsymbol])

theorem validate_separated {candles ordered : List Candle}
    (h : validateAndOrderCandles candles = some ordered) : Separated ordered := by
  unfold validateAndOrderCandles at h
  dsimp only at h
  split at h
  · cases h
  · split at h
    · rename_i haccepts
      cases Option.some.inj h
      exact (acceptsFrom_separated haccepts).2
    · cases h

/-- In separated candles, the earlier ones of a candle's symbol close before it opens. -/
theorem Separated.earlier {before rest : List Candle} {candle : Candle}
    (h : Separated (before ++ candle :: rest)) {c : Candle} (hc : c ∈ before)
    (hsymbol : c.symbol = candle.symbol) : c.closeTime ≤ candle.openTime :=
  (List.pairwise_append.mp h).2.2 c hc candle List.mem_cons_self hsymbol

/-! ## The invariant -/

theorem mem_pendingEntrySymbols {st : Simulator} {symbol : Symbol} :
    symbol ∈ st.pendingEntrySymbols ↔
      ∃ order, st.pending.lookup symbol = some order ∧ order.entryStake.isSome := by
  simp only [Simulator.pendingEntrySymbols, List.mem_toFinset, List.mem_map, List.mem_filter]
  constructor
  · rintro ⟨⟨key, order⟩, ⟨hmem, hentry⟩, rfl⟩
    exact ⟨order, AList.mem_lookup_iff.mpr hmem, hentry⟩
  · rintro ⟨order, hlookup, hentry⟩
    exact ⟨⟨symbol, order⟩, ⟨AList.mem_lookup_iff.mp hlookup, hentry⟩, rfl⟩

/-- The symbols that are open or have a pending entry. -/
def committed (st : Simulator) : Finset Symbol := Dict.keySet st.positions ∪ st.pendingEntrySymbols

/-- A candle is due for an order: of its symbol, and open at or after its signal's close. -/
def Due (order : PendingOrder) (candle : Candle) : Prop :=
  candle.symbol = order.symbol ∧ order.signalTime ≤ candle.openTime

instance (order : PendingOrder) (candle : Candle) : Decidable (Due order candle) :=
  inferInstanceAs (Decidable (candle.symbol = order.symbol ∧ order.signalTime ≤ candle.openTime))

/-- A pending order stands under its own symbol, is the order of the signal at the close of a
past candle of it, and no past candle was due for it. -/
structure Waiting (signalsByKey : Symbol → Time → Option SyntheticSignal) (past : List Candle)
    (symbol : Symbol) (order : PendingOrder) : Prop where
  own : order.symbol = symbol
  signal : ∃ candle ∈ past, candle.symbol = symbol ∧ candle.closeTime = order.signalTime ∧
    (signalsByKey symbol candle.closeTime).isSome
  notDue : ∀ candle ∈ past, ¬ Due order candle

/-- The order protocol after the candles `past`. -/
structure Orderly (config : ReplayConfig)
    (signalsByKey : Symbol → Time → Option SyntheticSignal) (past : List Candle)
    (st : Simulator) : Prop where
  capacity : ((committed st).card : ℤ) ≤ config.risk.maxOpenPositions
  waiting : ∀ symbol order, st.pending.lookup symbol = some order →
    Waiting signalsByKey past symbol order
  sells : ∀ symbol order, st.pending.lookup symbol = some order → order.side = .SELL →
    symbol ∈ st.positions

variable {config : ReplayConfig} {signalsByKey : Symbol → Time → Option SyntheticSignal}
  {past : List Candle} {st st' : Simulator} {candle : Candle}

/-- No order waits for anything in a fresh simulator. -/
theorem fresh_orderly (hmax : 0 ≤ config.risk.maxOpenPositions) :
    Orderly config signalsByKey [] (Simulator.fresh config) :=
  { capacity := by simpa [committed, Simulator.fresh, Simulator.pendingEntrySymbols] using hmax
    waiting := fun symbol order h => by simp [Simulator.fresh] at h
    sells := fun symbol order h => by simp [Simulator.fresh] at h }

/-- An invariant about the past extends to a candle whose symbol has no pending order. -/
theorem Orderly.pass (h : Orderly config signalsByKey past st)
    (hfresh : candle.symbol ∉ st.pending) : Orderly config signalsByKey (past ++ [candle]) st := by
  refine ⟨h.capacity, fun symbol order horder => ?_, h.sells⟩
  obtain ⟨hown, ⟨source, hsource, hsignal⟩, hnotDue⟩ := h.waiting symbol order horder
  refine ⟨hown, ⟨source, List.mem_append_left _ hsource, hsignal⟩, fun other hother hdue => ?_⟩
  rcases List.mem_append.mp hother with hpast | hlast
  · exact hnotDue other hpast hdue
  · cases List.mem_singleton.mp hlast
    have hne : st.pending.lookup candle.symbol = none := AList.lookup_eq_none.mpr hfresh
    rw [hdue.1, hown, horder] at hne
    cases hne

theorem mem_committed {symbol : Symbol} :
    symbol ∈ committed st ↔ symbol ∈ st.positions ∨
      ∃ order, st.pending.lookup symbol = some order ∧ order.entryStake.isSome := by
  rw [committed, Finset.mem_union, Dict.mem_keySet, mem_pendingEntrySymbols]

/-- Dropping orders and closing positions of symbols without one keeps the protocol. -/
theorem Orderly.shrink (h : Orderly config signalsByKey past st)
    (hpending : ∀ symbol order, st'.pending.lookup symbol = some order →
      st.pending.lookup symbol = some order)
    (hopened : ∀ symbol ∈ st'.positions, symbol ∈ committed st)
    (hkept : ∀ symbol order, st'.pending.lookup symbol = some order → symbol ∈ st.positions →
      symbol ∈ st'.positions) : Orderly config signalsByKey past st' := by
  have hsubset : committed st' ⊆ committed st := by
    intro symbol hsymbol
    rcases mem_committed.mp hsymbol with hopen | ⟨order, horder, hentry⟩
    · exact hopened symbol hopen
    · exact mem_committed.mpr (.inr ⟨order, hpending symbol order horder, hentry⟩)
  have hcard : ((committed st').card : ℤ) ≤ (committed st).card :=
    Int.ofNat_le.mpr (Finset.card_le_card hsubset)
  exact
    { capacity := hcard.trans h.capacity
      waiting := fun symbol order horder => h.waiting symbol order (hpending symbol order horder)
      sells := fun symbol order horder hside => hkept symbol order horder
        (h.sells symbol order (hpending symbol order horder) hside) }

/-- A close is of a symbol without a pending order. -/
theorem closePosition_orderly {symbol : Symbol} {closedAt : Time} {reference fill : ℚ}
    {reason : String} (h : Orderly config signalsByKey past st) (hfresh : symbol ∉ st.pending)
    (hclose : closePosition config st symbol closedAt reference fill reason = some st') :
    Orderly config signalsByKey past st' ∧ symbol ∉ st'.pending := by
  obtain ⟨position, -, -, rfl⟩ := closePosition_some hclose
  refine ⟨h.shrink (fun _ _ horder => horder) (fun other hother => ?_)
    (fun other order horder hopen => ?_), hfresh⟩
  · exact mem_committed.mpr (.inl (AList.mem_erase.mp hother).2)
  · refine AList.mem_erase.mpr ⟨?_, hopen⟩
    rintro rfl
    exact hfresh (AList.lookup_isSome.mp (by simp [horder]))

/-- An order of the candle's symbol is due. -/
theorem Waiting.due {rest : List Candle} {symbol : Symbol} {order : PendingOrder}
    (h : Waiting signalsByKey past symbol order) (hseparated : Separated (past ++ candle :: rest))
    (hsymbol : candle.symbol = symbol) : Due order candle := by
  obtain ⟨hown, ⟨source, hsource, hsourceSymbol, hclose, -⟩, -⟩ := h
  refine ⟨hsymbol.trans hown.symm, hclose ▸ ?_⟩
  exact hseparated.earlier hsource (hsourceSymbol.trans hsymbol.symm)

/-- **The open of a candle**: afterwards no order of its symbol is pending. -/
theorem executePending_orderly {rest : List Candle}
    (hseparated : Separated (past ++ candle :: rest)) (h : Orderly config signalsByKey past st)
    (hstep : executePending config st candle = some st') :
    Orderly config signalsByKey (past ++ [candle]) st' ∧ candle.symbol ∉ st'.pending := by
  suffices hsuffices : Orderly config signalsByKey past st' ∧ candle.symbol ∉ st'.pending from
    ⟨hsuffices.1.pass hsuffices.2, hsuffices.2⟩
  have hgone : candle.symbol ∉ (dropPending st candle.symbol).pending := fun hmem =>
    (AList.mem_erase.mp hmem).1 rfl
  have hdrop : Orderly config signalsByKey past (dropPending st candle.symbol) :=
    h.shrink (fun _ _ horder => (Dict.lookup_of_erase horder).2)
      (fun _ hopen => mem_committed.mpr (.inl hopen)) (fun _ _ _ hopen => hopen)
  rcases executePending_cases hstep with ⟨rfl, hearly⟩ | ⟨order, horder, -, hconsumed⟩
  · refine ⟨h, fun hmem => ?_⟩
    obtain ⟨order, horder⟩ := Option.isSome_iff_exists.mp (AList.lookup_isSome.mpr hmem)
    have hdue := (h.waiting _ _ horder).due hseparated rfl
    exact absurd (hearly order horder) (not_lt.mpr hdue.2)
  · cases hconsumed with
    | opened stakeUsdt hside haffordable hfresh heq =>
      subst heq
      refine ⟨h.shrink (fun _ _ hother => (Dict.lookup_of_erase hother).2) ?_ ?_, hgone⟩
      · -- the symbol that is opened had the pending entry
        intro other hother
        rcases (AList.mem_insert _).mp hother with rfl | hold
        · exact mem_committed.mpr (.inr ⟨order, horder, by simp [PendingOrder.entryStake, hside]⟩)
        · exact mem_committed.mpr (.inl hold)
      · intro other _ _ hopen
        exact (AList.mem_insert _).mpr (.inr hopen)
    | rejected stakeUsdt hside hwhy heq => exact heq ▸ ⟨hdrop, hgone⟩
    | closed hside heq => exact closePosition_orderly hdrop hgone heq
    | nothingToClose hside hmissing heq => exact heq ▸ ⟨hdrop, hgone⟩

theorem applySafetyExits_orderly (h : Orderly config signalsByKey past st)
    (hfresh : candle.symbol ∉ st.pending)
    (hstep : applySafetyExits config st candle = some st') :
    Orderly config signalsByKey past st' ∧ candle.symbol ∉ st'.pending := by
  rcases applySafetyExits_cases hstep with rfl | ⟨_, _, _, _, _, _, _, _, hclose⟩
  · exact ⟨h, hfresh⟩
  · exact closePosition_orderly h hfresh hclose

/-- What an order that is left pending by a signal commits. -/
theorem Ordered.capacity {signal : SyntheticSignal} {side : PendingSide}
    (h : Ordered config st candle signal side)
    (hcapacity : ((committed st).card : ℤ) ≤ config.risk.maxOpenPositions) :
    ((insert signal.symbol (committed st)).card : ℤ) ≤ config.risk.maxOpenPositions := by
  cases h with
  | entry stakeUsdt result heval happroved _ =>
    obtain ⟨_, -, hadmits, -⟩ := evaluate_admitted heval happroved
    have hbelow : ((committed st).card : ℤ) < config.risk.maxOpenPositions := hadmits.belowLimit
    have hcard := Finset.card_insert_le signal.symbol (committed st)
    omega
  | exit hopen =>
    rwa [Finset.insert_eq_of_mem (show signal.symbol ∈ committed st from hopen)]

/-- One more order keeps the protocol. -/
theorem Orderly.place {symbol : Symbol} {order : PendingOrder}
    (h : Orderly config signalsByKey past st)
    (hcapacity : ((insert symbol (committed st)).card : ℤ) ≤ config.risk.maxOpenPositions)
    (hwaiting : Waiting signalsByKey past symbol order)
    (hsell : order.side = .SELL → symbol ∈ st.positions) :
    Orderly config signalsByKey past { st with pending := st.pending.insert symbol order } := by
  refine ⟨?_, fun other placed hplaced => ?_, fun other placed hplaced hside => ?_⟩
  · refine le_trans (Int.ofNat_le.mpr (Finset.card_le_card ?_)) hcapacity
    intro other hother
    rw [Finset.mem_insert]
    rcases mem_committed.mp hother with hopen | ⟨placed, hplaced, hentry⟩
    · exact .inr (mem_committed.mpr (.inl hopen))
    · rcases Dict.lookup_of_insert hplaced with ⟨rfl, -⟩ | hold
      · exact .inl rfl
      · exact .inr (mem_committed.mpr (.inr ⟨placed, hold, hentry⟩))
  · rcases Dict.lookup_of_insert hplaced with ⟨rfl, rfl⟩ | hold
    · exact hwaiting
    · exact h.waiting other placed hold
  · rcases Dict.lookup_of_insert hplaced with ⟨rfl, rfl⟩ | hold
    · exact hsell hside
    · exact h.sells other placed hold hside

/-- No candle so far is due for an order of this candle's close. -/
theorem waiting_new {rest : List Candle} (side : PendingSide)
    (hseparated : Separated (past ++ candle :: rest))
    (hsignal : (signalsByKey candle.symbol candle.closeTime).isSome) :
    Waiting signalsByKey (past ++ [candle]) candle.symbol
      { symbol := candle.symbol, side, signalTime := candle.closeTime } := by
  refine ⟨rfl, ⟨candle, List.mem_append_right _ List.mem_cons_self, rfl, rfl, hsignal⟩, ?_⟩
  intro other hother hdue
  rcases List.mem_append.mp hother with hpast | hlast
  · have hclose := hseparated.earlier hpast hdue.1
    exact absurd (other.times.trans_le (hclose.trans (candle.times.le.trans hdue.2)))
      (lt_irrefl _)
  · cases List.mem_singleton.mp hlast
    exact absurd hdue.2 (not_le.mpr candle.times)

/-- **A signal** keeps the protocol once its candle's open has been handled. -/
theorem processSignal_orderly {rest : List Candle} {signal : SyntheticSignal}
    (hseparated : Separated (past ++ candle :: rest))
    (hsignal : signalsByKey candle.symbol candle.closeTime = some signal)
    (h : Orderly config signalsByKey (past ++ [candle]) st) (hfresh : candle.symbol ∉ st.pending)
    (hstep : processSignal config st candle signal = some st') :
    Orderly config signalsByKey (past ++ [candle]) st' := by
  obtain ⟨hsymbol, -, _, _, -, rfl | ⟨side, hordered, -, rfl⟩⟩ := processSignal_cases hstep
  · exact ⟨h.capacity, h.waiting, h.sells⟩
  · have hsell : side = .SELL → candle.symbol ∈ st.positions := by
      rintro rfl
      cases hordered with
      | exit hopen =>
        -- an exit is approved for a committed symbol, and this one has no pending order
        have hmem : candle.symbol ∈ committed st := hsymbol ▸ hopen
        rcases mem_committed.mp hmem with hheld | ⟨order, horder, -⟩
        · exact hheld
        · exact absurd (AList.lookup_isSome.mp (by simp [horder])) hfresh
    have hplaced := h.place (hsymbol ▸ hordered.capacity h.capacity)
      (waiting_new side hseparated (by simp [hsignal])) hsell
    exact ⟨hplaced.capacity, hplaced.waiting, hplaced.sells⟩

/-! ## The states of a run -/

/-- The states in the handling of one candle, from `st`. -/
inductive Within (config : ReplayConfig)
    (signalsByKey : Symbol → Time → Option SyntheticSignal) (st : Simulator) (candle : Candle) :
    Simulator → Prop
  | start : Within config signalsByKey st candle st
  | filled {filled : Simulator} (fill : executePending config st candle = some filled) :
      Within config signalsByKey st candle filled
  | safe {filled safe : Simulator} (fill : executePending config st candle = some filled)
      (exits : applySafetyExits config filled candle = some safe) :
      Within config signalsByKey st candle safe
  | priced {priced : Simulator} (before : beforeSignal config st candle = some priced) :
      Within config signalsByKey st candle priced
  | decided {priced decided : Simulator} {signal : SyntheticSignal}
      (before : beforeSignal config st candle = some priced)
      (present : signalsByKey candle.symbol candle.closeTime = some signal)
      (decide : processSignal config priced candle signal = some decided) :
      Within config signalsByKey st candle decided
  | done {next : Simulator} (step : processCandle config signalsByKey st candle = some next) :
      Within config signalsByKey st candle next

/-- The reachable states of a run over the ordered candles. -/
def Visited (config : ReplayConfig) (signalsByKey : Symbol → Time → Option SyntheticSignal)
    (ordered : List Candle) (st : Simulator) : Prop :=
  ∃ before candle rest boundary, ordered = before ++ candle :: rest ∧
    simulate config signalsByKey before = some boundary ∧
    Within config signalsByKey boundary candle st

/-- The state a signal is processed in keeps the protocol. -/
theorem beforeSignal_orderly {rest : List Candle}
    (hseparated : Separated (past ++ candle :: rest)) (h : Orderly config signalsByKey past st)
    (hstep : beforeSignal config st candle = some st') :
    Orderly config signalsByKey (past ++ [candle]) st' ∧ candle.symbol ∉ st'.pending := by
  unfold beforeSignal at hstep
  split at hstep
  · cases hstep
  · rename_i filled hfill
    split at hstep
    · cases hstep
    · rename_i safe hsafe
      obtain ⟨hfilled, hgone⟩ := executePending_orderly hseparated h hfill
      obtain ⟨hsafe, hgone⟩ := applySafetyExits_orderly hfilled hgone hsafe
      cases Option.some.inj hstep
      exact ⟨⟨hsafe.capacity, hsafe.waiting, hsafe.sells⟩, hgone⟩

/-- **One candle** carries the protocol over itself. -/
theorem processCandle_orderly {rest : List Candle}
    (hseparated : Separated (past ++ candle :: rest)) (h : Orderly config signalsByKey past st)
    (hstep : processCandle config signalsByKey st candle = some st') :
    Orderly config signalsByKey (past ++ [candle]) st' := by
  unfold processCandle at hstep
  split at hstep
  · cases hstep
  · rename_i priced hpriced
    obtain ⟨horderly, hgone⟩ := beforeSignal_orderly hseparated h hpriced
    split at hstep
    · cases Option.some.inj hstep
      exact ⟨horderly.capacity, horderly.waiting, horderly.sells⟩
    · rename_i signal hsignal
      obtain ⟨decided, hdecided, rfl⟩ := Option.map_eq_some_iff.mp hstep
      have hafter := processSignal_orderly hseparated hsignal horderly hgone hdecided
      exact ⟨hafter.capacity, hafter.waiting, hafter.sells⟩

/-- **The protocol holds between the candles of every run.** -/
theorem simulate_orderly {ordered before : List Candle}
    (hmax : 0 ≤ config.risk.maxOpenPositions) (hseparated : Separated ordered)
    (hpre : before <+: ordered) (h : simulate config signalsByKey before = some st) :
    Orderly config signalsByKey before st := by
  apply runPartial_inv (P := Orderly config signalsByKey) (fresh_orderly hmax) _ hpre h
  intro past candle mid next hpast hmid hstep
  obtain ⟨rest, rfl⟩ := hpast
  have hsplit : Separated (past ++ candle :: rest) := by simpa using hseparated
  exact processCandle_orderly hsplit hmid hstep

/-- The protocol holds inside a candle, about the candles before it or with it. -/
theorem Within.orderly {rest : List Candle} (hseparated : Separated (past ++ candle :: rest))
    (h : Orderly config signalsByKey past st)
    (hwithin : Within config signalsByKey st candle st') :
    Orderly config signalsByKey past st' ∨ Orderly config signalsByKey (past ++ [candle]) st' := by
  cases hwithin with
  | start => exact .inl h
  | filled hfill => exact .inr (executePending_orderly hseparated h hfill).1
  | safe hfill hexits =>
    obtain ⟨hfilled, hgone⟩ := executePending_orderly hseparated h hfill
    exact .inr (applySafetyExits_orderly hfilled hgone hexits).1
  | priced hbefore => exact .inr (beforeSignal_orderly hseparated h hbefore).1
  | decided hbefore hpresent hdecide =>
    obtain ⟨hpriced, hgone⟩ := beforeSignal_orderly hseparated h hbefore
    exact .inr (processSignal_orderly hseparated hpresent hpriced hgone hdecide)
  | done hstep => exact .inr (processCandle_orderly hseparated h hstep)

/-! ## Waiting for the first due candle -/

/-- A candle leaves the orders of the other symbols alone. -/
theorem processCandle_keeps_other {symbol : Symbol} {order : PendingOrder}
    (hsymbol : candle.symbol ≠ symbol) (h : st.pending.lookup symbol = some order)
    (hstep : processCandle config signalsByKey st candle = some st') :
    st'.pending.lookup symbol = some order := by
  have hclosed : ∀ {st st' : Simulator} {closedAt reference fill reason},
      st.pending.lookup symbol = some order →
      closePosition config st candle.symbol closedAt reference fill reason = some st' →
      st'.pending.lookup symbol = some order := by
    intro st st' closedAt reference fill reason hst hclose
    obtain ⟨position, -, -, rfl⟩ := closePosition_some hclose
    exact hst
  apply processCandle_inv (P := fun st => st.pending.lookup symbol = some order) _ _
    (fun st hst => hst) _ (fun st hst => hst) h hstep
  · intro st st' hst hfill
    have hdrop : (dropPending st candle.symbol).pending.lookup symbol = some order := by
      rwa [dropPending, AList.lookup_erase_ne hsymbol.symm]
    exact executePending_inv (P := fun st => st.pending.lookup symbol = some order) hst hdrop
      (fun _ _ _ _ _ _ => hdrop) (fun st' => hclosed hdrop) hfill
  · intro st st' hst hsafe
    rcases applySafetyExits_cases hsafe with rfl | ⟨_, _, _, _, _, _, _, _, hclose⟩
    · exact hst
    · exact hclosed hst hclose
  · intro st st' signal hst hsignal
    obtain ⟨-, -, _, _, -, rfl | ⟨_, -, -, rfl⟩⟩ := processSignal_cases hsignal
    · exact hst
    · rwa [AList.lookup_insert_ne hsymbol.symm]

/-- An order still waits after candles that were not due for it. -/
theorem still_waiting {past earlier rest : List Candle} {boundary : Simulator} {symbol : Symbol}
    {order : PendingOrder} (hseparated : Separated (past ++ earlier ++ rest))
    (hwaiting : Waiting signalsByKey past symbol order)
    (horder : boundary.pending.lookup symbol = some order)
    (hnotDue : ∀ candle ∈ earlier, ¬ Due order candle)
    (h : runPartial (processCandle config signalsByKey) boundary earlier = some st) :
    st.pending.lookup symbol = some order := by
  apply runPartial_inv (P := fun _ st => st.pending.lookup symbol = some order) horder _
    (List.prefix_refl earlier) h
  intro before candle mid next hpre hmid hstep
  refine processCandle_keeps_other (fun hsymbol => ?_) hmid hstep
  obtain ⟨after, rfl⟩ := hpre
  have hmem : candle ∈ before ++ [candle] ++ after := by simp
  have hsplit : Separated (past ++ candle :: (after ++ rest)) := hseparated.sublist (by simp)
  exact hnotDue candle hmem (hwaiting.due hsplit hsymbol)

/-! ## Orders over a whole run -/

theorem processSignal_keeps {signal : SyntheticSignal} {symbol : Symbol} {order : PendingOrder}
    (h : processSignal config st candle signal = some st')
    (horder : st.pending.lookup symbol = some order) :
    st'.pending.lookup symbol = some order := by
  obtain ⟨-, -, _, _, -, rfl | ⟨_, -, hfresh, rfl⟩⟩ := processSignal_cases h
  · exact horder
  · have hne : symbol ≠ candle.symbol := by
      rintro rfl
      exact hfresh (AList.lookup_isSome.mp (by simp [horder]))
    rwa [AList.lookup_insert_ne hne]

/-- The open of a due candle consumes the order. -/
theorem executePending_consumes {symbol : Symbol} {order : PendingOrder}
    (horder : st.pending.lookup symbol = some order) (hown : order.symbol = symbol)
    (hdue : Due order candle) (h : executePending config st candle = some st') :
    Consumed config st candle order st' := by
  have hsymbol : candle.symbol = symbol := hdue.1.trans hown
  rcases executePending_cases h with ⟨-, hearly⟩ | ⟨other, hother, -, hconsumed⟩
  · exact absurd hdue.2 (not_le.mpr (hearly order (hsymbol ▸ horder)))
  · rw [hsymbol, horder] at hother
    cases Option.some.inj hother
    exact hconsumed

/-- An indexed signal is one of the list, at its key. -/
theorem indexSignals_some {signals : List SyntheticSignal} {symbol : Symbol} {closeTime : Time}
    (hindex : indexSignals signals = some signalsByKey)
    (h : (signalsByKey symbol closeTime).isSome) :
    ∃ signal ∈ signals, signal.symbol = symbol ∧ signal.candleCloseTime = closeTime := by
  unfold indexSignals at hindex
  split at hindex
  · cases Option.some.inj hindex
    obtain ⟨signal, hsignal⟩ := Option.isSome_iff_exists.mp h
    exact ⟨signal, List.mem_of_find?_eq_some hsignal, by simpa using List.find?_some hsignal⟩
  · cases hindex

/-- **The replay obeys its order protocol.**  In every state of a run the symbols that are open
or have a pending entry are at most `max_open_positions` and the symbol of a pending exit is
open; a signal overwrites no pending order; and an order that is pending after some candles is
a listed signal's, has waited through them, and is consumed at the open of the first candle that
is due for it. -/
theorem replay_obeys_orders (config : ReplayConfig) (candles ordered : List Candle)
    (signals : List SyntheticSignal) (signalsByKey : Symbol → Time → Option SyntheticSignal)
    (hmax : 0 ≤ config.risk.maxOpenPositions)
    (hvalid : validateAndOrderCandles candles = some ordered)
    (hindex : indexSignals signals = some signalsByKey) :
    (∀ st, Visited config signalsByKey ordered st →
      ((Dict.keySet st.positions ∪ st.pendingEntrySymbols).card : ℤ) ≤
          config.risk.maxOpenPositions ∧
        (∀ symbol order, st.pending.lookup symbol = some order → order.side = .SELL →
          symbol ∈ st.positions) ∧
        ∀ candle signal st', processSignal config st candle signal = some st' →
          ∀ symbol order, st.pending.lookup symbol = some order →
            st'.pending.lookup symbol = some order) ∧
    ∀ past boundary symbol order, past <+: ordered →
      simulate config signalsByKey past = some boundary →
      boundary.pending.lookup symbol = some order →
      Waiting signalsByKey past symbol order ∧
        (∃ signal ∈ signals, signal.symbol = symbol ∧
          signal.candleCloseTime = order.signalTime) ∧
        ∀ earlier next rest st, ordered = past ++ earlier ++ next :: rest →
          (∀ candle ∈ earlier, ¬ Due order candle) → Due order next →
          simulate config signalsByKey (past ++ earlier) = some st →
          st.pending.lookup symbol = some order ∧
            ∀ filled, executePending config st next = some filled →
              Consumed config st next order filled ∧ symbol ∉ filled.pending := by
  have hseparated := validate_separated hvalid
  constructor
  · rintro st ⟨before, candle, rest, boundary, rfl, hboundary, hwithin⟩
    have hbefore := simulate_orderly hmax hseparated (List.prefix_append _ _) hboundary
    refine ⟨?_, ?_, fun _ _ _ hsignal _ _ horder => processSignal_keeps hsignal horder⟩
    · rcases hwithin.orderly hseparated hbefore with h | h
      · exact h.capacity
      · exact h.capacity
    · rcases hwithin.orderly hseparated hbefore with h | h
      · exact h.sells
      · exact h.sells
  · intro past boundary symbol order hpre hboundary horder
    have hwaiting :=
      (simulate_orderly hmax hseparated hpre hboundary).waiting symbol order horder
    obtain ⟨source, -, -, hclose, hsource⟩ := hwaiting.signal
    refine ⟨hwaiting, hclose ▸ indexSignals_some hindex hsource, ?_⟩
    rintro earlier next rest st rfl hnotDue hdue hst
    have hlater : runPartial (processCandle config signalsByKey) boundary earlier = some st := by
      rw [simulate, runPartial_append] at hst
      obtain ⟨mid, hmid, hrest⟩ := Option.bind_eq_some_iff.mp hst
      cases Option.some.inj (hboundary.symm.trans hmid)
      exact hrest
    have hpending := still_waiting hseparated hwaiting horder hnotDue hlater
    refine ⟨hpending, fun filled hfill => ⟨?_, ?_⟩⟩
    · exact executePending_consumes hpending hwaiting.own hdue hfill
    · have hst := simulate_orderly hmax hseparated (List.prefix_append _ _) hst
      exact hdue.1.trans hwaiting.own ▸ (executePending_orderly hseparated hst hfill).2

/-- In a steady market the entry of the first hour is consumed at the open of the second. -/
theorem replay_obeys_orders_steady :
    ∃ signalsByKey st order filled,
      simulate defaultReplay signalsByKey [firstHour] = some st ∧
      st.pending.lookup "BTC/USDT" = some order ∧
      Consumed defaultReplay st secondHour order filled := by
  have hrun : ((simulate defaultReplay firstHourSignals [firstHour]).bind fun st =>
      (st.pending.lookup "BTC/USDT").bind fun order =>
        if Due order secondHour then
          (executePending defaultReplay st secondHour).map Simulator.cash
        else none).isSome = true := by decide +kernel
  obtain ⟨_, hcash⟩ := Option.isSome_iff_exists.mp hrun
  obtain ⟨st, hst, hcash⟩ := Option.bind_eq_some_iff.mp hcash
  obtain ⟨order, horder, hcash⟩ := Option.bind_eq_some_iff.mp hcash
  split at hcash
  · rename_i hdue
    obtain ⟨filled, hfill, -⟩ := Option.map_eq_some_iff.mp hcash
    have hpending := (replay_obeys_orders defaultReplay steadyCandles steadyCandles
      [buySignal "BTC/USDT" (minutes 60)] _ (by decide) steadyCandles_valid
      firstHourSignals_indexed).2 [firstHour] st "BTC/USDT" order
      (List.prefix_append _ [secondHour]) hst horder
    have hconsumed := (hpending.2.2 [] secondHour [] st rfl
      (fun _ hmem => absurd hmem List.not_mem_nil) hdue hst).2 filled hfill
    exact ⟨_, st, order, filled, hst, horder, hconsumed.1⟩
  · cases hcash

end TradeMind.Analysis
