import Std.Data.String.ToInt
import TradeMind.Analysis.SignalPublishing

/-!
# A candle is claimed once

The idempotency key of a candle is set with two periods to live, no earlier than the candle's
close, and nothing deletes it.  While every claim is of a candle that closed less than two
periods ago, no candle is claimed twice: the cycle lock, which may expire under a slow cycle, is
not needed for that.
-/

set_option autoImplicit false

namespace TradeMind.Analysis

open TradeMind.Library TradeMind.Model TradeMind.Model.Scheduler

universe u

/-! ## Keys -/

/-- What follows the last occurrence of a character in a list. -/
theorem append_cons_inj_of_last {α : Type} {x : α} {before before' after after' : List α}
    (h : before ++ x :: after = before' ++ x :: after') (hafter : x ∉ after)
    (hafter' : x ∉ after') : before = before' ∧ after = after' := by
  have hshift : ∀ {between after after' : List α}, x ∉ after →
      x :: after = between ++ x :: after' → between = [] ∧ after = after' := by
    intro between after after' hafter heq
    cases between with
    | nil => exact ⟨rfl, (List.cons.inj heq).2⟩
    | cons y rest =>
      exact absurd ((List.cons.inj heq).2 ▸ List.mem_append_right rest List.mem_cons_self) hafter
  rcases List.append_eq_append_iff.mp h with ⟨between, rfl, heq⟩ | ⟨between, rfl, heq⟩
  · obtain ⟨rfl, rfl⟩ := hshift hafter heq
    exact ⟨(List.append_nil _).symm, rfl⟩
  · obtain ⟨rfl, rfl⟩ := hshift hafter' heq
    exact ⟨List.append_nil _, rfl⟩

theorem colon_notMem_toString (n : ℤ) : ':' ∉ (toString n).toList := by
  have hnat : ∀ m : ℕ, ':' ∉ (Nat.repr m).toList := by
    intro m hmem
    rw [Nat.toList_repr] at hmem
    have hdigit := Nat.isDigit_of_mem_toDigits (by decide) (by decide) hmem
    revert hdigit
    decide
  cases n with
  | ofNat m => exact hnat m
  | negSucc m =>
    change ':' ∉ ("-" ++ Nat.repr (m + 1)).toList
    rw [String.toList_append, List.mem_append, not_or]
    exact ⟨by decide, hnat _⟩

theorem idempotencyKey_name (timeframe : History.Timeframe) (symbol : Symbol) (openMs : ℤ) :
    (idempotencyKey timeframe symbol openMs).name = "idempotency:candle:" ++ symbol ++ ":" ++
      timeframeText timeframe ++ ":" ++ toString openMs := rfl

theorem idempotencyKey_injective (timeframe : History.Timeframe) {symbol symbol' : Symbol}
    {openMs openMs' : ℤ} (h : (idempotencyKey timeframe symbol openMs).name =
      (idempotencyKey timeframe symbol' openMs').name) : symbol = symbol' ∧ openMs = openMs' := by
  rw [idempotencyKey_name, idempotencyKey_name] at h
  have hcolon : ":".toList = [':'] := by decide
  have hlist := congrArg String.toList h
  simp only [String.toList_append, hcolon] at hlist
  rw [List.append_assoc _ [':'] (toString openMs).toList,
    List.append_assoc _ [':'] (toString openMs').toList] at hlist
  obtain ⟨hstart, hopen⟩ := append_cons_inj_of_last hlist (colon_notMem_toString openMs)
    (colon_notMem_toString openMs')
  have hsymbol := List.append_cancel_right (List.append_cancel_right hstart)
  exact ⟨String.toList_injective (List.append_cancel_left hsymbol),
    Int.repr_injective (String.toList_injective hopen)⟩

/-! ## Claims and rows -/

variable {ι : Type u}

/-- The instant from which a candle is two periods old. -/
def claimEnd (settings : CycleSettings) (openMs : ℤ) : Time :=
  candleTs settings.timeframe openMs + seconds (2 * timeframeToSeconds settings.timeframe)

/-- The key of the candle was set, to live at least that long. -/
def KeyHeld (settings : CycleSettings) (w : PublishingWorld ι) (symbol : Symbol) (openMs : ℤ) :
    Prop :=
  ∃ entry expiry, w.cycles.redis (idempotencyKey settings.timeframe symbol openMs).name =
    some entry ∧ entry.expiresAt = some expiry ∧ claimEnd settings openMs ≤ expiry

/-- The signal was made from the candle of the symbol that opened at `openMs`. -/
def IsOfCandle (settings : CycleSettings) (symbol : Symbol) (openMs : ℤ) (signal : Signal) : Prop :=
  signal.symbol = symbol ∧ signal.candleTs = candleTs settings.timeframe openMs

/-- Every row and every claim holds the key of its candle, and no two are of one candle. -/
structure CandlesClaimed (settings : CycleSettings) (w : PublishingWorld ι) : Prop where
  rows : ∀ signal ∈ w.world.db.signals, ∃ openMs,
    IsOfCandle settings signal.symbol openMs signal ∧ KeyHeld settings w signal.symbol openMs
  claims : ∀ i symbol openMs, w.stage i = .claimed symbol openMs →
    KeyHeld settings w symbol openMs ∧
      ∀ signal ∈ w.world.db.signals, ¬ IsOfCandle settings symbol openMs signal
  once : ∀ i j symbol openMs, w.stage i = .claimed symbol openMs →
    w.stage j = .claimed symbol openMs → i = j
  distinct : (w.world.db.signals.map fun signal => (signal.symbol, signal.candleTs)).Nodup

/-- A claim is made after the clock was read that closed the candle, and less than two periods
after the close of the latest closed candle. -/
def ClaimsInTime (settings : CycleSettings) (w : PublishingWorld ι) (event : PublishingStep ι) :
    Prop :=
  ∀ i raw nowMs fault latest, event = .claim i raw nowMs fault →
    (fetchClosedCandles settings raw nowMs).getLast? = some latest →
      nowMs * 1000 ≤ w.cycles.now ∧ w.cycles.now < claimEnd settings latest.t

variable {settings : CycleSettings} {w : PublishingWorld ι}

theorem candleTs_injective {timeframe : History.Timeframe} {openMs openMs' : ℤ}
    (h : candleTs timeframe openMs = candleTs timeframe openMs') : openMs = openMs' := by
  unfold candleTs at h
  linarith

/-- A step that starts no claim and drops no key keeps them. -/
theorem CandlesClaimed.frame (h : CandlesClaimed settings w) {w' : PublishingWorld ι}
    (hsignals : w'.world.db.signals = w.world.db.signals)
    (hkeys : ∀ symbol openMs, KeyHeld settings w symbol openMs → KeyHeld settings w' symbol openMs)
    (hstage : ∀ i symbol openMs, w'.stage i = .claimed symbol openMs →
      w.stage i = .claimed symbol openMs) : CandlesClaimed settings w' := by
  constructor
  · intro signal hmem
    obtain ⟨openMs, hof, hheld⟩ := h.rows signal (hsignals ▸ hmem)
    exact ⟨openMs, hof, hkeys _ _ hheld⟩
  · intro i symbol openMs hi
    obtain ⟨hheld, hnone⟩ := h.claims i symbol openMs (hstage i symbol openMs hi)
    exact ⟨hkeys _ _ hheld, fun signal hmem => hnone signal (hsignals ▸ hmem)⟩
  · intro i j symbol openMs hi hj
    exact h.once i j symbol openMs (hstage i symbol openMs hi) (hstage j symbol openMs hj)
  · rw [hsignals]
    exact h.distinct

/-- A lock that is set or deleted is no key of a candle. -/
theorem KeyHeld.of_lock {symbol : Symbol} {openMs : ℤ} (h : KeyHeld settings w symbol openMs)
    {cycles : CycleWorld ι} {other : Symbol} {entry : Option (Expiring String)}
    (hredis : cycles.redis = Function.update w.cycles.redis (cycleLock other) entry) :
    KeyHeld settings { w with cycles } symbol openMs := by
  obtain ⟨entry, expiry, hentry, hexpiry⟩ := h
  refine ⟨entry, expiry, ?_, hexpiry⟩
  change cycles.redis _ = some entry
  rw [hredis, Function.update_of_ne (cycleLock_ne_name other _).symm, hentry]

/-- A key that lives keeps its candle from being claimed; so a candle whose key is gone in time
has neither a row nor a claim. -/
theorem not_held_of_gone {symbol : Symbol} {openMs : ℤ}
    (hgone : w.cycles.redis.get w.cycles.now (idempotencyKey settings.timeframe symbol openMs).name
      = none) (htime : w.cycles.now < claimEnd settings openMs) :
    ¬ KeyHeld settings w symbol openMs := by
  rintro ⟨⟨value, expiresAt⟩, expiry, hentry, rfl, hexpiry⟩
  rw [ExpiringStore.get_of_lt hentry (htime.trans_le hexpiry)] at hgone
  cases hgone

theorem candleTs_le {raw : List History.Candle} {nowMs : ℤ} {latest : History.Candle}
    (h : (fetchClosedCandles settings raw nowMs).getLast? = some latest) :
    candleTs settings.timeframe latest.t ≤ nowMs * 1000 := by
  have hmem := List.mem_of_getLast? h
  have hclosed : latest ∈ raw.filter fun candle =>
      candle.t + timeframeToSeconds settings.timeframe * 1000 ≤ nowMs := by
    unfold fetchClosedCandles lastOf at hmem
    split at hmem
    · exact hmem
    · exact List.mem_of_mem_drop hmem
  have hle : latest.t + timeframeToSeconds settings.timeframe * 1000 ≤ nowMs := by
    simpa using (List.mem_filter.mp hclosed).2
  unfold candleTs
  linarith

/-! ## One step -/

variable [DecidableEq ι]

/-- A move to a stage that is no claim. -/
theorem CandlesClaimed.moveTo (h : CandlesClaimed settings w) (i : ι) {stage : CycleStage}
    (hstage : ∀ symbol openMs, stage ≠ .claimed symbol openMs) :
    CandlesClaimed settings (w.moveTo i stage) := by
  refine h.frame rfl (fun _ _ hheld => hheld) fun j symbol openMs hj => ?_
  rw [stage_moveTo] at hj
  split at hj
  · exact absurd hj (hstage symbol openMs)
  · exact hj

/-- The lock of an acquire and of a release. -/
theorem cycleStep_redis (c : CycleWorld ι) (i : ι) (symbol : Symbol) :
    (∃ other entry, (cycleStep c (.acquire i symbol)).redis =
        Function.update c.redis (cycleLock other) entry) ∧
      ∃ other entry, (cycleStep c (.release i)).redis =
        Function.update c.redis (cycleLock other) entry := by
  have hsame : c.redis = Function.update c.redis (cycleLock symbol) (c.redis (cycleLock symbol)) :=
    (Function.update_eq_self _ _).symm
  constructor
  · cases hphase : c.phase i with
    | idle =>
      rcases cycleStep_acquire symbol hphase with ⟨-, hstep⟩ | ⟨-, hstep⟩
      · exact ⟨symbol, _, by rw [hstep]⟩
      · exact ⟨symbol, _, by rw [hstep]; exact hsame⟩
    | locked => exact ⟨symbol, _, by simp only [cycleStep, hphase]; exact hsame⟩
    | ended => exact ⟨symbol, _, by simp only [cycleStep, hphase]; exact hsame⟩
  · cases hphase : c.phase i with
    | idle => exact ⟨symbol, _, by simp only [cycleStep, hphase]; exact hsame⟩
    | locked other => exact ⟨other, none, by simp only [cycleStep, hphase, ExpiringStore.delete]⟩
    | ended => exact ⟨symbol, _, by simp only [cycleStep, hphase]; exact hsame⟩

omit [DecidableEq ι] in
/-- A step of the lock keeps rows and claims. -/
theorem CandlesClaimed.lock (h : CandlesClaimed settings w) {cycles : CycleWorld ι}
    (hredis : ∃ other entry, cycles.redis =
      Function.update w.cycles.redis (cycleLock other) entry) :
    CandlesClaimed settings { w with cycles } := by
  obtain ⟨other, entry, hredis⟩ := hredis
  exact h.frame rfl (fun _ _ hheld => hheld.of_lock hredis) fun _ _ _ hi => hi

section Claim

variable {i : ι} {symbol : Symbol} {since : Time} {openMs : ℤ}

/-- The invocations and Redis after a key was set. -/
def written (settings : CycleSettings) (w : PublishingWorld ι) (i : ι) (symbol : Symbol)
    (openMs : ℤ) : PublishingWorld ι :=
  { w with
    cycles := cycleStep w.cycles (.write i (idempotencyKey settings.timeframe symbol openMs)
      (some
        { value := "1"
          expiresAt :=
            some (w.cycles.now + seconds (2 * timeframeToSeconds settings.timeframe)) })) }

/-- An invocation that sets the idempotency key after the close holds its candle, and every key that
was held before is still held. -/
theorem keyHeld_written (hlocked : w.cycles.phase i = .locked symbol since)
    (hclosed : candleTs settings.timeframe openMs ≤ w.cycles.now) :
    KeyHeld settings (written settings w i symbol openMs) symbol openMs ∧
      ∀ other openMs', KeyHeld settings w other openMs' →
        KeyHeld settings (written settings w i symbol openMs) other openMs' := by
  have hredis : (written settings w i symbol openMs).cycles.redis =
      Function.update w.cycles.redis (idempotencyKey settings.timeframe symbol openMs).name
        (some
          { value := "1"
            expiresAt :=
              some (w.cycles.now + seconds (2 * timeframeToSeconds settings.timeframe)) }) := by
    simp only [written, cycleStep, hlocked]
  have hnew : KeyHeld settings (written settings w i symbol openMs) symbol openMs := by
    refine ⟨_, _, by rw [hredis, Function.update_self], rfl, ?_⟩
    unfold claimEnd
    linarith
  refine ⟨hnew, fun other openMs' hheld => ?_⟩
  by_cases hname : (idempotencyKey settings.timeframe other openMs').name =
      (idempotencyKey settings.timeframe symbol openMs).name
  · obtain ⟨rfl, rfl⟩ := idempotencyKey_injective settings.timeframe hname
    exact hnew
  · obtain ⟨entry, expiry, hentry, hexpiry⟩ := hheld
    exact ⟨entry, expiry, by rw [hredis, Function.update_of_ne hname, hentry], hexpiry⟩

/-- **A claim in time is of a candle that has neither a row nor a claim.** -/
theorem CandlesClaimed.claim (h : CandlesClaimed settings w)
    (hlocked : w.cycles.phase i = .locked symbol since)
    (hclosed : candleTs settings.timeframe openMs ≤ w.cycles.now)
    (htime : w.cycles.now < claimEnd settings openMs) (fault : Option Fault) :
    CandlesClaimed settings (w.claim settings.timeframe i symbol openMs fault) := by
  obtain ⟨hnew, hkept⟩ := keyHeld_written hlocked hclosed
  have hwritten : CandlesClaimed settings (written settings w i symbol openMs) :=
    h.frame rfl hkept fun _ _ _ hi => hi
  unfold PublishingWorld.claim
  dsimp only
  split_ifs with hbefore hlive hafter
  · exact h.moveTo i (by rintro _ _ ⟨⟩)
  · exact h.moveTo i (by rintro _ _ ⟨⟩)
  · exact hwritten.moveTo i (by rintro _ _ ⟨⟩)
  · have hfree : ¬ KeyHeld settings w symbol openMs :=
      not_held_of_gone (Option.not_isSome_iff_eq_none.mp hlive) htime
    have hcases : ∀ j other openMs', ((written settings w i symbol openMs).moveTo i
        (.claimed symbol openMs)).stage j = .claimed other openMs' →
        j = i ∧ other = symbol ∧ openMs' = openMs ∨ j ≠ i ∧ w.stage j = .claimed other openMs' := by
      intro j other openMs' hj
      rw [stage_moveTo] at hj
      split at hj
      · next heq => cases hj; exact .inl ⟨heq, rfl, rfl⟩
      · next hne => exact .inr ⟨hne, hj⟩
    constructor
    · exact hwritten.rows
    · intro j other openMs' hj
      rcases hcases j other openMs' hj with ⟨-, rfl, rfl⟩ | ⟨-, hj⟩
      · refine ⟨hnew, fun signal hmem hof => hfree ?_⟩
        obtain ⟨openMs'', hof', hheld⟩ := h.rows signal hmem
        rw [← candleTs_injective (hof'.2.symm.trans hof.2), ← hof.1]
        exact hheld
      · exact hwritten.claims j other openMs' hj
    · intro j k other openMs' hj hk
      rcases hcases j other openMs' hj with ⟨rfl, rfl, rfl⟩ | ⟨-, hjold⟩ <;>
        rcases hcases k _ _ hk with ⟨rfl, hother, hopen⟩ | ⟨-, hkold⟩
      · rfl
      · exact absurd (h.claims k _ _ hkold).1 hfree
      · exact absurd (hother ▸ hopen ▸ (h.claims j _ _ hjold).1) hfree
      · exact h.once j k other openMs' hjold hkold
    · exact h.distinct

end Claim

/-- The row of a claimed candle is recorded while the invocation moves to a stage that is no
claim. -/
theorem CandlesClaimed.record (h : CandlesClaimed settings w) {i : ι} {symbol : Symbol}
    {openMs : ℤ} (hi : w.stage i = .claimed symbol openMs) {answer : CycleAnswer}
    {w' : PublishingWorld ι} (hcycles : w'.cycles = w.cycles)
    (hrows : w'.world.db.signals = w.world.db.signals ++
      [signalRow w.world.db.nextId settings.timeframe symbol openMs answer])
    {stage : CycleStage} (hstage : ∀ symbol openMs, stage ≠ .claimed symbol openMs)
    (hmoved : ∀ j, w'.stage j = if j = i then stage else w.stage j) :
    CandlesClaimed settings w' := by
  obtain ⟨hheld, hnone⟩ := h.claims i symbol openMs hi
  have hkeys : ∀ other openMs', KeyHeld settings w other openMs' →
      KeyHeld settings w' other openMs' := by
    intro other openMs' hheld
    unfold KeyHeld
    rw [hcycles]
    exact hheld
  have hold : ∀ j other openMs', w'.stage j = .claimed other openMs' →
      j ≠ i ∧ w.stage j = .claimed other openMs' := by
    intro j other openMs' hj
    rw [hmoved] at hj
    split at hj
    · exact absurd hj (hstage _ _)
    · next hne => exact ⟨hne, hj⟩
  constructor
  · intro signal hmem
    rcases List.mem_append.mp (hrows ▸ hmem) with hmem | hmem
    · obtain ⟨openMs', hof, hheld⟩ := h.rows signal hmem
      exact ⟨openMs', hof, hkeys _ _ hheld⟩
    · rw [List.mem_singleton.mp hmem]
      exact ⟨openMs, ⟨rfl, rfl⟩, hkeys _ _ hheld⟩
  · intro j other openMs' hj
    obtain ⟨hne, hj⟩ := hold j other openMs' hj
    obtain ⟨hheld', hnone'⟩ := h.claims j other openMs' hj
    refine ⟨hkeys _ _ hheld', fun signal hmem hof => ?_⟩
    rcases List.mem_append.mp (hrows ▸ hmem) with hmem | hmem
    · exact hnone' signal hmem hof
    · obtain ⟨hsymbol, hcandle⟩ := List.mem_singleton.mp hmem ▸ hof
      have hopen : openMs = openMs' := candleTs_injective hcandle
      have hsame : symbol = other := hsymbol
      subst hopen hsame
      exact hne (h.once j i symbol openMs hj hi)
  · intro j k other openMs' hj hk
    exact h.once j k other openMs' (hold j _ _ hj).2 (hold k _ _ hk).2
  · rw [hrows, List.map_append, List.nodup_append']
    refine ⟨h.distinct, List.nodup_singleton _, List.disjoint_singleton.mpr fun hmem => ?_⟩
    obtain ⟨signal, hsignal, heq⟩ := List.mem_map.mp hmem
    exact hnone signal hsignal ⟨congrArg Prod.fst heq, congrArg Prod.snd heq⟩

/-- **A commit turns the claim of a candle into its row.** -/
theorem CandlesClaimed.commit (h : CandlesClaimed settings w) {i : ι} {symbol : Symbol}
    {openMs : ℤ} (hi : w.stage i = .claimed symbol openMs) (startedAt : Time)
    (answer : CycleAnswer) (fault : Option Fault) :
    CandlesClaimed settings
      (w.commit settings.timeframe i symbol openMs startedAt answer fault) := by
  have hsignals := (recordSignal_signals w.world.db startedAt
    (signalRow w.world.db.nextId settings.timeframe symbol openMs answer) (answer.alert symbol)).1
  unfold PublishingWorld.commit
  dsimp only
  split
  · exact h.moveTo i (by rintro _ _ ⟨⟩)
  · exact h.record hi rfl hsignals (by rintro _ _ ⟨⟩) (stage_moveTo _ i (.left (some _)))
  · exact h.record hi rfl hsignals (by rintro _ _ ⟨⟩) (stage_moveTo _ i (.committed _))

/-- **Every step with its claims in time keeps rows and claims apart.** -/
theorem CandlesClaimed.step (h : CandlesClaimed settings w) (event : PublishingStep ι)
    (htime : ClaimsInTime settings w event) :
    CandlesClaimed settings (publishingStep settings w event) := by
  cases event with
  | pass duration => exact h.frame rfl (fun _ _ hheld => hheld) fun _ _ _ hi => hi
  | acquire i symbol =>
    simp only [publishingStep]
    split
    · exact h.lock (cycleStep_redis w.cycles i symbol).1
    · exact h
  | claim i raw nowMs fault =>
    simp only [publishingStep]
    split
    · next symbol since hlocked _ =>
      split
      · next latest hlatest =>
        obtain ⟨hread, hrecent⟩ := htime i raw nowMs fault latest rfl hlatest
        split_ifs
        · exact h.moveTo i (by rintro _ _ ⟨⟩)
        · exact h.claim hlocked ((candleTs_le hlatest).trans hread) hrecent fault
      · exact h.moveTo i (by rintro _ _ ⟨⟩)
    · exact h
  | commit i startedAt answer fault =>
    simp only [publishingStep]
    split
    · next symbol openMs hstage => exact h.commit hstage startedAt answer fault
    · exact h
  | xadd i fault =>
    simp only [publishingStep]
    split
    · next signalId _ =>
      have hstream : ∀ stream, CandlesClaimed settings { w with stream } := fun _ =>
        h.frame rfl (fun _ _ hheld => hheld) fun _ _ _ hi => hi
      unfold PublishingWorld.xadd
      split_ifs
      · exact h.moveTo i (by rintro _ _ ⟨⟩)
      · exact (hstream _).moveTo i (by rintro _ _ ⟨⟩)
    · exact h
  | leave i =>
    simp only [publishingStep]
    split
    · exact h
    · exact h.moveTo i (by rintro _ _ ⟨⟩)
  | release i =>
    simp only [publishingStep]
    split
    · exact h.lock (cycleStep_redis w.cycles i "").2
    · exact h
  | kill i => exact h.moveTo i (by rintro _ _ ⟨⟩)
  | other s =>
    exact h.frame (step_signalsKept w.world s).signals (fun _ _ hheld => hheld)
      fun _ _ _ hi => hi

/-! ## Every run -/

/-- **A candle has one signal.**  While every claim is made less than two periods after the
candle closed, no two stored signals are of one candle, and a candle that an invocation works on
has none: in every interleaving, also where the cycle lock has expired under a slow cycle. -/
theorem one_signal_per_candle (settings : CycleSettings) {w : PublishingWorld ι}
    (h : FreshWorld w) (events : List (PublishingStep ι))
    (hclaims : AllSteps (publishingStep settings) (ClaimsInTime settings) w events) :
    AllStates (publishingStep settings) (fun w =>
      (w.world.db.signals.map fun signal => (signal.symbol, signal.candleTs)).Nodup ∧
        ∀ i symbol openMs, w.stage i = .claimed symbol openMs →
          (∀ j, w.stage j = .claimed symbol openMs → j = i) ∧
            ∀ signal ∈ w.world.db.signals, signal.symbol = symbol →
              signal.candleTs ≠ candleTs settings.timeframe openMs) w events := by
  have hstart : CandlesClaimed settings w := by
    constructor
    · simp [h.signals]
    · intro i symbol openMs hi
      rw [h.fetching] at hi
      cases hi
    · intro i j symbol openMs hi
      rw [h.fetching] at hi
      cases hi
    · simp [h.signals]
  refine AllStates.imp (fun w hw => ⟨hw.distinct, fun i symbol openMs hi => ⟨fun j hj => ?_, ?_⟩⟩)
    (AllSteps.allStates (fun _ event hw hok => hw.step event hok) hstart events hclaims)
  · exact hw.once j i symbol openMs hj hi
  · exact fun signal hmem hsymbol hcandle =>
      (hw.claims i symbol openMs hi).2 signal hmem ⟨hsymbol, hcandle⟩

/-- Two invocations that overlap after the lock of the first has expired: the second is skipped
where it claims the candle of the first. -/
def slowCycle : List (PublishingStep ℕ) :=
  [.acquire 0 "BTC/USDT", .claim 0 [⟨0, 2, 2, 2, 2, 1⟩, ⟨300000, 2, 2, 2, 2, 1⟩] 600000 none,
    .pass 310000000, .acquire 1 "BTC/USDT",
    .claim 1 [⟨0, 2, 2, 2, 2, 1⟩, ⟨300000, 2, 2, 2, 2, 1⟩] 600000 none,
    .commit 0 (seconds 900) holdAnswer none, .xadd 0 none]

/-- The two invocations, the second of which enters after the lock has expired, store one signal. -/
theorem slowCycle_one_signal :
    let w := runFrom (publishingStep fiveMinutes) tenPast slowCycle
    (w.world.db.signals.map fun signal => (signal.symbol, signal.candleTs)).Nodup ∧
      w.world.db.signals.length = 1 ∧ w.stage 1 = .left none := by
  have htime : AllSteps (publishingStep fiveMinutes) (ClaimsInTime fiveMinutes) tenPast
      slowCycle := by
    refine ⟨?_, ?_, ?_, ?_, ?_, ?_, ?_, trivial⟩
    all_goals
      intro i raw nowMs fault latest hevent hlatest
      cases hevent
    all_goals
      have hlast : latest = ⟨300000, 2, 2, 2, 2, 1⟩ := by
        rw [← Option.some_inj, ← hlatest]
        decide +kernel
      subst hlast
      decide +kernel
  exact ⟨(one_signal_per_candle fiveMinutes tenPast_fresh slowCycle htime).last.1,
    by decide +kernel, by decide +kernel⟩

end TradeMind.Analysis
