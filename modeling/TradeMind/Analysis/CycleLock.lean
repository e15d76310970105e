import TradeMind.Library.Machine
import TradeMind.Model.SchedulerCycle

/-!
# The cycle lock

The lock of a symbol lives for `CYCLE_LOCK_TTL_SECONDS` and carries no owner.  While every
locked section ends within that time, the invocation in the section is the one that set the
lock (`Leased`), so the sections of a symbol exclude each other and a release deletes its own
lock.  A section that lasts longer loses both.
-/

set_option autoImplicit false

namespace TradeMind.Analysis

open TradeMind.Model TradeMind.Library TradeMind.Model.Scheduler

universe u

/-! ## Keys -/

theorem cycleLock_injective {symbol other : Symbol} (h : cycleLock symbol = cycleLock other) :
    symbol = other := by
  simpa [cycleLock] using h

/-- The second character of a key is its literal's. -/
theorem second_append {literal rest : String} {c : Char} (h : literal.toList[1]? = some c) :
    (literal ++ rest).toList[1]? = some c := by
  obtain ⟨hlength, -⟩ := List.getElem?_eq_some_iff.mp h
  rwa [String.toList_append, List.getElem?_append_left hlength]

theorem cycleLock_ne_name (symbol : Symbol) (key : SectionKey) : cycleLock symbol ≠ key.name := by
  have hlock : (cycleLock symbol).toList[1]? = some 'o' := second_append (by decide)
  intro h
  rw [h] at hlock
  cases key with
  | candleIdempotency other timeframe candleTs =>
    have hname : (SectionKey.candleIdempotency other timeframe candleTs).name.toList[1]? =
        some 'd' :=
      second_append (second_append (second_append (second_append (second_append (by decide)))))
    rw [hname] at hlock
    revert hlock
    decide
  | llmTimeoutStreak =>
    revert hlock
    decide
  | signalsPending =>
    revert hlock
    decide

/-! ## The lease -/

variable {ι : Type u}

/-- The invocation is between acquiring and releasing the lock of the symbol. -/
def InSection (w : CycleWorld ι) (i : ι) (symbol : Symbol) : Prop :=
  ∃ since, w.phase i = .locked symbol since

/-- At most one invocation is in the locked section of a symbol. -/
def Exclusive (w : CycleWorld ι) : Prop :=
  ∀ i j symbol, InSection w i symbol → InSection w j symbol → i = j

/-- A release deletes no lock, or one the invocation itself has set. -/
def ReleasesOwn (w : CycleWorld ι) (event : CycleEvent ι) : Prop :=
  ∀ i symbol, event = .release i → InSection w i symbol →
    (w.redis.get w.now (cycleLock symbol)).isSome → w.setBy (cycleLock symbol) = some i

/-- No locked section is still running when `CYCLE_LOCK_TTL_SECONDS` have passed since it
acquired the lock. -/
def WithinTtl (w : CycleWorld ι) (event : CycleEvent ι) : Prop :=
  ∀ duration, event = .pass duration → ∀ i symbol since, w.phase i = .locked symbol since →
    w.now + duration < since + cycleLockTtl

/-- Every locked section holds a living lock that it has set itself. -/
structure Leased (w : CycleWorld ι) : Prop where
  lock : ∀ i symbol since, w.phase i = .locked symbol since →
    w.redis (cycleLock symbol) = some { value := "1", expiresAt := some (since + cycleLockTtl) }
  owner : ∀ i symbol since, w.phase i = .locked symbol since →
    w.setBy (cycleLock symbol) = some i
  alive : ∀ i symbol since, w.phase i = .locked symbol since → w.now < since + cycleLockTtl

variable {w : CycleWorld ι}

/-- One lock has one owner. -/
theorem Leased.exclusive (h : Leased w) : Exclusive w := by
  rintro i j symbol ⟨since, hi⟩ ⟨since', hj⟩
  exact Option.some.inj ((h.owner i symbol since hi).symm.trans (h.owner j symbol since' hj))

/-- The lock of a running section lives. -/
theorem Leased.live (h : Leased w) {i : ι} {symbol : Symbol} {since : Time}
    (hi : w.phase i = .locked symbol since) : w.redis.get w.now (cycleLock symbol) = some "1" :=
  ExpiringStore.get_of_lt (h.lock i symbol since hi) (h.alive i symbol since hi)

/-- The lock a release deletes is its own. -/
theorem Leased.releasesOwn (h : Leased w) (event : CycleEvent ι) : ReleasesOwn w event := by
  rintro i symbol - ⟨since, hi⟩ -
  exact h.owner i symbol since hi

/-- Leases outlive a step that starts no section and keeps the locks of those that run. -/
theorem Leased.frame {w' : CycleWorld ι} (h : Leased w) (hnow : w'.now = w.now)
    (hkept : ∀ i symbol since, w'.phase i = .locked symbol since →
      w.phase i = .locked symbol since ∧
        w'.redis (cycleLock symbol) = w.redis (cycleLock symbol) ∧
        w'.setBy (cycleLock symbol) = w.setBy (cycleLock symbol)) : Leased w' := by
  refine ⟨fun i symbol since hi => ?_, fun i symbol since hi => ?_, fun i symbol since hi => ?_⟩
  · obtain ⟨hi, hredis, -⟩ := hkept i symbol since hi
    exact hredis.trans (h.lock i symbol since hi)
  · obtain ⟨hi, -, hsetBy⟩ := hkept i symbol since hi
    exact hsetBy.trans (h.owner i symbol since hi)
  · obtain ⟨hi, -, -⟩ := hkept i symbol since hi
    exact hnow.trans_lt (h.alive i symbol since hi)

variable [DecidableEq ι]

/-- **An acquire** of an idle invocation: it enters where no lock lives, and is skipped where
one does. -/
theorem cycleStep_acquire {i : ι} (symbol : Symbol) (hidle : w.phase i = .idle) :
    (w.redis.get w.now (cycleLock symbol) = none ∧
      cycleStep w (.acquire i symbol) =
        { w with
          redis := Function.update w.redis (cycleLock symbol)
            (some { value := "1", expiresAt := some (w.now + cycleLockTtl) })
          phase := Function.update w.phase i (.locked symbol w.now)
          setBy := Function.update w.setBy (cycleLock symbol) (some i) }) ∨
    (∃ value, w.redis.get w.now (cycleLock symbol) = some value) ∧
      cycleStep w (.acquire i symbol) =
        { w with phase := Function.update w.phase i .ended } := by
  cases hget : w.redis.get w.now (cycleLock symbol) with
  | none =>
    refine .inl ⟨rfl, ?_⟩
    simp only [cycleStep, hidle, ExpiringStore.setNx_of_gone hget]
  | some value =>
    refine .inr ⟨⟨value, rfl⟩, ?_⟩
    simp only [cycleStep, hidle, ExpiringStore.setNx_of_live hget]

/-- A locked phase after an update to something else was there before. -/
theorem locked_of_update {phase : ι → CyclePhase} {i j : ι} {next : CyclePhase} {symbol : Symbol}
    {since : Time} (hnext : ∀ symbol since, next ≠ .locked symbol since)
    (h : Function.update phase i next j = .locked symbol since) :
    j ≠ i ∧ phase j = .locked symbol since := by
  by_cases hj : j = i
  · subst hj
    rw [Function.update_self] at h
    exact absurd h (hnext symbol since)
  · rw [Function.update_of_ne hj] at h
    exact ⟨hj, h⟩

/-- An acquire takes a lease or leaves them all as they are. -/
theorem Leased.acquire (h : Leased w) (i : ι) (symbol : Symbol) :
    Leased (cycleStep w (.acquire i symbol)) := by
  by_cases hidle : w.phase i = .idle
  · rcases cycleStep_acquire symbol hidle with ⟨hgone, heq⟩ | ⟨-, heq⟩
    · rw [heq]
      have hcases : ∀ j other since,
          Function.update w.phase i (.locked symbol w.now) j = .locked other since →
          j = i ∧ other = symbol ∧ since = w.now ∨
            cycleLock other ≠ cycleLock symbol ∧ w.phase j = .locked other since := by
        intro j other since hj
        by_cases hji : j = i
        · subst hji
          rw [Function.update_self] at hj
          cases hj
          exact .inl ⟨rfl, rfl, rfl⟩
        · rw [Function.update_of_ne hji] at hj
          refine .inr ⟨fun hkey => ?_, hj⟩
          -- the lock was gone, so nobody is in the section of this symbol
          cases cycleLock_injective hkey
          rw [h.live hj] at hgone
          cases hgone
      refine ⟨fun j other since hj => ?_, fun j other since hj => ?_, fun j other since hj => ?_⟩
      · rcases hcases j other since hj with ⟨-, rfl, rfl⟩ | ⟨hkey, hold⟩
        · exact Function.update_self _ _ _
        · exact (Function.update_of_ne hkey _ _).trans (h.lock j other since hold)
      · rcases hcases j other since hj with ⟨rfl, rfl, -⟩ | ⟨hkey, hold⟩
        · exact Function.update_self _ _ _
        · exact (Function.update_of_ne hkey _ _).trans (h.owner j other since hold)
      · rcases hcases j other since hj with ⟨-, -, rfl⟩ | ⟨-, hold⟩
        · exact lt_add_of_pos_right _ (by decide)
        · exact h.alive j other since hold
    · rw [heq]
      refine h.frame rfl fun j other since hj => ⟨?_, rfl, rfl⟩
      exact (locked_of_update (fun _ _ => by simp) hj).2
  · have hsame : cycleStep w (.acquire i symbol) = w := by
      cases hphase : w.phase i with
      | idle => exact absurd hphase hidle
      | locked other since => simp [cycleStep, hphase]
      | ended => simp [cycleStep, hphase]
    rw [hsame]
    exact h

/-- A release takes its own lock only. -/
theorem Leased.release (h : Leased w) (i : ι) : Leased (cycleStep w (.release i)) := by
  cases hphase : w.phase i with
  | idle => simpa [cycleStep, hphase] using h
  | ended => simpa [cycleStep, hphase] using h
  | locked symbol since =>
    have heq : cycleStep w (.release i) =
        { w with
          redis := w.redis.delete (cycleLock symbol)
          phase := Function.update w.phase i .ended } := by simp [cycleStep, hphase]
    rw [heq]
    refine h.frame rfl fun j other since' hj => ?_
    obtain ⟨hji, hj⟩ := locked_of_update (fun _ _ => by simp) hj
    have hkey : cycleLock other ≠ cycleLock symbol := by
      intro hkey
      cases cycleLock_injective hkey
      exact hji (h.exclusive j i _ ⟨since', hj⟩ ⟨since, hphase⟩)
    exact ⟨hj, Function.update_of_ne hkey _ _, rfl⟩

/-- **One step**: while every section ends within the time to live, its lease holds. -/
theorem Leased.step (h : Leased w) (event : CycleEvent ι) (hok : WithinTtl w event) :
    Leased (cycleStep w event) := by
  cases event with
  | pass duration =>
    exact ⟨h.lock, h.owner, fun i symbol since hi => hok duration rfl i symbol since hi⟩
  | acquire i symbol => exact h.acquire i symbol
  | write i key entry =>
    cases hphase : w.phase i with
    | idle => simpa [cycleStep, hphase] using h
    | ended => simpa [cycleStep, hphase] using h
    | locked symbol since =>
      simp only [cycleStep, hphase]
      exact h.frame rfl fun j other since' hj =>
        ⟨hj, Function.update_of_ne (cycleLock_ne_name other key) _ _, rfl⟩
  | release i => exact h.release i

/-! ## Exclusion -/

/-- No invocation has started. -/
def AllIdle (w : CycleWorld ι) : Prop := ∀ i, w.phase i = .idle

omit [DecidableEq ι] in
/-- Before the first invocation nobody needs a lease. -/
theorem leased_of_allIdle (h : AllIdle w) : Leased w := by
  have hno : ∀ i symbol since, w.phase i ≠ .locked symbol since := by
    intro i symbol since hi
    rw [h i] at hi
    cases hi
  exact
    { lock := fun i symbol since hi => absurd hi (hno i symbol since)
      owner := fun i symbol since hi => absurd hi (hno i symbol since)
      alive := fun i symbol since hi => absurd hi (hno i symbol since) }

/-- Once a section outlasts its lock, the next invocation of the symbol enters too, and the
release of the first deletes the lock of the second. -/
theorem overrun (h : Leased w) {i j : ι} {symbol : Symbol} {since : Time} {duration : ℕ}
    (hi : w.phase i = .locked symbol since) (hj : w.phase j = .idle)
    (hover : since + cycleLockTtl ≤ w.now + duration) :
    ¬ Exclusive (runFrom cycleStep w [.pass duration, .acquire j symbol]) ∧
      ¬ ReleasesOwn (runFrom cycleStep w [.pass duration, .acquire j symbol]) (.release i) := by
  have hij : i ≠ j := by
    rintro rfl
    rw [hi] at hj
    cases hj
  set later : CycleWorld ι := cycleStep w (.pass duration) with hlater
  have hgone : later.redis.get later.now (cycleLock symbol) = none :=
    ExpiringStore.get_of_le (h.lock i symbol since hi) hover
  have hrun : runFrom cycleStep w [.pass duration, .acquire j symbol] =
      cycleStep later (.acquire j symbol) := rfl
  rw [hrun]
  rcases cycleStep_acquire (w := later) symbol hj with ⟨-, heq⟩ | ⟨⟨value, hlive⟩, -⟩
  · rw [heq]
    have hfirst : Function.update later.phase j (.locked symbol later.now) i =
        .locked symbol since := (Function.update_of_ne hij _ _).trans hi
    have hsecond : Function.update later.phase j (.locked symbol later.now) j =
        .locked symbol later.now := Function.update_self _ _ _
    refine ⟨fun hexclusive => hij ?_, fun hown => hij ?_⟩
    · exact hexclusive i j symbol ⟨since, hfirst⟩ ⟨later.now, hsecond⟩
    · have hset : Function.update later.redis (cycleLock symbol)
          (some { value := "1", expiresAt := some (later.now + cycleLockTtl) })
          (cycleLock symbol) = _ := Function.update_self _ _ _
      have hlive := ExpiringStore.get_of_lt hset
        (lt_add_of_pos_right later.now (by decide : 0 < cycleLockTtl))
      have howner : Function.update later.setBy (cycleLock symbol) (some j) (cycleLock symbol) =
          some i := hown i symbol rfl ⟨since, hfirst⟩ (Option.isSome_of_eq_some hlive)
      rw [Function.update_self] at howner
      exact (Option.some.inj howner).symm
  · rw [hgone] at hlive
    cases hlive

/-- **Cycles of one symbol exclude each other while every locked section ends within the lock's
time to live**: then in every state of the run at most one invocation is in the section of a
symbol, and no release deletes another's lock.  The first section to last longer lets the next
invocation in, and its release deletes that one's lock. -/
theorem cycles_exclude (w : CycleWorld ι) (hidle : AllIdle w) (events : List (CycleEvent ι))
    (hwithin : AllSteps cycleStep WithinTtl w events) :
    AllStates cycleStep Exclusive w events ∧ AllSteps cycleStep ReleasesOwn w events ∧
    ∀ i j symbol since duration,
      (runFrom cycleStep w events).phase i = .locked symbol since →
      (runFrom cycleStep w events).phase j = .idle →
      since + cycleLockTtl ≤ (runFrom cycleStep w events).now + (duration : ℕ) →
      let next := runFrom cycleStep (runFrom cycleStep w events)
        [.pass duration, .acquire j symbol]
      ¬ Exclusive next ∧ ¬ ReleasesOwn next (.release i) := by
  have hstep : ∀ (w : CycleWorld ι) event, Leased w → WithinTtl w event →
      Leased (cycleStep w event) := fun w event h hok => h.step event hok
  have hleased := hwithin.allStates hstep (leased_of_allIdle hidle)
  refine ⟨hleased.imp fun w h => h.exclusive, ?_, ?_⟩
  · exact hwithin.imp hstep (fun w event h _ => h.releasesOwn event) (leased_of_allIdle hidle)
  · intro i j symbol since duration hi hj hover
    exact overrun hleased.last hi hj hover

/-- Redis is empty and no cycle has started. -/
def idleWorld : CycleWorld ℕ :=
  { now := 0, redis := fun _ => none, phase := fun _ => .idle, setBy := fun _ => none }

/-- A section of 200 seconds, and an invocation that is skipped meanwhile. -/
def shortCycle : List (CycleEvent ℕ) :=
  [.acquire 0 "BTC/USDT", .pass 200000000, .acquire 1 "BTC/USDT", .release 0]

/-- The cycles of a section of 200 seconds exclude each other. -/
theorem cycles_exclude_short : AllStates cycleStep Exclusive idleWorld shortCycle := by
  refine (cycles_exclude idleWorld (fun _ => rfl) shortCycle ⟨?_, ?_, ?_, ?_, trivial⟩).1
  · intro duration hpass
    cases hpass
  · intro duration hpass i symbol since hi
    cases hpass
    have hphase : (cycleStep idleWorld (.acquire 0 "BTC/USDT")).phase =
        Function.update idleWorld.phase 0 (.locked "BTC/USDT" 0) := rfl
    rw [hphase] at hi
    by_cases hzero : i = 0
    · subst hzero
      rw [Function.update_self] at hi
      cases hi
      decide
    · rw [Function.update_of_ne hzero] at hi
      cases hi
  · intro duration hpass
    cases hpass
  · intro duration hpass
    cases hpass

/-- The scheduled cycle waits the configured 455 seconds for the model.  Its lock expires after
300 and a triggered cycle enters; then the first release deletes the second's lock. -/
theorem cycles_overlap :
    let w := runFrom cycleStep idleWorld [.acquire 0 "BTC/USDT", .pass 300000000,
      .acquire 1 "BTC/USDT", .pass 155000000]
    w.now = llmRequestTimeout ∧ ¬ Exclusive w ∧ ¬ ReleasesOwn w (.release 0) := by
  intro w
  have hfirst : w.phase 0 = .locked "BTC/USDT" 0 := by decide +kernel
  have hsecond : w.phase 1 = .locked "BTC/USDT" (seconds 300) := by decide +kernel
  refine ⟨by decide, fun hexclusive => ?_, fun hown => ?_⟩
  · exact absurd (hexclusive 0 1 _ ⟨_, hfirst⟩ ⟨_, hsecond⟩) (by decide)
  · have hset := hown 0 "BTC/USDT" rfl ⟨_, hfirst⟩ (by decide +kernel)
    exact absurd hset (by decide +kernel)

end TradeMind.Analysis
