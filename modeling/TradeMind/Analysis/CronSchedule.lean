import Mathlib.Data.Int.GCD
import TradeMind.Analysis.CycleLock
import TradeMind.Model.CronSchedule

/-!
# When the cycles fire

The schedule is accepted exactly when the timeframe divides the hour in whole minutes and every
symbol's offset fits in the candle period.  Then the job of a symbol fires once in each candle
period, its offset after the close, and no two symbols fire less than the stagger apart within
one period.  All of this is over a cron library that does what its documentation says.
-/

set_option autoImplicit false

namespace TradeMind.Analysis

open TradeMind.Library TradeMind.Model TradeMind.Model.Scheduler

/-! ## One trigger -/

/-- A candle period the cron fields can follow. -/
def DividesHour (timeframeSeconds : ℤ) : Prop := 60 ∣ timeframeSeconds ∧ timeframeSeconds ∣ 3600

instance (timeframeSeconds : ℤ) : Decidable (DividesHour timeframeSeconds) :=
  inferInstanceAs (Decidable (_ ∧ _))

theorem timeframeToSeconds_pos (timeframe : History.Timeframe) :
    0 < timeframeToSeconds timeframe := by
  have hunit : 0 < timeframeUnitSeconds timeframe.unit := by cases timeframe.unit <;> decide
  exact mul_pos (Int.natCast_pos.mpr timeframe.pos) hunit

section Trigger

variable {library : CronLibrary} {timeframeSeconds : ℤ}

/-- Well-formed fields make a trigger, which fires when they say. -/
theorem cronTrigger_ok (hlibrary : library.Documented) {minute : CronField} {second : ℤ}
    (h : CronTrigger.WellFormed { minute, second := .at second }) :
    cronTrigger library minute second = .ok { minute, second := .at second } ∧
      ∀ t, library.firesAt { minute, second := .at second } t ↔
        CronTrigger.FiresAt { minute, second := .at second } t :=
  ⟨if_pos ((hlibrary.accepts_iff _).mpr h), hlibrary.firesAt_iff _ h⟩

theorem cronTrigger_error (hlibrary : library.Documented) {minute : CronField} {second : ℤ}
    (h : ¬CronTrigger.WellFormed { minute, second := .at second }) :
    cronTrigger library minute second = .error .unrecognizedExpression :=
  if_neg fun haccepts => h ((hlibrary.accepts_iff _).mp haccepts)

/-- The minutes of a period that divides the hour divide sixty. -/
theorem DividesHour.minutes (h : DividesHour timeframeSeconds) (hpos : 0 < timeframeSeconds) :
    timeframeSeconds = 60 * (timeframeSeconds / 60) ∧ 0 < timeframeSeconds / 60 ∧
      timeframeSeconds / 60 ∣ 60 := by
  obtain ⟨⟨minutes, rfl⟩, hhour⟩ := h
  rw [Int.mul_ediv_cancel_left _ (by decide : (60 : ℤ) ≠ 0)]
  refine ⟨rfl, by omega, ?_⟩
  rw [show (3600 : ℤ) = 60 * 60 from rfl] at hhour
  exact Int.dvd_of_mul_dvd_mul_left (by decide) hhour

/-- A period that does not divide the hour is refused. -/
theorem cronMinuteField_uneven (hpos : 0 < timeframeSeconds) (h : ¬ DividesHour timeframeSeconds)
    (extraMinutes : ℤ) : cronMinuteField timeframeSeconds extraMinutes =
      .error (.unevenTimeframe timeframeSeconds) := by
  have hhour : timeframeSeconds ≠ 3600 := by
    rintro rfl
    exact h ⟨by decide, by decide⟩
  rw [cronMinuteField, if_neg hhour]
  dsimp only
  rw [if_pos]
  by_contra hfields
  simp only [not_or, ne_eq, Decidable.not_not, not_le] at hfields
  obtain ⟨hremainder, -, hminutes⟩ := hfields
  have hdvd : (60 : ℤ) ∣ timeframeSeconds := Int.dvd_of_emod_eq_zero hremainder
  refine h ⟨hdvd, ?_⟩
  have hmul := mul_dvd_mul_left (60 : ℤ) (Int.dvd_of_emod_eq_zero hminutes)
  rwa [Int.mul_ediv_cancel' hdvd] at hmul

/-- **The trigger of an offset** in a period that divides the hour: refused for a negative
offset, and else it fires that long after every multiple of the period. -/
theorem trigger_of_offset (hlibrary : library.Documented) (hpos : 0 < timeframeSeconds)
    (h : DividesHour timeframeSeconds) {offset : ℤ} (hlt : offset < timeframeSeconds) :
    (offset < 0 ∧ (cronMinuteField timeframeSeconds (offset / 60)).bind
        (cronTrigger library · (offset % 60)) = .error .unrecognizedExpression) ∨
      0 ≤ offset ∧ ∃ trigger, (cronMinuteField timeframeSeconds (offset / 60)).bind
          (cronTrigger library · (offset % 60)) = .ok trigger ∧
        ∀ t, library.firesAt trigger t ↔ t % timeframeSeconds = offset := by
  obtain ⟨hminutes, hminutesPos, hdvd⟩ := h.minutes hpos
  have hsplit := Int.mul_ediv_add_emod offset 60
  have hsecond := Int.emod_nonneg offset (by decide : (60 : ℤ) ≠ 0)
  have hsecond' := Int.emod_lt_of_pos offset (by decide : (0 : ℤ) < 60)
  have hseconds : 0 ≤ offset % 60 ∧ offset % 60 ≤ 59 := ⟨by omega, by omega⟩
  unfold cronMinuteField
  by_cases hhour : timeframeSeconds = 3600
  · rw [if_pos hhour]
    simp only [Except.bind]
    by_cases hneg : offset / 60 < 0
    · refine .inl ⟨by omega, cronTrigger_error hlibrary fun h => ?_⟩
      exact absurd h.minute.1 (not_le.mpr hneg)
    · have hwell : CronTrigger.WellFormed
          { minute := .at (offset / 60), second := .at (offset % 60) } :=
        ⟨trivial, ⟨by omega, by omega⟩, hseconds⟩
      obtain ⟨hok, hfires⟩ := cronTrigger_ok hlibrary hwell
      refine .inr ⟨by omega, _, hok, fun t => ?_⟩
      rw [hfires, firesAt_minute (by omega) (by omega) hsecond hsecond', hhour, hsplit]
  · have hfields : ¬ (timeframeSeconds % 60 ≠ 0 ∨ timeframeSeconds / 60 ≤ 0 ∨
        60 % (timeframeSeconds / 60) ≠ 0) := by
      rw [Int.emod_eq_zero_of_dvd hdvd]
      omega
    rw [if_neg hhour]
    dsimp only
    rw [if_neg hfields]
    -- a period under an hour takes at most half of one
    have hhalf : timeframeSeconds / 60 ≤ 30 := by
      obtain ⟨count, hcount⟩ := hdvd
      have hmany : 2 ≤ count := by
        by_contra hfew
        have hone : count ≤ 1 := by omega
        have hle := mul_le_mul_of_nonneg_left hone hminutesPos.le
        have hall := Int.le_of_dvd (by decide : (0 : ℤ) < 60) ⟨count, hcount⟩
        omega
      have hle := mul_le_mul_of_nonneg_left hmany hminutesPos.le
      omega
    by_cases hzero : offset / 60 = 0
    · rw [if_pos hzero]
      have hwell : CronTrigger.WellFormed
          { minute := .every (timeframeSeconds / 60), second := .at (offset % 60) } :=
        ⟨trivial, ⟨hminutesPos, by omega⟩, hseconds⟩
      obtain ⟨hok, hfires⟩ := cronTrigger_ok hlibrary hwell
      refine .inr ⟨by omega, _, hok, fun t => ?_⟩
      rw [hfires, firesAt_every hdvd hminutesPos hsecond hsecond', ← hminutes]
      omega
    · rw [if_neg hzero]
      simp only [Except.bind]
      by_cases hneg : offset / 60 < 0
      · refine .inl ⟨by omega, cronTrigger_error hlibrary fun h => ?_⟩
        exact absurd h.minute.1 (not_le.mpr hneg)
      · have hwell : CronTrigger.WellFormed
            { minute := .range (offset / 60) 59 (timeframeSeconds / 60)
              second := .at (offset % 60) } :=
          ⟨trivial, ⟨by omega, le_rfl, hminutesPos, by omega⟩, hseconds⟩
        obtain ⟨hok, hfires⟩ := cronTrigger_ok hlibrary hwell
        refine .inr ⟨by omega, _, hok, fun t => ?_⟩
        rw [hfires, firesAt_range hdvd hminutesPos (by omega) (by omega) hsecond hsecond',
          ← hminutes, hsplit]

end Trigger

/-! ## The jobs -/

/-- The offset of the index fits in a candle period the cron fields can follow. -/
def Fits (settings : ScheduleSettings) (index : ℕ) : Prop :=
  DividesHour (timeframeToSeconds settings.timeframe) ∧ 0 ≤ offsetSeconds settings index ∧
    offsetSeconds settings index < timeframeToSeconds settings.timeframe

/-- The trigger fires with the offset of the index. -/
def FiresWithOffset (library : CronLibrary) (settings : ScheduleSettings) (index : ℕ)
    (trigger : CronTrigger) : Prop :=
  ∀ t, library.firesAt trigger t ↔
    t % timeframeToSeconds settings.timeframe = offsetSeconds settings index

/-- The error `build_scheduler` raises at a symbol that it refuses: the offset overruns the candle,
or the timeframe does not divide an hour, or the cron library rejects the expression. -/
def refusal (settings : ScheduleSettings) (index : ℕ) (symbol : Symbol) : ScheduleError :=
  let timeframeSeconds := timeframeToSeconds settings.timeframe
  if timeframeSeconds ≤ offsetSeconds settings index then
    .overrun symbol (offsetSeconds settings index) timeframeSeconds
  else if DividesHour timeframeSeconds then .unrecognizedExpression
  else .unevenTimeframe timeframeSeconds

variable {library : CronLibrary}

/-- A symbol has a trigger where its offset fits, and is refused where it does not. -/
theorem symbolTrigger_cases (hlibrary : library.Documented) (settings : ScheduleSettings)
    (index : ℕ) (symbol : Symbol) :
    (Fits settings index ∧ ∃ trigger, symbolTrigger library settings index symbol = .ok trigger ∧
      FiresWithOffset library settings index trigger) ∨
    ¬ Fits settings index ∧
      symbolTrigger library settings index symbol = .error (refusal settings index symbol) := by
  have hpos := timeframeToSeconds_pos settings.timeframe
  unfold symbolTrigger refusal
  by_cases hoverrun : timeframeToSeconds settings.timeframe ≤ offsetSeconds settings index
  · refine .inr ⟨fun hfits => absurd hfits.2.2 (not_lt.mpr hoverrun), ?_⟩
    dsimp only
    rw [if_pos hoverrun, if_pos hoverrun]
  · dsimp only
    rw [if_neg hoverrun, if_neg hoverrun]
    by_cases hhour : DividesHour (timeframeToSeconds settings.timeframe)
    · rw [if_pos hhour]
      rcases trigger_of_offset hlibrary hpos hhour (not_le.mp hoverrun) with
        ⟨hneg, herror⟩ | ⟨hnonneg, trigger, hok, hfires⟩
      · exact .inr ⟨fun hfits => absurd hfits.2.1 (not_le.mpr hneg), herror⟩
      · exact .inl ⟨⟨hhour, hnonneg, not_le.mp hoverrun⟩, trigger, hok, hfires⟩
    · rw [if_neg hhour, cronMinuteField_uneven hpos hhour]
      exact .inr ⟨fun hfits => hhour hfits.1, rfl⟩

/-- The loop ends, or it is refused at the first index whose offset does not fit. -/
theorem addJobs_outcome (hlibrary : library.Documented) (settings : ScheduleSettings)
    (symbols : List Symbol) (index : ℕ) (jobs : Dict String CronTrigger) :
    ((∀ i < symbols.length, Fits settings (index + i)) ∧
        ∃ jobs', addJobs library settings index symbols jobs = .ok jobs') ∨
      ∃ i symbol, symbols[i]? = some symbol ∧ (∀ j < i, Fits settings (index + j)) ∧
        ¬ Fits settings (index + i) ∧
        addJobs library settings index symbols jobs =
          .error (refusal settings (index + i) symbol) := by
  induction symbols generalizing index jobs with
  | nil => exact .inl ⟨fun i hi => absurd hi (Nat.not_lt_zero i), jobs, rfl⟩
  | cons symbol rest ih =>
    rcases symbolTrigger_cases hlibrary settings index symbol with
      ⟨hfits, trigger, htrigger, -⟩ | ⟨hfits, herror⟩
    · -- the offsets of the rest count on from the next index
      have hshift : ∀ {n : ℕ}, (∀ i < n, Fits settings (index + 1 + i)) →
          ∀ i < n + 1, Fits settings (index + i) := by
        rintro n hrest (_ | i) hi
        · exact hfits
        · have hi' := hrest i (Nat.lt_of_succ_lt_succ hi)
          rwa [Nat.add_right_comm] at hi'
      simp only [addJobs, htrigger, bind, Except.bind]
      rcases ih (index + 1) (jobs.insert (jobId symbol) trigger) with
        ⟨hall, hok⟩ | ⟨i, other, hi, hbefore, hnot, herror⟩
      · exact .inl ⟨hshift hall, hok⟩
      · refine .inr ⟨i + 1, other, by simpa using hi, hshift hbefore, ?_, ?_⟩
        · rwa [Nat.add_right_comm] at hnot
        · rw [herror, Nat.add_right_comm, Nat.add_assoc]
    · refine .inr ⟨0, symbol, rfl, fun j hj => absurd hj (Nat.not_lt_zero j), hfits, ?_⟩
      simp only [addJobs, herror, bind, Except.bind, Nat.add_zero]

/-- The symbol stands at the index, and not after it. -/
def LastAt (symbols : List Symbol) (i : ℕ) (symbol : Symbol) : Prop :=
  symbols[i]? = some symbol ∧ ∀ j, i < j → symbols[j]? ≠ some symbol

theorem exists_lastAt {symbols : List Symbol} {symbol : Symbol} (h : symbol ∈ symbols) :
    ∃ i, LastAt symbols i symbol := by
  induction symbols with
  | nil => cases h
  | cons first rest ih =>
    by_cases hrest : symbol ∈ rest
    · obtain ⟨i, hi, hlast⟩ := ih hrest
      refine ⟨i + 1, by simpa using hi, fun j hj => ?_⟩
      obtain ⟨j, rfl⟩ : ∃ k, j = k + 1 := ⟨j - 1, by omega⟩
      simpa using hlast j (by omega)
    · rcases List.mem_cons.mp h with rfl | hmem
      · refine ⟨0, rfl, fun j hj => ?_⟩
        obtain ⟨j, rfl⟩ : ∃ k, j = k + 1 := ⟨j - 1, by omega⟩
        intro heq
        exact hrest (List.mem_of_getElem? (by simpa using heq))
      · exact absurd hmem hrest

theorem jobId_injective {symbol other : Symbol} (h : jobId symbol = jobId other) :
    symbol = other := by
  simpa [jobId] using h

/-- **What the loop adds**: under the id of a symbol the trigger of its last index, and nothing
under other ids. -/
theorem addJobs_lookup (hlibrary : library.Documented) {settings : ScheduleSettings}
    {symbols : List Symbol} {index : ℕ} {jobs jobs' : Dict String CronTrigger}
    (h : addJobs library settings index symbols jobs = .ok jobs') :
    (∀ i symbol, LastAt symbols i symbol → ∃ trigger,
      jobs'.lookup (jobId symbol) = some trigger ∧
        FiresWithOffset library settings (index + i) trigger) ∧
    ∀ id, (∀ symbol ∈ symbols, id ≠ jobId symbol) → jobs'.lookup id = jobs.lookup id := by
  induction symbols generalizing index jobs with
  | nil =>
    cases h
    exact ⟨fun i symbol hlast => by simp [LastAt] at hlast, fun _ _ => rfl⟩
  | cons first rest ih =>
    rcases symbolTrigger_cases hlibrary settings index first with
      ⟨-, trigger, htrigger, hfires⟩ | ⟨-, herror⟩
    · simp only [addJobs, htrigger, bind, Except.bind] at h
      obtain ⟨hadded, hkept⟩ := ih h
      refine ⟨fun i symbol hlast => ?_, fun id hid => ?_⟩
      · cases i with
        | zero =>
          -- the first symbol is its own last, so the rest of the loop leaves its job alone
          obtain rfl : first = symbol := by simpa using hlast.1
          have hother : ∀ symbol ∈ rest, jobId first ≠ jobId symbol := by
            intro symbol hmem heq
            obtain ⟨j, hj⟩ := List.getElem?_of_mem hmem
            rw [← jobId_injective heq] at hj
            exact hlast.2 (j + 1) (Nat.succ_pos j) (by simpa using hj)
          exact ⟨trigger, by rw [hkept _ hother, AList.lookup_insert], hfires⟩
        | succ i =>
          obtain ⟨trigger, hlookup, hfires⟩ := hadded i symbol ⟨by simpa using hlast.1,
            fun j hj => by simpa using hlast.2 (j + 1) (by omega)⟩
          exact ⟨trigger, hlookup, by rwa [Nat.add_right_comm] at hfires⟩
      · rw [hkept id fun symbol hmem => hid symbol (List.mem_cons_of_mem _ hmem)]
        exact AList.lookup_insert_ne (hid first List.mem_cons_self)
    · simp only [addJobs, herror, bind, Except.bind] at h
      cases h

/-- The daily job has an id of its own. -/
theorem snapshot_ne_jobId (symbol : Symbol) : "performance-snapshot" ≠ jobId symbol := by
  have hsecond : (jobId symbol).toList[1]? = some 'l' := second_append (by decide)
  intro h
  rw [← h] at hsecond
  revert hsecond
  decide

/-! ## The schedule -/

section Schedule

variable {library : CronLibrary} {settings : ScheduleSettings} {jobs : Dict String CronTrigger}

/-- An accepted schedule has no offset that does not fit. -/
theorem fits_of_ok (hlibrary : library.Documented)
    (h : buildScheduler library settings = .ok jobs) {i : ℕ} (hi : i < settings.symbols.length) : Fits settings i := by
  rcases addJobs_outcome hlibrary settings settings.symbols 0 ∅ with
    ⟨hall, -⟩ | ⟨_, _, -, -, -, herror⟩
  · have hfits := hall i hi
    rwa [Nat.zero_add] at hfits
  · rw [buildScheduler, herror] at h
    cases h

/-- **A schedule is refused for the first symbol that does not fit**, and accepted where there
is none: the error names the overrun of that symbol's offset, or else a timeframe that does not
divide the hour in whole minutes, or else an offset below zero. -/
theorem buildScheduler_outcome (library : CronLibrary) (hlibrary : library.Documented)
    (settings : ScheduleSettings) :
    ((∀ i < settings.symbols.length, Fits settings i) ∧
        ∃ jobs, buildScheduler library settings = .ok jobs) ∨
      ∃ i symbol, settings.symbols[i]? = some symbol ∧ (∀ j < i, Fits settings j) ∧
        ¬ Fits settings i ∧
          buildScheduler library settings = .error (refusal settings i symbol) := by
  have houtcome := addJobs_outcome hlibrary settings settings.symbols 0 ∅
  simp only [Nat.zero_add] at houtcome
  unfold buildScheduler
  rcases houtcome with ⟨hall, jobs, hok⟩ | ⟨i, symbol, hi, hbefore, hnot, herror⟩
  · have haccepts := (hlibrary.accepts_iff snapshotTrigger).mpr (by decide)
    refine .inl ⟨hall, jobs.insert "performance-snapshot" snapshotTrigger, ?_⟩
    simp only [hok, haccepts, bind, Except.bind, if_true]
  · exact .inr ⟨i, symbol, hi, hbefore, hnot, by rw [herror]; rfl⟩

/-- The job of a symbol fires with the offset of its last index. -/
theorem scheduled_fires (hlibrary : library.Documented)
    (h : buildScheduler library settings = .ok jobs) {i : ℕ} {symbol : Symbol}
    (hlast : LastAt settings.symbols i symbol) :
    ∃ trigger, jobs.lookup (jobId symbol) = some trigger ∧
      FiresWithOffset library settings i trigger := by
  unfold buildScheduler at h
  cases haddJobs : addJobs library settings 0 settings.symbols ∅ with
  | error error =>
    rw [haddJobs] at h
    cases h
  | ok added =>
    have haccepts := (hlibrary.accepts_iff snapshotTrigger).mpr (by decide)
    simp only [haddJobs, haccepts, bind, Except.bind, if_true] at h
    cases h
    obtain ⟨trigger, hlookup, hfires⟩ := (addJobs_lookup hlibrary haddJobs).1 i symbol hlast
    rw [Nat.zero_add] at hfires
    refine ⟨trigger, ?_, hfires⟩
    rw [AList.lookup_insert_ne (snapshot_ne_jobId symbol).symm, hlookup]

/-- **Every symbol has one cycle in each candle period**, its offset after the close of the
candle before. -/
theorem cycles_fire_once_a_candle (hlibrary : library.Documented)
    (h : buildScheduler library settings = .ok jobs) {i : ℕ} {symbol : Symbol}
    (hlast : LastAt settings.symbols i symbol) :
    ∃ trigger, jobs.lookup (jobId symbol) = some trigger ∧ ∀ k,
      library.firesAt trigger
          (k * timeframeToSeconds settings.timeframe + offsetSeconds settings i) ∧
        ∃! t, (k * timeframeToSeconds settings.timeframe ≤ t ∧
          t < (k + 1) * timeframeToSeconds settings.timeframe) ∧ library.firesAt trigger t := by
  obtain ⟨trigger, hlookup, hfires⟩ := scheduled_fires hlibrary h hlast
  obtain ⟨-, hnonneg, hlt⟩ := fits_of_ok hlibrary h (List.getElem?_eq_some_iff.mp hlast.1).1
  refine ⟨trigger, hlookup, fun k => ⟨?_, ?_⟩⟩
  · rw [hfires, mul_comm, Int.mul_add_emod_self_left, Int.emod_eq_of_lt hnonneg hlt]
  · simp only [hfires _]
    exact existsUnique_emod hnonneg hlt k

/-- **Two symbols stay apart**: within a candle period their cycles fire at least the stagger
apart. -/
theorem cycles_stay_apart (hlibrary : library.Documented)
    (h : buildScheduler library settings = .ok jobs) {symbol other : Symbol}
    (hne : symbol ≠ other) (hsymbol : symbol ∈ settings.symbols)
    (hother : other ∈ settings.symbols) :
    ∃ trigger trigger', jobs.lookup (jobId symbol) = some trigger ∧
      jobs.lookup (jobId other) = some trigger' ∧ ∀ t t', library.firesAt trigger t →
        library.firesAt trigger' t' →
        t / timeframeToSeconds settings.timeframe = t' / timeframeToSeconds settings.timeframe →
          |settings.symbolStaggerSeconds| ≤ |t - t'| := by
  obtain ⟨i, hi⟩ := exists_lastAt hsymbol
  obtain ⟨j, hj⟩ := exists_lastAt hother
  obtain ⟨trigger, hlookup, hfires⟩ := scheduled_fires hlibrary h hi
  obtain ⟨trigger', hlookup', hfires'⟩ := scheduled_fires hlibrary h hj
  refine ⟨trigger, trigger', hlookup, hlookup', fun t t' ht ht' hperiod => ?_⟩
  have hindex : (i : ℤ) - j ≠ 0 := by
    intro heq
    obtain rfl : i = j := by omega
    exact hne (Option.some.inj (hi.1.symm.trans hj.1))
  have hsplit := Int.mul_ediv_add_emod t (timeframeToSeconds settings.timeframe)
  have hsplit' := Int.mul_ediv_add_emod t' (timeframeToSeconds settings.timeframe)
  rw [(hfires t).mp ht] at hsplit
  rw [(hfires' t').mp ht', ← hperiod] at hsplit'
  have hdiff : t - t' = (i - j) * settings.symbolStaggerSeconds := by
    unfold offsetSeconds at hsplit hsplit'
    linarith
  rw [hdiff, abs_mul]
  exact le_mul_of_one_le_left (abs_nonneg _) (Int.one_le_abs hindex)

end Schedule

/-- A cron library that does what is documented. -/
def documentedCron : CronLibrary where
  accepts trigger := decide trigger.WellFormed
  firesAt := CronTrigger.FiresAt

/-- A library that accepts exactly the well-formed triggers does what the documentation says. -/
theorem documentedCron_documented : documentedCron.Documented :=
  ⟨fun _ => decide_eq_true_iff, fun _ _ _ => Iff.rfl⟩

theorem five_pos : 0 < 5 := Nat.succ_pos 4

/-- The configured symbols on five-minute candles. -/
def liveSchedule : ScheduleSettings where
  timeframe := ⟨5, .m, five_pos⟩

/-- With half the period between two symbols, the third overruns it. -/
theorem crowdedSchedule_refused : ∃ i symbol,
    ["BTC/USDT", "ETH/USDT", "BNB/USDT", "XRP/USDT"][i]? = some symbol ∧
      buildScheduler documentedCron { liveSchedule with symbolStaggerSeconds := 150 } =
        .error (refusal { liveSchedule with symbolStaggerSeconds := 150 } i symbol) := by
  rcases buildScheduler_outcome documentedCron documentedCron_documented
    { liveSchedule with symbolStaggerSeconds := 150 } with
    ⟨hall, -⟩ | ⟨i, symbol, hi, -, -, herror⟩
  · exact absurd (hall 2 (by decide)).2.2 (by decide)
  · exact ⟨i, symbol, hi, herror⟩

/-- The second symbol's cycle fires 85 seconds after each close. -/
theorem liveSchedule_fires : ∃ jobs trigger,
    buildScheduler documentedCron liveSchedule = .ok jobs ∧
      jobs.lookup (jobId "ETH/USDT") = some trigger ∧ documentedCron.firesAt trigger 385 := by
  obtain ⟨jobs, hok⟩ : ∃ jobs, buildScheduler documentedCron liveSchedule = .ok jobs := ⟨_, rfl⟩
  have hlast : LastAt liveSchedule.symbols 1 "ETH/USDT" := by
    refine ⟨rfl, fun j hj => ?_⟩
    rcases j with _ | _ | _ | _ | j
    · cases hj
    · exact absurd hj (by decide)
    · decide
    · decide
    · simp [liveSchedule]
  obtain ⟨trigger, hlookup, hfires⟩ :=
    cycles_fire_once_a_candle documentedCron_documented hok hlast
  exact ⟨jobs, trigger, hok, hlookup, (hfires 1).1⟩

/-- The cycles of the first two symbols are 70 seconds apart. -/
theorem liveSchedule_apart : ∃ jobs trigger trigger',
    buildScheduler documentedCron liveSchedule = .ok jobs ∧
      jobs.lookup (jobId "BTC/USDT") = some trigger ∧
      jobs.lookup (jobId "ETH/USDT") = some trigger' ∧
        ∀ t t', documentedCron.firesAt trigger t → documentedCron.firesAt trigger' t' →
          t / 300 = t' / 300 → 70 ≤ |t - t'| := by
  obtain ⟨jobs, hok⟩ : ∃ jobs, buildScheduler documentedCron liveSchedule = .ok jobs := ⟨_, rfl⟩
  have hne : ("BTC/USDT" : Symbol) ≠ "ETH/USDT" := by decide
  obtain ⟨trigger, trigger', hlookup, hlookup', happart⟩ :=
    cycles_stay_apart documentedCron_documented hok hne (by simp [liveSchedule])
      (by simp [liveSchedule])
  exact ⟨jobs, trigger, trigger', hok, hlookup, hlookup', happart⟩

end TradeMind.Analysis
