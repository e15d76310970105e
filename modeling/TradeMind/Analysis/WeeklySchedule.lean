import Mathlib.Tactic.Ring
import TradeMind.Library.Multiples
import TradeMind.Model.WeeklySchedule

/-!
# The weekly schedules tile time

`_next_weekly_run` rolls forward to a slot, an instant of the configured weekday and hour, and
`latest_weekly_end` rolls back to one.  Slots are whole weeks apart (`slots_apart`), so the two
computations agree on the week around `now` because each is less than a week from it.  Each
raises `OverflowError` exactly where `datetime` has no slot on its side of `now`.
-/

set_option autoImplicit false

namespace TradeMind.Analysis

open TradeMind.Library TradeMind.Model TradeMind.Model.Weekly

/-- `t` is of the weekday at exactly the hour. -/
structure FallsOn (weekday : Fin 7) (hour : Fin 24) (t : ℤ) : Prop where
  weekday_eq : weekdayOf t = weekday
  hour_eq : hourOf t = hour
  minute_eq : minuteOf t = 0
  second_eq : secondOf t = 0
  microsecond_eq : microsecondOf t = 0

section Slots

variable {weekday : Fin 7} {hour : Fin 24}

/-- What is left of a clock after its coarse unit `a`, where nothing is left of the unit `b` that
divides it. -/
theorem emod_of_parts {t a b : ℤ} (hdvd : b ∣ a) (hrest : t % b = 0) :
    t % a = b * (t % a / b) := by
  have hparts := Int.mul_ediv_add_emod (t % a) b
  rw [Int.emod_emod_of_dvd t hdvd, hrest, add_zero] at hparts
  exact hparts.symm

/-- A slot is its hour of its day. -/
theorem FallsOn.onTheHour_eq {t : ℤ} (h : FallsOn weekday hour t) :
    t = dateOf t * dayLength + hour * hourLength := by
  have hsecond : t % minutes 1 = 1000000 * secondOf t :=
    emod_of_parts (by decide) h.microsecond_eq
  have hminute : t % hourLength = minutes 1 * minuteOf t :=
    emod_of_parts (by decide) (by simp [hsecond, h.second_eq])
  have hhour : t % dayLength = hourLength * hourOf t :=
    emod_of_parts (by decide) (by simp [hminute, h.minute_eq])
  have hday : dateOf t = t / dayLength := rfl
  calc t = dayLength * (t / dayLength) + t % dayLength := (Int.mul_ediv_add_emod t _).symm
    _ = dateOf t * dayLength + hour * hourLength := by
      rw [hhour, h.hour_eq, hday, mul_comm dayLength, mul_comm hourLength]

/-- The hour of a day of the weekday is a slot. -/
theorem fallsOn_of_date {day : ℤ} (h : (day + 719163 + 6) % 7 = weekday) :
    FallsOn weekday hour (day * dayLength + hour * hourLength) := by
  have hhour := hour.isLt
  constructor
  all_goals
    simp only [weekdayOf, toordinal, hourOf, minuteOf, secondOf, microsecondOf, dateOf, dayLength,
      hourLength, minutes]
    omega

/-- **Two slots are whole weeks apart.** -/
theorem slots_apart {s t : ℤ} (hs : FallsOn weekday hour s) (ht : FallsOn weekday hour t) :
    weekLength ∣ s - t := by
  have hday := hs.weekday_eq.trans ht.weekday_eq.symm
  have hweeks : (7 : ℤ) ∣ dateOf s - dateOf t := by
    simp only [weekdayOf, toordinal] at hday
    omega
  obtain ⟨weeks, hweeks⟩ := hweeks
  refine ⟨weeks, ?_⟩
  calc s - t = (dateOf s * dayLength + hour * hourLength) -
        (dateOf t * dayLength + hour * hourLength) := by
        rw [← hs.onTheHour_eq, ← ht.onTheHour_eq]
    _ = (dateOf s - dateOf t) * dayLength := by ring
    _ = weekLength * weeks := by
      rw [hweeks, weekLength]
      ring

theorem FallsOn.add_weeks {t : ℤ} (h : FallsOn weekday hour t) (weeks : ℤ) :
    FallsOn weekday hour (t + weeks * weekLength) := by
  have hday := h.weekday_eq
  have hslot : FallsOn weekday hour ((dateOf t + weeks * 7) * dayLength + hour * hourLength) := by
    apply fallsOn_of_date
    simp only [weekdayOf, toordinal] at hday
    omega
  have heq : t + weeks * weekLength =
      (dateOf t + weeks * 7) * dayLength + hour * hourLength := by
    calc t + weeks * weekLength
        = dateOf t * dayLength + hour * hourLength + weeks * weekLength := by
          rw [← h.onTheHour_eq]
      _ = (dateOf t + weeks * 7) * dayLength + hour * hourLength := by
          rw [weekLength]
          ring
  exact heq ▸ hslot

/-- The hour of the day of an instant is less than a day from it. -/
theorem onTheHour_near (t : ℤ) (hour : Fin 24) :
    t < DateTime.onTheHour t hour + dayLength ∧ DateTime.onTheHour t hour < t + dayLength := by
  have hhour := hour.isLt
  simp only [DateTime.onTheHour, dateOf, dayLength, hourLength, minutes]
  omega

/-- Days from the hour of the day of an instant, where they lead to the weekday. -/
theorem fallsOn_days {t : ℤ} {days : ℤ}
    (h : (weekdayOf (DateTime.onTheHour t hour) + days) % 7 = weekday) :
    FallsOn weekday hour (DateTime.onTheHour t hour + days * dayLength) := by
  have hslot : FallsOn weekday hour ((dateOf t + days) * dayLength + hour * hourLength) := by
    apply fallsOn_of_date
    rw [weekdayOf, DateTime.toordinal_onTheHour, toordinal] at h
    omega
  have heq : DateTime.onTheHour t hour + days * dayLength =
      (dateOf t + days) * dayLength + hour * hourLength := by
    rw [DateTime.onTheHour]
    ring
  exact heq ▸ hslot

/-- The slot `_next_weekly_run` looks at first. -/
def aheadSlot (t : ℤ) (weekday : Fin 7) (hour : Fin 24) : ℤ :=
  DateTime.onTheHour t hour +
    ((weekday : ℤ) - weekdayOf (DateTime.onTheHour t hour)) % 7 * dayLength

/-- The slot `latest_weekly_end` looks at first. -/
def backSlot (t : ℤ) (weekday : Fin 7) (hour : Fin 24) : ℤ :=
  DateTime.onTheHour t hour +
    -((weekdayOf (DateTime.onTheHour t hour) - (weekday : ℤ)) % 7 * dayLength)

/-- The days forward lead to a slot, at most a day before `t` and less than a week after it. -/
theorem aheadSlot_spec (t : ℤ) (weekday : Fin 7) (hour : Fin 24) :
    FallsOn weekday hour (aheadSlot t weekday hour) ∧
      t < aheadSlot t weekday hour + dayLength ∧ aheadSlot t weekday hour < t + weekLength := by
  have hweekday := weekday.isLt
  obtain ⟨hbefore, hafter⟩ := onTheHour_near t hour
  refine ⟨fallsOn_days (by omega), ?_⟩
  simp only [aheadSlot, weekLength, dayLength, hourLength, minutes] at hbefore hafter ⊢
  omega

/-- The days back lead to a slot, at most a day after `t` and less than a week before it. -/
theorem backSlot_spec (t : ℤ) (weekday : Fin 7) (hour : Fin 24) :
    FallsOn weekday hour (backSlot t weekday hour) ∧
      backSlot t weekday hour < t + dayLength ∧ t < backSlot t weekday hour + weekLength := by
  have hweekday := weekday.isLt
  obtain ⟨hbefore, hafter⟩ := onTheHour_near t hour
  constructor
  · rw [backSlot, ← neg_mul]
    exact fallsOn_days (by omega)
  · simp only [backSlot, weekLength, dayLength, hourLength, minutes] at hbefore hafter ⊢
    omega

end Slots

/-! ## The range of `datetime` -/

/-- Within weeks of an instant the ordinal is within as many sevens. -/
theorem toordinal_le {s t : ℤ} (weeks : ℤ) (h : s ≤ t + weeks * weekLength) :
    toordinal s ≤ toordinal t + 7 * weeks := by
  simp only [toordinal, dateOf, weekLength, dayLength, hourLength, minutes] at *
  omega

/-- An addition returns the instant it leads to, or raises where that is out of the range. -/
theorem plus_outcome (now : DateTime) (delta : ℤ) :
    (∃ result, now.plus delta = .ok result ∧ result.instant = now.instant + delta) ∨
      (now.plus delta = .error .overflow ∧
        (toordinal (now.instant + delta) < 1 ∨
          maxOrdinal < toordinal (now.instant + delta))) := by
  by_cases hrange : 1 ≤ toordinal (now.instant + delta) ∧
      toordinal (now.instant + delta) ≤ maxOrdinal
  · exact .inl ⟨⟨now.instant + delta, hrange.1, hrange.2⟩, dif_pos hrange, rfl⟩
  · exact .inr ⟨dif_neg hrange, by omega⟩

/-- Forward it raises past the end of the range only. -/
theorem plus_ahead (now : DateTime) {delta : ℤ} (hdelta : 0 ≤ delta) :
    (∃ result, now.plus delta = .ok result ∧ result.instant = now.instant + delta) ∨
      (now.plus delta = .error .overflow ∧ maxOrdinal < toordinal (now.instant + delta)) := by
  refine (plus_outcome now delta).imp_right fun ⟨hraised, hrange⟩ => ⟨hraised, ?_⟩
  have hpos := now.ordinal_pos
  have hle : toordinal now.instant ≤ toordinal (now.instant + delta) + 7 * 0 :=
    toordinal_le 0 (by omega)
  omega

/-- Backward it raises before the start of the range only. -/
theorem plus_back (now : DateTime) {delta : ℤ} (hdelta : 0 ≤ delta) :
    (∃ result, now.plus (-delta) = .ok result ∧ result.instant = now.instant + -delta) ∨
      (now.plus (-delta) = .error .overflow ∧ toordinal (now.instant + -delta) < 1) := by
  refine (plus_outcome now (-delta)).imp_right fun ⟨hraised, hrange⟩ => ⟨hraised, ?_⟩
  have hmax := now.ordinal_le
  have hle : toordinal (now.instant + -delta) ≤ toordinal now.instant + 7 * 0 :=
    toordinal_le 0 (by omega)
  omega

/-! ## The two computations -/

section Schedules

/-- The days to a slot are not negative. -/
theorem days_nonneg (days : ℤ) : 0 ≤ days % 7 * dayLength :=
  Int.mul_nonneg (Int.emod_nonneg _ (by decide)) (by decide)

/-- The length of a week is not negative. -/
theorem weekLength_nonneg : 0 ≤ weekLength := by decide

/-- **The email goes out at a slot of the week after `now`**, or that slot is past `datetime`. -/
theorem nextWeeklyRun_outcome (now : DateTime) (weekday : Fin 7) (hour : Fin 24) :
    ∃ slot, FallsOn weekday hour slot ∧ slot ≤ now.instant + weekLength ∧
      ((∃ next, nextWeeklyRun now weekday hour = .ok next ∧ next.instant = slot ∧
          now.instant < slot) ∨
        (nextWeeklyRun now weekday hour = .error .overflow ∧ maxOrdinal < toordinal slot)) := by
  obtain ⟨hslot, hbefore, hafter⟩ := aheadSlot_spec now.instant weekday hour
  have hweek : dayLength < weekLength := by decide
  rw [nextWeeklyRun]
  rcases plus_ahead (now.replace hour)
      (days_nonneg ((weekday : ℤ) - weekdayOf (now.replace hour).instant)) with
    ⟨first, hahead, hfirst⟩ | ⟨hahead, hrange⟩
  · change first.instant = aheadSlot now.instant weekday hour at hfirst
    rw [← hfirst] at hslot hbefore hafter
    simp only [hahead, bind, Except.bind, pure, Except.pure]
    by_cases hpast : first.instant ≤ now.instant
    · -- the slot of this week is over, and a week on there is another
      refine ⟨first.instant + 1 * weekLength, hslot.add_weeks 1, by omega, ?_⟩
      rw [if_pos hpast, one_mul]
      rcases plus_ahead first weekLength_nonneg with
        ⟨next, hnext, hinstant⟩ | ⟨hnext, hrange⟩
      · exact .inl ⟨next, hnext, hinstant, by omega⟩
      · exact .inr ⟨hnext, hrange⟩
    · rw [if_neg hpast]
      exact ⟨first.instant, hslot, by omega, .inl ⟨first, rfl, rfl, by omega⟩⟩
  · simp only [hahead, bind, Except.bind]
    exact ⟨aheadSlot now.instant weekday hour, hslot, by omega, .inr ⟨trivial, hrange⟩⟩

/-- For a UTC instant there is nothing to convert. -/
theorem plus_zero (now : DateTime) : now.plus (-0) = .ok now := by
  have hrange : 1 ≤ toordinal (now.instant + -0) ∧ toordinal (now.instant + -0) ≤ maxOrdinal := by
    simpa using ⟨now.ordinal_pos, now.ordinal_le⟩
  rw [DateTime.plus, dif_pos hrange]
  simp

/-- **The archived week ends at a slot of the week up to `now`**, or that slot is before
`datetime`. -/
theorem latestWeeklyEnd_outcome (now : DateTime) (settings : WeeklySettings) :
    ∃ slot, FallsOn settings.weeklyPnlReportWeekdayUtc settings.weeklyPnlReportHourUtc slot ∧
      now.instant < slot + weekLength ∧
      ((∃ windowEnd, latestWeeklyEnd ⟨now, some 0⟩ settings = .ok windowEnd ∧
          windowEnd.instant = slot ∧ slot ≤ now.instant) ∨
        (latestWeeklyEnd ⟨now, some 0⟩ settings = .error .overflow ∧ toordinal slot < 1)) := by
  obtain ⟨hslot, hafter, hbefore⟩ := backSlot_spec now.instant
    settings.weeklyPnlReportWeekdayUtc settings.weeklyPnlReportHourUtc
  have hweek : dayLength < weekLength := by decide
  rw [latestWeeklyEnd]
  simp only [plus_zero, bind, Except.bind]
  rcases plus_back (now.replace settings.weeklyPnlReportHourUtc)
      (days_nonneg (weekdayOf (now.replace settings.weeklyPnlReportHourUtc).instant -
        (settings.weeklyPnlReportWeekdayUtc : ℤ))) with
    ⟨first, hback, hfirst⟩ | ⟨hback, hrange⟩
  · change first.instant = backSlot now.instant settings.weeklyPnlReportWeekdayUtc
      settings.weeklyPnlReportHourUtc at hfirst
    rw [← hfirst] at hslot hbefore hafter
    simp only [hback, pure, Except.pure]
    by_cases hlater : now.instant < first.instant
    · -- the slot of this week is still to come, and a week back there is another
      refine ⟨first.instant + -1 * weekLength, hslot.add_weeks (-1), by omega, ?_⟩
      rw [if_pos hlater, neg_one_mul]
      rcases plus_back first weekLength_nonneg with
        ⟨windowEnd, hend, hinstant⟩ | ⟨hend, hrange⟩
      · exact .inl ⟨windowEnd, hend, hinstant, by omega⟩
      · exact .inr ⟨hend, hrange⟩
    · rw [if_neg hlater]
      exact ⟨first.instant, hslot, hbefore, .inl ⟨first, rfl, rfl, by omega⟩⟩
  · simp only [hback]
    exact ⟨backSlot now.instant settings.weeklyPnlReportWeekdayUtc
      settings.weeklyPnlReportHourUtc, hslot, hbefore, .inr ⟨trivial, hrange⟩⟩

variable {now : DateTime} {weekday : Fin 7} {hour : Fin 24} {error : DateError}
  {settings : WeeklySettings}

theorem nextWeeklyRun_ok {next : DateTime} (h : nextWeeklyRun now weekday hour = .ok next) :
    FallsOn weekday hour next.instant ∧ now.instant < next.instant ∧
      next.instant ≤ now.instant + weekLength := by
  obtain ⟨slot, hslot, hwithin, ⟨run, hrun, rfl, hahead⟩ | ⟨hrun, -⟩⟩ :=
    nextWeeklyRun_outcome now weekday hour
  · cases hrun.symm.trans h
    exact ⟨hslot, hahead, hwithin⟩
  · cases hrun.symm.trans h

theorem nextWeeklyRun_error (h : nextWeeklyRun now weekday hour = .error error) :
    error = .overflow ∧ ∃ slot, FallsOn weekday hour slot ∧ maxOrdinal < toordinal slot ∧
      slot ≤ now.instant + weekLength := by
  obtain ⟨slot, hslot, hwithin, ⟨run, hrun, -⟩ | ⟨hrun, hrange⟩⟩ :=
    nextWeeklyRun_outcome now weekday hour
  · cases hrun.symm.trans h
  · cases hrun.symm.trans h
    exact ⟨rfl, slot, hslot, hrange, hwithin⟩

theorem latestWeeklyEnd_ok {windowEnd : DateTime}
    (h : latestWeeklyEnd ⟨now, some 0⟩ settings = .ok windowEnd) :
    FallsOn settings.weeklyPnlReportWeekdayUtc settings.weeklyPnlReportHourUtc
        windowEnd.instant ∧
      windowEnd.instant ≤ now.instant ∧ now.instant < windowEnd.instant + weekLength := by
  obtain ⟨slot, hslot, hwithin, ⟨latest, hlatest, rfl, hreached⟩ | ⟨hlatest, -⟩⟩ :=
    latestWeeklyEnd_outcome now settings
  · cases hlatest.symm.trans h
    exact ⟨hslot, hreached, hwithin⟩
  · cases hlatest.symm.trans h

theorem latestWeeklyEnd_error (h : latestWeeklyEnd ⟨now, some 0⟩ settings = .error error) :
    error = .overflow ∧ ∃ slot,
      FallsOn settings.weeklyPnlReportWeekdayUtc settings.weeklyPnlReportHourUtc slot ∧
      toordinal slot < 1 ∧ now.instant < slot + weekLength := by
  obtain ⟨slot, hslot, hwithin, ⟨latest, hlatest, -⟩ | ⟨hlatest, hrange⟩⟩ :=
    latestWeeklyEnd_outcome now settings
  · cases hlatest.symm.trans h
  · cases hlatest.symm.trans h
    exact ⟨rfl, slot, hslot, hrange, hwithin⟩

end Schedules

/-! ## Both -/

/-- A UTC instant `now` with a slot of the settings on either side, one week apart. -/
structure Tiles (settings : WeeklySettings) (now windowEnd next : DateTime) : Prop where
  reached : windowEnd.instant ≤ now.instant
  ahead : now.instant < next.instant
  week : next.instant - windowEnd.instant = weekLength
  end_falls : FallsOn settings.weeklyPnlReportWeekdayUtc settings.weeklyPnlReportHourUtc
    windowEnd.instant
  next_falls : FallsOn settings.weeklyPnlReportWeekdayUtc settings.weeklyPnlReportHourUtc
    next.instant

/-- **The two weekly schedules tile time.**  Wherever both return, the archived week ends at or
before `now`, the email goes out after `now`, exactly one week lies between them, and both are
of the configured weekday at exactly the configured hour.  Each raises `OverflowError` only,
and exactly where `datetime` has no such instant on its side of `now`, which takes a date in
the first week of year 1 or in the last of year 9999. -/
theorem weekly_schedules_tile (now : DateTime) (settings : WeeklySettings) :
    let weekday := settings.weeklyPnlReportWeekdayUtc
    let hour := settings.weeklyPnlReportHourUtc
    let latest := latestWeeklyEnd ⟨now, some 0⟩ settings
    let following := nextWeeklyRun now weekday hour
    (∀ windowEnd next, latest = .ok windowEnd → following = .ok next →
      Tiles settings now windowEnd next) ∧
    (∀ windowEnd, latest = .ok windowEnd →
      FallsOn weekday hour windowEnd.instant ∧ windowEnd.instant ≤ now.instant) ∧
    (∀ next, following = .ok next →
      FallsOn weekday hour next.instant ∧ now.instant < next.instant) ∧
    (∀ error, latest = .error error → error = .overflow ∧ toordinal now.instant ≤ 7 ∧
      ∀ other : DateTime, FallsOn weekday hour other.instant → now.instant < other.instant) ∧
    (∀ error, following = .error error →
      error = .overflow ∧ maxOrdinal < toordinal now.instant + 7 ∧
      ∀ other : DateTime, FallsOn weekday hour other.instant →
        other.instant ≤ now.instant) := by
  intro weekday hour latest following
  refine ⟨?_, ?_, ?_, ?_, ?_⟩
  · intro windowEnd next hend hnext
    obtain ⟨hslot, hreached, hwithin⟩ := latestWeeklyEnd_ok hend
    obtain ⟨hslot', hahead, hwithin'⟩ := nextWeeklyRun_ok hnext
    -- the week before the email and the end of the archive are one slot
    have hsame : next.instant + -1 * weekLength = windowEnd.instant :=
      eq_of_dvd_sub (slots_apart (hslot'.add_weeks (-1)) hslot) (by omega) (by omega)
        hreached hwithin
    exact ⟨hreached, hahead, by omega, hslot, hslot'⟩
  · intro windowEnd hend
    obtain ⟨hslot, hreached, _⟩ := latestWeeklyEnd_ok hend
    exact ⟨hslot, hreached⟩
  · intro next hnext
    obtain ⟨hslot, hahead, _⟩ := nextWeeklyRun_ok hnext
    exact ⟨hslot, hahead⟩
  · intro error herror
    obtain ⟨hraised, slot, hslot, hrange, hbefore⟩ := latestWeeklyEnd_error herror
    have hweek : toordinal now.instant ≤ toordinal slot + 7 * 1 := toordinal_le 1 (by omega)
    refine ⟨hraised, by omega, fun other hother => ?_⟩
    by_contra hreached
    have hle : other.instant ≤ slot := le_of_dvd_sub (slots_apart hslot hother) (by omega)
    have hordinal : toordinal other.instant ≤ toordinal slot + 7 * 0 :=
      toordinal_le 0 (by omega)
    have hpos := other.ordinal_pos
    omega
  · intro error herror
    obtain ⟨hraised, slot, hslot, hrange, hafter⟩ := nextWeeklyRun_error herror
    have hweek : toordinal slot ≤ toordinal now.instant + 7 * 1 := toordinal_le 1 (by omega)
    refine ⟨hraised, by omega, fun other hother => ?_⟩
    by_contra hahead
    have hle : slot ≤ other.instant := le_of_dvd_sub (slots_apart hother hslot) (by omega)
    have hordinal : toordinal slot ≤ toordinal other.instant + 7 * 0 :=
      toordinal_le 0 (by omega)
    have hmax := other.ordinal_le
    omega

/-- `datetime.min`, a Monday at midnight. -/
def datetimeMin : DateTime := ⟨-62135596800000000, by decide, by decide⟩

/-- At midnight of the first Monday there is no earlier Monday at eight. -/
theorem datetimeMin_overflows : latestWeeklyEnd ⟨datetimeMin, some 0⟩ {} = .error .overflow := by
  rfl

/-- Not every instant has both: before eight on the first day of `datetime` the archive's week
would end before it. -/
theorem not_every_instant_tiles : ¬∀ (now : DateTime) (settings : WeeklySettings),
    ∃ windowEnd next, latestWeeklyEnd ⟨now, some 0⟩ settings = .ok windowEnd ∧
      nextWeeklyRun now settings.weeklyPnlReportWeekdayUtc settings.weeklyPnlReportHourUtc =
        .ok next ∧ Tiles settings now windowEnd next := by
  intro h
  obtain ⟨windowEnd, next, hend, _⟩ := h datetimeMin {}
  rw [datetimeMin_overflows] at hend
  cases hend

end TradeMind.Analysis
