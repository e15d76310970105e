import Mathlib.Algebra.Order.Ring.Int
import Mathlib.Tactic.Linarith
import Mathlib.Tactic.Ring

/-!
# Cron fields

A trigger of three fields fires at the instants, in seconds, whose hour, minute and second its
fields name.  Where the minutes are a progression whose step divides the hour, these are the
instants of one residue (`firesAt_range`), of which every period has one.
-/

set_option autoImplicit false

namespace TradeMind.Library

/-- One field of a cron expression, as a library reads it. -/
inductive CronField
  /-- `*` -/
  | any
  /-- `value` -/
  | at (value : ℤ)
  /-- `*/step` -/
  | every (step : ℤ)
  /-- `first-last/step` -/
  | range (first last step : ℤ)
  deriving DecidableEq, Repr

/-- The values a field names, of those that count from zero. -/
def CronField.Names : CronField → ℤ → Prop
  | .any, _ => True
  | .at value, x => x = value
  | .every step, x => x % step = 0
  | .range first last step, x => first ≤ x ∧ x ≤ last ∧ (x - first) % step = 0

instance : (field : CronField) → (x : ℤ) → Decidable (field.Names x)
  | .any, _ => inferInstanceAs (Decidable True)
  | .at value, x => inferInstanceAs (Decidable (x = value))
  | .every step, x => inferInstanceAs (Decidable (x % step = 0))
  | .range first last step, x =>
    inferInstanceAs (Decidable (first ≤ x ∧ x ≤ last ∧ (x - first) % step = 0))

/-- The fields of a trigger that names no day. -/
structure CronTrigger where
  hour : CronField := .any
  minute : CronField
  second : CronField
  deriving DecidableEq, Repr

/-- A field is an expression for values up to `last`: its bounds are among them, and its step is at
most what they span. -/
def CronField.Within (last : ℤ) : CronField → Prop
  | .any => True
  | .at value => 0 ≤ value ∧ value ≤ last
  | .every step => 0 < step ∧ step ≤ last
  | .range first end_ step => 0 ≤ first ∧ end_ ≤ last ∧ 0 < step ∧ step ≤ end_ - first

instance (last : ℤ) : (field : CronField) → Decidable (field.Within last)
  | .any => inferInstanceAs (Decidable True)
  | .at value => inferInstanceAs (Decidable (0 ≤ value ∧ value ≤ last))
  | .every step => inferInstanceAs (Decidable (0 < step ∧ step ≤ last))
  | .range first end_ step =>
    inferInstanceAs (Decidable (0 ≤ first ∧ end_ ≤ last ∧ 0 < step ∧ step ≤ end_ - first))

/-- Each field of the trigger is an expression for its part of the clock. -/
structure CronTrigger.WellFormed (trigger : CronTrigger) : Prop where
  hour : trigger.hour.Within 23
  minute : trigger.minute.Within 59
  second : trigger.second.Within 59

instance (trigger : CronTrigger) : Decidable trigger.WellFormed :=
  decidable_of_iff (trigger.hour.Within 23 ∧ trigger.minute.Within 59 ∧ trigger.second.Within 59)
    ⟨fun h => ⟨h.1, h.2.1, h.2.2⟩, fun h => ⟨h.hour, h.minute, h.second⟩⟩

/-- A trigger fires at the seconds whose hour, minute and second its fields name. -/
def CronTrigger.FiresAt (trigger : CronTrigger) (t : ℤ) : Prop :=
  trigger.hour.Names (t / 3600 % 24) ∧ trigger.minute.Names (t / 60 % 60) ∧
    trigger.second.Names (t % 60)

instance (trigger : CronTrigger) (t : ℤ) : Decidable (trigger.FiresAt t) :=
  inferInstanceAs (Decidable (_ ∧ _ ∧ _))

section Residues

variable {step first second : ℤ}

theorem emod_sixty_mul (t : ℤ) (hstep : 0 < step) :
    t % (60 * step) = 60 * (t / 60 % step) + t % 60 := by
  have hpos : 0 < 60 * step := by omega
  have hlow := Int.emod_nonneg (t / 60) hstep.ne'
  have hhigh := Int.emod_lt_of_pos (t / 60) hstep
  have hsplit : t = 60 * step * (t / 60 / step) + (60 * (t / 60 % step) + t % 60) := by
    have hminutes := Int.mul_ediv_add_emod (t / 60) step
    have hseconds := Int.mul_ediv_add_emod t 60
    calc t = 60 * (step * (t / 60 / step) + t / 60 % step) + t % 60 := by
          rw [hminutes, hseconds]
      _ = 60 * step * (t / 60 / step) + (60 * (t / 60 % step) + t % 60) := by ring
  calc t % (60 * step)
      = (60 * step * (t / 60 / step) + (60 * (t / 60 % step) + t % 60)) % (60 * step) :=
        congrArg (· % (60 * step)) hsplit
    _ = (60 * (t / 60 % step) + t % 60) % (60 * step) := Int.mul_add_emod_self_left _ _ _
    _ = 60 * (t / 60 % step) + t % 60 := Int.emod_eq_of_lt (by omega) (by omega)

/-- The minutes of a progression whose step divides the hour. -/
theorem names_range (hdvd : step ∣ 60) (hstep : 0 < step) (hfirst : 0 ≤ first)
    (hlt : first < step) (minutes : ℤ) :
    (CronField.range first 59 step).Names (minutes % 60) ↔ minutes % step = first := by
  have hlow := Int.emod_nonneg minutes (by decide : (60 : ℤ) ≠ 0)
  have hhigh := Int.emod_lt_of_pos minutes (by decide : (0 : ℤ) < 60)
  have hstep' : minutes % 60 % step = minutes % step := Int.emod_emod_of_dvd minutes hdvd
  have hfirst' : first % step = first := Int.emod_eq_of_lt hfirst hlt
  constructor
  · rintro ⟨-, -, hzero⟩
    rw [← hstep', (Int.emod_eq_emod_iff_emod_sub_eq_zero).mpr hzero, hfirst']
  · intro hrem
    refine ⟨?_, by omega, ?_⟩
    · have hsplit := Int.mul_ediv_add_emod (minutes % 60) step
      have hquotient := mul_nonneg hstep.le (Int.ediv_nonneg hlow hstep.le)
      rw [hstep', hrem] at hsplit
      linarith
    · rw [← Int.emod_eq_emod_iff_emod_sub_eq_zero, hstep', hrem, hfirst']

/-- **A progression of minutes fires at one residue.** -/
theorem firesAt_range (hdvd : step ∣ 60) (hstep : 0 < step) (hfirst : 0 ≤ first)
    (hlt : first < step) (hsecond : 0 ≤ second) (hsecond' : second < 60) (t : ℤ) :
    CronTrigger.FiresAt { minute := .range first 59 step, second := .at second } t ↔
      t % (60 * step) = 60 * first + second := by
  have hlow := Int.emod_nonneg t (by decide : (60 : ℤ) ≠ 0)
  have hhigh := Int.emod_lt_of_pos t (by decide : (0 : ℤ) < 60)
  have hnames := names_range hdvd hstep hfirst hlt (t / 60)
  rw [emod_sixty_mul t hstep]
  constructor
  · rintro ⟨-, hminute, hsec⟩
    rw [hnames.mp hminute, show t % 60 = second from hsec]
  · intro heq
    refine ⟨trivial, hnames.mpr ?_, ?_⟩
    · omega
    · exact (by omega : t % 60 = second)

/-- `*/step` is the progression from zero. -/
theorem firesAt_every (hdvd : step ∣ 60) (hstep : 0 < step) (hsecond : 0 ≤ second)
    (hsecond' : second < 60) (t : ℤ) :
    CronTrigger.FiresAt { minute := .every step, second := .at second } t ↔
      t % (60 * step) = second := by
  have hnames : (CronField.every step).Names (t / 60 % 60) ↔
      (CronField.range 0 59 step).Names (t / 60 % 60) := by
    have hlow := Int.emod_nonneg (t / 60) (by decide : (60 : ℤ) ≠ 0)
    have hhigh := Int.emod_lt_of_pos (t / 60) (by decide : (0 : ℤ) < 60)
    simp only [CronField.Names, sub_zero]
    exact ⟨fun h => ⟨hlow, by omega, h⟩, fun h => h.2.2⟩
  have hrange := firesAt_range hdvd hstep le_rfl hstep hsecond hsecond' t
  rw [mul_zero, zero_add] at hrange
  rw [← hrange, CronTrigger.FiresAt, CronTrigger.FiresAt, hnames]

/-- A minute of the hour is the progression of step sixty. -/
theorem firesAt_minute (hfirst : 0 ≤ first) (hlt : first < 60) (hsecond : 0 ≤ second)
    (hsecond' : second < 60) (t : ℤ) :
    CronTrigger.FiresAt { minute := .at first, second := .at second } t ↔
      t % 3600 = 60 * first + second := by
  have hnames : (CronField.at first).Names (t / 60 % 60) ↔
      (CronField.range first 59 60).Names (t / 60 % 60) := by
    rw [names_range dvd_rfl (by decide) hfirst hlt]
    rfl
  have hrange := firesAt_range dvd_rfl (by decide) hfirst hlt hsecond hsecond' t
  rw [show (60 : ℤ) * 60 = 3600 from rfl] at hrange
  rw [← hrange, CronTrigger.FiresAt, CronTrigger.FiresAt, hnames]

end Residues

/-- **Every period has one instant of a residue.** -/
theorem existsUnique_emod {period offset : ℤ} (hlow : 0 ≤ offset) (hlt : offset < period) (k : ℤ) :
    ∃! t, (k * period ≤ t ∧ t < (k + 1) * period) ∧ t % period = offset := by
  have hpos : 0 < period := hlow.trans_lt hlt
  refine ⟨k * period + offset, ⟨⟨by linarith, by linarith⟩, ?_⟩, ?_⟩
  · rw [mul_comm, Int.mul_add_emod_self_left, Int.emod_eq_of_lt hlow hlt]
  · rintro t ⟨⟨hge, hlt'⟩, hrem⟩
    have hquotient : t / period = k := by
      rw [Int.ediv_eq_iff_of_pos hpos]
      exact ⟨by linarith, by linarith⟩
    have hsplit := Int.mul_ediv_add_emod t period
    rw [hquotient, hrem] at hsplit
    linarith [mul_comm period k]

end TradeMind.Library
