import Mathlib.Data.Fintype.Basic
import TradeMind.Library.Alternation
import TradeMind.Library.Machine
import TradeMind.Model.SchedulerCycle

/-!
# LLM outage alerts

A call that finds a good answer reads the shared counter and deletes it in two steps.  As long
as no other call crosses the threshold in between (`Untorn`), an outage is announced exactly
while the counter is at or above the threshold and no recovery from it is under way, so streaks
and recoveries alternate.
-/

set_option autoImplicit false

namespace TradeMind.Analysis

open TradeMind.Model TradeMind.Library TradeMind.Model.Scheduler

universe u

variable {ι : Type u} [DecidableEq ι] {threshold : ℤ} {calls : ι → HealthCall}
  {w : HealthWorld ι} {i : ι}

/-! ## One Redis operation -/

/-- What the next Redis operation of a call can do. -/
inductive Operated (threshold : ℤ) (calls : ι → HealthCall) (w : HealthWorld ι) (i : ι) :
    HealthWorld ι → Prop
  | ended (phase : w.phase i = .ended) : Operated threshold calls w i w
  | neutral (phase : w.phase i = .ready)
      (why : threshold ≤ 0 ∨ (calls i).modelName = Llm.prefilterModelName) :
      Operated threshold calls w i { w with phase := Function.update w.phase i .ended }
  | incr (phase : w.phase i = .ready) (asked : (calls i).modelName ≠ Llm.prefilterModelName)
      (timedOut : (calls i).timedOut) :
      Operated threshold calls w i
        { counter := some (w.counter.getD 0 + 1)
          phase := Function.update w.phase i .ended
          alerts := if w.counter.getD 0 + 1 = threshold then
              w.alerts ++ [streakAlert (calls i) (w.counter.getD 0 + 1) threshold]
            else w.alerts }
  | get (phase : w.phase i = .ready) (asked : (calls i).modelName ≠ Llm.prefilterModelName)
      (answered : ¬ (calls i).timedOut) :
      Operated threshold calls w i
        { w with
          phase := Function.update w.phase i
            (if w.counter.getD 0 = 0 then .ended else .toDelete (w.counter.getD 0))
          alerts := if threshold ≤ w.counter.getD 0 then
              w.alerts ++ [recoveredAlert (calls i) (w.counter.getD 0)]
            else w.alerts }
  | delete (previous : ℤ) (phase : w.phase i = .toDelete previous) :
      Operated threshold calls w i
        { w with counter := none, phase := Function.update w.phase i .ended }

theorem healthStep_cases (threshold : ℤ) (calls : ι → HealthCall) (w : HealthWorld ι) (i : ι) :
    Operated threshold calls w i (healthStep threshold calls w i) := by
  unfold healthStep
  split
  · rename_i hphase
    split
    · rename_i hwhy
      exact .neutral hphase hwhy
    · rename_i hconsulted
      have hasked : (calls i).modelName ≠ Llm.prefilterModelName := fun h => hconsulted (.inr h)
      split
      · rename_i htimedOut
        exact .incr hphase hasked htimedOut
      · rename_i hanswered
        exact .get hphase hasked hanswered
  · rename_i previous hphase
    exact .delete previous hphase
  · rename_i hphase
    exact .ended hphase

/-! ## The invariant -/

/-- A call has read the counter at or above the threshold and has yet to delete it. -/
def Recovering (threshold : ℤ) (phase : ι → HealthPhase) : Prop :=
  ∃ i previous, phase i = .toDelete previous ∧ threshold ≤ previous

/-- What a call has read and has yet to delete. -/
def toDelete : HealthPhase → Option ℤ
  | .toDelete previous => some previous
  | _ => none

instance [Fintype ι] (threshold : ℤ) (phase : ι → HealthPhase) :
    Decidable (Recovering threshold phase) :=
  decidable_of_iff (∃ i, (toDelete (phase i)).any (threshold ≤ ·) = true) (by
    refine exists_congr fun i => ?_
    cases phase i with
    | toDelete previous => simp [toDelete]
    | ready => simp [toDelete]
    | ended => simp [toDelete])

/-- The alerts sent so far alternate between a streak and a recovery, and begin with a streak. -/
def AlertsAlternate (w : HealthWorld ι) : Prop :=
  Alternates .LLM_TIMEOUT_STREAK .LLM_TIMEOUT_RECOVERED (w.alerts.map HealthAlert.eventType)

/-- No call crosses the threshold between the `get` and the `delete` of another: the counter
reaches the threshold, or is read at or above it, only while no recovery is under way; and a
call that read it below the threshold does not delete it at or above, unless one is. -/
def Untorn (threshold : ℤ) (calls : ι → HealthCall) (w : HealthWorld ι) (i : ι) : Prop :=
  match w.phase i with
  | .ready =>
    (calls i).modelName ≠ Llm.prefilterModelName →
      ((calls i).timedOut ∧ w.counter.getD 0 + 1 = threshold ∨
        ¬ (calls i).timedOut ∧ threshold ≤ w.counter.getD 0) → ¬ Recovering threshold w.phase
  | .toDelete previous =>
    previous < threshold → threshold ≤ w.counter.getD 0 → Recovering threshold w.phase
  | .ended => True

instance [Fintype ι] (threshold : ℤ) (calls : ι → HealthCall) (w : HealthWorld ι) (i : ι) :
    Decidable (Untorn threshold calls w i) :=
  match h : w.phase i with
  | .ready =>
    decidable_of_iff ((calls i).modelName ≠ Llm.prefilterModelName →
      ((calls i).timedOut ∧ w.counter.getD 0 + 1 = threshold ∨
        ¬ (calls i).timedOut ∧ threshold ≤ w.counter.getD 0) → ¬ Recovering threshold w.phase)
      (by simp only [Untorn, h])
  | .toDelete previous =>
    decidable_of_iff (previous < threshold → threshold ≤ w.counter.getD 0 →
      Recovering threshold w.phase) (by simp only [Untorn, h])
  | .ended => isTrue (by simp only [Untorn, h])

/-- The alerts alternate, and the last one is a streak exactly while the counter is at or above
the threshold and no recovery is under way. -/
structure Announced (threshold : ℤ) (w : HealthWorld ι) : Prop where
  alternate : AlertsAlternate w
  open_iff : ¬ Even w.alerts.length ↔
    threshold ≤ w.counter.getD 0 ∧ ¬ Recovering threshold w.phase

omit [DecidableEq ι] in
/-- Below the threshold the last alert is no streak. -/
theorem Announced.even (h : Announced threshold w) (hlow : w.counter.getD 0 < threshold) :
    Even w.alerts.length := by
  by_contra hodd
  exact absurd (h.open_iff.mp hodd).1 (not_le.mpr hlow)

/-- A call that starts no recovery leaves the recoveries under way as they are. -/
theorem recovering_update {phase : ι → HealthPhase} {next : HealthPhase}
    (hphase : phase i = .ready)
    (hnext : ∀ previous, next = .toDelete previous → previous < threshold) :
    Recovering threshold (Function.update phase i next) ↔ Recovering threshold phase := by
  constructor
  · rintro ⟨j, previous, hj, hhigh⟩
    by_cases hji : j = i
    · subst hji
      rw [Function.update_self] at hj
      exact absurd (hnext previous hj) (not_lt.mpr hhigh)
    · rw [Function.update_of_ne hji] at hj
      exact ⟨j, previous, hj, hhigh⟩
  · rintro ⟨j, previous, hj, hhigh⟩
    have hji : j ≠ i := by
      rintro rfl
      rw [hphase] at hj
      cases hj
    exact ⟨j, previous, (Function.update_of_ne hji _ _).trans hj, hhigh⟩

omit [DecidableEq ι] in
/-- A streak is due after an even number of alerts. -/
theorem AlertsAlternate.streak (h : AlertsAlternate w) (heven : Even w.alerts.length)
    (call : HealthCall) (streak : ℤ) :
    Alternates .LLM_TIMEOUT_STREAK .LLM_TIMEOUT_RECOVERED
      ((w.alerts ++ [streakAlert call streak threshold]).map HealthAlert.eventType) := by
  rw [List.map_append, List.map_singleton, alternates_concat]
  exact ⟨h, by simp [due, heven, streakAlert]⟩

omit [DecidableEq ι] in
/-- A recovery is due after an odd number. -/
theorem AlertsAlternate.recovered (h : AlertsAlternate w) (hodd : ¬ Even w.alerts.length)
    (call : HealthCall) (previous : ℤ) :
    Alternates .LLM_TIMEOUT_STREAK .LLM_TIMEOUT_RECOVERED
      ((w.alerts ++ [recoveredAlert call previous]).map HealthAlert.eventType) := by
  rw [List.map_append, List.map_singleton, alternates_concat]
  exact ⟨h, by simp [due, hodd, recoveredAlert]⟩

/-- A timeout announces an outage when it brings the counter to the threshold. -/
theorem Announced.incr (h : Announced threshold w) (hphase : w.phase i = .ready)
    (htorn : w.counter.getD 0 + 1 = threshold → ¬ Recovering threshold w.phase) :
    Announced threshold
      { counter := some (w.counter.getD 0 + 1)
        phase := Function.update w.phase i .ended
        alerts := if w.counter.getD 0 + 1 = threshold then
            w.alerts ++ [streakAlert (calls i) (w.counter.getD 0 + 1) threshold]
          else w.alerts } := by
  have hrecovering : Recovering threshold (Function.update w.phase i .ended) ↔
      Recovering threshold w.phase :=
    recovering_update hphase fun previous hnext => by cases hnext
  by_cases hreached : w.counter.getD 0 + 1 = threshold
  · have heven : Even w.alerts.length := h.even (by omega)
    refine ⟨?_, ?_⟩
    · simpa only [AlertsAlternate, hreached, if_true] using
        h.alternate.streak heven (calls i) threshold
    · simp only [hreached, if_true, List.length_append, List.length_singleton, Nat.even_add_one,
        heven, Option.getD_some, hrecovering]
      simpa using htorn hreached
  · refine ⟨?_, ?_⟩
    · simpa only [AlertsAlternate, hreached, if_false] using h.alternate
    · simp only [hreached, if_false, hrecovering, h.open_iff, Option.getD_some]
      have hside : threshold ≤ w.counter.getD 0 ↔ threshold ≤ w.counter.getD 0 + 1 := by omega
      rw [hside]

/-- A good answer announces the recovery from an announced outage. -/
theorem Announced.get (hthreshold : 0 < threshold) (h : Announced threshold w)
    (hphase : w.phase i = .ready)
    (htorn : threshold ≤ w.counter.getD 0 → ¬ Recovering threshold w.phase) :
    Announced threshold
      { w with
        phase := Function.update w.phase i
          (if w.counter.getD 0 = 0 then .ended else .toDelete (w.counter.getD 0))
        alerts := if threshold ≤ w.counter.getD 0 then
            w.alerts ++ [recoveredAlert (calls i) (w.counter.getD 0)]
          else w.alerts } := by
  by_cases hhigh : threshold ≤ w.counter.getD 0
  · have hodd : ¬ Even w.alerts.length := h.open_iff.mpr ⟨hhigh, htorn hhigh⟩
    have hnonzero : w.counter.getD 0 ≠ 0 := by omega
    have hrecovering : Recovering threshold
        (Function.update w.phase i (.toDelete (w.counter.getD 0))) :=
      ⟨i, _, Function.update_self _ _ _, hhigh⟩
    refine ⟨?_, ?_⟩
    · simpa only [AlertsAlternate, hhigh, if_true] using
        h.alternate.recovered hodd (calls i) (w.counter.getD 0)
    · simp only [hhigh, hnonzero, if_true, if_false, List.length_append, List.length_singleton,
        Nat.even_add_one, hodd, hrecovering]
      simp
  · have hrecovering : Recovering threshold (Function.update w.phase i
        (if w.counter.getD 0 = 0 then .ended else .toDelete (w.counter.getD 0))) ↔
        Recovering threshold w.phase := by
      refine recovering_update hphase fun previous hnext => ?_
      split at hnext
      · cases hnext
      · cases hnext
        exact not_le.mp hhigh
    refine ⟨?_, ?_⟩
    · simpa only [AlertsAlternate, hhigh, if_false] using h.alternate
    · simp only [hhigh, if_false, hrecovering, h.open_iff]

/-- A delete follows an announced recovery, or takes a counter without an announced outage. -/
theorem Announced.delete (hthreshold : 0 < threshold) (h : Announced threshold w) {previous : ℤ}
    (hphase : w.phase i = .toDelete previous)
    (htorn : previous < threshold → threshold ≤ w.counter.getD 0 →
      Recovering threshold w.phase) :
    Announced threshold { w with counter := none, phase := Function.update w.phase i .ended } := by
  have heven : Even w.alerts.length := by
    by_contra hodd
    obtain ⟨hhigh, hnone⟩ := h.open_iff.mp hodd
    rcases lt_or_ge previous threshold with hlow | hread
    · exact hnone (htorn hlow hhigh)
    · exact hnone ⟨i, previous, hphase, hread⟩
  exact ⟨h.alternate, fun hodd => absurd heven hodd,
    fun hhigh => absurd hhigh.1 (not_le.mpr hthreshold)⟩

/-- **One step** keeps the alerts in line with the counter while no call is torn. -/
theorem Announced.step (hthreshold : 0 < threshold) (h : Announced threshold w)
    (hok : Untorn threshold calls w i) : Announced threshold (healthStep threshold calls w i) := by
  have hstep := healthStep_cases threshold calls w i
  generalize healthStep threshold calls w i = next at hstep
  cases hstep with
  | ended hphase => exact h
  | neutral hphase hwhy =>
    have hrecovering : Recovering threshold (Function.update w.phase i .ended) ↔
        Recovering threshold w.phase :=
      recovering_update hphase fun previous hnext => by cases hnext
    exact ⟨h.alternate, by simpa only [hrecovering] using h.open_iff⟩
  | incr hphase hasked htimedOut =>
    rw [Untorn, hphase] at hok
    exact h.incr hphase fun hreached => hok hasked (.inl ⟨htimedOut, hreached⟩)
  | get hphase hasked hanswered =>
    rw [Untorn, hphase] at hok
    exact h.get hthreshold hphase fun hhigh => hok hasked (.inr ⟨hanswered, hhigh⟩)
  | delete previous hphase =>
    rw [Untorn, hphase] at hok
    exact h.delete hthreshold hphase hok

/-- **A torn step** puts the alerts out of line with the counter. -/
theorem Announced.untorn (hthreshold : 0 < threshold) (h : Announced threshold w)
    (hnext : Announced threshold (healthStep threshold calls w i)) :
    Untorn threshold calls w i := by
  have hstep := healthStep_cases threshold calls w i
  generalize healthStep threshold calls w i = next at hstep hnext
  cases hstep with
  | ended hphase =>
    rw [Untorn, hphase]
    trivial
  | neutral hphase hwhy =>
    rw [Untorn, hphase]
    intro hasked
    rcases hwhy with hnone | hprefilter
    · exact absurd hthreshold (not_lt.mpr hnone)
    · exact absurd hprefilter hasked
  | incr hphase hasked htimedOut =>
    rw [Untorn, hphase]
    rintro - (⟨-, hreached⟩ | ⟨hanswered, -⟩)
    · -- the streak is the last alert, so no recovery may be under way
      have heven : Even w.alerts.length := h.even (by omega)
      have hopen := hnext.open_iff
      simp only [hreached, if_true, List.length_append, List.length_singleton, Nat.even_add_one,
        heven, not_true, not_false_eq_true, true_iff] at hopen
      rw [recovering_update hphase fun previous hended => by cases hended] at hopen
      exact hopen.2
    · exact absurd htimedOut hanswered
  | get hphase hasked hanswered =>
    rw [Untorn, hphase]
    rintro - (⟨htimedOut, -⟩ | ⟨-, hhigh⟩)
    · exact absurd htimedOut hanswered
    · -- the recovery is an alert, so a streak must have been the last one
      have halternate := hnext.alternate
      simp only [AlertsAlternate, hhigh, if_true, List.map_append, List.map_singleton,
        alternates_concat] at halternate
      have hodd : ¬ Even w.alerts.length := by
        intro heven
        simp [due, heven, recoveredAlert] at halternate
      exact (h.open_iff.mp hodd).2
  | delete previous hphase =>
    rw [Untorn, hphase]
    intro hlow hhigh
    by_contra hnone
    have hodd : ¬ Even w.alerts.length := h.open_iff.mpr ⟨hhigh, hnone⟩
    exact absurd (hnext.open_iff.mp hodd).1 (not_le.mpr hthreshold)

/-! ## Whole runs -/

/-- **Outage alerts alternate while no call is torn**: from an empty counter, in every state of
every interleaving whose steps meet `Untorn`, the streaks and recoveries decided so far
alternate, a streak first; and these are exactly the interleavings in which a streak is the last
alert just while the counter is at or above the threshold and no recovery is under way. -/
theorem outage_alerts_alternate (threshold : ℤ) (hthreshold : 0 < threshold)
    (calls : ι → HealthCall) (order : List ι) :
    (AllSteps (healthStep threshold calls) (Untorn threshold calls) {} order →
      AllStates (healthStep threshold calls) AlertsAlternate {} order) ∧
    (AllStates (healthStep threshold calls) (Announced threshold) {} order ↔
      AllSteps (healthStep threshold calls) (Untorn threshold calls) {} order) := by
  have hstart : Announced threshold ({} : HealthWorld ι) :=
    ⟨trivial, fun hodd => absurd Even.zero hodd,
      fun hhigh => absurd hhigh.1 (not_le.mpr hthreshold)⟩
  have hexact : AllStates (healthStep threshold calls) (Announced threshold) {} order ↔
      AllSteps (healthStep threshold calls) (Untorn threshold calls) {} order :=
    allStates_iff_allSteps (fun _ => True) (fun _ _ _ => trivial)
      (fun w i _ h => ⟨h.untorn hthreshold, h.step hthreshold⟩) trivial hstart order
  exact ⟨fun huntorn => (hexact.mpr huntorn).imp fun w h => h.alternate, hexact⟩

/-- Five cycles time out, two of different symbols answer. -/
def outageCalls (n : Fin 7) : HealthCall :=
  { symbol := if n = 6 then "ETH/USDT" else "BTC/USDT"
    traceId := n
    reasoning := if n < 5 then "llm_timeout" else "Momentum is fading."
    modelName := "ollama" }

/-- With the shipped threshold of 5, and each good call deleting what it has read. -/
theorem outage_alerts_alternate_in_turn :
    AllStates (healthStep 5 outageCalls) AlertsAlternate {} [0, 1, 2, 3, 4, 5, 5, 6] :=
  (outage_alerts_alternate 5 (by decide) outageCalls [0, 1, 2, 3, 4, 5, 5, 6]).1
    (by decide +kernel)

/-- Two good calls both read the counter before either deletes it. -/
theorem outage_recovers_twice :
    let w := runFrom (healthStep 5 outageCalls) {} [0, 1, 2, 3, 4, 5, 6, 5, 6]
    w.alerts.map HealthAlert.eventType =
        [.LLM_TIMEOUT_STREAK, .LLM_TIMEOUT_RECOVERED, .LLM_TIMEOUT_RECOVERED] ∧
      ¬ AlertsAlternate w := by
  intro w
  have halerts : w.alerts.map HealthAlert.eventType =
      [.LLM_TIMEOUT_STREAK, .LLM_TIMEOUT_RECOVERED, .LLM_TIMEOUT_RECOVERED] := by
    decide +kernel
  refine ⟨halerts, ?_⟩
  rw [AlertsAlternate, halerts]
  simp [Alternates]

end TradeMind.Analysis
