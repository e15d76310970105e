import Mathlib.Data.List.Chain
import TradeMind.Library.IntervalCover
import TradeMind.Model.AccountState

/-!
# Loss events

What the clustering loop of `_count_consecutive_losses` counts.  Over known close times it is
a greedy cover, so the number of events is the least number of windows that cover the newest
losing run (`lossEvents_least_cover`).  It never counts more events than losses, and a window
of zero counts every loss exactly where no two of them close at one instant
(`zero_window_counts_all_iff`).
-/

set_option autoImplicit false

namespace TradeMind.Analysis

open TradeMind.Model TradeMind.Library

/-- The query's order: no position closed after the one before it. -/
def NewestFirst (positions : List Position) : Prop :=
  (positions.filterMap Position.closedAt).Pairwise (· ≥ ·)

/-- A losing position that closed after the reset boundary. -/
def extendsRun (resetAt : Option Time) (position : Position) : Bool :=
  !(resetAt.any fun reset => position.closedAt.any fun closedAt => closedAt ≤ reset) &&
    position.pnlUsdt.any fun pnl => pnl < 0

/-- The newest uninterrupted losing run after the reset boundary, newest first. -/
def losingRun (resetAt : Option Time) (positions : List Position) : List Position :=
  positions.takeWhile (extendsRun resetAt)

/-- The known close times of the run, newest first. -/
def runCloseTimes (resetAt : Option Time) (positions : List Position) : List Time :=
  (losingRun resetAt positions).filterMap Position.closedAt

/-- The scan collects the close times of the losing run. -/
theorem streakCloseTimes_eq_losingRun (resetAt : Option Time) (positions : List Position) :
    streakCloseTimes resetAt positions = (losingRun resetAt positions).map Position.closedAt := by
  induction positions with
  | nil => rfl
  | cons position rest ih =>
    unfold losingRun at ih ⊢
    rw [streakCloseTimes, List.takeWhile_cons]
    by_cases hreset : resetAt.any fun reset => position.closedAt.any fun c => c ≤ reset
    · simp [extendsRun, hreset]
    · by_cases hloss : position.pnlUsdt.any fun pnl => pnl < 0
      · simp [extendsRun, hreset, hloss, ih]
      · simp [extendsRun, hreset, hloss]

/-! ## The loop -/

/-- The loss at `closedAt` opens an event of its own after the cluster that `start` began. -/
def OpensEvent (window : Time) (start closedAt : Option Time) : Prop :=
  ∀ s ∈ start, ∀ t ∈ closedAt, window < t - s

theorem opensEvent_some_iff {window s t : Time} :
    OpensEvent window (some s) (some t) ↔ window < t - s := by
  simp [OpensEvent]

theorem clusterStep_of_opens {window : Time} {acc : ℤ × Option Time} {closedAt : Option Time}
    (h : OpensEvent window acc.2 closedAt) :
    clusterStep window acc closedAt = (acc.1 + 1, closedAt) := by
  obtain ⟨events, start⟩ := acc
  cases closedAt with
  | none => rfl
  | some t =>
    cases start with
    | none => rfl
    | some s => exact if_pos (h s rfl t rfl)

theorem clusterStep_of_joins {window : Time} {acc : ℤ × Option Time} {closedAt : Option Time}
    (h : ¬OpensEvent window acc.2 closedAt) : clusterStep window acc closedAt = acc := by
  obtain ⟨events, start⟩ := acc
  cases closedAt with
  | none => exact absurd (fun s _ t ht => by cases ht) h
  | some t =>
    cases start with
    | none => exact absurd (fun s hs => by cases hs) h
    | some s => exact if_neg fun hgap => h (opensEvent_some_iff.mpr hgap)

/-- **The loop never counts more events than losses**, and as many only where each loss opens
an event after the one before it. -/
theorem clusterFold_le (window : Time) (times : List (Option Time)) (acc : ℤ × Option Time) :
    (times.foldl (clusterStep window) acc).1 ≤ acc.1 + times.length ∧
      ((times.foldl (clusterStep window) acc).1 = acc.1 + times.length ↔
        (acc.2 :: times).IsChain (OpensEvent window)) := by
  -- along the losses, each measured from the first loss of its cluster
  induction times generalizing acc with
  | nil => simp
  | cons closedAt times ih =>
    by_cases hopens : OpensEvent window acc.2 closedAt
    · obtain ⟨hle, hiff⟩ := ih (acc.1 + 1, closedAt)
      rw [List.foldl_cons, clusterStep_of_opens hopens, List.length_cons,
        List.isChain_cons_cons, ← hiff]
      push_cast
      refine ⟨by omega, ?_⟩
      constructor
      · intro h
        exact ⟨hopens, by omega⟩
      · rintro ⟨-, h⟩
        omega
    · obtain ⟨hle, -⟩ := ih acc
      rw [List.foldl_cons, clusterStep_of_joins hopens, List.length_cons,
        List.isChain_cons_cons]
      push_cast
      refine ⟨by omega, ?_⟩
      constructor
      · intro h
        omega
      · rintro ⟨h, -⟩
        exact absurd h hopens

/-- The whole loop: it counts every loss exactly where each opens an event after the one
before it. -/
theorem clusterCount_eq_length (window : Time) (times : List (Option Time)) :
    (times.foldl (clusterStep window) (0, none)).1 = times.length ↔
      times.IsChain (OpensEvent window) := by
  have hiff := (clusterFold_le window times (0, none)).2
  rw [zero_add] at hiff
  rw [hiff]
  cases times with
  | nil => simp
  | cons closedAt times =>
    rw [List.isChain_cons_cons]
    constructor
    · rintro ⟨-, h⟩
      exact h
    · intro h
      exact ⟨fun s hs => absurd hs (by simp), h⟩

/-- Over known close times the loop counts the intervals of the greedy cover. -/
theorem clusterFold_eq_greedy (window : Time) (times : List Time) (events : ℤ) (start : Time) :
    ((times.map some).foldl (clusterStep window) (events, some start)).1 =
      events + (greedyFrom window start times).length := by
  induction times generalizing events start with
  | nil => simp [greedyFrom]
  | cons t times ih =>
    rw [List.map_cons, List.foldl_cons, greedyFrom]
    by_cases hin : t - start ≤ window
    · have hjoins : ¬OpensEvent window (some start) (some t) := fun h =>
        absurd (opensEvent_some_iff.mp h) (not_lt.mpr hin)
      rw [clusterStep_of_joins hjoins, if_pos hin]
      exact ih events start
    · have hopens : OpensEvent window (some start) (some t) :=
        opensEvent_some_iff.mpr (not_le.mp hin)
      rw [clusterStep_of_opens hopens, if_neg hin, List.length_cons, ih (events + 1) t]
      push_cast
      omega

theorem clusterCount_eq_greedy (window : Time) (times : List Time) :
    ((times.map some).foldl (clusterStep window) (0, none)).1 =
      (greedyStarts window times).length := by
  cases times with
  | nil => rfl
  | cons t times =>
    have hfirst : clusterStep window (0, none) (some t) = (0 + 1, some t) := rfl
    rw [List.map_cons, List.foldl_cons, hfirst, clusterFold_eq_greedy, greedyStarts,
      List.length_cons]
    push_cast
    omega

/-! ## The count -/

variable {positions : List Position}

/-- The run of a newest-first list is newest first. -/
theorem NewestFirst.run (h : NewestFirst positions) (resetAt : Option Time) :
    (runCloseTimes resetAt positions).Pairwise (· ≥ ·) :=
  h.sublist ((List.takeWhile_sublist _).filterMap _)

/-- Where the close times are known, the run's are all of them. -/
theorem losingRun_closedAt (hknown : ∀ position ∈ positions, position.closedAt.isSome)
    (resetAt : Option Time) :
    (losingRun resetAt positions).map Position.closedAt =
      (runCloseTimes resetAt positions).map some := by
  have hrun : ∀ position ∈ losingRun resetAt positions, position.closedAt.isSome :=
    fun position hposition => hknown position ((List.takeWhile_sublist _).subset hposition)
  unfold runCloseTimes
  generalize losingRun resetAt positions = run at hrun ⊢
  induction run with
  | nil => rfl
  | cons position rest ih =>
    obtain ⟨closedAt, hclosedAt⟩ :=
      Option.isSome_iff_exists.mp (hrun position List.mem_cons_self)
    have hrest := ih fun p hp => hrun p (List.mem_cons_of_mem position hp)
    rw [List.map_cons, List.filterMap_cons_some hclosedAt, List.map_cons, hrest, hclosedAt]

/-- **What the function returns** on known close times: the greedy cover of the run and its
newest close. -/
theorem countConsecutiveLosses_known
    (hknown : ∀ position ∈ positions, position.closedAt.isSome) (resetAt : Option Time)
    (window : Time) :
    countConsecutiveLosses positions resetAt window =
      (((greedyStarts window (runCloseTimes resetAt positions).reverse).length : ℤ),
        (runCloseTimes resetAt positions).head?) := by
  unfold countConsecutiveLosses
  dsimp only
  rw [streakCloseTimes_eq_losingRun, losingRun_closedAt hknown, ← List.map_reverse,
    clusterCount_eq_greedy, List.head?_map]
  cases (runCloseTimes resetAt positions).head? with
  | none => rfl
  | some last => rfl

/-- The number of events is the least number of windows that cover the run. -/
theorem isLeast_lossEvents (horder : NewestFirst positions) (resetAt : Option Time)
    {window : Time} (hwindow : 0 ≤ window) :
    IsLeast {n | CoverableBy window (runCloseTimes resetAt positions) n}
      (greedyStarts window (runCloseTimes resetAt positions).reverse).length := by
  have hascending : (runCloseTimes resetAt positions).reverse.Pairwise (· ≤ ·) :=
    List.pairwise_reverse.mpr (horder.run resetAt)
  obtain ⟨hcover, hleast⟩ := isLeast_greedyStarts hwindow hascending
  refine ⟨hcover.subset fun t => List.mem_reverse.mpr, ?_⟩
  intro n hn
  exact hleast (hn.subset fun t => List.mem_reverse.mp)

/-- The newest close of a newest-first run is its head. -/
theorem head?_runCloseTimes_eq_some (horder : NewestFirst positions) (resetAt : Option Time)
    (last : Time) :
    (runCloseTimes resetAt positions).head? = some last ↔
      IsGreatest {t | t ∈ runCloseTimes resetAt positions} last := by
  have hrun := horder.run resetAt
  cases hcase : runCloseTimes resetAt positions with
  | nil => simp [IsGreatest]
  | cons newest older =>
    rw [hcase] at hrun
    have hgreatest : IsGreatest {t | t ∈ newest :: older} newest := by
      refine ⟨List.mem_cons_self, fun t ht => ?_⟩
      rcases List.mem_cons.mp ht with rfl | ht
      · exact le_rfl
      · exact (List.pairwise_cons.mp hrun).1 t ht
    rw [List.head?_cons, Option.some.injEq]
    constructor
    · rintro rfl
      exact hgreatest
    · intro h
      exact hgreatest.unique h

/-- **The loss-event count is an optimal cover** of the newest losing run by closed windows;
the reported close is the run's newest, and a wider window never counts more events. -/
theorem lossEvents_least_cover (positions : List Position)
    (hknown : ∀ position ∈ positions, position.closedAt.isSome)
    (horder : NewestFirst positions) (resetAt : Option Time) :
    let run := runCloseTimes resetAt positions
    let count := countConsecutiveLosses positions resetAt
    (∀ window, 0 ≤ window →
      (∃ events : ℕ, (count window).1 = events ∧
        IsLeast {n | CoverableBy window run n} events) ∧
      (∀ last, (count window).2 = some last ↔ IsGreatest {t | t ∈ run} last) ∧
      ((count window).2 = none ↔ run = [])) ∧
    ∀ window window', 0 ≤ window → window ≤ window' → (count window').1 ≤ (count window).1 := by
  intro run count
  have hcount : ∀ window, count window = (((greedyStarts window run.reverse).length : ℤ),
      run.head?) := countConsecutiveLosses_known hknown resetAt
  constructor
  · intro window hwindow
    rw [hcount]
    refine ⟨⟨_, rfl, isLeast_lossEvents horder resetAt hwindow⟩, ?_, ?_⟩
    · exact head?_runCloseTimes_eq_some horder resetAt
    · exact List.head?_eq_none_iff
  · intro window window' hwindow hle
    rw [hcount, hcount]
    have hascending : run.reverse.Pairwise (· ≤ ·) :=
      List.pairwise_reverse.mpr (horder.run resetAt)
    exact Int.ofNat_le.mpr (greedyStarts_length_antitone hwindow hle hascending)

/-- A position closed with the given PnL. -/
def closedPosition (pnl : ℚ) (closedAt : Time) : Position :=
  { id := 0, symbol := "BTC/USDT", status := .CLOSED, entryOrderId := 0, entryPrice := 100,
    amount := 1, pnlUsdt := some pnl, openedAt := 0, closedAt := some closedAt }

/-- Two losses twenty minutes apart, one three hours earlier, and a win before them. -/
def twoDips : List Position :=
  [closedPosition (-1) (minutes 400), closedPosition (-1) (minutes 380),
    closedPosition (-1) (minutes 200), closedPosition 1 (minutes 100)]

/-- The cover of the two dips. -/
theorem lossEvents_twoDips :
    let run := runCloseTimes none twoDips
    let count := countConsecutiveLosses twoDips none
    (∀ window, 0 ≤ window →
      (∃ events : ℕ, (count window).1 = events ∧
        IsLeast {n | CoverableBy window run n} events) ∧
      (∀ last, (count window).2 = some last ↔ IsGreatest {t | t ∈ run} last) ∧
      ((count window).2 = none ↔ run = [])) ∧
    ∀ window window', 0 ≤ window → window ≤ window' → (count window').1 ≤ (count window).1 :=
  lossEvents_least_cover twoDips (by decide +kernel) (by unfold NewestFirst; decide +kernel) none

/-! ## A window of zero -/

/-- Two losses that close at one known instant. -/
def SameInstant (newer older : Position) : Prop :=
  newer.closedAt.isSome ∧ newer.closedAt = older.closedAt

/-- In a newest-first list, a loss opens an event of its own after the one before it unless
the two close at one instant. -/
theorem opensEvent_zero_iff {newer older : Position}
    (horder : ∀ t ∈ older.closedAt, ∀ t' ∈ newer.closedAt, t ≤ t') :
    OpensEvent 0 older.closedAt newer.closedAt ↔ ¬SameInstant newer older := by
  unfold SameInstant
  constructor
  · rintro hopens ⟨hsome, heq⟩
    obtain ⟨t, ht⟩ := Option.isSome_iff_exists.mp hsome
    have hgap := hopens t (heq ▸ ht) t ht
    simp at hgap
  · intro hdiffer s hs t ht
    have hle : s ≤ t := horder s hs t ht
    have hne : s ≠ t := by
      rintro rfl
      refine hdiffer ⟨Option.isSome_iff_exists.mpr ⟨s, ht⟩, ?_⟩
      rw [Option.mem_def.mp hs, Option.mem_def.mp ht]
    exact sub_pos.mpr (lt_of_le_of_ne hle hne)

/-- Along a newest-first run, each loss opens an event after the one before it exactly where
no two successive ones close at one instant. -/
theorem isChain_opensEvent_zero_iff {run : List Position} (horder : NewestFirst run) :
    (run.map Position.closedAt).IsChain (fun newer older => OpensEvent 0 older newer) ↔
      run.IsChain fun newer older => ¬SameInstant newer older := by
  have hpairs := List.pairwise_iff_getElem.mp (List.pairwise_filterMap.mp horder)
  rw [List.isChain_map, List.isChain_iff_getElem, List.isChain_iff_getElem]
  refine forall_congr' fun i => forall_congr' fun hi => opensEvent_zero_iff ?_
  intro t ht t' ht'
  exact hpairs i (i + 1) (by omega) hi (Nat.lt_succ_self i) t' ht' t ht

/-- **When a window of zero counts every loss separately**: where no two successive losses of
the run close at one instant. -/
theorem zero_window_counts_all_iff (positions : List Position) (horder : NewestFirst positions)
    (resetAt : Option Time) :
    (countConsecutiveLosses positions resetAt 0).1 = (losingRun resetAt positions).length ↔
      (losingRun resetAt positions).IsChain fun newer older => ¬SameInstant newer older := by
  have hrun : NewestFirst (losingRun resetAt positions) := horder.run resetAt
  have hlength : ((losingRun resetAt positions).length : ℤ) =
      ((losingRun resetAt positions).map Position.closedAt).reverse.length := by
    rw [List.length_reverse, List.length_map]
  unfold countConsecutiveLosses
  rw [streakCloseTimes_eq_losingRun, hlength, clusterCount_eq_length, List.isChain_reverse,
    isChain_opensEvent_zero_iff hrun]

/-- Three losses, of which the two older ones close at one instant. -/
def sharedInstant : List Position :=
  [closedPosition (-1) (minutes 90), closedPosition (-2) (minutes 60),
    closedPosition (-1) (minutes 60)]

/-- The shared instant breaks the chain, and one loss is not counted. -/
theorem zero_window_counts_sharedInstant :
    ((countConsecutiveLosses sharedInstant none 0).1 = (losingRun none sharedInstant).length ↔
        (losingRun none sharedInstant).IsChain fun newer older => ¬SameInstant newer older) ∧
      (countConsecutiveLosses sharedInstant none 0).1 = 2 :=
  ⟨zero_window_counts_all_iff sharedInstant (by unfold NewestFirst; decide +kernel) none,
    by decide +kernel⟩

/-- Two losses that close at one instant count once. -/
theorem zero_window_merges_one_instant :
    let positions := [closedPosition (-1) (minutes 60), closedPosition (-2) (minutes 60)]
    NewestFirst positions ∧ (losingRun none positions).length = 2 ∧
      (countConsecutiveLosses positions none 0).1 = 1 := by
  unfold NewestFirst
  decide +kernel

end TradeMind.Analysis
