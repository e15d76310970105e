import Mathlib.Data.List.Basic
import Mathlib.Data.List.Chain

/-!
# Labelled machines and what their runs keep

A machine is a total step function whose label carries everything the environment
decides.  `Reachable` collects the states that runs of admitted steps arrive at;
`AllSteps` says that a given run is made of admitted steps, and `runFrom` computes
where it ends (`reachable_runFrom`), so a property of every state reached is proved by one
induction and refuted by one list of labels.  `Latches` is what a step brings about and only
a later step of a kind ends.  `length_flatMap_le_one` bounds what a sequence of events yields
when no two of them are active.
-/

set_option autoImplicit false

namespace TradeMind.Library

universe u v

variable {σ : Type u} {ι : Type v}

/-- The states reached from `init` by steps that meet `ok` where they start. -/
inductive Reachable (step : σ → ι → σ) (ok : σ → ι → Prop) (init : σ → Prop) : σ → Prop
  | start (s : σ) (h : init s) : Reachable step ok init s
  | next (s : σ) (i : ι) (hs : Reachable step ok init s) (h : ok s i) :
      Reachable step ok init (step s i)

/-- The state a run ends in. -/
def runFrom (step : σ → ι → σ) (s : σ) (labels : List ι) : σ :=
  labels.foldl step s

/-- Every step of the run meets `ok` in the state it starts from. -/
def AllSteps (step : σ → ι → σ) (ok : σ → ι → Prop) : σ → List ι → Prop
  | _, [] => True
  | s, i :: rest => ok s i ∧ AllSteps step ok (step s i) rest

instance decidableAllSteps (step : σ → ι → σ) (ok : σ → ι → Prop)
    [∀ s i, Decidable (ok s i)] : ∀ s labels, Decidable (AllSteps step ok s labels)
  | _, [] => isTrue trivial
  | s, i :: rest =>
    have := decidableAllSteps step ok (step s i) rest
    inferInstanceAs (Decidable (ok s i ∧ AllSteps step ok (step s i) rest))

/-- Every state of the run, the first and the last included, meets `P`. -/
def AllStates (step : σ → ι → σ) (P : σ → Prop) : σ → List ι → Prop
  | s, [] => P s
  | s, i :: rest => P s ∧ AllStates step P (step s i) rest

variable {step : σ → ι → σ} {ok : σ → ι → Prop} {init P : σ → Prop}

/-- **The invariant rule.**  What holds initially and is kept by every admitted step
holds in every state reached. -/
theorem Reachable.inv (h0 : ∀ s, init s → P s)
    (hstep : ∀ s i, P s → ok s i → P (step s i)) {s : σ}
    (h : Reachable step ok init s) : P s := by
  induction h with
  | start s h => exact h0 s h
  | next s i _ hok ih => exact hstep s i ih hok

/-- A run of admitted steps from a reachable state ends in a reachable state. -/
theorem reachable_runFrom {s : σ} (hs : Reachable step ok init s) (labels : List ι)
    (h : AllSteps step ok s labels) : Reachable step ok init (runFrom step s labels) := by
  induction labels generalizing s with
  | nil => exact hs
  | cons i rest ih => exact ih (Reachable.next s i hs h.1) h.2

/-- What every step of a run keeps holds where the run ends. -/
theorem runFrom_inv {s : σ} (hs : P s) (labels : List ι)
    (hstep : ∀ s, ∀ i ∈ labels, P s → P (step s i)) : P (runFrom step s labels) := by
  induction labels generalizing s with
  | nil => exact hs
  | cons i rest ih =>
    exact ih (hstep s i List.mem_cons_self hs)
      fun s j hj => hstep s j (List.mem_cons_of_mem _ hj)

/-- **What the labels of a run mark.**  Where each label marks the state it leads to and
marks stay, all of them are on the state the run ends in. -/
theorem runFrom_marks {M : ι → σ → Prop} (labels : List ι)
    (hkeep : ∀ s, ∀ i ∈ labels, P s → P (step s i))
    (hmark : ∀ s, ∀ i ∈ labels, P s → M i (step s i))
    (hstay : ∀ s, ∀ i ∈ labels, ∀ j, P s → M j s → M j (step s i)) {s : σ} (hs : P s) :
    ∀ i ∈ labels, M i (runFrom step s labels) := by
  induction labels generalizing s with
  | nil => exact fun i hi => absurd hi List.not_mem_nil
  | cons i rest ih =>
    have hnext : P (step s i) := hkeep s i List.mem_cons_self hs
    intro j hj
    rcases List.mem_cons.mp hj with rfl | hj
    · -- the mark of the first label is carried through the rest of the run
      have hboth : P (runFrom step (step s j) rest) ∧ M j (runFrom step (step s j) rest) :=
        @runFrom_inv σ ι step (fun s => P s ∧ M j s) _ ⟨hnext, hmark s j List.mem_cons_self hs⟩ rest
          fun s i hi h => ⟨hkeep s i (List.mem_cons_of_mem _ hi) h.1,
            hstay s i (List.mem_cons_of_mem _ hi) j h.1 h.2⟩
      exact hboth.2
    · exact ih (fun s i hi => hkeep s i (List.mem_cons_of_mem _ hi))
        (fun s i hi => hmark s i (List.mem_cons_of_mem _ hi))
        (fun s i hi => hstay s i (List.mem_cons_of_mem _ hi)) hnext j hj

/-- **The invariant rule for one run.**  An invariant of the admitted steps holds in
every state of a run made of admitted steps. -/
theorem AllSteps.allStates (hstep : ∀ s i, P s → ok s i → P (step s i)) {s : σ}
    (hs : P s) (labels : List ι) (h : AllSteps step ok s labels) :
    AllStates step P s labels := by
  induction labels generalizing s with
  | nil => exact hs
  | cons i rest ih => exact ⟨hs, ih (hstep s i hs h.1) h.2⟩

/-- What a step meets where the invariant holds, every step of such a run meets. -/
theorem AllSteps.imp {R : σ → ι → Prop} (hstep : ∀ s i, P s → ok s i → P (step s i))
    (hmeets : ∀ s i, P s → ok s i → R s i) {s : σ} (hs : P s) (labels : List ι)
    (h : AllSteps step ok s labels) : AllSteps step R s labels := by
  induction labels generalizing s with
  | nil => trivial
  | cons i rest ih => exact ⟨hmeets s i hs h.1, ih (hstep s i hs h.1) h.2⟩

/-- **Two properties that agree at every step agree on a run.**  The invariant may speak of the
steps still to come, and has to be kept by the steps that meet the property. -/
theorem allSteps_congr {R : σ → ι → Prop} {I : σ → List ι → Prop}
    (hagree : ∀ s i rest, I s (i :: rest) → (ok s i ↔ R s i))
    (hkeep : ∀ s i rest, I s (i :: rest) → R s i → I (step s i) rest) {s : σ} {labels : List ι}
    (hs : I s labels) : AllSteps step ok s labels ↔ AllSteps step R s labels := by
  induction labels generalizing s with
  | nil => exact Iff.rfl
  | cons i rest ih =>
    rw [AllSteps, AllSteps, hagree s i rest hs]
    exact and_congr_right fun hmet => ih (hkeep s i rest hs hmet)

/-- The first state of a run is one of its states. -/
theorem AllStates.head {s : σ} {labels : List ι} (h : AllStates step P s labels) : P s := by
  cases labels with
  | nil => exact h
  | cons i rest => exact h.1

/-- The state a run ends in is one of its states. -/
theorem AllStates.last {s : σ} {labels : List ι} (h : AllStates step P s labels) :
    P (runFrom step s labels) := by
  induction labels generalizing s with
  | nil => exact h
  | cons i rest ih => exact ih h.2

/-- **The invariant rule, exactly, with a property of the steps.**  Where the admitted
steps are those that keep `P` and meet `R`, a run keeps `P` in every state and meets `R` at
every step if and only if all its steps are admitted; `Q` is what every step keeps anyway. -/
theorem allStates_and_allSteps_iff {R : σ → ι → Prop} (Q : σ → Prop)
    (hinv : ∀ s i, Q s → Q (step s i))
    (hstep : ∀ s i, Q s → P s → (P (step s i) ∧ R s i ↔ ok s i)) {s : σ} (hq : Q s) (hs : P s)
    (labels : List ι) :
    AllStates step P s labels ∧ AllSteps step R s labels ↔ AllSteps step ok s labels := by
  induction labels generalizing s with
  | nil => exact ⟨fun _ => trivial, fun _ => ⟨hs, trivial⟩⟩
  | cons i rest ih =>
    constructor
    · rintro ⟨⟨_, hstates⟩, hmeets, hsteps⟩
      have hnext : P (step s i) := hstates.head
      exact ⟨(hstep s i hq hs).mp ⟨hnext, hmeets⟩, (ih (hinv s i hq) hnext).mp ⟨hstates, hsteps⟩⟩
    · rintro ⟨hok, hrest⟩
      obtain ⟨hnext, hmeets⟩ := (hstep s i hq hs).mpr hok
      obtain ⟨hstates, hsteps⟩ := (ih (hinv s i hq) hnext).mpr hrest
      exact ⟨⟨hs, hstates⟩, hmeets, hsteps⟩

/-- What holds of every step from every state holds of every step of a run. -/
theorem allSteps_of_forall (h : ∀ s i, ok s i) (s : σ) (labels : List ι) :
    AllSteps step ok s labels := by
  induction labels generalizing s with
  | nil => trivial
  | cons i rest ih => exact ⟨h s i, ih (step s i)⟩

/-- **The invariant rule, exactly.**  Where the admitted steps are those that keep `P`, a
run keeps it in every state if and only if all its steps are admitted; `Q` is what every
step keeps anyway. -/
theorem allStates_iff_allSteps (Q : σ → Prop) (hinv : ∀ s i, Q s → Q (step s i))
    (hstep : ∀ s i, Q s → P s → (P (step s i) ↔ ok s i)) {s : σ} (hq : Q s) (hs : P s)
    (labels : List ι) : AllStates step P s labels ↔ AllSteps step ok s labels := by
  have hiff := allStates_and_allSteps_iff Q hinv
    (fun s i hq hs => (and_iff_left trivial).trans (hstep s i hq hs)) hq hs labels
  rw [← hiff]
  exact (and_iff_left (allSteps_of_forall (fun _ _ => trivial) s labels)).symm

/-- What every state of a run meets, it meets more weakly. -/
theorem AllStates.imp {Q : σ → Prop} (hPQ : ∀ s, P s → Q s) {s : σ} {labels : List ι}
    (h : AllStates step P s labels) : AllStates step Q s labels := by
  induction labels generalizing s with
  | nil => exact hPQ s h
  | cons i rest ih => exact ⟨hPQ s h.1, ih h.2⟩

/-- What every state of a run meets, and what else, it meets together. -/
theorem AllStates.and {Q : σ → Prop} {s : σ} {labels : List ι} (hP : AllStates step P s labels)
    (hQ : AllStates step Q s labels) : AllStates step (fun s => P s ∧ Q s) s labels := by
  induction labels generalizing s with
  | nil => exact ⟨hP, hQ⟩
  | cons i rest ih => exact ⟨⟨hP.1, hQ.1⟩, ih hP.2 hQ.2⟩

/-- **The invariant rule, with the steps to come.**  Where an invariant that may speak of them is
kept, what it implies holds in every state of the run. -/
theorem allStates_of_pending {I : σ → List ι → Prop} (hP : ∀ s labels, I s labels → P s)
    (hkeep : ∀ s i rest, I s (i :: rest) → I (step s i) rest) {s : σ} {labels : List ι}
    (hs : I s labels) : AllStates step P s labels := by
  induction labels generalizing s with
  | nil => exact hP s [] hs
  | cons i rest ih => exact ⟨hP s (i :: rest) hs, ih (hkeep s i rest hs)⟩

/-! ## Latches -/

/-- `P` holds from here on, until the first step that meets `release`. -/
def HoldsUntil (step : σ → ι → σ) (P : σ → Prop) (release : ι → Prop) : σ → List ι → Prop
  | s, [] => P s
  | s, i :: rest => P s ∧ (release i ∨ HoldsUntil step P release (step s i) rest)

/-- After every step of the run that meets `trigger`, `P` holds until a step that meets
`release`. -/
def Latches (step : σ → ι → σ) (trigger : σ → ι → Prop) (P : σ → Prop) (release : ι → Prop) :
    σ → List ι → Prop
  | _, [] => True
  | s, i :: rest =>
    (trigger s i → HoldsUntil step P release (step s i) rest) ∧
      Latches step trigger P release (step s i) rest

variable {trigger : σ → ι → Prop} {release : ι → Prop}

/-- What only a releasing step ends holds until one. -/
theorem holdsUntil_of_kept (hkeep : ∀ s i, P s → ¬ release i → P (step s i)) {s : σ} (hs : P s)
    (labels : List ι) : HoldsUntil step P release s labels := by
  induction labels generalizing s with
  | nil => exact hs
  | cons i rest ih =>
    refine ⟨hs, ?_⟩
    by_cases hi : release i
    · exact Or.inl hi
    · exact Or.inr (ih (hkeep s i hs hi))

/-- **The latch rule.**  What a triggering step brings about, and only a releasing step ends,
latches in every run. -/
theorem latches_of_kept (htrigger : ∀ s i, trigger s i → P (step s i))
    (hkeep : ∀ s i, P s → ¬ release i → P (step s i)) (s : σ) (labels : List ι) :
    Latches step trigger P release s labels := by
  induction labels generalizing s with
  | nil => trivial
  | cons i rest ih =>
    exact ⟨fun hi => holdsUntil_of_kept hkeep (htrigger s i hi) rest, ih (step s i)⟩

/-! ## Events of which at most one is active -/

/-- **At most once.**  If of any two events at most one is active, an inactive event
yields nothing and an active one at most one item, then all of them yield at most one. -/
theorem length_flatMap_le_one {ε : Type u} {β : Type v} (active : ε → Prop) (f : ε → List β)
    (hinactive : ∀ e, ¬ active e → f e = []) (hactive : ∀ e, (f e).length ≤ 1)
    {events : List ε} (h : events.Pairwise fun e e' => ¬ (active e ∧ active e')) :
    (events.flatMap f).length ≤ 1 := by
  induction events with
  | nil => exact Nat.zero_le 1
  | cons e rest ih =>
    obtain ⟨hhead, htail⟩ := List.pairwise_cons.mp h
    rw [List.flatMap_cons, List.length_append]
    by_cases he : active e
    · have hrest : rest.flatMap f = [] := by
        rw [List.flatMap_eq_nil_iff]
        intro e' he'
        exact hinactive e' fun hact => hhead e' he' ⟨he, hact⟩
      rw [hrest, List.length_nil, Nat.add_zero]
      exact hactive e
    · rw [hinactive e he, List.length_nil, Nat.zero_add]
      exact ih htail

end TradeMind.Library
