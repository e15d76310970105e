import TradeMind.Analysis.KillSwitchLatch

/-!
# The kill switch and its audit trail

Enable and disable requests that overlap.  Each loads the row without a lock and writes back
the columns it changed, so a request that finds the flag as it wants it does not write it,
and what another request commits in between stands.  `run_agreesWithTrail_iff` says exactly
which runs keep the flag in agreement with the trail.
-/

set_option autoImplicit false

namespace TradeMind.Analysis

open TradeMind.Library TradeMind.Model

/-- The flag of a row; a missing row is off. -/
def flagOf (row : Option SystemState) : Bool :=
  KillSwitch.isEnabled { systemState := row }

/-- The flag a request asks for. -/
def wantedFlag (r : KillSwitchRequest) : Bool := decide (r.action = .enable)

/-- The flag is up exactly where the last committed request was an enable; without one it is
down. -/
def AgreesWithTrail (s : Table KillSwitchRequest SystemState) : Prop :=
  flagOf s.committed = (s.log.getLast?.map wantedFlag).getD false

instance (s : Table KillSwitchRequest SystemState) : Decidable (AgreesWithTrail s) :=
  inferInstanceAs (Decidable (_ = _))

/-- If the step is a commit, its request had loaded the other flag, or the committed flag is
the one it asks for. -/
def WritesItsFlag (s : Table KillSwitchRequest SystemState) : RowStep KillSwitchRequest → Prop
  | .commit t => ∀ r loaded write, s.transactions t = some (r, .flushed loaded write) →
      flagOf loaded ≠ wantedFlag r ∨ flagOf s.committed = wantedFlag r
  | _ => True

theorem foldl_wantedFlag (start : Bool) (log : List KillSwitchRequest) :
    log.foldl (fun _ r => wantedFlag r) start = (log.getLast?.map wantedFlag).getD start := by
  induction log using List.reverseRecOn with
  | nil => rfl
  | append_singleton log r _ => simp

theorem agreesWithTrail_iff (s : Table KillSwitchRequest SystemState) :
    AgreesWithTrail s ↔ Agrees flagOf (fun _ r => wantedFlag r) false s := by
  unfold AgreesWithTrail Agrees
  rw [foldl_wantedFlag]

/-- The row a request wants has the flag it asks for. -/
theorem plan_flag {r : KillSwitchRequest} {loaded : Option SystemState} {wanted : SystemState}
    (h : killSwitchRow.plan r loaded = some wanted) :
    wanted.killswitchEnabled = wantedFlag r := by
  have hflag := isEnabled_session r { systemState := loaded }
  have hrow : (r.session { systemState := loaded }).systemState = some wanted := h
  unfold KillSwitch.isEnabled at hflag
  rw [hrow] at hflag
  exact hflag

/-- An UPDATE writes the flag where it differs from the one loaded. -/
theorem writeBack_flag (loaded wanted current : SystemState) :
    (writeBack systemStateColumns loaded wanted current).killswitchEnabled =
      if wanted.killswitchEnabled = loaded.killswitchEnabled then current.killswitchEnabled
      else wanted.killswitchEnabled := by
  simp only [writeBack, systemStateColumns, List.foldl_cons, List.foldl_nil, Column.carry]
  split_ifs <;> rfl

/-- **What a commit leaves of the flag**: the committed one where the request had loaded the
flag it asks for, and its own otherwise. -/
theorem Writes.flag {committed loaded write : Option SystemState} {r : KillSwitchRequest}
    (h : Writes killSwitchRow committed r loaded write) :
    flagOf (write.or committed) =
      if wantedFlag r = flagOf loaded then flagOf committed else wantedFlag r := by
  cases h with
  | updated row wanted current hplan hcommitted =>
    have hwanted := plan_flag hplan
    subst hcommitted
    change (writeBack systemStateColumns row wanted current).killswitchEnabled =
      if wantedFlag r = row.killswitchEnabled then current.killswitchEnabled else wantedFlag r
    rw [writeBack_flag, hwanted]
  | inserted wanted hplan hcommitted =>
    have hwanted := plan_flag hplan
    subst hcommitted
    change wanted.killswitchEnabled =
      if wantedFlag r = false then false else wantedFlag r
    rw [hwanted]
    cases wantedFlag r <;> rfl
  | unchanged row wanted hplan hsame =>
    have hwanted := plan_flag hplan
    -- no column differs, the flag among them
    have hflag : wanted.killswitchEnabled = row.killswitchEnabled := by
      by_contra hne
      exact hsame ⟨_, List.mem_cons_self, hne⟩
    rw [Option.none_or, if_pos]
    exact hwanted.symm.trans hflag

/-- A commit applies its own request exactly where it writes its flag or finds it there. -/
theorem appliesRequest_iff (s : Table KillSwitchRequest SystemState)
    (i : RowStep KillSwitchRequest) (hs : s.WellFormed killSwitchRow) :
    AppliesRequest flagOf (fun _ r => wantedFlag r) s i ↔ WritesItsFlag s i := by
  cases i with
  | commit t =>
    refine forall_congr' fun r => forall_congr' fun loaded => forall_congr' fun write =>
      forall_congr' fun ht => ?_
    rw [Writes.flag (hs.writes t r loaded write ht)]
    by_cases hloaded : wantedFlag r = flagOf loaded
    · rw [if_pos hloaded]
      exact ⟨Or.inr, fun h => h.resolve_left fun hne => hne hloaded.symm⟩
    · rw [if_neg hloaded]
      exact iff_of_true rfl (Or.inl fun heq => hloaded heq.symm)
  | start | read | flush | rollback => exact Iff.rfl

/-- **When the flag agrees with its trail.**  A run of overlapping enable and disable requests
keeps the flag in agreement with the trail, in every state, if and only if no commit of it
had loaded the flag it asks for while another commit took it away; and then it does so in
every state where no transaction is open. -/
theorem run_agreesWithTrail_iff (s : Table KillSwitchRequest SystemState) (hs : s.Quiescent)
    (h : AgreesWithTrail s) (steps : List (RowStep KillSwitchRequest)) :
    (AllStates (rowStep killSwitchRow) AgreesWithTrail s steps ↔
        AllSteps (rowStep killSwitchRow) WritesItsFlag s steps) ∧
      (AllSteps (rowStep killSwitchRow) WritesItsFlag s steps →
        AllStates (rowStep killSwitchRow) (fun s => s.Quiescent → AgreesWithTrail s) s
          steps) := by
  have hiff : AllStates (rowStep killSwitchRow) AgreesWithTrail s steps ↔
      AllSteps (rowStep killSwitchRow) WritesItsFlag s steps := by
    have hpred : AgreesWithTrail = Agrees flagOf (fun _ r => wantedFlag r) false :=
      funext fun s => propext (agreesWithTrail_iff s)
    rw [hpred]
    exact allStates_agrees_iff _ _ (fun s i hs _ => appliesRequest_iff s i hs) hs.wellFormed
      ((agreesWithTrail_iff s).mp h) steps
  have hweaker : ∀ s, AgreesWithTrail s → s.Quiescent → AgreesWithTrail s :=
    fun _ hagrees _ => hagrees
  exact ⟨hiff, fun hsteps => AllStates.imp hweaker (hiff.mpr hsteps)⟩

/-- A request of an operator that meets no failure. -/
def switchRequest (action : KillSwitchAction) (reason : String) : KillSwitchRequest :=
  operatorRequest action reason fun _ => none

/-- The table as the migration leaves it. -/
def migratedSwitch : Table KillSwitchRequest SystemState where
  committed := some {}

/-- An enable and then a disable request. -/
theorem one_after_the_other :
    AllStates (rowStep killSwitchRow) AgreesWithTrail migratedSwitch
      (undisturbed 0 (switchRequest .enable "drawdown") ++
        undisturbed 1 (switchRequest .disable "resume")) := by
  refine (run_agreesWithTrail_iff migratedSwitch (fun _ => rfl) (by decide) _).1.mpr ?_
  refine ⟨trivial, trivial, trivial, ?_, trivial, trivial, trivial, ?_, trivial⟩
  · rintro r loaded write ⟨⟩
    exact Or.inl (by decide)
  · rintro r loaded write ⟨⟩
    exact Or.inl (by decide)

/-- The switch is on; a second enable request loads the row, a disable request commits, and
the second enable commits after it. -/
def overtakenEnable : List (RowStep KillSwitchRequest) :=
  undisturbed 0 (switchRequest .enable "drawdown") ++
    [.start 1 (switchRequest .enable "still falling"), .read 1] ++
    undisturbed 2 (switchRequest .disable "resume") ++ [.flush 1, .commit 1]

/-- **The trail ends with an enable and the switch is off.** -/
theorem overtaken_enable_disagrees :
    ¬ ∀ (s : Table KillSwitchRequest SystemState) (steps : List (RowStep KillSwitchRequest)),
      s.Quiescent → AgreesWithTrail s →
        AllStates (rowStep killSwitchRow) (fun s => s.Quiescent → AgreesWithTrail s) s
          steps := by
  intro h
  have hlast := (h migratedSwitch overtakenEnable (fun _ => rfl) (by decide)).last
  have hquiescent : (runFrom (rowStep killSwitchRow) migratedSwitch overtakenEnable).Quiescent := by
    intro t
    rcases t with _ | _ | _ | t <;> rfl
  have hagrees := hlast hquiescent
  revert hagrees
  decide +kernel

end TradeMind.Analysis
