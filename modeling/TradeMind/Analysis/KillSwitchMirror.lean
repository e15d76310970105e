import TradeMind.Analysis.CircuitBreakers

/-!
# The kill switch and its Redis mirror

The mirror is written between the flush and the commit of the switch.  A stop whose mirror
write raises is rolled back with it, and a request that writes the mirror and then fails to
commit leaves a mirror Postgres does not bear out.  Both are stated exactly: when a stop is
committed, and which runs keep the mirror from reading off while the switch is on.
-/

set_option autoImplicit false

namespace TradeMind.Analysis

open TradeMind.Library TradeMind.Model

/-! ## A stop and its mirror write -/

/-- Every awaited step of the request but the mirror write goes through. -/
def OnlyMirrorWriteFails (r : KillSwitchRequest) : Prop :=
  ∀ a, a ≠ .mirror → r.fault a = none

/-- **An enable request is committed** exactly where its mirror write goes through, all else
being up; where it is not, the switch is as it was. -/
theorem enable_committed_iff (w : World) {r : KillSwitchRequest} (henable : r.action = .enable)
    (hup : OnlyMirrorWriteFails r) :
    KillSwitch.isEnabled (applyKillSwitch w r).1.db = true ↔
      r.fault .mirror = none ∨ KillSwitch.isEnabled w.db = true := by
  have hread : r.fault .stateRead = none := hup _ (by decide)
  have hstate : r.fault .stateFlush = none := hup _ (by decide)
  have haudit : r.fault .auditFlush = none := hup _ (by decide)
  have hcommit : r.fault .commit = none := hup _ (by decide)
  have hon : KillSwitch.isEnabled (r.session w.db) = true :=
    (isEnabled_session r w.db).trans (decide_eq_true henable)
  unfold applyKillSwitch
  rw [if_neg (by simp [KillSwitchRequest.fails, hread, hstate, haudit])]
  cases hmirror : r.fault .mirror with
  | none =>
    simp only [hcommit]
    exact iff_of_true hon (Or.inl trivial)
  | some fault =>
    cases fault with
    | before => simp
    | after => simp [KillSwitchRequest.mirrored]

/-- The handling of a message makes its attempt, where the config loads. -/
theorem handleMessage_attempt {w : World} {d : Delivery} (hup : OnlyMirrorFails d) :
    (handleMessage w d).1 = processSignal w d := by
  unfold handleMessage
  rw [if_neg (ne_true_of_eq_false (hup.goes (by decide)))]

/-- **When an emergency stop is committed.**  With every Postgres operation going through, a
trip of the switch is committed exactly where its mirror write goes through, and an enable
request exactly where its mirror write goes through or the switch was on already. -/
theorem emergency_stop_committed_iff (w : World) :
    (∀ (d : Delivery) (signal : Signal) (balance : AccountBalanceSnapshot),
      OnlyMirrorFails d → AutoTrips w d signal balance →
        (KillSwitch.isEnabled (handleMessage w d).1.world.db = true ↔
          d.fault .killSwitchMirror = none)) ∧
      ∀ r : KillSwitchRequest, r.action = .enable → OnlyMirrorWriteFails r →
        (KillSwitch.isEnabled (applyKillSwitch w r).1.db = true ↔
          r.fault .mirror = none ∨ KillSwitch.isEnabled w.db = true) := by
  constructor
  · intro d signal balance hup htrips
    rw [handleMessage_attempt hup]
    exact trip_committed_iff hup htrips
  · exact fun r henable hup => enable_committed_iff w henable hup

/-- The clean delivery of the BUY signal, but for its mirror write. -/
def tripDelivery (fault : Option Fault) : Delivery :=
  { cleanDelivery 1 (minutes 5) with
    fault := fun a => if a = .killSwitchMirror then fault else none }

/-- Only the mirror write of that delivery may raise. -/
theorem tripDelivery_up (fault : Option Fault) : OnlyMirrorFails (tripDelivery fault) := by
  intro a ha
  simp [tripDelivery, ha]

/-- The BUY signal trips the switch on the losing day. -/
theorem tripDelivery_trips (fault : Option Fault) :
    AutoTrips losingDay (tripDelivery fault) btcBuy (flatSnapshot (minutes 5)) where
  found := show losingDay.db.getSignal 1 = some btcBuy by decide +kernel
  snapshot := flatBalances_snapshot _
  window := show timedeltaMinutes 60 ≠ none by decide
  action := by decide
  trips := by
    have htrips : (entryEvaluation losingDay (cleanDelivery 1 (minutes 5)) btcBuy
        (flatSnapshot (minutes 5))
        (decide (losingDay.redis.holds btcBuy.id (minutes 5)))).autoTripKillswitch = true := by
      decide +kernel
    exact htrips

/-- A trip and an enable request whose mirror writes go through. -/
theorem stops_committed :
    KillSwitch.isEnabled (handleMessage losingDay (tripDelivery none)).1.world.db = true ∧
      KillSwitch.isEnabled
        (applyKillSwitch losingDay
          (operatorRequest .enable "drawdown" fun _ => none)).1.db = true :=
  ⟨((emergency_stop_committed_iff losingDay).1 _ _ _ (tripDelivery_up none)
      (tripDelivery_trips none)).mpr rfl,
    ((emergency_stop_committed_iff losingDay).2 _ rfl fun _ _ => rfl).mpr (Or.inl rfl)⟩

/-- **A trip is lost with its mirror write.** -/
theorem mirror_failure_loses_trip :
    ¬ ((∀ (w : World) (d : Delivery) (signal : Signal) (balance : AccountBalanceSnapshot),
        OnlyMirrorFails d → AutoTrips w d signal balance →
          KillSwitch.isEnabled (handleMessage w d).1.world.db = true) ∧
      ∀ (w : World) (r : KillSwitchRequest), r.action = .enable → OnlyMirrorWriteFails r →
        KillSwitch.isEnabled (applyKillSwitch w r).1.db = true) := by
  rintro ⟨htrips, _⟩
  have hflag := htrips _ _ _ _ (tripDelivery_up (some .before)) (tripDelivery_trips _)
  revert hflag
  decide +kernel

/-- The redelivery of the message is a duplicate, which trips nothing. -/
example : let lost := (handleMessage losingDay (tripDelivery (some .before))).1.world
    let again := (handleMessage lost (tripDelivery none)).1.world
    again.db.riskDecisions.map RiskDecision.rejectionReason =
        [none, some .DUPLICATE_SIGNAL] ∧
      KillSwitch.isEnabled again.db = false := by
  decide +kernel

/-! ## The mirror over runs -/

/-- The mirror does not read off while the switch is on. -/
def MirrorSafe (w : World) : Prop :=
  ¬ (w.redis.killswitchGlobal = some false ∧ KillSwitch.isEnabled w.db = true)

instance (w : World) : Decidable (MirrorSafe w) := inferInstanceAs (Decidable (¬ (_ ∧ _)))

/-- A disable request that comes while the switch is on, writes the mirror and then does not
commit. -/
def FailsOpen (w : World) : Operation → Prop
  | .transaction _ => False
  | .killSwitch r =>
    r.action = .disable ∧ LosesCommit r ∧ KillSwitch.isEnabled w.db = true

/-- A transaction of a writer leaves the mirror safe. -/
theorem SwitchEffect.mirrorSafe {w w' : World} (h : SwitchEffect w w') (hsafe : MirrorSafe w) :
    MirrorSafe w' := by
  cases h with
  | kept hstate hmirror =>
    unfold MirrorSafe
    rw [hmirror, isEnabled_congr hstate]
    exact hsafe
  | mirrored _ hmirror => simp [MirrorSafe, hmirror]
  | enabled _ hmirror => simp [MirrorSafe, hmirror]

/-- One operation leaves the mirror safe exactly where it does not fail open. -/
theorem operate_mirrorSafe_iff (w : World) (op : Operation) (hsafe : MirrorSafe w) :
    MirrorSafe (operate w op) ↔ ¬ FailsOpen w op := by
  cases op with
  | transaction t => exact iff_of_true ((step_switch w t).mirrorSafe hsafe) id
  | killSwitch r =>
    change MirrorSafe (applyKillSwitch w r).1 ↔
      ¬ (r.action = .disable ∧ LosesCommit r ∧ KillSwitch.isEnabled w.db = true)
    cases applyKillSwitch_effect w r with
    | nothing hkept h =>
      rw [h]
      exact iff_of_true hsafe fun hopen => hkept hopen.2.1
    | mirror hlost h =>
      rw [h]
      cases haction : r.action with
      | enable => simp [MirrorSafe, KillSwitchRequest.mirrored, haction]
      | disable => simp [MirrorSafe, KillSwitchRequest.mirrored, haction, hlost]
    | both hkept h =>
      rw [h]
      refine iff_of_true ?_ fun hopen => hkept hopen.2.1
      -- mirror and row say the same
      rintro ⟨hmirror, hflag⟩
      have haction : ¬ r.action = .enable := by
        simpa [KillSwitchRequest.mirrored] using hmirror
      exact haction (of_decide_eq_true ((isEnabled_session r w.db).symm.trans hflag))

/-- **When the mirror fails open.**  A run keeps the mirror from reading off while the switch
is on, in every state, if and only if no disable request of it writes the mirror while the
switch is on and then fails to commit. -/
theorem run_mirrorSafe_iff (w : World) (h : MirrorSafe w) (ops : List Operation) :
    AllStates operate MirrorSafe w ops ↔
      AllSteps operate (fun w op => ¬ FailsOpen w op) w ops :=
  allStates_iff_allSteps (fun _ => True) (fun _ _ _ => trivial)
    (fun w op _ hsafe => operate_mirrorSafe_iff w op hsafe) trivial h ops

/-- The switch is enabled and disabled again, the second commit losing its reply only. -/
theorem enabled_disabled_mirrorSafe :
    AllStates operate MirrorSafe {}
      [.killSwitch (operatorRequest .enable "drawdown" fun _ => none),
        .killSwitch (operatorRequest .disable "resume" fun a =>
          if a = .commit then some .after else none)] := by
  refine (run_mirrorSafe_iff {} (by decide) _).mpr ⟨?_, ?_, trivial⟩
  · rintro ⟨haction, _⟩
    cases haction
  · rintro ⟨_, ⟨_, hmirror | ⟨_, hcommit⟩⟩, _⟩
    · cases hmirror
    · cases hcommit

/-- **The mirror fails open** where a disable request writes it and its commit fails. -/
theorem lost_disable_fails_open :
    ¬ ∀ requests : List KillSwitchRequest,
      AllStates operate MirrorSafe {} (requests.map Operation.killSwitch) := by
  intro h
  have hstates := h [operatorRequest .enable "drawdown" fun _ => none,
    operatorRequest .disable "resume" fun a => if a = .commit then some .before else none]
  have hlast := hstates.2.2.head
  revert hlast
  decide +kernel

end TradeMind.Analysis
