import TradeMind.Analysis.RaisingAttempts

/-!
# Redelivery after a failed attempt

A message whose handling fails is not acknowledged, so that it is delivered again.  The
idempotency key is claimed before anything is committed: an attempt that raises in
between leaves a key without a decision, and the next delivery is rejected as the
duplicate of nothing.  `LosesClaim` is exactly that attempt, and without it every
`DUPLICATE_SIGNAL` follows an earlier decision.
-/

set_option autoImplicit false

namespace TradeMind.Analysis

open TradeMind.Library TradeMind.Model

/-- One delivery of a message to `_handle_message`. -/
def redeliver (w : World) (d : Delivery) : World := (handleMessage w d).1.world

/-- A decision about the signal was committed. -/
def DecidedBefore (signalId : Uuid) (decisions : List RiskDecision) : Prop :=
  ∃ decision ∈ decisions, decision.signalId = signalId

instance (signalId : Uuid) (decisions : List RiskDecision) :
    Decidable (DecidedBefore signalId decisions) :=
  inferInstanceAs (Decidable (∃ decision ∈ decisions, decision.signalId = signalId))

/-- Every committed `DUPLICATE_SIGNAL` decision about the signal follows another decision
about it.  Decisions are committed in the order of the list. -/
def DuplicatesFollow (signalId : Uuid) (w : World) : Prop :=
  ∀ i, (h : i < w.db.riskDecisions.length) →
    w.db.riskDecisions[i].signalId = signalId →
    w.db.riskDecisions[i].rejectionReason = some .DUPLICATE_SIGNAL →
    DecidedBefore signalId (w.db.riskDecisions.take i)

instance (signalId : Uuid) (w : World) : Decidable (DuplicatesFollow signalId w) :=
  inferInstanceAs (Decidable (∀ i, (h : i < w.db.riskDecisions.length) →
    w.db.riskDecisions[i].signalId = signalId →
    w.db.riskDecisions[i].rejectionReason = some .DUPLICATE_SIGNAL →
    DecidedBefore signalId (w.db.riskDecisions.take i)))

/-- The attempt claims the free key of its signal and then raises before anything is
committed. -/
def LosesClaim (w : World) (d : Delivery) : Prop :=
  d.fails .loadConfig = false ∧ ∃ signal balance, AsksForKey w d signal balance ∧
    ¬ w.redis.holds signal.id d.now ∧
    (d.fault .claimKey = some .after ∨
      d.fault .claimKey = none ∧ (EvaluationRaises w d signal balance false ∨
        SubmissionRaises w d signal balance ∨ d.fault .commit = some .before))

/-- A delivery of the signal does not lose its claim, unless a decision about the signal
is on record already. -/
def KeepsClaim (signalId : Uuid) (w : World) (d : Delivery) : Prop :=
  d.signalId = signalId → LosesClaim w d → DecidedBefore signalId w.db.riskDecisions

variable {w : World} {d : Delivery} {signal : Signal}

/-- The row a signal id is looked up by carries that id. -/
theorem id_of_getSignal {db : Database} {id : Uuid} (h : db.getSignal id = some signal) :
    signal.id = id := by
  have := List.find?_some h
  simpa using this

/-- An order half that went through is committed with its decision, unless the commit
itself fails before its effect. -/
theorem finish_decided {decision : RiskDecision}
    {submission : Option Database × List FreqtradeCall}
    (hsubmit : submission.1 ≠ none) (hcommit : d.fault .commit ≠ some .before)
    (hdecisions : ∀ session, submission.1 = some session → decision ∈ session.riskDecisions) :
    decision ∈ (w.finish d decision submission).world.db.riskDecisions := by
  obtain ⟨session, calls⟩ := submission
  cases session with
  | none => exact absurd rfl hsubmit
  | some session =>
    have hmem := hdecisions session rfl
    simp only [World.finish, World.commit]
    split
    · exact hmem
    · rename_i hbefore
      exact absurd hbefore hcommit
    · exact hmem

/-- The order half of an entry keeps the decisions of its session. -/
theorem submitApprovedEntry_riskDecisions {session session' : Database} {id : Uuid}
    {balance : AccountBalanceSnapshot} {isDuplicate : Bool}
    (h : (submitApprovedEntry d session signal id
      (entryEvaluation w d signal balance isDuplicate)).1 = some session') :
    session'.riskDecisions = session.riskDecisions := by
  cases hresult : (entryEvaluation w d signal balance isDuplicate).approved with
  | false =>
    rw [submitApprovedEntry, if_neg (ne_true_of_eq_false hresult)] at h
    cases h
    rfl
  | true =>
    obtain ⟨sizeUsdt, sizeBase, hsubmit⟩ := submitApprovedEntry_approved session id hresult
    rw [hsubmit] at h
    exact submitEntryOrder_riskDecisions (Prod.ext h rfl)

/-- The order half of an exit keeps the decisions of its session. -/
theorem submitApprovedExit_riskDecisions {session session' : Database} {id : Uuid}
    {result : ExitDecisionResult}
    (h : (submitApprovedExit d session signal id result).1 = some session') :
    session'.riskDecisions = session.riskDecisions := by
  unfold submitApprovedExit at h
  split at h
  · exact (submitExitOrder_frame h).1
  · cases h
    rfl

/-- A fresh evaluation in which nothing raises commits its decision. -/
theorem decided_of_fresh {balance : AccountBalanceSnapshot}
    (hevaluation : ¬ EvaluationRaises w d signal balance false)
    (hsubmission : ¬ SubmissionRaises w d signal balance)
    (hcommit : d.fault .commit ≠ some .before) :
    DecidedBefore signal.id (decideSignal w d signal balance false).world.db.riskDecisions := by
  cases decideSignal_deciding w d signal balance false with
  | stopped hraises _ _ _ => exact absurd hraises hevaluation
  | entry _ haction redis _ session decision hrecorded _ _ h =>
    refine ⟨decision, ?_, hrecorded.signalId⟩
    rw [h]
    refine finish_decided ?_ hcommit ?_
    · intro hnone
      have hraises := (submitApprovedEntry_raises_iff session decision.id).mp hnone
      exact hsubmission (Or.inl ⟨haction, hraises⟩)
    · intro session' hs
      rw [submitApprovedEntry_riskDecisions hs]
      exact hrecorded.mem
  | exit _ haction session decision hrecorded _ _ h =>
    refine ⟨decision, ?_, hrecorded.signalId⟩
    rw [h]
    refine finish_decided ?_ hcommit ?_
    · intro hnone
      have hraises := (submitApprovedExit_raises_iff hrecorded.book decision.id _).mp hnone
      exact hsubmission (Or.inr ⟨haction, hraises⟩)
    · intro session' hs
      rw [submitApprovedExit_riskDecisions hs]
      exact hrecorded.mem

/-- Past the claim, an attempt leaves the idempotency keys alone. -/
theorem decideSignal_keys (w : World) (d : Delivery) (signal : Signal)
    (balance : AccountBalanceSnapshot) (isDuplicate : Bool) :
    (decideSignal w d signal balance isDuplicate).world.redis.decisionKeys =
      w.redis.decisionKeys := by
  have hfinish : ∀ (w' : World) (decision : RiskDecision)
      (submission : Option Database × List FreqtradeCall),
      (w'.finish d decision submission).world.redis = w'.redis := by
    intro w' decision submission
    rcases finish_world w' d decision submission with h | ⟨_, _, h⟩
    · rw [h]
    · rw [h]
  cases decideSignal_deciding w d signal balance isDuplicate with
  | stopped _ redis hkeys h =>
    rw [h]
    exact hkeys
  | entry _ _ redis hkeys _ _ _ _ _ h =>
    rw [h, hfinish]
    exact hkeys
  | exit _ _ _ _ _ _ _ h => rw [h, hfinish]

/-- A message whose configuration does not load leaves the world. -/
theorem redeliver_unloaded {w : World} {d : Delivery} (h : d.fails .loadConfig = true) :
    redeliver w d = w := by
  simp [redeliver, handleMessage, World.raised, h]

theorem redeliver_loaded {w : World} {d : Delivery} (h : d.fails .loadConfig = false) :
    redeliver w d = (processSignal w d).world := by
  simp [redeliver, handleMessage, h]

/-- An attempt that claims a key loses it, or commits a decision about the signal. -/
theorem claim_cases (w : World) (d : Delivery) :
    (redeliver w d).redis.decisionKeys = w.redis.decisionKeys ∨
      ((redeliver w d).redis.decisionKeys = (w.redis.claim d.signalId d.now).decisionKeys ∧
        (LosesClaim w d ∨ DecidedBefore d.signalId (redeliver w d).db.riskDecisions)) := by
  cases hconfig : d.fails .loadConfig with
  | true => exact Or.inl (by rw [redeliver_unloaded hconfig])
  | false =>
    rw [redeliver_loaded hconfig]
    cases processSignal_course w d with
    | stopped _ h => exact Or.inl (by rw [h]; rfl)
    | notFound _ h => exact Or.inl (by rw [h])
    | balanceUnavailable signal _ _ h =>
      refine Or.inl ?_
      rw [h, recordBalanceUnavailable]
      dsimp only
      split
      · rfl
      · unfold World.commit
        split <;> rfl
    | claimLost signal balance hasks hfree hfault h =>
      refine Or.inr ⟨?_, Or.inl ⟨hconfig, signal, balance, hasks, hfree, Or.inl hfault⟩⟩
      rw [h, ← id_of_getSignal hasks.found]
      rfl
    | duplicate signal balance _ _ h =>
      refine Or.inl ?_
      rw [h, decideSignal_keys]
    | evaluated signal balance hasks hfree hfault h =>
      refine Or.inr ⟨?_, ?_⟩
      · rw [h, decideSignal_keys, ← id_of_getSignal hasks.found]
      · by_cases hraises : EvaluationRaises w d signal balance false ∨
          SubmissionRaises w d signal balance ∨ d.fault .commit = some .before
        · exact Or.inl ⟨hconfig, signal, balance, hasks, hfree, Or.inr ⟨hfault, hraises⟩⟩
        · rw [not_or, not_or] at hraises
          refine Or.inr ?_
          rw [h, ← id_of_getSignal hasks.found]
          exact decided_of_fresh hraises.1 hraises.2.1 hraises.2.2

/-- A delivery adds at most one decision; a `DUPLICATE_SIGNAL` one is about a signal whose
key is held. -/
theorem redeliver_decisions (w : World) (d : Delivery) :
    (redeliver w d).db.riskDecisions = w.db.riskDecisions ∨
      ∃ decision, (redeliver w d).db.riskDecisions = w.db.riskDecisions ++ [decision] ∧
        (decision.rejectionReason = some .DUPLICATE_SIGNAL →
          w.redis.holds decision.signalId d.now) := by
  cases hconfig : d.fails .loadConfig with
  | true => exact Or.inl (by rw [redeliver_unloaded hconfig])
  | false =>
    rw [redeliver_loaded hconfig]
    cases processSignal_effect w d with
    | quiet _ _ _ hdecision =>
      refine hdecision.imp_right ?_
      rintro ⟨signal, decision, _, hdecided, _, hduplicate⟩
      exact ⟨decision, hdecided.riskDecisions, fun h => hdecided.signalId ▸ hduplicate h⟩
    | entry signal _ _ _ _ hbook =>
      rcases hbook with hdb | ⟨decision, _, hdecided, hreason, _⟩
      · exact Or.inl (by rw [hdb])
      · refine Or.inr ⟨decision, hdecided.riskDecisions, fun h => ?_⟩
        rw [hreason] at h
        cases h
    | exit signal _ _ _ _ hbook =>
      rcases hbook with hdb | ⟨decision, hdecided, hreason, _⟩
      · exact Or.inl (by rw [hdb])
      · exact Or.inr ⟨decision, hdecided.riskDecisions, fun h => absurd h hreason⟩

/-- Every key of the signal stands for a decision about it. -/
def KeysDecided (signalId : Uuid) (w : World) : Prop :=
  ∀ entry ∈ w.redis.decisionKeys, entry.1 = signalId →
    DecidedBefore signalId w.db.riskDecisions

/-- One more decision keeps the order of duplicates, if it is no duplicate of nothing. -/
theorem duplicatesFollow_append {signalId : Uuid} {w w' : World} {decision : RiskDecision}
    (h : DuplicatesFollow signalId w)
    (happend : w'.db.riskDecisions = w.db.riskDecisions ++ [decision])
    (hlast : decision.signalId = signalId →
      decision.rejectionReason = some .DUPLICATE_SIGNAL →
      DecidedBefore signalId w.db.riskDecisions) :
    DuplicatesFollow signalId w' := by
  intro i hi hsignal hreason
  rw [happend, List.length_append, List.length_singleton] at hi
  simp only [happend] at hsignal hreason ⊢
  by_cases hlt : i < w.db.riskDecisions.length
  · rw [List.getElem_append_left hlt] at hsignal hreason
    rw [List.take_append_of_le_length hlt.le]
    exact h i hlt hsignal hreason
  · have heq : i = w.db.riskDecisions.length := by omega
    subst heq
    rw [List.getElem_append_right (Nat.le_refl _)] at hsignal hreason
    simp only [Nat.sub_self, List.getElem_cons_zero] at hsignal hreason
    rw [List.take_left]
    exact hlast hsignal hreason

/-- **One delivery.**  A delivery that keeps its claim keeps both the keys behind
decisions and the order of duplicates. -/
theorem redeliver_step {signalId : Uuid} {w : World} {d : Delivery}
    (h : KeysDecided signalId w ∧ DuplicatesFollow signalId w)
    (hok : KeepsClaim signalId w d) :
    KeysDecided signalId (redeliver w d) ∧ DuplicatesFollow signalId (redeliver w d) := by
  obtain ⟨hkeys, hfollow⟩ := h
  have hdecisions := redeliver_decisions w d
  have hgrow : DecidedBefore signalId w.db.riskDecisions →
      DecidedBefore signalId (redeliver w d).db.riskDecisions := by
    rintro ⟨decision, hmem, hid⟩
    rcases hdecisions with hsame | ⟨_, happend, _⟩
    · exact ⟨decision, hsame ▸ hmem, hid⟩
    · exact ⟨decision, happend ▸ List.mem_append_left _ hmem, hid⟩
  constructor
  · intro entry hentry hid
    rcases claim_cases w d with hsame | ⟨hclaim, hdecided⟩
    · exact hgrow (hkeys entry (hsame ▸ hentry) hid)
    · rw [hclaim] at hentry
      rcases List.mem_cons.mp hentry with rfl | hentry
      · have hsignal : d.signalId = signalId := hid
        rcases hdecided with hloses | hdecided
        · exact hgrow (hok hsignal hloses)
        · exact hsignal ▸ hdecided
      · exact hgrow (hkeys entry hentry hid)
  · rcases hdecisions with hsame | ⟨decision, happend, hduplicate⟩
    · unfold DuplicatesFollow
      simp only [hsame]
      exact hfollow
    · refine duplicatesFollow_append hfollow happend fun hsignal hreason => ?_
      obtain ⟨entry, hentry, hid, _⟩ := hduplicate hreason
      exact hkeys entry hentry (hid.trans hsignal)

/-- **A failed attempt does not consume the signal, where no attempt loses its claim.**
From a world without a key of the signal, through deliveries of any signals, every
`DUPLICATE_SIGNAL` decision about the signal follows an earlier decision about it. -/
theorem duplicates_follow_decisions (signalId : Uuid) (w : World)
    (hkeys : ∀ entry ∈ w.redis.decisionKeys, entry.1 ≠ signalId)
    (hstart : DuplicatesFollow signalId w) (deliveries : List Delivery)
    (hok : AllSteps redeliver (KeepsClaim signalId) w deliveries) :
    AllStates redeliver (DuplicatesFollow signalId) w deliveries := by
  have hinit : KeysDecided signalId w ∧ DuplicatesFollow signalId w :=
    ⟨fun entry hentry hid => absurd hid (hkeys entry hentry), hstart⟩
  have hstep : ∀ w d, (KeysDecided signalId w ∧ DuplicatesFollow signalId w) →
      KeepsClaim signalId w d →
        KeysDecided signalId (redeliver w d) ∧ DuplicatesFollow signalId (redeliver w d) :=
    fun _ _ h hok => redeliver_step h hok
  exact (AllSteps.allStates hstep hinit deliveries hok).imp fun _ h => h.2

/-- A first delivery and a redelivery that meet no failure. -/
theorem clean_redelivery_follows :
    (∀ entry ∈ ({ db := { signals := [btcBuy] } } : World).redis.decisionKeys, entry.1 ≠ 1) ∧
      AllStates redeliver (DuplicatesFollow 1) { db := { signals := [btcBuy] } }
        [cleanDelivery 1 0, cleanDelivery 1 (minutes 1)] := by
  have hclean : ∀ w now, ¬ LosesClaim w (cleanDelivery 1 now) := by
    rintro w now ⟨_, signal, balance, _, _, hfault | ⟨_, hraises | hraises | hfault⟩⟩
    · cases hfault
    · simp [EvaluationRaises, Delivery.accountRaises, timedeltaMinutes, Delivery.fails,
        cleanDelivery] at hraises
    · simp [SubmissionRaises, Delivery.fails, cleanDelivery] at hraises
    · cases hfault
  refine ⟨by decide, duplicates_follow_decisions 1 _ (by decide) (by decide) _ ?_⟩
  exact ⟨fun _ h => absurd h (hclean _ _), fun _ h => absurd h (hclean _ _), trivial⟩

/-- The delivery whose account-state query raises. -/
def failingDelivery : Delivery :=
  { cleanDelivery 1 0 with
    fault := fun a => if a = .accountState then some .before else none }

/-- A failed attempt consumes the signal: the redelivery commits a `DUPLICATE_SIGNAL`
decision as the first decision about it. -/
theorem failed_attempt_consumes_signal :
    ¬ ∀ (signalId : Uuid) (w : World) (deliveries : List Delivery),
      (∀ entry ∈ w.redis.decisionKeys, entry.1 ≠ signalId) → w.db.riskDecisions = [] →
      (∀ d ∈ deliveries, d.signalId = signalId) →
        AllStates redeliver (DuplicatesFollow signalId) w deliveries := by
  intro h
  have hrun := h 1 { db := { signals := [btcBuy] } }
    [failingDelivery, cleanDelivery 1 (minutes 1)] (by decide) rfl (by decide)
  have hlast : ¬ DuplicatesFollow 1 (runFrom redeliver { db := { signals := [btcBuy] } }
      [failingDelivery, cleanDelivery 1 (minutes 1)]) := by decide +kernel
  exact hlast hrun.2.2

end TradeMind.Analysis
