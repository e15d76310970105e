import TradeMind.Analysis.ReconcileEffects
import TradeMind.Analysis.WebhookEffects
import TradeMind.Model.KillSwitchAdmin

/-!
# The kill switch latches

Three things write the switch: a signal whose evaluation trips it, and the two endpoints.
`SwitchEffect` says what a transaction of the writers does to it and to its mirror, so the
flag, once up, stays up until an operator's disable request; while it is up no entry is
approved; and the exit path does not read it.
-/

set_option autoImplicit false

namespace TradeMind.Analysis

open TradeMind.Library TradeMind.Model

/-- What a transaction does to the switch and to its Redis mirror. -/
inductive SwitchEffect (w w' : World) : Prop
  | kept (hstate : w'.db.systemState = w.db.systemState)
      (hmirror : w'.redis.killswitchGlobal = w.redis.killswitchGlobal)
  | mirrored (hstate : w'.db.systemState = w.db.systemState)
      (hmirror : w'.redis.killswitchGlobal = some true)
  | enabled (hflag : KillSwitch.isEnabled w'.db = true)
      (hmirror : w'.redis.killswitchGlobal = some true)

/-- The flag is read off the `SystemState` row. -/
theorem isEnabled_congr {db db' : Database} (h : db'.systemState = db.systemState) :
    KillSwitch.isEnabled db' = KillSwitch.isEnabled db := by
  unfold KillSwitch.isEnabled
  rw [h]

/-- No transaction of a writer takes the flag down. -/
theorem SwitchEffect.stays {w w' : World} (h : SwitchEffect w w')
    (hflag : KillSwitch.isEnabled w.db = true) : KillSwitch.isEnabled w'.db = true := by
  cases h with
  | kept hstate _ => rwa [isEnabled_congr hstate]
  | mirrored hstate _ => rwa [isEnabled_congr hstate]
  | enabled hflag' _ => exact hflag'

variable {w : World} {d : Delivery} {signal : Signal}

/-! ## What a delivered signal does to the switch -/

/-- The order half of an entry keeps the `SystemState` row. -/
theorem submitApprovedEntry_systemState {session session' : Database} {id : Uuid}
    {result : RiskDecisionResult}
    (h : (submitApprovedEntry d session signal id result).1 = some session') :
    session'.systemState = session.systemState := by
  unfold submitApprovedEntry at h
  split at h
  · split at h
    · unfold submitEntryOrder at h
      dsimp only at h
      split at h <;> cases h <;> rfl
    · cases h
  · cases h
    rfl

/-- The order half of an exit keeps the `SystemState` row. -/
theorem submitApprovedExit_systemState {session session' : Database} {id : Uuid}
    {result : ExitDecisionResult}
    (h : (submitApprovedExit d session signal id result).1 = some session') :
    session'.systemState = session.systemState := by
  unfold submitApprovedExit at h
  split at h
  · exact (submitExitOrder_frame h).2
  · cases h
    rfl

/-- A finished attempt does to the switch what its session did. -/
theorem finish_switch {before : World} {decision : RiskDecision} {session : Database}
    {submission : Option Database × List FreqtradeCall}
    (hsubmission : ∀ session', submission.1 = some session' →
      session'.systemState = session.systemState)
    (hraised : SwitchEffect before w)
    (hcommitted : SwitchEffect before { w with db := session }) :
    SwitchEffect before (w.finish d decision submission).world := by
  rcases finish_world w d decision submission with hw | ⟨session', hs, hw⟩
  · rw [hw]
    exact hraised
  · rw [hw]
    have hstate := hsubmission session' hs
    cases hcommitted with
    | kept h hmirror => exact .kept (hstate.trans h) hmirror
    | mirrored h hmirror => exact .mirrored (hstate.trans h) hmirror
    | enabled hflag hmirror => exact .enabled ((isEnabled_congr hstate).trans hflag) hmirror

/-- An entry signal keeps the switch, or turns it on. -/
theorem handleEntrySignal_switch (w : World) (d : Delivery) (signal : Signal)
    (view : SignalView) (account : AccountState) (isDuplicate : Bool)
    (expectancy : ExpectancyView) :
    SwitchEffect w
      (handleEntrySignal w d signal view account isDuplicate expectancy).world := by
  unfold handleEntrySignal
  split
  · exact .kept rfl rfl
  · dsimp only
    generalize entryResult w.db d view account isDuplicate expectancy = result
    cases autoTrip_trip w d signal result with
    | untripped _ h =>
      rw [h]
      dsimp only
      split
      · exact .kept rfl rfl
      · split
        · exact .kept rfl rfl
        · exact finish_switch (fun _ h => submitApprovedEntry_systemState h) (.kept rfl rfl)
            (.kept rfl rfl)
    | tripped session _ _ _ hflag _ _ h =>
      rw [h]
      dsimp only
      split
      · exact .mirrored rfl rfl
      · split
        · exact .mirrored rfl rfl
        · exact finish_switch (fun _ h => submitApprovedEntry_systemState h) (.mirrored rfl rfl)
            (.enabled hflag rfl)
    | lost w' _ _ hw' h =>
      rw [h]
      rcases hw' with rfl | rfl
      · exact .kept rfl rfl
      · exact .mirrored rfl rfl

theorem handleExitSignal_switch (w : World) (d : Delivery) (signal : Signal)
    (view : SignalView) (account : AccountState) (isDuplicate : Bool) :
    SwitchEffect w (handleExitSignal w d signal view account isDuplicate).world := by
  unfold handleExitSignal
  dsimp only
  split
  · exact .kept rfl rfl
  · split
    · exact .kept rfl rfl
    · exact finish_switch (fun _ h => submitApprovedExit_systemState h) (.kept rfl rfl)
        (.kept rfl rfl)

/-- The part of an attempt after the idempotency key keeps the switch, or turns it on. -/
theorem decideSignal_switch (w : World) (d : Delivery) (signal : Signal)
    (balance : AccountBalanceSnapshot) (isDuplicate : Bool) :
    SwitchEffect w (decideSignal w d signal balance isDuplicate).world := by
  unfold decideSignal
  split
  · exact .kept rfl rfl
  · dsimp only
    split
    · exact handleExitSignal_switch _ _ _ _ _ _
    · split
      · exact .kept rfl rfl
      · exact handleEntrySignal_switch _ _ _ _ _ _ _

/-- **A delivered signal** keeps the switch, or turns it on. -/
theorem processSignal_switch (w : World) (d : Delivery) :
    SwitchEffect w (processSignal w d).world := by
  cases processSignal_course w d with
  | stopped _ h => exact h ▸ .kept rfl rfl
  | notFound _ h => exact h ▸ .kept rfl rfl
  | balanceUnavailable signal _ _ h =>
    rw [h]
    unfold recordBalanceUnavailable
    dsimp only
    split
    · exact .kept rfl rfl
    · change SwitchEffect w (World.finish w d _ (some _, [])).world
      exact finish_switch (fun _ hs => by cases hs; rfl) (.kept rfl rfl) (.kept rfl rfl)
  | claimLost signal balance _ _ _ h => exact h ▸ .kept rfl rfl
  | duplicate signal balance _ _ h =>
    rw [h]
    exact decideSignal_switch _ _ _ _ _
  | evaluated signal balance _ _ _ h =>
    rw [h]
    -- claiming the key touches neither the row nor the mirror
    cases decideSignal_switch { w with redis := w.redis.claim signal.id d.now } d signal balance
      false with
    | kept hstate hmirror => exact .kept hstate hmirror
    | mirrored hstate hmirror => exact .mirrored hstate hmirror
    | enabled hflag hmirror => exact .enabled hflag hmirror

/-! ## The other writers -/

/-- `_find_order` keeps the `SystemState` row. -/
theorem findOrder_systemState (rows : RowOrder) (db : Database) (tradeId : ℤ) (pair : Symbol)
    (side : OrderSide) : (findOrder rows db tradeId pair side).2.systemState = db.systemState := by
  unfold findOrder
  split
  · rfl
  · split <;> rfl

/-- `_handle_entry_fill` keeps the `SystemState` row. -/
theorem handleEntryFill_systemState (ctx : WebhookContext) (db : Database)
    (payload : FreqtradeWebhookPayload) :
    (handleEntryFill ctx db payload).systemState = db.systemState := by
  have hfound := findOrder_systemState ctx.rows db payload.tradeId payload.pair .BUY
  unfold handleEntryFill
  generalize findOrder ctx.rows db payload.tradeId payload.pair .BUY = result at hfound ⊢
  obtain ⟨found, db₁⟩ := result
  cases found with
  | none => exact hfound
  | some order => cases payload.openRate <;> cases payload.amount <;> exact hfound

/-- The order an exit fill settles comes with the `SystemState` row as it was. -/
theorem exitOrder_systemState {ctx : WebhookContext} {db db₂ : Database}
    {payload : FreqtradeWebhookPayload} {closeRate amount : ℚ} {found : Option Order}
    {order : Order} (h : exitOrder ctx db payload closeRate amount found = some (order, db₂)) :
    db₂.systemState = db.systemState := by
  rcases exitOrder_database h with rfl | rfl
  · rfl
  · rfl

/-- `_handle_exit_fill` keeps the `SystemState` row. -/
theorem handleExitFill_systemState (ctx : WebhookContext) (db : Database)
    (payload : FreqtradeWebhookPayload) :
    (handleExitFill ctx db payload).systemState = db.systemState := by
  have hfound := findOrder_systemState ctx.rows db payload.tradeId payload.pair .SELL
  cases handleExitFill_exitFill ctx db payload with
  | ignored _ h => rw [h, hfound]
  | untracked _ _ h => rw [h]
  | unlinked closeRate amount order db₂ _ _ horder _ h =>
    rw [h, Database.modifyOrder_systemState, exitOrder_systemState horder, hfound]
  | settled closeRate amount order db₂ position _ _ horder _ h =>
    rw [h]
    exact (exitOrder_systemState horder).trans hfound

/-- `_mark_cancelled` keeps the `SystemState` row. -/
theorem markCancelled_systemState (ctx : WebhookContext) (db : Database)
    (payload : FreqtradeWebhookPayload) (side : OrderSide) :
    (markCancelled ctx db payload side).systemState = db.systemState := by
  have hfound := findOrder_systemState ctx.rows db payload.tradeId payload.pair side
  unfold markCancelled
  generalize findOrder ctx.rows db payload.tradeId payload.pair side = result at hfound ⊢
  obtain ⟨found, db₁⟩ := result
  cases found with
  | none => exact hfound
  | some order => exact hfound

/-- A webhook request keeps the `SystemState` row. -/
theorem freqtradeWebhook_systemState (ctx : WebhookContext) (db : Database)
    (payload : FreqtradeWebhookPayload) :
    ((freqtradeWebhook ctx db payload).getD db).systemState = db.systemState := by
  unfold freqtradeWebhook
  split
  · rfl
  · rw [Option.getD_some]
    split
    · exact handleEntryFill_systemState ctx db payload
    · exact handleExitFill_systemState ctx db payload
    · exact markCancelled_systemState ctx db payload .BUY
    · exact markCancelled_systemState ctx db payload .SELL
    · rfl

/-- An alert keeps the `SystemState` row. -/
theorem alertOnce_systemState (ctx : ReconcileContext) (db : Database) (order : Order)
    (reason : String) : (alertOnce ctx db order reason).systemState = db.systemState := by
  unfold alertOnce
  split <;> rfl

/-- A round of the first loop keeps the `SystemState` row. -/
theorem reconcileOrder_systemState (ctx : ReconcileContext) (db : Database) (order : Order) :
    (reconcileOrder ctx db order).1.systemState = db.systemState := by
  have hentry : ∀ trade, (reconcileOpenEntry ctx db order trade).1.systemState =
      db.systemState := by
    intro trade
    unfold reconcileOpenEntry
    split
    · exact alertOnce_systemState ctx db order _
    · dsimp only
      split <;> rfl
  have hexit : ∀ trade, (reconcileClosedExit ctx db order trade).1.systemState =
      db.systemState := by
    intro trade
    unfold reconcileClosedExit
    split
    · split
      · exact alertOnce_systemState ctx db order _
      · rfl
    · exact alertOnce_systemState ctx db order _
  unfold reconcileOrder
  split
  · exact alertOnce_systemState ctx db order _
  · split
    · exact alertOnce_systemState ctx db order _
    · split
      · exact alertOnce_systemState ctx db order _
      · split
        · exact hentry _
        · split
          · exact hexit _
          · exact alertOnce_systemState ctx db order _

/-- A round of the second loop keeps the `SystemState` row. -/
theorem reconcilePosition_systemState (ctx : ReconcileContext) (db : Database)
    (row : Position × Order) :
    (reconcilePosition ctx db row).1.systemState = db.systemState := by
  unfold reconcilePosition
  dsimp only
  split
  · rfl
  · split
    · exact alertOnce_systemState ctx db row.2 _
    · split
      · exact alertOnce_systemState ctx db row.2 _
      · split
        · rfl
        · split
          · rfl
          · exact alertOnce_systemState ctx db row.2 _

/-- A reconciliation pass keeps the `SystemState` row. -/
theorem reconcileSubmittedOrders_systemState (ctx : ReconcileContext) (db : Database) :
    (reconcileSubmittedOrders ctx db).1.systemState = db.systemState := by
  unfold reconcileSubmittedOrders reconcileOpenPositions
  dsimp only
  refine @reconcileEach_inv _ _ (fun s => s.systemState = db.systemState) _ ?_ _ ?_
  · exact fun s row _ hs => (reconcilePosition_systemState ctx s row).trans hs
  · refine @reconcileEach_inv _ _ (fun s => s.systemState = db.systemState) _ ?_ _ rfl
    exact fun s row _ hs => (reconcileOrder_systemState ctx s row).trans hs

/-- **A transaction of a writer** keeps the switch, or turns it on. -/
theorem step_switch (w : World) (t : Step) : SwitchEffect w (step w t) := by
  cases t with
  | signal d => exact processSignal_switch w d
  | webhook ctx payload => exact .kept (freqtradeWebhook_systemState ctx w.db payload) rfl
  | reconcile ctx => exact .kept (reconcileSubmittedOrders_systemState ctx w.db) rfl

/-! ## The endpoints -/

/-- The request writes the mirror and then does not commit. -/
def LosesCommit (r : KillSwitchRequest) : Prop :=
  ¬ (r.fails .stateRead = true ∨ r.fails .stateFlush = true ∨ r.fails .auditFlush = true) ∧
    (r.fault .mirror = some .after ∨
      (r.fault .mirror = none ∧ r.fault .commit = some .before))

/-- What a kill-switch request does: nothing, the mirror alone, or both. -/
inductive RequestEffect (w : World) (r : KillSwitchRequest) (w' : World) : Prop
  | nothing (hkept : ¬ LosesCommit r) (h : w' = w)
  | mirror (hlost : LosesCommit r) (h : w' = r.mirrored w)
  | both (hkept : ¬ LosesCommit r) (h : w' = { r.mirrored w with db := r.session w.db })

theorem applyKillSwitch_effect (w : World) (r : KillSwitchRequest) :
    RequestEffect w r (applyKillSwitch w r).1 := by
  unfold applyKillSwitch
  split
  · rename_i hfails
    exact .nothing (fun hlost => hlost.1 hfails) rfl
  · rename_i hgoes
    split
    · rename_i hmirror
      exact .nothing (by simp [LosesCommit, hmirror]) rfl
    · rename_i hmirror
      exact .mirror ⟨hgoes, Or.inl hmirror⟩ rfl
    · rename_i hmirror
      dsimp only
      split
      · rename_i hcommit
        exact .mirror ⟨hgoes, Or.inr ⟨hmirror, hcommit⟩⟩ rfl
      · rename_i hcommit
        exact .both (by simp [LosesCommit, hmirror, hcommit]) rfl
      · rename_i hcommit
        exact .both (by simp [LosesCommit, hmirror, hcommit]) rfl

/-- The flag of the session is the one asked for. -/
theorem isEnabled_session (r : KillSwitchRequest) (db : Database) :
    KillSwitch.isEnabled (r.session db) = decide (r.action = .enable) := by
  unfold KillSwitchRequest.session
  cases r.action <;> rfl

/-- An enable request does not take the flag down. -/
theorem applyKillSwitch_stays (w : World) (r : KillSwitchRequest) (henable : r.action = .enable)
    (hflag : KillSwitch.isEnabled w.db = true) :
    KillSwitch.isEnabled (applyKillSwitch w r).1.db = true := by
  cases applyKillSwitch_effect w r with
  | nothing _ h => rwa [h]
  | mirror _ h =>
    rw [h]
    exact hflag
  | both _ h =>
    rw [h]
    exact (isEnabled_session r w.db).trans (decide_eq_true henable)

/-- A request to disable the switch. -/
def Disables : Operation → Prop
  | .transaction _ => False
  | .killSwitch r => r.action = .disable

/-- **The flag stays up** through every operation but a disable request. -/
theorem operate_stays (w : World) (op : Operation) (hflag : KillSwitch.isEnabled w.db = true)
    (hkeeps : ¬ Disables op) : KillSwitch.isEnabled (operate w op).db = true := by
  cases op with
  | transaction t => exact (step_switch w t).stays hflag
  | killSwitch r =>
    cases haction : r.action with
    | enable => exact applyKillSwitch_stays w r haction hflag
    | disable => exact absurd haction hkeeps

/-! ## Trips -/

/-- Every awaited step but the mirror write goes through. -/
def OnlyMirrorFails (d : Delivery) : Prop :=
  ∀ a, a ≠ .killSwitchMirror → d.fault a = none

/-- Such a step does not raise. -/
theorem OnlyMirrorFails.goes (h : OnlyMirrorFails d) {a : Await} (ha : a ≠ .killSwitchMirror) :
    d.fails a = false := by
  rw [Delivery.fails, h a ha]
  rfl

/-- No awaited step raises. -/
def Faultless (d : Delivery) : Prop := ∀ a, d.fault a = none

/-- The account state loads, where the cluster window is a `timedelta`. -/
theorem OnlyMirrorFails.account_loads (h : OnlyMirrorFails d)
    (hwindow : timedeltaMinutes d.config.consecutiveLossClusterMinutes ≠ none) :
    d.accountRaises = false := by
  have hstate : d.fails .accountState = false := h.goes (by decide)
  simp [Delivery.accountRaises, hstate, Option.isSome_iff_ne_none, hwindow]

/-- The delivery comes to an entry evaluation that trips the switch. -/
structure AutoTrips (w : World) (d : Delivery) (signal : Signal)
    (balance : AccountBalanceSnapshot) : Prop where
  found : w.db.getSignal d.signalId = some signal
  snapshot : getAccountBalance d.balance d.now = some balance
  window : timedeltaMinutes d.config.consecutiveLossClusterMinutes ≠ none
  action : signal.action ≠ .SELL
  trips : (entryEvaluation w d signal balance
    (decide (w.redis.holds signal.id d.now))).autoTripKillswitch = true

/-- An evaluation that trips the switch approves nothing. -/
theorem entryEvaluation_trips {balance : AccountBalanceSnapshot} {isDuplicate : Bool}
    (h : (entryEvaluation w d signal balance isDuplicate).autoTripKillswitch = true) :
    (entryEvaluation w d signal balance isDuplicate).approved = false := by
  rw [← Bool.not_eq_true]
  intro happroved
  obtain ⟨_, -, -, hresult⟩ :=
    evaluate_admitted (evaluate_of_entryResult_approved happroved) happroved
  rw [entryEvaluation, hresult] at h
  cases h

/-- **While the flag is up no entry is approved.** -/
theorem entryEvaluation_enabled (hflag : KillSwitch.isEnabled w.db = true)
    (balance : AccountBalanceSnapshot) (isDuplicate : Bool) :
    (entryEvaluation w d signal balance isDuplicate).approved = false := by
  rw [← Bool.not_eq_true]
  intro happroved
  obtain ⟨_, -, hadmits, -⟩ :=
    evaluate_admitted (evaluate_of_entryResult_approved happroved) happroved
  exact ne_true_of_eq_false hadmits.killswitchOff hflag

/-- While the flag is up no evaluation trips it. -/
theorem not_trips_of_enabled (hflag : KillSwitch.isEnabled w.db = true)
    (balance : AccountBalanceSnapshot) (isDuplicate : Bool) :
    (entryEvaluation w d signal balance isDuplicate).autoTripKillswitch = false := by
  unfold entryEvaluation entryResult evaluate
  rw [hflag]
  split
  · rfl
  · rfl

/-- A trip that reaches the entry handler is committed exactly where the mirror write goes
through. -/
theorem handleEntrySignal_trips (hup : OnlyMirrorFails d) {view : SignalView}
    {account : AccountState} {isDuplicate : Bool} {expectancy : ExpectancyView}
    (hoff : KillSwitch.isEnabled w.db = false)
    (htrips : (entryResult w.db d view account isDuplicate expectancy).autoTripKillswitch = true)
    (hrejected : (entryResult w.db d view account isDuplicate expectancy).approved = false) :
    KillSwitch.isEnabled
        (handleEntrySignal w d signal view account isDuplicate expectancy).world.db = true ↔
      d.fault .killSwitchMirror = none := by
  have hread : d.fails .killSwitchRead = false := hup.goes (by decide)
  have hwrite : d.fails .killSwitchWrite = false := hup.goes (by decide)
  have hflush : d.fails .decisionFlush = false := hup.goes (by decide)
  have haudit : d.fails .auditWrite = false := hup.goes (by decide)
  have hcommit : d.fault .commit = none := hup _ (by decide)
  unfold handleEntrySignal
  rw [if_neg (ne_true_of_eq_false hread)]
  generalize entryResult w.db d view account isDuplicate expectancy = result at htrips hrejected ⊢
  dsimp only
  cases autoTrip_trip w d signal result with
  | untripped huntripped _ =>
    rw [htrips] at huntripped
    cases huntripped
  | tripped session _ _ hmirror hflag _ _ h =>
    rw [h]
    dsimp only
    rw [if_neg (ne_true_of_eq_false hflush), if_neg (ne_true_of_eq_false haudit)]
    refine iff_of_true ?_ hmirror
    -- the decision is a rejection, so the session that holds the flag is committed as it is
    rw [submitApprovedEntry, if_neg (ne_true_of_eq_false hrejected)]
    simp only [World.finish, World.commit, hcommit]
    exact (isEnabled_congr rfl).trans hflag
  | lost w' _ hfails hw' h =>
    rw [h]
    refine iff_of_false (ne_true_of_eq_false ?_) ?_
    · rcases hw' with rfl | rfl
      · exact hoff
      · exact hoff
    · rcases hfails with hfails | hfails
      · rw [hwrite] at hfails
        cases hfails
      · intro hmirror
        simp [Delivery.fails, hmirror] at hfails

/-- A decision that trips commits the trip exactly where the mirror write goes through. -/
theorem decideSignal_trips {balance : AccountBalanceSnapshot} {isDuplicate : Bool}
    (hup : OnlyMirrorFails d)
    (hwindow : timedeltaMinutes d.config.consecutiveLossClusterMinutes ≠ none)
    (haction : ¬ signal.action = .SELL)
    (hoff : KillSwitch.isEnabled w.db = false)
    (htrips : (entryEvaluation w d signal balance isDuplicate).autoTripKillswitch = true) :
    KillSwitch.isEnabled (decideSignal w d signal balance isDuplicate).world.db = true ↔
      d.fault .killSwitchMirror = none := by
  have haccount := hup.account_loads hwindow
  have hexpectancy : d.fails .expectancy = false := hup.goes (by decide)
  have hrejected := entryEvaluation_trips htrips
  unfold entryEvaluation at htrips hrejected
  unfold decideSignal
  rw [if_neg (ne_true_of_eq_false haccount), if_neg haction,
    if_neg (ne_true_of_eq_false hexpectancy)]
  exact handleEntrySignal_trips hup hoff htrips hrejected

/-- **A trip is committed exactly where the mirror write goes through**, all else being up. -/
theorem trip_committed_iff {balance : AccountBalanceSnapshot} (hup : OnlyMirrorFails d)
    (h : AutoTrips w d signal balance) :
    KillSwitch.isEnabled (processSignal w d).world.db = true ↔
      d.fault .killSwitchMirror = none := by
  have hload : d.fails .loadSignal = false := hup.goes (by decide)
  have hpublish : d.fails .publishBalance = false := hup.goes (by decide)
  have hclaim : d.fault .claimKey = none := hup _ (by decide)
  have hclaims : d.fails .claimKey = false := by simp [Delivery.fails, hclaim]
  have hoff : KillSwitch.isEnabled w.db = false := by
    rw [← Bool.not_eq_true]
    intro hflag
    have hnone : (entryEvaluation w d signal balance
        (decide (w.redis.holds signal.id d.now))).autoTripKillswitch = false :=
      not_trips_of_enabled hflag balance _
    rw [h.trips] at hnone
    cases hnone
  have htrips := h.trips
  unfold processSignal
  rw [if_neg (ne_true_of_eq_false hload), h.found]
  dsimp only
  rw [h.snapshot]
  dsimp only
  rw [if_neg (ne_true_of_eq_false hpublish)]
  by_cases hheld : w.redis.holds signal.id d.now
  · rw [decide_eq_true hheld] at htrips
    rw [if_pos hheld, if_neg (ne_true_of_eq_false hclaims)]
    exact decideSignal_trips hup h.window h.action hoff htrips
  · rw [decide_eq_false hheld] at htrips
    rw [if_neg hheld, hclaim]
    -- the claim of the key touches no table
    exact @decideSignal_trips { w with redis := w.redis.claim signal.id d.now } d signal balance
      false hup h.window h.action hoff htrips

/-! ## Exits -/

/-- The tables with another `SystemState` row. -/
def withSystemState (state : Option SystemState) (db : Database) : Database :=
  { db with systemState := state }

/-- The world with another `SystemState` row. -/
def worldWith (state : Option SystemState) (w : World) : World :=
  { w with db := withSystemState state w.db }

/-- The attempt with another `SystemState` row. -/
def attemptWith (state : Option SystemState) (a : Attempt) : Attempt :=
  { a with world := worldWith state a.world }

variable (state : Option SystemState)

/-- Finishing a session with another row leaves that row. -/
theorem finish_withSystemState (w : World) (d : Delivery) (decision : RiskDecision)
    (submission : Option Database × List FreqtradeCall) :
    (worldWith state w).finish d decision
        (submission.1.map (withSystemState state), submission.2) =
      attemptWith state (w.finish d decision submission) := by
  obtain ⟨session, calls⟩ := submission
  cases session with
  | none => rfl
  | some session =>
    simp only [World.finish, World.commit, Option.map_some]
    split <;> rfl

/-- `_submit_exit_order` does not read the `SystemState` row. -/
theorem submitExitOrder_withSystemState (d : Delivery) (session : Database) (signal : Signal)
    (id : Uuid) :
    submitExitOrder d (withSystemState state session) signal id =
      ((submitExitOrder d session signal id).1.map (withSystemState state),
        (submitExitOrder d session signal id).2) := by
  have hpositions : (withSystemState state session).positions = session.positions := rfl
  have hentry : ∀ orderId, (withSystemState state session).getOrder orderId =
      session.getOrder orderId := fun _ => rfl
  unfold submitExitOrder
  rw [hpositions]
  cases d.fails .submitRead with
  | true => rfl
  | false =>
    cases d.rows.positions.first (session.positions.filter fun p =>
        p.symbol = signal.symbol ∧ p.status = .OPEN) with
    | none => rfl
    | some position =>
      dsimp only
      rw [hentry]
      cases (session.getOrder position.entryOrderId).bind Order.freqtradeTradeId with
      | none => rfl
      | some tradeId =>
        dsimp only
        generalize forceexitOpenTrade d signal.symbol tradeId = submission
        obtain ⟨submitted, calls⟩ := submission
        cases d.fails .submitFlush <;> cases submitted <;> rfl

/-- The order half of an exit does not read the `SystemState` row. -/
theorem submitApprovedExit_withSystemState (d : Delivery) (session : Database)
    (signal : Signal) (id : Uuid) (result : ExitDecisionResult) :
    submitApprovedExit d (withSystemState state session) signal id result =
      ((submitApprovedExit d session signal id result).1.map (withSystemState state),
        (submitApprovedExit d session signal id result).2) := by
  unfold submitApprovedExit
  split
  · exact submitExitOrder_withSystemState state d session signal id
  · rfl

/-- The exit evaluation reads the equity and the open pairs only. -/
theorem exitResult_withSystemState (w : World) (d : Delivery) (signal : Signal)
    (balance : AccountBalanceSnapshot) (isDuplicate : Bool) :
    exitResult d signal.view (d.account (withSystemState state w.db) balance) isDuplicate =
      exitResult d signal.view (d.account w.db balance) isDuplicate := rfl

/-- `_handle_exit_signal` does not read the `SystemState` row. -/
theorem handleExitSignal_withSystemState (w : World) (d : Delivery) (signal : Signal)
    (balance : AccountBalanceSnapshot) (isDuplicate : Bool) :
    handleExitSignal (worldWith state w) d signal signal.view
        (d.account (withSystemState state w.db) balance) isDuplicate =
      attemptWith state (handleExitSignal w d signal signal.view (d.account w.db balance)
        isDuplicate) := by
  unfold handleExitSignal
  rw [exitResult_withSystemState]
  generalize exitResult d signal.view (d.account w.db balance) isDuplicate = result
  dsimp only
  split
  · rfl
  · split
    · rfl
    · rw [← finish_withSystemState, ← submitApprovedExit_withSystemState]
      rfl

/-- Recording that the balance is unavailable does not read the `SystemState` row. -/
theorem recordBalanceUnavailable_withSystemState (w : World) (d : Delivery) (signal : Signal) :
    recordBalanceUnavailable (worldWith state w) d signal =
      attemptWith state (recordBalanceUnavailable w d signal) := by
  unfold recordBalanceUnavailable World.commit
  cases d.fails .auditWrite with
  | true => rfl
  | false =>
    cases d.fault .commit with
    | none => rfl
    | some fault => cases fault <;> rfl

/-- The part of an attempt after the idempotency key does not read the `SystemState` row on a
SELL signal. -/
theorem decideSignal_withSystemState (w : World) (d : Delivery) {signal : Signal}
    (balance : AccountBalanceSnapshot) (isDuplicate : Bool) (hsell : signal.action = .SELL) :
    decideSignal (worldWith state w) d signal balance isDuplicate =
      attemptWith state (decideSignal w d signal balance isDuplicate) := by
  unfold decideSignal
  cases d.accountRaises with
  | true => rfl
  | false =>
    simp only [Bool.false_eq_true, if_false, if_pos hsell]
    exact handleExitSignal_withSystemState state w d signal balance isDuplicate

/-- **The exit path does not read the switch.**  On a SELL signal an attempt asks the same
of Freqtrade, records the same decision and writes the same rows whatever the `SystemState`
row says. -/
theorem processSignal_withSystemState (w : World) (d : Delivery)
    (hsell : ∀ signal, w.db.getSignal d.signalId = some signal → signal.action = .SELL) :
    processSignal (worldWith state w) d = attemptWith state (processSignal w d) := by
  have hget : (worldWith state w).db.getSignal d.signalId = w.db.getSignal d.signalId := rfl
  unfold processSignal
  rw [hget]
  cases d.fails .loadSignal with
  | true => rfl
  | false =>
    cases hsignal : w.db.getSignal d.signalId with
    | none => rfl
    | some signal =>
      dsimp only
      cases getAccountBalance d.balance d.now with
      | none =>
        exact recordBalanceUnavailable_withSystemState state w d signal
      | some balance =>
        have haction := hsell signal hsignal
        dsimp only
        cases d.fails .publishBalance with
        | true => rfl
        | false =>
          by_cases hheld : w.redis.holds signal.id d.now
          · have hheld' : (worldWith state w).redis.holds signal.id d.now := hheld
            simp only [Bool.false_eq_true, if_false, if_pos hheld, if_pos hheld']
            cases d.fails .claimKey with
            | true => rfl
            | false => exact decideSignal_withSystemState state w d balance true haction
          · have hheld' : ¬ (worldWith state w).redis.holds signal.id d.now := hheld
            simp only [Bool.false_eq_true, if_false, if_neg hheld, if_neg hheld']
            cases d.fault .claimKey with
            | none =>
              exact decideSignal_withSystemState state
                { w with redis := w.redis.claim signal.id d.now } d balance false haction
            | some fault => cases fault <;> rfl

/-! ## The latch -/

/-- A delivery that starts while the flag is up asks Freqtrade for no entry. -/
def EntersOnlyWhileOff (w : World) : Operation → Prop
  | .transaction (.signal d) => KillSwitch.isEnabled w.db = true →
      ∀ pair stake tag, FreqtradeCall.forceenter pair stake tag ∉ (processSignal w d).calls
  | _ => True

/-- A delivery that meets no failure and whose evaluation trips the switch. -/
def TripsCleanly (w : World) : Operation → Prop
  | .transaction (.signal d) =>
    Faultless d ∧ ∃ signal balance, AutoTrips w d signal balance
  | _ => False

/-- A delivery of a SELL signal asks the same of Freqtrade, decides the same and writes the
same rows whatever the `SystemState` row says. -/
def ExitsWhateverTheSwitch (w : World) : Operation → Prop
  | .transaction (.signal d) =>
    (∀ signal, w.db.getSignal d.signalId = some signal → signal.action = .SELL) →
      ∀ state, processSignal (worldWith state w) d = attemptWith state (processSignal w d)
  | _ => True

/-- While the flag is up a delivered signal enters nothing. -/
theorem entersOnlyWhileOff (w : World) (op : Operation) : EntersOnlyWhileOff w op := by
  cases op with
  | killSwitch r => trivial
  | transaction t =>
    cases t with
    | webhook ctx payload => trivial
    | reconcile ctx => trivial
    | signal d =>
      intro hflag pair stake tag hcall
      cases processSignal_effect w d with
      | quiet hcalls _ _ _ =>
        rw [hcalls] at hcall
        cases hcall
      | entry signal balance happroves _ _ _ =>
        have hrejected : (entryEvaluation w d signal balance false).approved = false :=
          entryEvaluation_enabled hflag balance false
        rw [happroves.approved] at hrejected
        cases hrejected
      | exit _ _ _ _ hcalls _ =>
        rcases hcalls with hcalls | ⟨tradeId, hcalls⟩
        · rw [hcalls] at hcall
          cases hcall
        · rw [hcalls, List.mem_singleton] at hcall
          cases hcall

/-- **The kill switch latches.**  In every run of deliveries, fills, reconciliation passes and
operator requests: no delivery that starts while the flag is up asks for an entry; after a
clean delivery whose evaluation trips the switch the flag is up until a disable request; and
what the delivery of a SELL signal does never depends on the switch. -/
theorem kill_switch_latches (w : World) (ops : List Operation) :
    AllSteps operate EntersOnlyWhileOff w ops ∧
      Latches operate TripsCleanly (fun w => KillSwitch.isEnabled w.db = true) Disables w ops ∧
      AllSteps operate ExitsWhateverTheSwitch w ops := by
  refine ⟨allSteps_of_forall entersOnlyWhileOff w ops, ?_, allSteps_of_forall ?_ w ops⟩
  · refine latches_of_kept ?_ operate_stays w ops
    intro w op htrips
    cases op with
    | killSwitch r => exact htrips.elim
    | transaction t =>
      cases t with
      | webhook ctx payload => exact htrips.elim
      | reconcile ctx => exact htrips.elim
      | signal d =>
        obtain ⟨hclean, signal, balance, htrips⟩ := htrips
        exact (trip_committed_iff (fun a _ => hclean a) htrips).mpr (hclean _)
  · intro w op
    cases op with
    | killSwitch r => trivial
    | transaction t =>
      cases t with
      | webhook ctx payload => trivial
      | reconcile ctx => trivial
      | signal d => exact fun hsell state => processSignal_withSystemState state w d hsell

/-- A request of an operator that meets the given faults. -/
def operatorRequest (action : KillSwitchAction) (reason : String)
    (fault : ApplyAwait → Option Fault) : KillSwitchRequest where
  action
  reason
  updatedBy := none
  traceId := 9
  startedAt := 0
  now := 0
  fault

/-- An enable request whose reply is lost has switched the switch on. -/
example :
    KillSwitch.isEnabled (operate {} (.killSwitch (operatorRequest .enable "drawdown"
      fun a => if a = .commit then some .after else none))).db = true := by
  decide +kernel

end TradeMind.Analysis
