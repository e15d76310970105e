import TradeMind.Analysis.CycleLock
import TradeMind.Analysis.ReconcileEffects
import TradeMind.Analysis.SignalEffects
import TradeMind.Analysis.WebhookEffects
import TradeMind.Model.SignalPublishing

/-!
# Commit before publish

The stream names committed rows: whatever else runs, the risk engine finds every signal it
reads.  A committed row is published once, or its invocation ended between the commit and the
XADD.  And the idempotency key of a candle outlives the time the candle is the latest one, so a
candle has one signal, whether or not the cycle lock excluded the others.
-/

set_option autoImplicit false

namespace TradeMind.Analysis

open TradeMind.Library TradeMind.Model TradeMind.Model.Scheduler

universe u

/-! ## The other services keep the signals -/

/-- `db'` has the signals of `db`, and has handed out no fewer ids. -/
structure SignalsKept (db db' : Database) : Prop where
  signals : db'.signals = db.signals
  nextId : db.nextId ≤ db'.nextId

namespace SignalsKept

theorem refl (db : Database) : SignalsKept db db := ⟨rfl, le_rfl⟩

theorem trans {db db' db'' : Database} (h : SignalsKept db db') (h' : SignalsKept db' db'') :
    SignalsKept db db'' :=
  ⟨h'.signals.trans h.signals, h.nextId.trans h'.nextId⟩

theorem of_sameBook {db db' : Database} (h : SameBook db db') : SignalsKept db db' :=
  ⟨h.signals, h.nextId⟩

variable {db db' : Database} (h : SignalsKept db db')
include h

theorem addAuditEvent (startedAt : Time) (traceId : Uuid) (type : AuditEventType)
    (payload : Payload) : SignalsKept db (db'.addAuditEvent startedAt traceId type payload) :=
  ⟨h.signals, h.nextId.trans (Nat.le_succ _)⟩

theorem insertOrder (o : Order) : SignalsKept db (db'.insertOrder o) :=
  ⟨h.signals, h.nextId.trans (Nat.le_succ _)⟩

theorem insertPosition (p : Position) : SignalsKept db (db'.insertPosition p) :=
  ⟨h.signals, h.nextId.trans (Nat.le_succ _)⟩

theorem modifyOrder (id : Uuid) (f : Order → Order) : SignalsKept db (db'.modifyOrder id f) :=
  ⟨h.signals, h.nextId⟩

theorem modifyPosition (id : Uuid) (f : Position → Position) :
    SignalsKept db (db'.modifyPosition id f) :=
  ⟨h.signals, h.nextId⟩

end SignalsKept

/-- A round over a stale order keeps the signals. -/
theorem OrderReconciled.signalsKept {ctx : ReconcileContext} {db db' : Database} {order : Order}
    (h : OrderReconciled ctx db order db') : SignalsKept db db' := by
  cases h with
  | alerted hbook => exact .of_sameBook hbook
  | entered _ _ _ _ _ hsignals hnextId => exact ⟨hsignals, hnextId.le⟩
  | exited _ _ _ _ _ _ _ _ _ _ _ _ hsignals hnextId => exact ⟨hsignals, hnextId⟩

/-- The reconciliation of an open position keeps every signal. -/
theorem PositionReconciled.signalsKept {ctx : ReconcileContext} {db db' : Database}
    {position : Position} {entry : Order} (h : PositionReconciled ctx db position entry db') :
    SignalsKept db db' := by
  cases h with
  | alerted hbook => exact .of_sameBook hbook
  | closed _ _ _ _ _ _ _ _ _ _ _ _ _ hsignals hnextId => exact ⟨hsignals, hnextId.le⟩

/-- An attempt at a signal keeps every signal, whatever comes of it. -/
theorem processSignal_signalsKept (w : World) (d : Delivery) :
    SignalsKept w.db (processSignal w d).world.db := by
  cases processSignal_effect w d with
  | quiet _ hbook => exact .of_sameBook hbook
  | entry _ _ _ _ _ hbook =>
    rcases hbook with hsame | ⟨_, order, _, _, hentered⟩
    · rw [hsame]
      exact .refl _
    · exact ⟨hentered.signals, hentered.le_id.trans hentered.id_lt.le⟩
  | exit _ _ _ _ _ hbook =>
    rcases hbook with hsame | ⟨_, _, _, hbook | ⟨order, position, hexited⟩⟩
    · rw [hsame]
      exact .refl _
    · exact .of_sameBook hbook
    · exact ⟨hexited.signals, hexited.le_id.trans hexited.id_lt.le⟩

section Webhook

variable (ctx : WebhookContext) (db : Database) (payload : FreqtradeWebhookPayload)

theorem findOrder_signalsKept (side : OrderSide) :
    SignalsKept db (findOrder ctx.rows db payload.tradeId payload.pair side).2 := by
  refine ⟨?_, findOrder_nextId.ge⟩
  cases findOrder_found ctx.rows db payload.tradeId payload.pair side with
  | known _ _ _ _ h => rw [h]
  | backfilled _ _ _ _ h => rw [h]; rfl
  | missing _ _ h => rw [h]

theorem handleEntryFill_signalsKept : SignalsKept db (handleEntryFill ctx db payload) := by
  have hfind := findOrder_signalsKept ctx db payload .BUY
  unfold handleEntryFill
  generalize findOrder ctx.rows db payload.tradeId payload.pair .BUY = found at hfind ⊢
  split
  · exact (((SignalsKept.modifyOrder hfind _ _).insertPosition _).addAuditEvent _ _ _
      _).addAuditEvent _ _ _ _
  · exact hfind

theorem handleExitFill_signalsKept : SignalsKept db (handleExitFill ctx db payload) := by
  have hfind := findOrder_signalsKept ctx db payload .SELL
  have hinserted : ∀ {closeRate amount : ℚ} {order : Order} {db₂ : Database},
      exitOrder ctx (findOrder ctx.rows db payload.tradeId payload.pair .SELL).2 payload closeRate
        amount (findOrder ctx.rows db payload.tradeId payload.pair .SELL).1 = some (order, db₂) →
      SignalsKept db db₂ := by
    intro closeRate amount order db₂ horder
    rcases exitOrder_database horder with rfl | rfl
    · exact hfind
    · exact hfind.insertOrder _
  cases handleExitFill_exitFill ctx db payload with
  | ignored _ h => rw [h]; exact hfind
  | untracked _ _ h => rw [h]; exact .refl _
  | unlinked _ _ _ _ _ _ horder _ h =>
    rw [h]
    exact (hinserted horder).modifyOrder _ _
  | settled _ _ _ _ _ _ _ horder _ h =>
    rw [h]
    exact ((((hinserted horder).modifyOrder _ _).modifyPosition _ _).addAuditEvent _ _ _
      _).addAuditEvent _ _ _ _

theorem markCancelled_signalsKept (side : OrderSide) :
    SignalsKept db (markCancelled ctx db payload side) := by
  have hfind := findOrder_signalsKept ctx db payload side
  unfold markCancelled
  split
  · next db₁ hfound => rw [hfound] at hfind; exact hfind
  · next order db₁ hfound =>
    rw [hfound] at hfind
    exact (SignalsKept.modifyOrder hfind _ _).addAuditEvent _ _ _ _

theorem freqtradeWebhook_signalsKept :
    SignalsKept db ((freqtradeWebhook ctx db payload).getD db) := by
  unfold freqtradeWebhook
  split
  · exact .refl db
  · rw [Option.getD_some]
    split
    · exact handleEntryFill_signalsKept ctx db payload
    · exact handleExitFill_signalsKept ctx db payload
    · exact markCancelled_signalsKept ctx db payload .BUY
    · exact markCancelled_signalsKept ctx db payload .SELL
    · exact .refl db

end Webhook

/-- **The other services keep the signals.** -/
theorem step_signalsKept (w : World) (s : Step) : SignalsKept w.db (step w s).db := by
  cases s with
  | signal d => exact processSignal_signalsKept w d
  | webhook ctx payload => exact freqtradeWebhook_signalsKept ctx w.db payload
  | reconcile ctx =>
    exact reconcileSubmittedOrders_inv (SignalsKept w.db) ctx
      (fun _ _ _ h hround => h.trans hround.signalsKept)
      (fun _ _ _ _ h hround => h.trans hround.signalsKept) (.refl w.db)

/-! ## A signal that is stored is found -/

/-- An attempt that gets to the evaluation does not miss its signal. -/
theorem decideSignal_outcome (w : World) (d : Delivery) (signal : Signal)
    (balance : AccountBalanceSnapshot) (isDuplicate : Bool) :
    (decideSignal w d signal balance isDuplicate).outcome ≠ .signalNotFound := by
  have hraised : ∀ (w : World) (calls : List FreqtradeCall),
      (w.raised calls).outcome ≠ .signalNotFound := fun _ _ => AttemptOutcome.noConfusion
  have hfinish : ∀ (w : World) (decision : RiskDecision)
      (submission : Option Database × List FreqtradeCall),
      (w.finish d decision submission).outcome ≠ .signalNotFound := by
    rintro w decision ⟨session | session, calls⟩
    · exact hraised w calls
    · simp only [World.finish, World.commit]
      split <;> exact AttemptOutcome.noConfusion
  unfold decideSignal
  dsimp only
  split
  · exact hraised w []
  · split
    · unfold handleExitSignal
      dsimp only
      split
      · exact hraised w []
      · split
        · exact hraised w []
        · exact hfinish _ _ _
    · split
      · exact hraised w []
      · unfold handleEntrySignal
        dsimp only
        split
        · exact hraised w []
        · split
          · exact hraised _ []
          · split
            · exact hraised _ []
            · split
              · exact hraised _ []
              · exact hfinish _ _ _

/-- An attempt reports a missing signal only where the row is missing. -/
theorem processSignal_finds {w : World} {d : Delivery} {signal : Signal}
    (h : w.db.getSignal d.signalId = some signal) :
    (processSignal w d).outcome ≠ .signalNotFound := by
  cases processSignal_course w d with
  | stopped _ hcourse => rw [hcourse]; exact AttemptOutcome.noConfusion
  | notFound hnone _ => rw [h] at hnone; cases hnone
  | balanceUnavailable signal' _ _ hcourse =>
    rw [hcourse, recordBalanceUnavailable]
    dsimp only
    split
    · exact AttemptOutcome.noConfusion
    · simp only [World.commit]
      split <;> exact AttemptOutcome.noConfusion
  | claimLost _ _ _ _ _ hcourse => rw [hcourse]; exact AttemptOutcome.noConfusion
  | duplicate signal' balance _ _ hcourse =>
    rw [hcourse]
    exact decideSignal_outcome w d signal' balance true
  | evaluated signal' balance _ _ _ hcourse =>
    rw [hcourse]
    exact decideSignal_outcome _ d signal' balance false

/-! ## What is committed, and what of it is published -/

variable {ι : Type u}

/-- The ids of the committed signals. -/
def committedIds (w : PublishingWorld ι) : List Uuid := w.world.db.signals.map Signal.id

/-- Committed rows and published ones: the stream names rows, each once, and every other row is
that of one invocation which has not published it. -/
structure Outbox (w : PublishingWorld ι) : Prop where
  below : ∀ id ∈ committedIds w, id < w.world.db.nextId
  distinct : (committedIds w).Nodup
  published : ∀ id ∈ w.stream, id ∈ committedIds w
  once : w.stream.Nodup
  waiting : ∀ i id, (w.stage i).unpublished = some id → id ∈ committedIds w ∧ id ∉ w.stream
  owner : ∀ i j id, (w.stage i).unpublished = some id → (w.stage j).unpublished = some id → i = j
  accounted : ∀ id ∈ committedIds w, id ∈ w.stream ∨ ∃ i, (w.stage i).unpublished = some id

variable {w : PublishingWorld ι}

/-- A step that neither commits nor publishes keeps it. -/
theorem Outbox.quiet (h : Outbox w) {w' : PublishingWorld ι}
    (hkept : SignalsKept w.world.db w'.world.db) (hstream : w'.stream = w.stream)
    (hstage : ∀ i, (w'.stage i).unpublished = (w.stage i).unpublished) : Outbox w' := by
  have hids : committedIds w' = committedIds w := congrArg (List.map Signal.id) hkept.signals
  constructor
  · intro id hid
    exact (h.below id (hids ▸ hid)).trans_le hkept.nextId
  · rw [hids]
    exact h.distinct
  · rw [hids, hstream]
    exact h.published
  · rw [hstream]
    exact h.once
  · intro i id
    rw [hstage, hids, hstream]
    exact h.waiting i id
  · intro i j id
    rw [hstage, hstage]
    exact h.owner i j id
  · intro id
    rw [hids, hstream]
    simp only [hstage]
    exact h.accounted id

/-- What a cycle commits: its row, under the next id. -/
theorem recordSignal_signals (db : Database) (startedAt : Time) (signal : Signal)
    (alert : Option HealthAlert) :
    (recordSignal db startedAt signal alert).signals = db.signals ++ [signal] ∧
      db.nextId < (recordSignal db startedAt signal alert).nextId := by
  unfold recordSignal
  cases alert with
  | none => exact ⟨rfl, Nat.lt_succ_of_lt (Nat.lt_succ_self _)⟩
  | some alert => exact ⟨rfl, Nat.lt_succ_of_lt (Nat.lt_succ_of_lt (Nat.lt_succ_self _))⟩

variable [DecidableEq ι]

/-- Where the others stand, and the one that moves. -/
theorem stage_moveTo (w : PublishingWorld ι) (i : ι) (stage : CycleStage) (j : ι) :
    (w.moveTo i stage).stage j = if j = i then stage else w.stage j := by
  simp only [PublishingWorld.moveTo, Function.update_apply]

theorem unpublished_moveTo (w : PublishingWorld ι) (i : ι) (stage : CycleStage) (j : ι) :
    ((w.moveTo i stage).stage j).unpublished =
      if j = i then stage.unpublished else (w.stage j).unpublished := by
  rw [stage_moveTo, apply_ite CycleStage.unpublished]

theorem Outbox.moveTo (h : Outbox w) {i : ι} {stage : CycleStage}
    (hstage : stage.unpublished = (w.stage i).unpublished) : Outbox (w.moveTo i stage) := by
  refine h.quiet (.refl _) rfl fun j => ?_
  rw [unpublished_moveTo]
  split
  · next heq => rw [heq, hstage]
  · rfl

/-- A commit adds a row, and makes it that of an invocation that had none. -/
theorem Outbox.record (h : Outbox w) {w' : PublishingWorld ι} {i : ι} {signalId : Uuid}
    (hnone : (w.stage i).unpublished = none) (hid : signalId = w.world.db.nextId)
    (hids : committedIds w' = committedIds w ++ [signalId])
    (hnext : w.world.db.nextId < w'.world.db.nextId) (hstream : w'.stream = w.stream)
    (hstage : ∀ j, (w'.stage j).unpublished =
      if j = i then some signalId else (w.stage j).unpublished) : Outbox w' := by
  have hfresh : signalId ∉ committedIds w := fun hmem =>
    absurd (h.below signalId hmem) (hid ▸ lt_irrefl _)
  have hcases : ∀ j id, (w'.stage j).unpublished = some id →
      j = i ∧ id = signalId ∨ j ≠ i ∧ (w.stage j).unpublished = some id := by
    intro j id hj
    rw [hstage] at hj
    split at hj
    · next heq => exact .inl ⟨heq, (Option.some.inj hj).symm⟩
    · next hne => exact .inr ⟨hne, hj⟩
  constructor
  · intro id hmem
    rw [hids] at hmem
    rcases List.mem_append.mp hmem with hold | hnew
    · exact (h.below id hold).trans hnext
    · rw [List.mem_singleton.mp hnew, hid]
      exact hnext
  · rw [hids, List.nodup_append']
    exact ⟨h.distinct, List.nodup_singleton _, List.disjoint_singleton.mpr hfresh⟩
  · intro id hmem
    rw [hstream] at hmem
    rw [hids]
    exact List.mem_append_left _ (h.published id hmem)
  · rw [hstream]
    exact h.once
  · intro j id hj
    rw [hids, hstream]
    rcases hcases j id hj with ⟨-, rfl⟩ | ⟨-, hj⟩
    · exact ⟨by simp, fun hmem => hfresh (h.published _ hmem)⟩
    · obtain ⟨hmem, hout⟩ := h.waiting j id hj
      exact ⟨List.mem_append_left _ hmem, hout⟩
  · intro j k id hj hk
    rcases hcases j id hj with ⟨rfl, rfl⟩ | ⟨-, hj⟩ <;>
      rcases hcases k _ hk with ⟨rfl, hid'⟩ | ⟨-, hk⟩
    · rfl
    · exact absurd (h.waiting k _ hk).1 hfresh
    · exact absurd (hid' ▸ (h.waiting j _ hj).1) hfresh
    · exact h.owner j k id hj hk
  · intro id hmem
    rw [hids] at hmem
    rw [hstream]
    rcases List.mem_append.mp hmem with hold | hnew
    · rcases h.accounted id hold with hin | ⟨j, hj⟩
      · exact .inl hin
      · refine .inr ⟨j, ?_⟩
        rw [hstage, if_neg fun heq => by rw [heq, hnone] at hj; cases hj]
        exact hj
    · refine .inr ⟨i, ?_⟩
      rw [hstage, if_pos rfl, List.mem_singleton.mp hnew]

/-- An XADD publishes the row of the invocation that moves. -/
theorem Outbox.publish (h : Outbox w) {w' : PublishingWorld ι} {i : ι} {signalId : Uuid}
    (hi : (w.stage i).unpublished = some signalId) (hworld : w'.world = w.world)
    (hstream : w'.stream = w.stream ++ [signalId])
    (hstage : ∀ j, (w'.stage j).unpublished =
      if j = i then none else (w.stage j).unpublished) : Outbox w' := by
  obtain ⟨hcommitted, hout⟩ := h.waiting i signalId hi
  have hids : committedIds w' = committedIds w := by rw [committedIds, committedIds, hworld]
  have hcases : ∀ j id, (w'.stage j).unpublished = some id →
      j ≠ i ∧ (w.stage j).unpublished = some id := by
    intro j id hj
    rw [hstage] at hj
    split at hj
    · cases hj
    · next hne => exact ⟨hne, hj⟩
  constructor
  · rw [hids, hworld]
    exact h.below
  · rw [hids]
    exact h.distinct
  · intro id hmem
    rw [hstream] at hmem
    rw [hids]
    rcases List.mem_append.mp hmem with hold | hnew
    · exact h.published id hold
    · rw [List.mem_singleton.mp hnew]
      exact hcommitted
  · rw [hstream, List.nodup_append']
    exact ⟨h.once, List.nodup_singleton _, List.disjoint_singleton.mpr hout⟩
  · intro j id hj
    obtain ⟨hne, hj⟩ := hcases j id hj
    obtain ⟨hmem, hnot⟩ := h.waiting j id hj
    rw [hids, hstream]
    refine ⟨hmem, fun hin => ?_⟩
    rcases List.mem_append.mp hin with hold | hnew
    · exact hnot hold
    · rw [List.mem_singleton.mp hnew] at hj
      exact hne (h.owner j i signalId hj hi)
  · intro j k id hj hk
    exact h.owner j k id (hcases j id hj).2 (hcases k id hk).2
  · intro id hmem
    rw [hids] at hmem
    rw [hstream]
    rcases h.accounted id hmem with hin | ⟨j, hj⟩
    · exact .inl (List.mem_append_left _ hin)
    · by_cases heq : j = i
      · rw [heq, hi] at hj
        cases hj
        exact .inl (by simp)
      · refine .inr ⟨j, ?_⟩
        rw [hstage, if_neg heq]
        exact hj

/-- A claim touches no account. -/
theorem Outbox.claim (h : Outbox w) (timeframe : History.Timeframe) {i : ι}
    (hnone : (w.stage i).unpublished = none) (symbol : Symbol) (candleOpenMs : ℤ)
    (fault : Option Fault) : Outbox (w.claim timeframe i symbol candleOpenMs fault) := by
  have hcycles : ∀ cycles, Outbox { w with cycles } := fun cycles =>
    h.quiet (.refl _) rfl fun _ => rfl
  unfold PublishingWorld.claim
  dsimp only
  split_ifs
  · exact h.moveTo hnone.symm
  · exact h.moveTo hnone.symm
  · exact (hcycles _).moveTo hnone.symm
  · exact (hcycles _).moveTo hnone.symm

/-- **Every step keeps the accounts.** -/
theorem Outbox.step (settings : CycleSettings) (h : Outbox w) (event : PublishingStep ι) :
    Outbox (publishingStep settings w event) := by
  cases event with
  | pass duration => exact h.quiet (.refl _) rfl fun _ => rfl
  | acquire i symbol =>
    simp only [publishingStep]
    split
    · exact h.quiet (.refl _) rfl fun _ => rfl
    · exact h
  | claim i raw nowMs fault =>
    simp only [publishingStep]
    split
    · next symbol _ _ hstage =>
      have hnone : (w.stage i).unpublished = none := by rw [hstage]; rfl
      split
      · next latest _ =>
        split_ifs
        · exact h.moveTo hnone.symm
        · exact h.claim settings.timeframe hnone symbol latest.t fault
      · exact h.moveTo hnone.symm
    · exact h
  | commit i startedAt answer fault =>
    simp only [publishingStep]
    split
    · next symbol candleOpenMs hstage =>
      have hnone : (w.stage i).unpublished = none := by rw [hstage]; rfl
      obtain ⟨hsignals, hnext⟩ := recordSignal_signals w.world.db startedAt
        (signalRow w.world.db.nextId settings.timeframe symbol candleOpenMs answer)
        (answer.alert symbol)
      have hids := (congrArg (List.map Signal.id) hsignals).trans List.map_append
      unfold PublishingWorld.commit
      dsimp only
      split
      · exact h.moveTo hnone.symm
      · exact h.record hnone rfl hids hnext rfl (unpublished_moveTo _ i _)
      · exact h.record hnone rfl hids hnext rfl (unpublished_moveTo _ i _)
    · exact h
  | xadd i fault =>
    simp only [publishingStep]
    split
    · next signalId hstage =>
      have hsome : (w.stage i).unpublished = some signalId := by rw [hstage]; rfl
      unfold PublishingWorld.xadd
      split_ifs
      · exact h.moveTo hsome.symm
      · exact h.publish hsome rfl rfl (unpublished_moveTo _ i _)
    · exact h
  | leave i =>
    simp only [publishingStep]
    split
    · exact h
    · exact h.moveTo rfl
  | release i =>
    simp only [publishingStep]
    split
    · exact h.quiet (.refl _) rfl fun _ => rfl
    · exact h
  | kill i => exact h.moveTo rfl
  | other s => exact h.quiet (step_signalsKept w.world s) rfl fun _ => rfl

/-! ## Every run -/

/-- No invocation has started, and no signal is stored. -/
structure FreshWorld (w : PublishingWorld ι) : Prop where
  idle : AllIdle w.cycles
  fetching : ∀ i, w.stage i = .fetching
  signals : w.world.db.signals = []
  stream : w.stream = []

omit [DecidableEq ι] in
/-- A fresh world has its accounts of published and unpublished signals in order. -/
theorem FreshWorld.outbox (h : FreshWorld w) : Outbox w := by
  have hids : committedIds w = [] := by rw [committedIds, h.signals]; rfl
  have hnone : ∀ i, (w.stage i).unpublished = none := fun i => by rw [h.fetching]; rfl
  constructor
  · simp [hids]
  · simp [hids]
  · simp [h.stream]
  · simp [h.stream]
  · intro i id hi
    rw [hnone] at hi
    cases hi
  · intro i j id hi
    rw [hnone] at hi
    cases hi
  · simp [hids]

theorem outbox_throughout (settings : CycleSettings) (h : FreshWorld w)
    (events : List (PublishingStep ι)) :
    AllStates (publishingStep settings) Outbox w events := by
  have hsteps : AllSteps (publishingStep settings) (fun _ _ => True) w events :=
    allSteps_of_forall (fun _ _ => trivial) w events
  exact AllSteps.allStates (fun _ event hw _ => hw.step settings event) h.outbox events hsteps

/-- **The risk engine finds every signal it reads.**  Whatever cycles, deliveries, webhooks and
reconciliations have interleaved, no attempt at a published signal misses its row. -/
theorem published_signals_found (settings : CycleSettings) (h : FreshWorld w)
    (events : List (PublishingStep ι)) :
    AllStates (publishingStep settings) (fun w => ∀ d : Delivery, d.signalId ∈ w.stream →
      (processSignal w.world d).outcome ≠ .signalNotFound) w events := by
  refine AllStates.imp (fun w houtbox d hd => ?_) (outbox_throughout settings h events)
  obtain ⟨row, hrow, hid⟩ := List.mem_map.mp (houtbox.published d.signalId hd)
  cases hfind : w.world.db.getSignal d.signalId with
  | some signal => exact processSignal_finds hfind
  | none => exact absurd hid (by simpa using List.find?_eq_none.mp hfind row hrow)

/-- `5m`, over two candles. -/
def fiveMinutes : CycleSettings where
  timeframe := ⟨5, .m, Nat.succ_pos 4⟩

/-- Nothing has run ten minutes after the epoch. -/
def tenPast : PublishingWorld ℕ where
  cycles :=
    { now := seconds 600
      redis := fun _ => none
      phase := fun _ => .idle
      setBy := fun _ => none }
  stage := fun _ => .fetching
  world := {}
  stream := []

/-- The answer to hold. -/
def holdAnswer : CycleAnswer where
  traceId := 7
  action := .HOLD
  confidence := 1
  price := 2
  atr14 := 1
  tradeScore := none
  setupRegime := none
  volatilityRegime := none
  reasoning := "breakout"
  modelName := "llm"
  health := none

/-- A cycle that publishes the signal of the second candle. -/
def oneCycle : List (PublishingStep ℕ) :=
  [.acquire 0 "BTC/USDT", .claim 0 [⟨0, 2, 2, 2, 2, 1⟩, ⟨300000, 2, 2, 2, 2, 1⟩] 600000 none,
    .commit 0 (seconds 600) holdAnswer none, .xadd 0 none, .release 0]

theorem tenPast_fresh : FreshWorld tenPast := ⟨fun _ => rfl, fun _ => rfl, rfl, rfl⟩

/-- The signal of the cycle is in the stream, and a delivery of it finds its row. -/
theorem oneCycle_found :
    (runFrom (publishingStep fiveMinutes) tenPast oneCycle).stream = [0] ∧
      ∀ d : Delivery, d.signalId = 0 →
        (processSignal (runFrom (publishingStep fiveMinutes) tenPast oneCycle).world d).outcome ≠
          .signalNotFound := by
  have hstream : (runFrom (publishingStep fiveMinutes) tenPast oneCycle).stream = [0] := by
    decide +kernel
  refine ⟨hstream, fun d hd => ?_⟩
  refine (published_signals_found fiveMinutes tenPast_fresh oneCycle).last d ?_
  rw [hstream, hd]
  exact List.mem_singleton_self 0

/-- **A committed signal is published once, or one invocation accounts for it.**  The stream
repeats no signal, and a stored signal is missing from it exactly while, or after, the one
invocation that committed it has not come past its XADD. -/
theorem committed_signals_accounted (settings : CycleSettings) (h : FreshWorld w)
    (events : List (PublishingStep ι)) :
    AllStates (publishingStep settings) (fun w => w.stream.Nodup ∧
      ∀ signal ∈ w.world.db.signals,
        (signal.id ∈ w.stream ∧ ∀ i, (w.stage i).unpublished ≠ some signal.id) ∨
          (signal.id ∉ w.stream ∧ ∃! i, (w.stage i).unpublished = some signal.id)) w events := by
  refine AllStates.imp (fun w houtbox => ⟨houtbox.once, fun signal hsignal => ?_⟩)
    (outbox_throughout settings h events)
  rcases houtbox.accounted signal.id (List.mem_map_of_mem hsignal) with hin | ⟨i, hi⟩
  · exact .inl ⟨hin, fun i hi => (houtbox.waiting i signal.id hi).2 hin⟩
  · exact .inr ⟨(houtbox.waiting i signal.id hi).2, i, hi,
      fun j hj => houtbox.owner j i signal.id hj hi⟩

/-- A cycle whose XADD fails, after the commit. -/
def failedXadd : List (PublishingStep ℕ) :=
  [.acquire 0 "BTC/USDT", .claim 0 [⟨0, 2, 2, 2, 2, 1⟩, ⟨300000, 2, 2, 2, 2, 1⟩] 600000 none,
    .commit 0 (seconds 600) holdAnswer none, .xadd 0 (some .before), .release 0]

/-- The signal of the cycle is stored but in no stream, and the one invocation that stored it
accounts for it. -/
theorem failedXadd_accounted :
    let w := runFrom (publishingStep fiveMinutes) tenPast failedXadd
    w.stream = [] ∧ w.world.db.signals.map Signal.id = [0] ∧
      ∃! i, (w.stage i).unpublished = some 0 := by
  intro w
  have hstream : w.stream = [] := by decide +kernel
  have hids : w.world.db.signals.map Signal.id = [0] := by decide +kernel
  obtain ⟨signal, hmem, hid⟩ := List.mem_map.mp (hids ▸ List.mem_singleton_self 0)
  refine ⟨hstream, hids, ?_⟩
  rcases (committed_signals_accounted fiveMinutes tenPast_fresh failedXadd).last.2 signal hmem with
    ⟨hin, -⟩ | ⟨-, hone⟩
  · exact absurd (hstream ▸ hin) List.not_mem_nil
  · exact hid ▸ hone

end TradeMind.Analysis
