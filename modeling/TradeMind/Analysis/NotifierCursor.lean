import TradeMind.Library.Machine
import TradeMind.Model.Notifier

/-!
# Events the notifier skips

The cursor orders events by the start of their transaction, and transactions commit in
another order.  An event whose transaction commits after the cursor has passed its start is
never selected.  `PollInOrder` is what every step keeps; beside it, the notifier skips no
event if and only if no transaction commits behind the stored cursor and no poll stores a
cursor beyond an event that became visible after its select.
-/

set_option autoImplicit false

namespace TradeMind.Analysis

open TradeMind.Library TradeMind.Model

/-- The event has to be sent: it is of a notifiable type and was written after the cursor
was initialised. -/
def MustNotify (r : AuditRow) : Prop :=
  r.sinceInit = true ∧ r.event.eventType ∈ notifyEventTypes

/-- Every committed event at or below the stored cursor that has to be sent has been. -/
def NeverSkips (n : Notifier) : Prop :=
  ∀ c, n.cursor = some c → ∀ r ∈ n.committed, MustNotify r → r.cursor ≤ c →
    r.event.id ∈ n.sent

/-- A transaction commits its events above the stored cursor; a poll stores a cursor below
the events that became visible after its select. -/
def KeepsOrder (n : Notifier) : NotifierStep → Prop
  | .commit transaction =>
      ∀ c, n.cursor = some c → ∀ r ∈ n.uncommitted, r.transaction = transaction →
        MustNotify r → c < r.cursor
  | .store =>
      ∀ p, n.poll = some p → p.events = [] → ∀ r ∈ n.committed, r ∉ p.visible →
        MustNotify r → p.cursor < r.cursor
  | .begin _ _ => True
  | .insert _ _ _ _ _ => True
  | .rollback _ => True
  | .initState _ => True
  | .select => True
  | .handle _ => True
  | .abandon => True

/-- The row is in the log, visible or not. -/
def InLog (n : Notifier) (r : AuditRow) : Prop := r ∈ n.committed ∨ r ∈ n.uncommitted

/-- The event is sent if it is of a notifiable type. -/
def Told (sent : List Uuid) (r : AuditRow) : Prop :=
  r.event.eventType ∈ notifyEventTypes → r.event.id ∈ sent

/-- A poll over the rows visible to it, begun at the stored cursor. -/
structure PollWalks (n : Notifier) (p : Poll) (c : AuditCursor) : Prop where
  stored : n.cursor = some c
  visible : ∀ r ∈ p.visible, r ∈ n.committed
  batch : ∀ r ∈ p.events, r ∈ p.visible
  sent : ∀ id ∈ n.sent, ∃ r ∈ p.visible, r.event.id = id
  walk : Walk AuditRow.cursor p.visible c (Told n.sent) p.cursor p.events

/-- The invariant that every step of the notifier keeps: what was sent is committed, and a poll
walks the committed rows in the order of the cursor. -/
structure PollInOrder (n : Notifier) : Prop where
  /-- Ids are primary keys. -/
  unique : ∀ r r', InLog n r → InLog n r' → r.event.id = r'.event.id → r = r'
  hidden : ∀ r ∈ n.uncommitted, r ∉ n.committed
  early : n.cursor = none → ∀ r, InLog n r → r.sinceInit = false
  sent : ∀ id ∈ n.sent, ∃ r ∈ n.committed, r.event.id = id
  poll : ∀ p, n.poll = some p → ∃ c, PollWalks n p c

variable {n n' : Notifier} {p : Poll} {c : AuditCursor}

theorem PollInOrder.cursor_inj (h : PollInOrder n) {r r' : AuditRow} (hr : InLog n r)
    (hr' : InLog n r') (heq : r.cursor = r'.cursor) : r = r' :=
  h.unique r r' hr hr' (congrArg (fun k => (ofLex k).2) heq)

/-- A poll goes on over rows that stay where they are. -/
theorem PollWalks.of_committed (h : PollWalks n p c) (hcursor : n'.cursor = n.cursor)
    (hsent : n'.sent = n.sent) (hcommitted : ∀ r ∈ n.committed, r ∈ n'.committed) :
    PollWalks n' p c where
  stored := hcursor.trans h.stored
  visible := fun r hr => hcommitted r (h.visible r hr)
  batch := h.batch
  sent := hsent ▸ h.sent
  walk := hsent ▸ h.walk

/-- The writers keep the order where they add no row. -/
theorem PollInOrder.of_log (h : PollInOrder n) (hlog : ∀ r, InLog n' r → InLog n r)
    (hhidden : ∀ r ∈ n'.uncommitted, r ∉ n'.committed) (hcursor : n'.cursor = n.cursor)
    (hsent : n'.sent = n.sent) (hpoll : n'.poll = n.poll)
    (hcommitted : ∀ r ∈ n.committed, r ∈ n'.committed) : PollInOrder n' where
  unique := fun r r' hr hr' => h.unique r r' (hlog r hr) (hlog r' hr')
  hidden := hhidden
  early := fun hnone r hr => h.early (hcursor ▸ hnone) r (hlog r hr)
  sent := by
    intro id hid
    obtain ⟨r, hr, hrow⟩ := h.sent id (hsent ▸ hid)
    exact ⟨r, hcommitted r hr, hrow⟩
  poll := by
    intro p hp
    obtain ⟨c, hwalks⟩ := h.poll p (hpoll ▸ hp)
    exact ⟨c, hwalks.of_committed hcursor hsent hcommitted⟩

/-- An event that is not visible yet has not been sent. -/
theorem PollInOrder.not_sent (h : PollInOrder n) {r : AuditRow} (hr : r ∈ n.uncommitted) :
    r.event.id ∉ n.sent := by
  intro hsent
  obtain ⟨r', hr', hid⟩ := h.sent _ hsent
  cases h.unique r r' (Or.inr hr) (Or.inl hr') hid.symm
  exact h.hidden r hr hr'

/-- An event that became visible after the select has not been sent. -/
theorem PollWalks.not_sent (hwalks : PollWalks n p c) (h : PollInOrder n) {r : AuditRow}
    (hr : r ∈ n.committed) (hlate : r ∉ p.visible) : r.event.id ∉ n.sent := by
  intro hsent
  obtain ⟨r', hr', hid⟩ := hwalks.sent _ hsent
  cases h.unique r r' (Or.inl hr) (Or.inl (hwalks.visible r' hr')) hid.symm
  exact hlate hr'

/-! ## The writers -/

/-- An insert adds a row under a new id. -/
theorem insert_inOrder (h : PollInOrder n) (transaction : ℕ) (id traceId : Uuid)
    (eventType : AuditEventType) (payload : Payload) :
    PollInOrder (n.insert transaction id traceId eventType payload) := by
  unfold Notifier.insert
  split
  · exact h
  · rename_i startedAt _
    split
    · exact h
    · rename_i hfresh
      have hnew : ∀ r, InLog n r → r.event.id ≠ id := by
        intro r hr hid
        refine hfresh (List.any_eq_true.mpr ⟨r, List.mem_append.mpr hr, ?_⟩)
        simpa using hid
      refine ⟨?_, ?_, ?_, h.sent, ?_⟩
      · -- the new row is told from the old ones by its id
        have hcases : ∀ r row : AuditRow, r ∈ n.committed ∨ r ∈ n.uncommitted ++ [row] →
            InLog n r ∨ r = row := by
          rintro r row (hr | hr)
          · exact Or.inl (Or.inl hr)
          · rcases List.mem_append.mp hr with hr | hr
            · exact Or.inl (Or.inr hr)
            · exact Or.inr (List.mem_singleton.mp hr)
        intro r r' hr hr' hid
        rcases hcases r _ hr with hr | rfl
        · rcases hcases r' _ hr' with hr' | rfl
          · exact h.unique r r' hr hr' hid
          · exact absurd hid (hnew r hr)
        · rcases hcases r' _ hr' with hr' | rfl
          · exact absurd hid.symm (hnew r' hr')
          · rfl
      · intro r hr hcommitted
        rcases List.mem_append.mp hr with hr | hr
        · exact h.hidden r hr hcommitted
        · exact hnew r (Or.inl hcommitted) (by rw [List.mem_singleton.mp hr])
      · intro hnone r hr
        rcases hr with hr | hr
        · exact h.early hnone r (Or.inl hr)
        · rcases List.mem_append.mp hr with hr | hr
          · exact h.early hnone r (Or.inr hr)
          · have hcursor : n.cursor = none := hnone
            rw [List.mem_singleton.mp hr, hcursor]
            rfl
      · intro p hp
        obtain ⟨c, hwalks⟩ := h.poll p hp
        exact ⟨c, hwalks.of_committed rfl rfl fun _ hr => hr⟩

/-- A transaction that ends without a commit takes its rows with it. -/
theorem close_inOrder (h : PollInOrder n) (transaction : ℕ) :
    PollInOrder (n.close transaction) := by
  refine h.of_log ?_ ?_ rfl rfl rfl fun _ hr => hr
  · rintro r (hr | hr)
    · exact Or.inl hr
    · exact Or.inr (List.mem_filter.mp hr).1
  · exact fun r hr => h.hidden r (List.mem_filter.mp hr).1

theorem mem_commit {transaction : ℕ} {r : AuditRow} :
    r ∈ (n.commit transaction).committed ↔
      r ∈ n.committed ∨ (r ∈ n.uncommitted ∧ r.transaction = transaction) := by
  simp [Notifier.commit]

/-- A commit makes rows of the log visible. -/
theorem commit_inOrder (h : PollInOrder n) (transaction : ℕ) :
    PollInOrder (n.commit transaction) := by
  refine h.of_log ?_ ?_ rfl rfl rfl fun r hr => mem_commit.mpr (Or.inl hr)
  · rintro r (hr | hr)
    · rcases mem_commit.mp hr with hr | ⟨hr, _⟩
      · exact Or.inl hr
      · exact Or.inr hr
    · exact Or.inr (List.mem_filter.mp hr).1
  · intro r hr hcommitted
    have hrow := List.mem_filter.mp hr
    rcases mem_commit.mp hcommitted with hold | ⟨_, hown⟩
    · exact h.hidden r hrow.1 hold
    · simp [hown] at hrow

/-! ## The poll -/

theorem initState_inOrder (h : PollInOrder n) (now : Time) : PollInOrder (n.initState now) := by
  unfold Notifier.initState
  split
  · exact h
  · rename_i hnone
    refine ⟨h.unique, h.hidden, fun hsome => (by cases hsome), h.sent, fun p hp => ?_⟩
    obtain ⟨c, hwalks⟩ := h.poll p hp
    cases hnone.symm.trans hwalks.stored

/-- A select puts the next batch in hand. -/
theorem select_inOrder (h : PollInOrder n) : PollInOrder n.select := by
  unfold Notifier.select
  split
  · rename_i cursor hpoll hcursor
    refine ⟨h.unique, h.hidden, h.early, h.sent, ?_⟩
    rintro p hp
    cases hp
    exact ⟨cursor, hcursor, fun _ hr => hr, fun r hr => (mem_of_mem_batch hr).1, h.sent,
      Walk.select AuditRow.cursor n.committed cursor (Told n.sent) auditBatchSize⟩
  · exact h

/-- The cursor moves over an event that is told. -/
theorem PollWalks.advance (h : PollInOrder n) (hwalks : PollWalks n p c) {row : AuditRow}
    {rest : List AuditRow} (hevents : p.events = row :: rest) {sent : List Uuid}
    (hsent : ∀ id ∈ n.sent, id ∈ sent) (hlog : ∀ id ∈ sent, ∃ r ∈ p.visible, r.event.id = id)
    (htold : Told sent row) :
    PollWalks { n with sent, poll := some { p with events := rest, cursor := row.cursor } }
      { p with events := rest, cursor := row.cursor } c := by
  have hrow : row ∈ p.visible := hwalks.batch row (hevents ▸ List.mem_cons_self)
  have hwalk := hwalks.walk
  rw [hevents] at hwalk
  refine ⟨hwalks.stored, hwalks.visible, ?_, hlog, ?_⟩
  · exact fun r hr => hwalks.batch r (hevents ▸ List.mem_cons_of_mem _ hr)
  · refine (hwalk.mono fun e htold hnotify => hsent _ (htold hnotify)).advance ?_
    intro e he hkey
    cases h.cursor_inj (Or.inl (hwalks.visible e he)) (Or.inl (hwalks.visible row hrow)) hkey
    exact htold

theorem handle_inOrder (h : PollInOrder n) (sent : Bool) : PollInOrder (n.handle sent) := by
  unfold Notifier.handle
  split
  · exact h
  · rename_i p hpoll
    obtain ⟨c, hwalks⟩ := h.poll p hpoll
    split
    · exact h
    · rename_i row rest hevents
      have hrow : row ∈ p.visible := hwalks.batch row (hevents ▸ List.mem_cons_self)
      split
      · split
        · -- sent: the event is told
          have hlog : ∀ id ∈ row.event.id :: n.sent, ∃ r ∈ p.visible, r.event.id = id := by
            intro id hid
            rcases List.mem_cons.mp hid with rfl | hid
            · exact ⟨row, hrow, rfl⟩
            · exact hwalks.sent id hid
          refine ⟨h.unique, h.hidden, h.early, ?_, ?_⟩
          · intro id hid
            obtain ⟨r, hr, hrid⟩ := hlog id hid
            exact ⟨r, hwalks.visible r hr, hrid⟩
          · rintro p' hp'
            cases hp'
            exact ⟨c, hwalks.advance h hevents (fun _ hid => List.mem_cons_of_mem _ hid) hlog
              fun _ => List.mem_cons_self⟩
        · -- deferred: the rest of the batch is put down
          refine ⟨h.unique, h.hidden, h.early, h.sent, ?_⟩
          rintro p' hp'
          cases hp'
          exact ⟨c, hwalks.stored, hwalks.visible, fun _ hr => absurd hr List.not_mem_nil,
            hwalks.sent, hwalks.walk.stop⟩
      · rename_i hother
        refine ⟨h.unique, h.hidden, h.early, h.sent, ?_⟩
        rintro p' hp'
        cases hp'
        exact ⟨c, hwalks.advance h hevents (fun _ hid => hid) hwalks.sent
          fun hnotify => absurd hnotify hother⟩

theorem store_inOrder (h : PollInOrder n) : PollInOrder n.store := by
  unfold Notifier.store
  split
  · exact h
  · rename_i p hpoll
    split
    · refine ⟨h.unique, h.hidden, fun hnone => (by cases hnone), h.sent,
        fun p hp => (by cases hp)⟩
    · exact h

/-- **Every step** keeps the order. -/
theorem notifierStep_inOrder (n : Notifier) (s : NotifierStep) (h : PollInOrder n) :
    PollInOrder (notifierStep n s) := by
  cases s with
  | begin transaction startedAt =>
    unfold notifierStep Notifier.begin
    dsimp only
    split
    · exact h.of_log (fun _ hr => hr) h.hidden rfl rfl rfl fun _ hr => hr
    · exact h
  | insert transaction id traceId eventType payload => exact insert_inOrder h _ _ _ _ _
  | commit transaction => exact commit_inOrder h transaction
  | rollback transaction => exact close_inOrder h transaction
  | initState now => exact initState_inOrder h now
  | select => exact select_inOrder h
  | handle sent => exact handle_inOrder h sent
  | store => exact store_inOrder h
  | abandon => exact ⟨h.unique, h.hidden, h.early, h.sent, fun p hp => by cases hp⟩

/-! ## Where events are skipped -/

/-- A commit skips nothing if and only if its events are above the stored cursor. -/
theorem commit_neverSkips_iff (horder : PollInOrder n) (h : NeverSkips n) (transaction : ℕ) :
    NeverSkips (n.commit transaction) ↔ KeepsOrder n (.commit transaction) := by
  constructor
  · intro hafter c hcursor r hr hown hmust
    by_contra hbelow
    exact horder.not_sent hr
      (hafter c hcursor r (mem_commit.mpr (Or.inr ⟨hr, hown⟩)) hmust (not_lt.mp hbelow))
  · intro habove c hcursor r hr hmust hle
    rcases mem_commit.mp hr with hr | ⟨hr, hown⟩
    · exact h c hcursor r hr hmust hle
    · exact absurd (habove c hcursor r hr hown hmust) (not_lt.mpr hle)

/-- A poll that ends skips nothing if and only if the events that became visible after its
select are above the cursor it stores. -/
theorem store_neverSkips_iff (horder : PollInOrder n) (h : NeverSkips n) :
    NeverSkips n.store ↔ KeepsOrder n .store := by
  unfold Notifier.store KeepsOrder
  split
  · rename_i hpoll
    refine iff_of_true h fun p hp => ?_
    cases hpoll.symm.trans hp
  · rename_i p hpoll
    obtain ⟨c, hwalks⟩ := horder.poll p hpoll
    split
    · rename_i hevents
      constructor
      · intro hafter p' hp' _ r hr hlate hmust
        cases hpoll.symm.trans hp'
        by_contra hbelow
        exact hwalks.not_sent horder hr hlate (hafter p.cursor rfl r hr hmust (not_lt.mp hbelow))
      · intro habove c' hc' r hr hmust hle
        cases hc'
        by_cases hvisible : r ∈ p.visible
        · -- below the stored cursor it was sent before, above it in this poll
          by_cases hold : r.cursor ≤ c
          · exact h c hwalks.stored r hr hmust hold
          · exact hwalks.walk.passed r hvisible (not_le.mp hold) hle hmust.2
        · exact absurd (habove p hpoll hevents r hr hvisible hmust) (not_lt.mpr hle)
    · rename_i hevents
      refine iff_of_true h fun p' hp' hnil => ?_
      cases hpoll.symm.trans hp'
      rw [hnil] at hevents
      cases hevents

/-- What was skipped by no event stays so where events are only added to the sent ones. -/
theorem NeverSkips.of_sent (h : NeverSkips n) (hcursor : n'.cursor = n.cursor)
    (hcommitted : n'.committed = n.committed) (hsent : ∀ id ∈ n.sent, id ∈ n'.sent) :
    NeverSkips n' := by
  intro c hc r hr hmust hle
  exact hsent _ (h c (hcursor ▸ hc) r (hcommitted ▸ hr) hmust hle)

/-- **One step** skips nothing if and only if it keeps the order of commits. -/
theorem notifierStep_neverSkips_iff (n : Notifier) (s : NotifierStep) (horder : PollInOrder n)
    (h : NeverSkips n) : NeverSkips (notifierStep n s) ↔ KeepsOrder n s := by
  cases s with
  | commit transaction => exact commit_neverSkips_iff horder h transaction
  | store => exact store_neverSkips_iff horder h
  | begin transaction startedAt =>
    refine iff_of_true ?_ trivial
    unfold notifierStep Notifier.begin
    dsimp only
    split
    · exact h.of_sent rfl rfl fun _ hid => hid
    · exact h
  | insert transaction id traceId eventType payload =>
    refine iff_of_true ?_ trivial
    unfold notifierStep Notifier.insert
    dsimp only
    split
    · exact h
    · split
      · exact h
      · exact h.of_sent rfl rfl fun _ hid => hid
  | rollback transaction => exact iff_of_true (h.of_sent rfl rfl fun _ hid => hid) trivial
  | initState now =>
    refine iff_of_true ?_ trivial
    unfold notifierStep Notifier.initState
    dsimp only
    split
    · exact h
    · rename_i hnone
      intro c _ r hr hmust _
      have hearly := horder.early hnone r (Or.inl hr)
      rw [hmust.1] at hearly
      cases hearly
  | select =>
    refine iff_of_true ?_ trivial
    unfold notifierStep Notifier.select
    dsimp only
    split
    · exact h.of_sent rfl rfl fun _ hid => hid
    · exact h
  | handle sent =>
    refine iff_of_true ?_ trivial
    unfold notifierStep Notifier.handle
    dsimp only
    split
    · exact h
    · split
      · exact h
      · split
        · split
          · exact h.of_sent rfl rfl fun _ hid => List.mem_cons_of_mem _ hid
          · exact h.of_sent rfl rfl fun _ hid => hid
        · exact h.of_sent rfl rfl fun _ hid => hid
  | abandon => exact iff_of_true (h.of_sent rfl rfl fun _ hid => hid) trivial

/-- **The notifier never skips an event**, over every interleaving of writers and polls: that
holds in every state of the run if and only if every step keeps the order of commits. -/
theorem run_neverSkips_iff (steps : List NotifierStep) :
    AllStates notifierStep NeverSkips {} steps ↔ AllSteps notifierStep KeepsOrder {} steps := by
  refine allStates_iff_allSteps PollInOrder notifierStep_inOrder
    (fun n s => notifierStep_neverSkips_iff n s) ?_ ?_ steps
  · refine ⟨?_, ?_, ?_, ?_, ?_⟩
    · rintro r r' (hr | hr) <;> cases hr
    · exact fun r hr => by cases hr
    · rintro _ r (hr | hr) <;> cases hr
    · exact fun id hid => by cases hid
    · exact fun p hp => by cases hp
  · intro c hc
    cases hc

/-! ## A long transaction -/

/-- A reconciliation pass begins at 10 and waits for Freqtrade; a webhook that begins at 20
opens a position, is polled and told; then the pass records that an order needs attention. -/
def longTransaction : List NotifierStep :=
  [.initState 5, .begin 1 10, .begin 2 20, .insert 2 7 1 .POSITION_OPENED [], .commit 2,
    .select, .handle true, .store, .insert 1 8 2 .RECONCILIATION_REQUIRED [], .commit 1]

/-- The event of a long transaction is skipped: it commits behind the cursor. -/
theorem long_transaction_skipped :
    ¬ ∀ steps : List NotifierStep, AllStates notifierStep NeverSkips {} steps := by
  intro h
  have hlast : NeverSkips (runFrom notifierStep {} longTransaction) := by
    obtain ⟨_, _, _, _, _, _, _, _, _, _, hlast⟩ := h longTransaction
    exact hlast
  have hskipped : ∃ c, (runFrom notifierStep {} longTransaction).cursor = some c ∧
      ∃ r ∈ (runFrom notifierStep {} longTransaction).committed,
        (r.sinceInit = true ∧ r.event.eventType ∈ notifyEventTypes) ∧ r.cursor ≤ c ∧
          r.event.id ∉ (runFrom notifierStep {} longTransaction).sent :=
    ⟨toLex (20, 7), by decide +kernel, by decide +kernel⟩
  obtain ⟨c, hc, r, hr, hmust, hle, hunsent⟩ := hskipped
  exact hunsent (hlast c hc r hr hmust hle)

end TradeMind.Analysis
