import TradeMind.Library.Machine
import TradeMind.Model.TelegramCommands

/-!
# Replayed Telegram commands

A poll stores its cursor once, after the whole batch, so whatever stops it there brings every
update of the batch back: commands that switched the kill switch switch it again.  Telegram
answers with updates from the offset on, in ascending order (`FromTelegram`).  Then no command
is replayed as long as every poll that stores nothing has also done nothing that counts
(`LosesNothing`), and a single poll that has is replayed by the next one that goes through.
-/

set_option autoImplicit false

namespace TradeMind.Analysis

open TradeMind.Library TradeMind.Model

/-- The update ids of the admin requests of a poll that succeeded. -/
def requestIds (executions : List Execution) : List ℤ :=
  executions.filterMap fun e => e.request.map fun _ => e.updateId

/-- No Telegram command is executed again after it succeeded, whatever the polls in between ran
into. -/
structure NotReplayed (s : CommandLoop) : Prop where
  /-- An update triggers at most one successful admin request. -/
  once : ∀ id, (s.history.flatMap requestIds).count id ≤ 1
  /-- What precedes a failing update is not executed again on a later poll. -/
  preceding : s.history.Pairwise fun executions later =>
    executions.Pairwise fun e f => f.failed = true → ∀ e' ∈ later, e'.updateId ≠ e.updateId

/-- What Telegram answers `getUpdates`: updates from the offset on, their ids ascending. -/
structure FromTelegram (s : CommandLoop) (p : CommandPoll) : Prop where
  ahead : ∀ offset ∈ s.offset, ∀ a ∈ p.attempts, offset ≤ a.update.updateId
  ascending : p.attempts.Pairwise fun a b => a.update.updateId < b.update.updateId

variable (telegramChatId : String)

/-- A poll whose first update raises has made no request succeed; in the others nothing
raises, and one whose commit fails has made no request succeed and no update after its first
one has failed. -/
def LosesNothing (p : CommandPoll) : Prop :=
  p.readRaises = true ∨
    match p.attempts with
    | [] => True
    | a :: rest =>
      if a.raises then a.succeeds telegramChatId = false
      else
        (∀ b ∈ rest, b.raises = false) ∧
          (p.commit = some .before →
            (∀ b ∈ a :: rest, b.succeeds telegramChatId = false) ∧
              ∀ b ∈ rest, b.fails telegramChatId = false)

variable {telegramChatId}

/-! ## What a poll does -/

/-- What a poll leaves behind: it could not read the updates, it stopped at the first update that
raises, or it executed all of them. -/
inductive Polled (telegramChatId : String) (s : CommandLoop) (p : CommandPoll) :
    CommandLoop → Prop
  | unread (h : p.readRaises = true) : Polled telegramChatId s p s
  | raised (before : List UpdateAttempt) (a : UpdateAttempt) (after : List UpdateAttempt)
      (hread : p.readRaises = false) (h : p.attempts = before ++ a :: after)
      (hbefore : ∀ b ∈ before, b.raises = false) (ha : a.raises = true) :
      Polled telegramChatId s p
        { s with history := s.history ++
            [(before ++ [a]).map (UpdateAttempt.execute telegramChatId)] }
  | unstored (hread : p.readRaises = false) (hraises : ∀ a ∈ p.attempts, a.raises = false)
      (h : p.attempts = [] ∨ p.commit = some .before) :
      Polled telegramChatId s p
        { s with history := s.history ++
            [p.attempts.map (UpdateAttempt.execute telegramChatId)] }
  | stored (before : List UpdateAttempt) (a : UpdateAttempt) (hread : p.readRaises = false)
      (hraises : ∀ a ∈ p.attempts, a.raises = false) (h : p.attempts = before ++ [a])
      (hcommit : p.commit ≠ some .before) :
      Polled telegramChatId s p
        { cursor := some a.update.updateId
          history := s.history ++
            [p.attempts.map (UpdateAttempt.execute telegramChatId)] }

/-- A batch in which nothing raises is handled to its end. -/
theorem handleUpdates_complete {attempts : List UpdateAttempt}
    (h : ∀ a ∈ attempts, a.raises = false) (lastUpdateId : Option ℤ) :
    handleUpdates telegramChatId lastUpdateId attempts =
      (attempts.map (UpdateAttempt.execute telegramChatId),
        some ((attempts.getLast?.map fun a => a.update.updateId).or lastUpdateId)) := by
  induction attempts generalizing lastUpdateId with
  | nil => rfl
  | cons a rest ih =>
    have ha : ¬ a.raises = true := by
      rw [h a List.mem_cons_self]
      exact Bool.false_ne_true
    rw [handleUpdates, if_neg ha, ih fun b hb => h b (List.mem_cons_of_mem _ hb)]
    cases rest with
    | nil => rfl
    | cons b rest =>
      rw [List.getLast?_cons_cons, List.getLast?_cons]
      rfl

/-- A batch is handled up to the first update that raises. -/
theorem handleUpdates_raised {before : List UpdateAttempt} {a : UpdateAttempt}
    (hbefore : ∀ b ∈ before, b.raises = false) (ha : a.raises = true)
    (after : List UpdateAttempt) (lastUpdateId : Option ℤ) :
    handleUpdates telegramChatId lastUpdateId (before ++ a :: after) =
      ((before ++ [a]).map (UpdateAttempt.execute telegramChatId), none) := by
  induction before generalizing lastUpdateId with
  | nil =>
    rw [List.nil_append, handleUpdates, if_pos ha]
    rfl
  | cons b before ih =>
    have hb : ¬ b.raises = true := by
      rw [hbefore b List.mem_cons_self]
      exact Bool.false_ne_true
    rw [List.cons_append, handleUpdates, if_neg hb,
      ih fun c hc => hbefore c (List.mem_cons_of_mem _ hc)]
    rfl

/-- A batch in which something raises has a first update that does. -/
theorem exists_first_raise {attempts : List UpdateAttempt}
    (h : ¬ ∀ a ∈ attempts, a.raises = false) :
    ∃ before a after, attempts = before ++ a :: after ∧ (∀ b ∈ before, b.raises = false) ∧
      a.raises = true := by
  induction attempts with
  | nil => exact absurd (fun a ha => absurd ha List.not_mem_nil) h
  | cons a rest ih =>
    cases ha : a.raises with
    | true => exact ⟨[], a, rest, rfl, fun b hb => absurd hb List.not_mem_nil, ha⟩
    | false =>
      have hrest : ¬ ∀ b ∈ rest, b.raises = false := by
        intro hnone
        refine h fun b hb => ?_
        rcases List.mem_cons.mp hb with rfl | hb
        · exact ha
        · exact hnone b hb
      obtain ⟨before, b, after, hsplit, hbefore, hb⟩ := ih hrest
      refine ⟨a :: before, b, after, by rw [hsplit]; rfl, ?_, hb⟩
      intro c hc
      rcases List.mem_cons.mp hc with rfl | hc
      · exact ha
      · exact hbefore c hc

/-- **Every poll** does one of these. -/
theorem polled (s : CommandLoop) (p : CommandPoll) :
    Polled telegramChatId s p (pollTelegramCommands telegramChatId s p) := by
  unfold pollTelegramCommands
  split
  · rename_i hread
    exact Polled.unread hread
  · rename_i hread
    rw [Bool.not_eq_true] at hread
    by_cases hraises : ∀ a ∈ p.attempts, a.raises = false
    · rw [handleUpdates_complete hraises]
      dsimp only
      split
      · rename_i hlost
        exact Polled.unstored hread hraises hlost
      · rename_i hkept
        obtain ⟨hsome, hcommit⟩ := not_or.mp hkept
        obtain ⟨before, a, hlast⟩ := (List.eq_nil_or_concat p.attempts).resolve_left hsome
        rw [List.concat_eq_append] at hlast
        rw [show p.attempts.getLast? = some a by rw [hlast, List.getLast?_concat]]
        exact Polled.stored before a hread hraises hlast hcommit
    · obtain ⟨before, a, after, hsplit, hbefore, ha⟩ := exists_first_raise hraises
      rw [hsplit, handleUpdates_raised hbefore ha]
      exact Polled.raised before a after hread hsplit hbefore ha

/-! ## What the cursor has passed -/

/-- The update is at or below the stored cursor, so Telegram does not send it again. -/
def Passed (cursor : Option ℤ) (id : ℤ) : Prop := ∃ c, cursor = some c ∧ id ≤ c

/-- Nothing has been replayed, and nothing that counts can be. -/
structure PassedAll (s : CommandLoop) : Prop where
  notReplayed : NotReplayed s
  requests : ∀ executions ∈ s.history, ∀ id ∈ requestIds executions, Passed s.cursor id
  preceding : ∀ executions ∈ s.history,
    executions.Pairwise fun e f => f.failed = true → Passed s.cursor e.updateId

variable {s : CommandLoop} {p : CommandPoll}

/-- The updates of a poll are above those already passed. -/
theorem FromTelegram.above (h : FromTelegram s p) {id : ℤ} (hid : Passed s.cursor id)
    {a : UpdateAttempt} (ha : a ∈ p.attempts) : id < a.update.updateId := by
  obtain ⟨c, hc, hle⟩ := hid
  have hoffset : c + 1 ∈ s.offset := by
    rw [CommandLoop.offset, hc]
    rfl
  have hahead := h.ahead (c + 1) hoffset a ha
  omega

/-- A successful request is one of an execution. -/
theorem mem_requestIds {executions : List Execution} {id : ℤ} :
    id ∈ requestIds executions ↔
      ∃ e ∈ executions, e.request.isSome = true ∧ e.updateId = id := by
  unfold requestIds
  rw [List.mem_filterMap]
  constructor
  · rintro ⟨e, he, hsome⟩
    obtain ⟨request, hrequest, hid⟩ := Option.map_eq_some_iff.mp hsome
    exact ⟨e, he, by rw [hrequest]; rfl, hid⟩
  · rintro ⟨e, he, hsome, rfl⟩
    obtain ⟨request, hrequest⟩ := Option.isSome_iff_exists.mp hsome
    exact ⟨e, he, by rw [hrequest]; rfl⟩

/-- Executions with ascending ids make requests with different ids. -/
theorem requestIds_nodup {executions : List Execution}
    (h : executions.Pairwise fun e f => e.updateId < f.updateId) :
    (requestIds executions).Nodup := by
  refine List.Pairwise.filterMap _ ?_ h
  intro e f hlt id hid id' hid'
  obtain ⟨_, _, rfl⟩ := Option.map_eq_some_iff.mp hid
  obtain ⟨_, _, rfl⟩ := Option.map_eq_some_iff.mp hid'
  exact ne_of_lt hlt

/-- **The executions of a poll** keep this up where the new cursor passes those that
count. -/
theorem PassedAll.record (h : PassedAll s) (hfrom : FromTelegram s p)
    {attempts : List UpdateAttempt} (hattempts : attempts.Sublist p.attempts) {cursor : Option ℤ}
    (hcursor : ∀ id, Passed s.cursor id → Passed cursor id)
    (hrequests : ∀ id ∈ requestIds (attempts.map (UpdateAttempt.execute telegramChatId)),
      Passed cursor id)
    (hpreceding : (attempts.map (UpdateAttempt.execute telegramChatId)).Pairwise fun e f =>
      f.failed = true → Passed cursor e.updateId) :
    PassedAll
      { cursor
        history := s.history ++ [attempts.map (UpdateAttempt.execute telegramChatId)] } := by
  have habove : ∀ id, Passed s.cursor id →
      ∀ e ∈ attempts.map (UpdateAttempt.execute telegramChatId), id < e.updateId := by
    intro id hid e he
    obtain ⟨a, ha, rfl⟩ := List.mem_map.mp he
    exact hfrom.above hid (hattempts.subset ha)
  have hascending : (attempts.map (UpdateAttempt.execute telegramChatId)).Pairwise fun e f =>
      e.updateId < f.updateId := by
    rw [List.pairwise_map]
    exact hfrom.ascending.sublist hattempts
  refine ⟨⟨?_, ?_⟩, ?_, ?_⟩
  · -- the new requests are above the ones made before, and differ among themselves
    rw [← List.nodup_iff_count_le_one, List.flatMap_append, List.nodup_append]
    refine ⟨List.nodup_iff_count_le_one.mpr h.notReplayed.once, ?_, ?_⟩
    · rw [List.flatMap_singleton]
      exact requestIds_nodup hascending
    · intro id hid id' hid' heq
      obtain ⟨executions, hexecutions, hid⟩ := List.mem_flatMap.mp hid
      rw [List.flatMap_singleton] at hid'
      obtain ⟨e, he, _, rfl⟩ := mem_requestIds.mp hid'
      exact absurd heq (ne_of_lt (habove id (h.requests executions hexecutions id hid) e he))
  · refine List.pairwise_append.mpr
      ⟨h.notReplayed.preceding, List.pairwise_singleton _ _, ?_⟩
    intro executions hexecutions later hlater
    rw [List.mem_singleton.mp hlater]
    refine (h.preceding executions hexecutions).imp fun hpassed hfailed e' he' => ?_
    exact (ne_of_lt (habove _ (hpassed hfailed) e' he')).symm
  · intro executions hexecutions id hid
    rcases List.mem_append.mp hexecutions with hold | hnew
    · exact hcursor id (h.requests executions hold id hid)
    · rw [List.mem_singleton.mp hnew] at hid
      exact hrequests id hid
  · intro executions hexecutions
    rcases List.mem_append.mp hexecutions with hold | hnew
    · exact (h.preceding executions hold).imp fun hpassed hfailed => hcursor _ (hpassed hfailed)
    · rw [List.mem_singleton.mp hnew]
      exact hpreceding

/-! ## Polls that lose nothing -/

/-- A poll in which a handler raises loses nothing if and only if that is the first one and its
request has not succeeded. -/
theorem losesNothing_raised_iff {before after : List UpdateAttempt} {a : UpdateAttempt}
    (hread : p.readRaises = false) (hsplit : p.attempts = before ++ a :: after)
    (hbefore : ∀ b ∈ before, b.raises = false) (ha : a.raises = true) :
    LosesNothing telegramChatId p ↔ before = [] ∧ a.succeeds telegramChatId = false := by
  unfold LosesNothing
  rw [hsplit, hread]
  cases before with
  | nil => simp [ha]
  | cons b before =>
    have hb : b.raises = false := hbefore b List.mem_cons_self
    refine iff_of_false ?_ fun h => absurd h.1 (List.cons_ne_nil b before)
    rintro (hnever | hrest)
    · cases hnever
    · dsimp only [List.cons_append] at hrest
      rw [if_neg (by rw [hb]; exact Bool.false_ne_true)] at hrest
      have hquiet := hrest.1 a (List.mem_append_right _ List.mem_cons_self)
      rw [ha] at hquiet
      cases hquiet

/-- A poll whose commit alone may fail loses nothing if and only if, where it does, no request
has succeeded and no update after the first one has failed. -/
theorem losesNothing_complete_iff (hread : p.readRaises = false)
    (hraises : ∀ a ∈ p.attempts, a.raises = false) :
    LosesNothing telegramChatId p ↔
      (p.commit = some .before →
        (∀ b ∈ p.attempts, b.succeeds telegramChatId = false) ∧
          ∀ b ∈ p.attempts.tail, b.fails telegramChatId = false) := by
  unfold LosesNothing
  rw [hread]
  cases hattempts : p.attempts with
  | nil => simp
  | cons a rest =>
    have ha : a.raises = false := hraises a (hattempts ▸ List.mem_cons_self)
    have hrest : ∀ b ∈ rest, b.raises = false :=
      fun b hb => hraises b (hattempts ▸ List.mem_cons_of_mem _ hb)
    simp only [Bool.false_eq_true, false_or, ha, if_false, List.tail_cons]
    exact and_iff_right hrest

/-- An execution makes a request succeed if its update does. -/
theorem execute_isSome (a : UpdateAttempt) :
    (a.execute telegramChatId).request.isSome = a.succeeds telegramChatId := by
  unfold UpdateAttempt.execute UpdateAttempt.succeeds
  cases a.accepted <;> rfl

/-- The requests of a batch are those of its updates that succeed. -/
theorem mem_requestIds_execute {attempts : List UpdateAttempt} {id : ℤ} :
    id ∈ requestIds (attempts.map (UpdateAttempt.execute telegramChatId)) ↔
      ∃ a ∈ attempts, a.succeeds telegramChatId = true ∧ a.update.updateId = id := by
  rw [mem_requestIds]
  constructor
  · rintro ⟨e, he, hsome, rfl⟩
    obtain ⟨a, ha, rfl⟩ := List.mem_map.mp he
    exact ⟨a, ha, (execute_isSome a).symm.trans hsome, rfl⟩
  · rintro ⟨a, ha, hsucceeds, rfl⟩
    exact ⟨_, List.mem_map_of_mem ha, (execute_isSome a).trans hsucceeds, rfl⟩

/-- A batch in which no request succeeds makes none. -/
theorem requestIds_execute_none {attempts : List UpdateAttempt}
    (h : ∀ a ∈ attempts, a.succeeds telegramChatId = false) (id : ℤ) :
    id ∉ requestIds (attempts.map (UpdateAttempt.execute telegramChatId)) := by
  intro hid
  obtain ⟨a, ha, hsucceeds, _⟩ := mem_requestIds_execute.mp hid
  rw [h a ha] at hsucceeds
  cases hsucceeds

/-- What holds of the second of any two holds of all but the first. -/
theorem pairwise_snd_iff {α : Type} {P : α → Prop} {l : List α} :
    (l.Pairwise fun _ b => P b) ↔ ∀ b ∈ l.tail, P b := by
  cases l with
  | nil => exact iff_of_true List.Pairwise.nil fun b hb => absurd hb List.not_mem_nil
  | cons a rest =>
    refine List.pairwise_cons.trans (and_iff_left_of_imp fun h => ?_)
    exact List.pairwise_of_forall_mem_list fun _ _ b hb => h b hb

/-- Nothing precedes a failing update where only the first one may fail. -/
theorem pairwise_not_failed {attempts : List UpdateAttempt}
    (h : ∀ a ∈ attempts.tail, a.fails telegramChatId = false) (P : Execution → Prop) :
    (attempts.map (UpdateAttempt.execute telegramChatId)).Pairwise fun e f =>
      f.failed = true → P e := by
  rw [List.pairwise_map]
  refine (pairwise_snd_iff.mpr h).imp fun hb hfailed => ?_
  cases hb.symm.trans hfailed

/-- **A poll that loses nothing** keeps this up. -/
theorem poll_passedAll (h : PassedAll s) (hfrom : FromTelegram s p)
    (hloses : LosesNothing telegramChatId p) :
    PassedAll (pollTelegramCommands telegramChatId s p) := by
  have hpolled : Polled telegramChatId s p (pollTelegramCommands telegramChatId s p) :=
    polled s p
  generalize pollTelegramCommands telegramChatId s p = s' at hpolled ⊢
  cases hpolled with
  | unread _ => exact h
  | raised before a after hread hsplit hbefore ha =>
    obtain ⟨rfl, hfirst⟩ := (losesNothing_raised_iff hread hsplit hbefore ha).mp hloses
    refine h.record hfrom ?_ (fun _ hid => hid) ?_ (List.pairwise_singleton _ _)
    · rw [hsplit]
      exact List.cons_sublist_cons.mpr (List.nil_sublist after)
    · intro id hid
      refine absurd hid (requestIds_execute_none (fun b hb => ?_) id)
      rw [List.mem_singleton.mp hb]
      exact hfirst
  | unstored hread hraises hlost =>
    have hquiet : (∀ b ∈ p.attempts, b.succeeds telegramChatId = false) ∧
        ∀ b ∈ p.attempts.tail, b.fails telegramChatId = false := by
      rcases hlost with hempty | hcommit
      · rw [hempty]
        exact ⟨fun b hb => absurd hb List.not_mem_nil, fun b hb => absurd hb List.not_mem_nil⟩
      · exact (losesNothing_complete_iff hread hraises).mp hloses hcommit
    exact h.record hfrom (List.Sublist.refl _) (fun _ hid => hid)
      (fun id hid => absurd hid (requestIds_execute_none hquiet.1 id))
      (pairwise_not_failed hquiet.2 _)
  | stored before a hread hraises hlast hcommit =>
    have ha : a ∈ p.attempts := hlast ▸ List.mem_append_right _ List.mem_cons_self
    -- the cursor stored is the highest id of the batch
    have hpassed : ∀ b ∈ p.attempts, Passed (some a.update.updateId) b.update.updateId := by
      intro b hb
      have hascending := hfrom.ascending
      rw [hlast] at hb hascending
      refine ⟨_, rfl, ?_⟩
      rcases List.mem_append.mp hb with hb | hb
      · exact ((List.pairwise_append.mp hascending).2.2 b hb a List.mem_cons_self).le
      · rw [List.mem_singleton.mp hb]
    refine h.record hfrom (List.Sublist.refl _)
      (fun id hid => ⟨_, rfl, (hfrom.above hid ha).le⟩) ?_ ?_
    · intro id hid
      obtain ⟨b, hb, _, rfl⟩ := mem_requestIds_execute.mp hid
      exact hpassed b hb
    · rw [List.pairwise_map]
      exact List.pairwise_of_forall_mem_list fun b hb _ _ _ => hpassed b hb

/-! ## Polls that are replayed -/

/-- The poll that gets the same updates again, carries every command out and stores its
cursor. -/
def retried (p : CommandPoll) : CommandPoll where
  attempts := p.attempts.map fun a =>
    { a with accepted := true, httpError := false, raises := false }

theorem retried_raises {a : UpdateAttempt} (ha : a ∈ (retried p).attempts) :
    a.raises = false := by
  obtain ⟨b, _, rfl⟩ := List.mem_map.mp ha
  rfl

theorem mem_retried {a : UpdateAttempt} (ha : a ∈ p.attempts) :
    { a with accepted := true, httpError := false, raises := false } ∈ (retried p).attempts :=
  List.mem_map_of_mem ha

theorem poll_retried_history (s : CommandLoop) (p : CommandPoll) :
    (pollTelegramCommands telegramChatId s (retried p)).history =
      s.history ++ [(retried p).attempts.map (UpdateAttempt.execute telegramChatId)] := by
  unfold pollTelegramCommands
  rw [if_neg (show ¬ (retried p).readRaises = true from Bool.false_ne_true),
    handleUpdates_complete fun _ ha => retried_raises ha]

/-- **A poll that loses something** leaves the cursor where it was, after a request that has
succeeded or an update before one that has failed. -/
theorem poll_of_loss (s : CommandLoop) (h : ¬ LosesNothing telegramChatId p) :
    ∃ handled : List UpdateAttempt, handled.Sublist p.attempts ∧
      pollTelegramCommands telegramChatId s p =
        { s with history := s.history ++
            [handled.map (UpdateAttempt.execute telegramChatId)] } ∧
      ((∃ a ∈ handled, a.succeeds telegramChatId = true) ∨
        ¬ handled.Pairwise fun _ b => b.fails telegramChatId = false) := by
  have hpolled : Polled telegramChatId s p (pollTelegramCommands telegramChatId s p) :=
    polled s p
  generalize pollTelegramCommands telegramChatId s p = s' at hpolled ⊢
  cases hpolled with
  | unread hread => exact absurd (Or.inl hread) h
  | raised before a after hread hsplit hbefore ha =>
    refine ⟨before ++ [a], ?_, rfl, ?_⟩
    · rw [hsplit, List.append_cons before a after]
      exact List.sublist_append_left _ _
    · rw [losesNothing_raised_iff hread hsplit hbefore ha, not_and_or, Bool.not_eq_false] at h
      rcases h with hbefore | hsucceeds
      · refine Or.inr fun hpairwise => ?_
        obtain ⟨b, hb⟩ := List.exists_mem_of_ne_nil before hbefore
        have hfails := (List.pairwise_append.mp hpairwise).2.2 b hb a List.mem_cons_self
        rw [UpdateAttempt.fails, ha] at hfails
        cases hfails
      · exact Or.inl ⟨a, List.mem_append_right _ List.mem_cons_self, hsucceeds⟩
  | unstored hread hraises hlost =>
    refine ⟨p.attempts, List.Sublist.refl _, rfl, ?_⟩
    by_contra hnone
    obtain ⟨hsucceeds, hfails⟩ := not_or.mp hnone
    refine h ((losesNothing_complete_iff hread hraises).mpr fun _ => ⟨?_, ?_⟩)
    · intro b hb
      rw [← Bool.not_eq_true]
      exact fun hb' => hsucceeds ⟨b, hb, hb'⟩
    · exact pairwise_snd_iff.mp (not_not.mp hfails)
  | stored before a hread hraises hlast hcommit =>
    exact absurd ((losesNothing_complete_iff hread hraises).mpr
      fun hbefore => absurd hbefore hcommit) h

/-- **What a poll loses is replayed**: Telegram sends the updates again, and a next poll that
loses nothing executes them again. -/
theorem replayed_of_loss (hfrom : FromTelegram s p) (h : ¬ LosesNothing telegramChatId p) :
    FromTelegram (pollTelegramCommands telegramChatId s p) (retried p) ∧
      LosesNothing telegramChatId (retried p) ∧
      ¬ NotReplayed (pollTelegramCommands telegramChatId
        (pollTelegramCommands telegramChatId s p) (retried p)) := by
  obtain ⟨handled, hsub, hpoll, hcounts⟩ := poll_of_loss s h
  rw [hpoll]
  refine ⟨⟨?_, ?_⟩, (losesNothing_complete_iff rfl fun _ ha => retried_raises ha).mpr nofun, ?_⟩
  · intro offset hoffset a ha
    obtain ⟨b, hb, rfl⟩ := List.mem_map.mp ha
    exact hfrom.ahead offset hoffset b hb
  · exact List.pairwise_map.mpr hfrom.ascending
  · intro hreplayed
    have honce := hreplayed.once
    have hpreceding := hreplayed.preceding
    rw [poll_retried_history] at honce hpreceding
    rcases hcounts with ⟨a, ha, hsucceeds⟩ | hfails
    · -- the request succeeds in both polls
      rw [← List.nodup_iff_count_le_one, List.flatMap_append, List.flatMap_append,
        List.flatMap_singleton, List.flatMap_singleton] at honce
      refine (List.nodup_append.mp honce).2.2 a.update.updateId
        (List.mem_append_right _ (mem_requestIds_execute.mpr ⟨a, ha, hsucceeds, rfl⟩))
        a.update.updateId
        (mem_requestIds_execute.mpr ⟨_, mem_retried (hsub.subset ha), ?_, rfl⟩) rfl
      exact (Bool.and_eq_true_iff.mp hsucceeds).2
    · -- the update before the one that failed is executed in both polls
      have hagain := (List.pairwise_append.mp hpreceding).2.2 _
        (List.mem_append_right _ List.mem_cons_self) _ List.mem_cons_self
      rw [List.pairwise_map] at hagain
      refine hfails (hagain.imp_of_mem fun {a b} ha _ hnever => ?_)
      rw [← Bool.not_eq_true]
      exact fun hfailed => hnever hfailed _ (List.mem_map_of_mem (mem_retried (hsub.subset ha))) rfl

/-- **Telegram commands**: no run of polls that lose nothing replays one, over any stream of
updates; and a poll that loses something, wherever a run has come to, is followed by a poll
that loses nothing and replays what it did. -/
theorem run_notReplayed (telegramChatId : String) (cursor : Option ℤ) :
    (∀ polls : List CommandPoll,
      AllSteps (pollTelegramCommands telegramChatId)
        (fun s p => FromTelegram s p ∧ LosesNothing telegramChatId p) { cursor } polls →
      AllStates (pollTelegramCommands telegramChatId) NotReplayed { cursor } polls) ∧
    ∀ (s : CommandLoop) (p : CommandPoll), FromTelegram s p → ¬ LosesNothing telegramChatId p →
      ∃ q, FromTelegram (pollTelegramCommands telegramChatId s p) q ∧
        LosesNothing telegramChatId q ∧
        ¬ NotReplayed (pollTelegramCommands telegramChatId
          (pollTelegramCommands telegramChatId s p) q) := by
  refine ⟨fun polls hpolls => ?_, fun s p hfrom h => ⟨retried p, replayed_of_loss hfrom h⟩⟩
  have hstart : PassedAll { cursor } :=
    ⟨⟨fun _ => Nat.zero_le 1, List.Pairwise.nil⟩, fun _ hl => absurd hl List.not_mem_nil,
      fun _ hl => absurd hl List.not_mem_nil⟩
  have hpassed := AllSteps.allStates
    (fun s p h (hok : FromTelegram s p ∧ LosesNothing telegramChatId p) =>
      poll_passedAll h hok.1 hok.2) hstart polls hpolls
  exact hpassed.imp fun s h => h.notReplayed

/-! ## A lost batch -/

/-- The operator, in chat 42, disables the kill switch and enables it again; the handler of the
second command may raise. -/
def disableThenEnable (raises : Bool) : List UpdateAttempt :=
  [{ update := { updateId := 7, chatId := some 42, text := some "/killswitch_off" },
     accepted := true, httpError := false, raises := false },
    { update := { updateId := 8, chatId := some 42, text := some "/killswitch_on" },
      accepted := !raises, httpError := false, raises }]

/-- Nothing raises, and the second poll finds no update. -/
def undisturbedPolls : List CommandPoll :=
  [{ attempts := disableThenEnable false }, { attempts := [] }]

/-- The commands of undisturbed polls are not replayed. -/
theorem undisturbed_polls_notReplayed :
    AllStates (pollTelegramCommands "42") NotReplayed {} undisturbedPolls :=
  (run_notReplayed "42" none).1 undisturbedPolls
    ⟨⟨⟨by decide +kernel, by decide +kernel⟩, Or.inr ⟨by decide +kernel, nofun⟩⟩,
      ⟨⟨by decide +kernel, by decide +kernel⟩, Or.inr trivial⟩, trivial⟩

/-- The second command raises in the first poll, so the second poll gets both again. -/
def disturbedPolls : List CommandPoll :=
  [{ attempts := disableThenEnable true }, { attempts := disableThenEnable false }]

/-- A command before one that raises is replayed: the kill switch is disabled twice. -/
theorem disturbed_polls_replay :
    ¬ ∀ (telegramChatId : String) (cursor : Option ℤ) (polls : List CommandPoll),
      AllSteps (pollTelegramCommands telegramChatId) FromTelegram { cursor } polls →
      AllStates (pollTelegramCommands telegramChatId) NotReplayed { cursor } polls := by
  intro h
  have hstates := h "42" none disturbedPolls
    ⟨⟨by decide +kernel, by decide +kernel⟩, ⟨by decide +kernel, by decide +kernel⟩, trivial⟩
  have htwice : ¬ ((runFrom (pollTelegramCommands "42") {} disturbedPolls).history.flatMap
      requestIds).count 7 ≤ 1 := by decide +kernel
  exact htwice (hstates.last.once 7)

end TradeMind.Analysis
