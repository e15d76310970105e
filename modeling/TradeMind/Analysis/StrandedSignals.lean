import TradeMind.Analysis.RaisingAttempts
import TradeMind.Model.Consumer

/-!
# Signals stranded on the stream

The consumer reads with id `>`, which returns entries never delivered to the group.  A
message whose handling fails stays pending, and nothing reads pending entries again.  A
published id is safe while it is acknowledged or can still be returned; at the head of the
loop that is so if and only if every round acknowledged all that its read returned.
-/

set_option autoImplicit false

namespace TradeMind.Analysis

open TradeMind.Library TradeMind.Model

/-- What an XREADGROUP issued now returns. -/
def nextRead (s : SignalStream) : List (Option SignalIdText × ℕ) :=
  match s.group with
  | none => []
  | some g => g.newEntries s.entries readCount

/-- The group has acknowledged the entry. -/
def Acknowledged (s : SignalStream) (id : ℕ) : Prop :=
  ∃ g, s.group = some g ∧ g.Acknowledged id

/-- Some later XREADGROUP returns the entry. -/
def Returnable (s : SignalStream) (id : ℕ) : Prop :=
  ∃ steps, id ∈ (nextRead (runFrom streamStep s steps)).map Prod.snd

/-- Every published entry is acknowledged or can still be returned. -/
def NoneStranded (s : SignalStream) : Prop :=
  ∀ id < s.entries.length, Acknowledged s id ∨ Returnable s id

/-- Something raises in the attempt made for the message. -/
def HandlingRaises (h : Handling) : SignalIdText → Prop
  | .uuid id => AttemptRaises h.world { h.delivery with signalId := id }
  | .malformed _ => True

/-- Nothing raises in the attempt made for the message, if it names a signal, and its XACK
takes effect. -/
def Acks (h : Handling) (signalId : Option SignalIdText) : Prop :=
  (∀ text, signalId = some text → ¬ HandlingRaises h text) ∧ h.ackFault ≠ some .before

/-- The loop goes on after the message. -/
def GoesOn (h : Handling) (signalId : Option SignalIdText) : Prop :=
  h.killed = false ∧ (signalId = none → h.ackFault = none)

/-- Every message is reached and acknowledged. -/
def HandlesAll (handling : ℕ → Handling) : List (Option SignalIdText × ℕ) → Prop
  | [] => True
  | message :: rest =>
    Acks (handling message.2) message.1 ∧ (rest = [] ∨ GoesOn (handling message.2) message.1) ∧
      HandlesAll handling rest

/-- A round acknowledges all that its read returns, and no read that returns something is
lost. -/
def StrandsNone (s : SignalStream) : StreamStep → Prop
  | .iterate handling => s.consumer ≠ none → HandlesAll handling (nextRead s)
  | .loseRead => s.consumer ≠ none → nextRead s = []
  | .publish _ => True
  | .start _ => True
  | .stop => True

/-- The marks of the group are in order. -/
def StreamInOrder (s : SignalStream) : Prop :=
  ∀ g, s.group = some g → g.WellFormed s.entries.length

/-- The group, once it exists, has no entry that was delivered and not acknowledged. -/
def NonePending (s : SignalStream) : Prop :=
  ∀ g, s.group = some g → g.pending = []

variable {s : SignalStream} {g : Group} {handling : ℕ → Handling} {id : ℕ}

/-! ## One message and one response -/

/-- The attempt returns exactly where nothing raises in it. -/
theorem succeeds_iff (h : Handling) (text : SignalIdText) :
    h.succeeds text = true ↔ ¬ HandlingRaises h text := by
  cases text with
  | uuid id => exact handleMessage_acks_iff h.world { h.delivery with signalId := id }
  | malformed text => simp [Handling.succeeds, HandlingRaises]

/-- Handling a message acknowledges it or leaves the group alone. -/
theorem run_group (h : Handling) (g : Group) (message : Option SignalIdText × ℕ) :
    (Acks h message.1 ∧ (h.run g message).1 = g.ack message.2) ∨
      (¬ Acks h message.1 ∧ (h.run g message).1 = g) := by
  obtain ⟨signalId, id⟩ := message
  by_cases hfault : h.ackFault = some .before
  · refine Or.inr ⟨fun hacks => hacks.2 hfault, ?_⟩
    cases signalId <;> simp [Handling.run, Handling.xack, hfault]
  · cases signalId with
    | none =>
      exact Or.inl ⟨⟨fun _ h => (by cases h), hfault⟩,
        by simp [Handling.run, Handling.xack, hfault]⟩
    | some text =>
      by_cases hsucceeds : h.succeeds text = true
      · have hquiet := (succeeds_iff h text).mp hsucceeds
        refine Or.inl ⟨⟨fun _ h => (by cases h; exact hquiet), hfault⟩, ?_⟩
        simp [Handling.run, Handling.xack, hfault, hsucceeds]
      · refine Or.inr ⟨fun hacks => hsucceeds ((succeeds_iff h text).mpr (hacks.1 text rfl)), ?_⟩
        simp [Handling.run, hsucceeds]

/-- The loop goes on after a message where it is said to. -/
theorem run_goesOn (h : Handling) (g : Group) (message : Option SignalIdText × ℕ) :
    (h.run g message).2 = true ↔ GoesOn h message.1 := by
  obtain ⟨signalId, id⟩ := message
  cases signalId <;> simp [Handling.run, GoesOn, and_comm]

/-- The loop over a response: one message, and the rest if the loop goes on. -/
theorem handleMessages_cons (g : Group) (message : Option SignalIdText × ℕ)
    (rest : List (Option SignalIdText × ℕ)) :
    (handleMessages handling g (message :: rest)).1 =
      if ((handling message.2).run g message).2 = true then
        (handleMessages handling ((handling message.2).run g message).1 rest).1
      else ((handling message.2).run g message).1 := by
  rw [handleMessages]
  rcases (handling message.2).run g message with ⟨g', goesOn⟩
  cases goesOn <;> rfl

/-- The handling of a response delivers nothing and makes nothing pending. -/
theorem handleMessages_shrinks (messages : List (Option SignalIdText × ℕ)) (g : Group) :
    (handleMessages handling g messages).1.delivered = g.delivered ∧
      ∀ p ∈ (handleMessages handling g messages).1.pending, p ∈ g.pending := by
  induction messages generalizing g with
  | nil => exact ⟨rfl, fun _ hp => hp⟩
  | cons message rest ih =>
    have hrun : ((handling message.2).run g message).1.delivered = g.delivered ∧
        ∀ p ∈ ((handling message.2).run g message).1.pending, p ∈ g.pending := by
      rcases run_group (handling message.2) g message with ⟨_, hg⟩ | ⟨_, hg⟩
      · rw [hg]
        exact ⟨rfl, fun p hp => (List.mem_filter.mp hp).1⟩
      · rw [hg]
        exact ⟨rfl, fun _ hp => hp⟩
    rw [handleMessages_cons]
    split
    · obtain ⟨hdelivered, hpending⟩ := ih ((handling message.2).run g message).1
      exact ⟨hdelivered.trans hrun.1, fun p hp => hrun.2 p (hpending p hp)⟩
    · exact hrun

/-- An entry that is pending and in none of the messages stays pending. -/
theorem pending_of_not_message (messages : List (Option SignalIdText × ℕ)) (g : Group)
    {p : ℕ × ℕ} (hp : p ∈ g.pending) (hnot : p.1 ∉ messages.map Prod.snd) :
    p ∈ (handleMessages handling g messages).1.pending := by
  induction messages generalizing g with
  | nil => exact hp
  | cons message rest ih =>
    rw [List.map_cons, List.mem_cons, not_or] at hnot
    have hkept : p ∈ ((handling message.2).run g message).1.pending := by
      rcases run_group (handling message.2) g message with ⟨_, hg⟩ | ⟨_, hg⟩
      · rw [hg]
        exact List.mem_filter.mpr ⟨hp, by simpa using hnot.1⟩
      · rw [hg]
        exact hp
    rw [handleMessages_cons]
    split
    · exact ih _ hkept hnot.2
    · exact hkept

/-- Where the messages are all that is pending, the rest of them is what is pending once the
first is acknowledged. -/
theorem ack_ids_of_cons {g : Group} {message : Option SignalIdText × ℕ}
    {rest : List (Option SignalIdText × ℕ)}
    (hpending : g.pending.map Prod.fst = (message :: rest).map Prod.snd)
    (hfresh : message.2 ∉ rest.map Prod.snd) :
    (g.ack message.2).pending.map Prod.fst = rest.map Prod.snd := by
  rw [Group.ack_ids, hpending, List.map_cons, List.filter_cons_of_neg (by simp),
    List.filter_eq_self]
  intro id hid
  have hne : id ≠ message.2 := fun heq => hfresh (heq ▸ hid)
  simpa using hne

/-- **One response.**  Where its messages are all that is pending, nothing is pending after
its handling if and only if every message is reached and acknowledged. -/
theorem handleMessages_nonePending_iff (messages : List (Option SignalIdText × ℕ)) (g : Group)
    (hpending : g.pending.map Prod.fst = messages.map Prod.snd)
    (hnodup : (messages.map Prod.snd).Nodup) :
    (handleMessages handling g messages).1.pending = [] ↔ HandlesAll handling messages := by
  induction messages generalizing g with
  | nil =>
    refine iff_of_true ?_ trivial
    simpa [handleMessages] using hpending
  | cons message rest ih =>
    rw [List.map_cons, List.nodup_cons] at hnodup
    have hgoesOn := run_goesOn (handling message.2) g message
    rcases run_group (handling message.2) g message with ⟨hacks, hg⟩ | ⟨hacks, hg⟩
    · have hrest := ack_ids_of_cons hpending hnodup.1
      rw [handleMessages_cons, hg]
      split
      · rename_i hgoes
        rw [ih _ hrest hnodup.2]
        exact ⟨fun h => ⟨hacks, Or.inr (hgoesOn.mp hgoes), h⟩, fun h => h.2.2⟩
      · -- the loop ends here: nothing is left if and only if this was the last message
        rename_i hstops
        constructor
        · intro hnone
          rw [hnone, List.map_nil] at hrest
          have hnil : rest = [] := by simpa using hrest.symm
          subst hnil
          exact ⟨hacks, Or.inl rfl, trivial⟩
        · rintro ⟨_, hnil | h, _⟩
          · subst hnil
            simpa using hrest
          · exact absurd (hgoesOn.mpr h) hstops
    · refine iff_of_false (fun hnone => ?_) fun h => hacks h.1
      obtain ⟨p, hp, hpid⟩ : ∃ p ∈ g.pending, p.1 = message.2 := by
        have hmem : message.2 ∈ g.pending.map Prod.fst := by
          rw [hpending]
          exact List.mem_cons_self
        exact List.mem_map.mp hmem
      have hstays : p ∈ (handleMessages handling g (message :: rest)).1.pending := by
        rw [handleMessages_cons, hg]
        split
        · exact pending_of_not_message rest _ hp (hpid ▸ hnodup.1)
        · exact hp
      rw [hnone] at hstays
      cases hstays

/-! ## The order of the marks -/

/-- **Every step** keeps the marks in order. -/
theorem streamStep_inOrder (s : SignalStream) (i : StreamStep) (h : StreamInOrder s) :
    StreamInOrder (streamStep s i) := by
  cases i with
  | publish signalId =>
    intro g hg
    exact (h g hg).mono (by simp [streamStep])
  | start name =>
    intro g hg
    cases hgroup : s.group with
    | none =>
      simp only [streamStep, hgroup, Option.getD_none, Option.some.injEq] at hg
      subst hg
      exact ⟨Nat.zero_le _, fun p hp => by cases hp⟩
    | some g' =>
      simp only [streamStep, hgroup, Option.getD_some, Option.some.injEq] at hg
      subst hg
      exact h g' hgroup
  | stop => exact h
  | loseRead =>
    unfold streamStep SignalStream.loseRead
    dsimp only
    split
    · rename_i name g hname hgroup
      intro g' hg'
      cases hg'
      exact (h g hgroup).readNew
    · exact h
  | iterate handling =>
    unfold streamStep SignalStream.iterate
    dsimp only
    split
    · rename_i name g hname hgroup
      intro g' hg'
      cases hg'
      have hread : (g.readNew s.entries name readCount).1.WellFormed s.entries.length :=
        (h g hgroup).readNew
      obtain ⟨hdelivered, hpending⟩ := @handleMessages_shrinks handling
        (g.readNew s.entries name readCount).2 (g.readNew s.entries name readCount).1
      refine ⟨?_, fun p hp => ?_⟩
      · exact hdelivered ▸ hread.delivered_le
      · exact hdelivered ▸ hread.pending_lt p (hpending p hp)
    · exact h

/-! ## What can still be returned -/

/-- An entry the group has delivered. -/
def Delivered (id : ℕ) (s : SignalStream) : Prop :=
  ∃ g, s.group = some g ∧ id < g.delivered

theorem streamStep_delivered (s : SignalStream) (i : StreamStep) (h : Delivered id s) :
    Delivered id (streamStep s i) := by
  obtain ⟨g, hgroup, hlt⟩ := h
  have hread : ∀ name, id < (g.readNew s.entries name readCount).1.delivered :=
    fun _ => Nat.lt_of_lt_of_le hlt (Nat.le_add_right _ _)
  cases i with
  | publish signalId => exact ⟨g, hgroup, hlt⟩
  | start name => exact ⟨g, by simp [streamStep, hgroup], hlt⟩
  | stop => exact ⟨g, hgroup, hlt⟩
  | loseRead =>
    cases hname : s.consumer with
    | none => exact ⟨g, by simp [streamStep, SignalStream.loseRead, hname, hgroup], hlt⟩
    | some name =>
      exact ⟨_, by simp only [streamStep, SignalStream.loseRead, hname, hgroup], hread name⟩
  | iterate handling =>
    cases hname : s.consumer with
    | none => exact ⟨g, by simp [streamStep, SignalStream.iterate, hname, hgroup], hlt⟩
    | some name =>
      refine ⟨_, by simp only [streamStep, SignalStream.iterate, hname, hgroup]; rfl, ?_⟩
      rw [(handleMessages_shrinks _ _).1]
      exact hread name

/-- **What was delivered is returned by no later read.** -/
theorem not_returnable_of_delivered (h : Delivered id s) : ¬ Returnable s id := by
  rintro ⟨steps, hmem⟩
  obtain ⟨g, hgroup, hlt⟩ : Delivered id (runFrom streamStep s steps) :=
    runFrom_inv h steps fun s i _ => streamStep_delivered s i
  unfold nextRead at hmem
  rw [hgroup] at hmem
  exact Nat.lt_irrefl _ (Nat.lt_of_lt_of_le hlt (Group.le_of_mem_readNew hmem))

/-- What can be returned after some steps can be returned. -/
theorem returnable_of_step (i : StreamStep) (h : Returnable (streamStep s i) id) :
    Returnable s id := by
  obtain ⟨steps, hmem⟩ := h
  exact ⟨i :: steps, hmem⟩

/-- A running consumer comes to every published entry it has not passed. -/
theorem returnable_of_running (n : ℕ) :
    ∀ (s : SignalStream) (g : Group) (name : ℕ), s.consumer = some name → s.group = some g →
      id < s.entries.length → g.delivered ≤ id → id ≤ g.delivered + n → Returnable s id := by
  -- by induction on how far the entry is from the delivery mark
  induction n with
  | zero =>
    intro s g name hname hgroup hid hle hdist
    refine ⟨[], ?_⟩
    simp only [runFrom, List.foldl_nil, nextRead, hgroup]
    exact Group.mem_newEntries_ids.mpr
      ⟨hle, hid, Nat.lt_of_le_of_lt hdist (Nat.lt_add_of_pos_right (by decide))⟩
  | succ n ih =>
    intro s g name hname hgroup hid hle hdist
    by_cases hnow : id < g.delivered + readCount
    · refine ⟨[], ?_⟩
      simp only [runFrom, List.foldl_nil, nextRead, hgroup]
      exact Group.mem_newEntries_ids.mpr ⟨hle, hid, hnow⟩
    · refine returnable_of_step .loseRead (returnable_of_step (.start name) ?_)
      have hnext : (streamStep (streamStep s .loseRead) (.start name)).group =
          some (g.readNew s.entries name readCount).1 := by
        simp [streamStep, SignalStream.loseRead, hname, hgroup]
      have hentries : (streamStep (streamStep s .loseRead) (.start name)).entries =
          s.entries := by
        simp [streamStep, SignalStream.loseRead, hname, hgroup]
      have hmark : (g.readNew s.entries name readCount).1.delivered =
          g.delivered + readCount := by
        simp only [Group.readNew, Group.newEntries_length]
        omega
      have hcount : readCount = 10 := rfl
      refine ih _ _ name rfl hnext (hentries ▸ hid) ?_ ?_
      · omega
      · omega

/-- **An entry can be returned if and only if it has not been delivered.** -/
theorem returnable_iff (hid : id < s.entries.length) : Returnable s id ↔ ¬ Delivered id s := by
  refine ⟨fun h hdelivered => not_returnable_of_delivered hdelivered h, fun h => ?_⟩
  refine returnable_of_step (.start 0) (returnable_of_running id _ (s.group.getD {}) 0 rfl rfl hid
    ?_ (Nat.le_add_left _ _))
  cases hgroup : s.group with
  | none => exact Nat.zero_le _
  | some g => exact Nat.le_of_not_lt fun hlt => h ⟨g, hgroup, hlt⟩

/-! ## Rounds -/

/-- None is stranded if and only if nothing is pending at the head of the loop. -/
theorem noneStranded_iff (h : StreamInOrder s) : NoneStranded s ↔ NonePending s := by
  constructor
  · intro hsafe g hgroup
    rw [List.eq_nil_iff_forall_not_mem]
    intro p hp
    have hlt := (h g hgroup).pending_lt p hp
    have hid := Nat.lt_of_lt_of_le hlt (h g hgroup).delivered_le
    rcases hsafe p.1 hid with ⟨g', hgroup', hacked⟩ | hreturn
    · cases hgroup.symm.trans hgroup'
      exact hacked.2 p hp rfl
    · exact (returnable_iff hid).mp hreturn ⟨g, hgroup, hlt⟩
  · intro hnone id hid
    by_cases hdelivered : Delivered id s
    · obtain ⟨g, hgroup, hlt⟩ := hdelivered
      refine Or.inl ⟨g, hgroup, hlt, ?_⟩
      rw [hnone g hgroup]
      exact fun p hp => by cases hp
    · exact Or.inr ((returnable_iff hid).mpr hdelivered)

/-- After a read from a group with nothing pending, the messages are what is pending. -/
theorem readNew_pending (hnone : g.pending = []) (entries : List (Option SignalIdText))
    (name : ℕ) :
    (g.readNew entries name readCount).1.pending.map Prod.fst =
      (g.newEntries entries readCount).map Prod.snd := by
  simp [Group.readNew, hnone]

/-- **One step** from a state with nothing pending leaves nothing pending if and only if it
strands nothing. -/
theorem streamStep_nonePending_iff (s : SignalStream) (i : StreamStep) (h : NonePending s) :
    NonePending (streamStep s i) ↔ StrandsNone s i := by
  cases i with
  | publish signalId => exact iff_of_true h trivial
  | start name =>
    refine iff_of_true ?_ trivial
    intro g hg
    cases hgroup : s.group with
    | none =>
      simp only [streamStep, hgroup, Option.getD_none, Option.some.injEq] at hg
      subst hg
      rfl
    | some g' =>
      simp only [streamStep, hgroup, Option.getD_some, Option.some.injEq] at hg
      subst hg
      exact h g' hgroup
  | stop => exact iff_of_true h trivial
  | loseRead =>
    unfold streamStep SignalStream.loseRead StrandsNone nextRead
    dsimp only
    cases hname : s.consumer with
    | none => exact iff_of_true h fun hnot => absurd rfl hnot
    | some name =>
      cases hgroup : s.group with
      | none => exact iff_of_true (by simp [NonePending]) fun _ => rfl
      | some g =>
        have hpending := readNew_pending (h g hgroup) s.entries name
        simp only [NonePending, Option.some.injEq, forall_eq', ne_eq, reduceCtorEq,
          not_false_eq_true, true_implies]
        rw [← @List.map_eq_nil_iff _ _ Prod.fst, hpending, List.map_eq_nil_iff]
  | iterate handling =>
    unfold streamStep SignalStream.iterate StrandsNone nextRead
    dsimp only
    cases hname : s.consumer with
    | none => exact iff_of_true h fun hnot => absurd rfl hnot
    | some name =>
      cases hgroup : s.group with
      | none => exact iff_of_true (by simp [NonePending]) fun _ => trivial
      | some g =>
        have hnodup : ((g.newEntries s.entries readCount).map Prod.snd).Nodup := by
          rw [Group.newEntries_ids]
          exact List.nodup_range'
        simp only [NonePending, Option.some.injEq, forall_eq', ne_eq, reduceCtorEq,
          not_false_eq_true, true_implies]
        exact handleMessages_nonePending_iff _ _ (readNew_pending (h g hgroup) s.entries name)
          hnodup

/-- **No signal is stranded**, over every run of the scheduler and of consumer processes from
a stream without a group: it holds in every state of the run if and only if every round
acknowledges all that its read returned. -/
theorem run_noneStranded_iff (entries : List (Option SignalIdText)) (steps : List StreamStep) :
    AllStates streamStep NoneStranded { entries } steps ↔
      AllSteps streamStep StrandsNone { entries } steps := by
  refine allStates_iff_allSteps StreamInOrder streamStep_inOrder ?_ ?_ ?_ steps
  · intro s i horder hsafe
    rw [noneStranded_iff (streamStep_inOrder s i horder)]
    exact streamStep_nonePending_iff s i ((noneStranded_iff horder).mp hsafe)
  · intro g hgroup
    cases hgroup
  · intro id hid
    refine Or.inr ((returnable_iff hid).mpr ?_)
    rintro ⟨g, hgroup, _⟩
    cases hgroup

/-! ## A concrete run -/

/-- Postgres is down when the signal is loaded. -/
def databaseDown : Handling where
  world := { db := { signals := [btcBuy] } }
  delivery := { cleanDelivery 1 0 with
    fault := fun a => if a = .loadSignal then some .before else none }
  ackFault := none
  killed := false

/-- The stream with one signal delivered and pending. -/
def onePending : SignalStream where
  entries := [some (.uuid 1)]
  group := some { delivered := 1, pending := [(0, 0)] }
  consumer := some 0

/-- One failed attempt strands the signal: no later read returns it. -/
theorem failed_message_stranded :
    ¬ ∀ (entries : List (Option SignalIdText)) (steps : List StreamStep),
      AllStates streamStep NoneStranded { entries } steps := by
  intro h
  have hrun := h [] [.publish (some (.uuid 1)), .start 0, .iterate fun _ => databaseDown]
  have hstate : runFrom streamStep { entries := [] }
      [.publish (some (.uuid 1)), .start 0, .iterate fun _ => databaseDown] = onePending := by
    decide +kernel
  have hlast : NoneStranded onePending := hstate ▸ hrun.2.2.2
  rcases hlast 0 (by decide) with ⟨g, hgroup, hacked⟩ | hreturn
  · cases hgroup
    exact hacked.2 (0, 0) (List.mem_singleton_self _) rfl
  · exact not_returnable_of_delivered ⟨_, rfl, by decide⟩ hreturn

end TradeMind.Analysis
