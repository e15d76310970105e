import TradeMind.Analysis.JournalAttribution
import TradeMind.Model.SignalReplay

/-!
# The replay behind its cache

The cache of the signal replay is sound: whatever calls filled it, failed ones among them, a run
behind it trades as a run that asks the service each time.  And it is complete for a run that is
repeated: no call is sent, whatever the service would say by then.
-/

set_option autoImplicit false

namespace TradeMind.Analysis

open TradeMind.Library TradeMind.Model TradeMind.Model.Backtest

universe u v

/-! ## Lists of partial results -/

section Partial

variable {α β γ : Type} {f : α → Option β} {l : List α}

/-- Where every element has its image there are all. -/
theorem mapM_eq_map {g : α → β} (h : ∀ a ∈ l, f a = some (g a)) : l.mapM f = some (l.map g) := by
  induction l with
  | nil => rfl
  | cons a rest ih =>
    rw [List.mapM_cons, h a List.mem_cons_self, ih fun b hb => h b (List.mem_cons_of_mem a hb)]
    rfl

/-- Maps that agree on the elements have the same images. -/
theorem mapM_congr {f' : α → Option β} (h : ∀ a ∈ l, f a = f' a) : l.mapM f = l.mapM f' := by
  induction l with
  | nil => rfl
  | cons a rest ih =>
    rw [List.mapM_cons, List.mapM_cons, h a List.mem_cons_self,
      ih fun b hb => h b (List.mem_cons_of_mem a hb)]

/-- The images of a second map, where each is had from that of the first. -/
theorem mapM_of_mapM {f' : α → Option γ} {g : β → γ} {images : List β}
    (h : ∀ a ∈ l, ∀ b, f a = some b → f' a = some (g b)) (hf : l.mapM f = some images) :
    l.mapM f' = some (images.map g) := by
  induction l generalizing images with
  | nil =>
    cases Option.some.inj hf
    rfl
  | cons a rest ih =>
    rw [List.mapM_cons] at hf ⊢
    obtain ⟨b, hb, hf⟩ := Option.bind_eq_some_iff.mp hf
    obtain ⟨others, hothers, hf⟩ := Option.bind_eq_some_iff.mp hf
    cases Option.some.inj hf
    rw [h a List.mem_cons_self b hb, ih (fun a ha => h a (List.mem_cons_of_mem _ ha)) hothers]
    rfl

/-- Where there are all, every element has its image. -/
theorem image_of_mapM {images : List β} (hf : l.mapM f = some images) :
    ∀ a ∈ l, ∃ b, f a = some b := by
  induction l generalizing images with
  | nil => exact fun a ha => absurd ha List.not_mem_nil
  | cons a rest ih =>
    rw [List.mapM_cons] at hf
    obtain ⟨b, hb, hf⟩ := Option.bind_eq_some_iff.mp hf
    obtain ⟨others, hothers, -⟩ := Option.bind_eq_some_iff.mp hf
    exact List.forall_mem_cons.mpr ⟨⟨b, hb⟩, ih hothers⟩

/-- What has an image has it among them. -/
theorem mem_of_mapM {images : List β} (hf : l.mapM f = some images) :
    ∀ b ∈ images, ∃ a ∈ l, f a = some b := by
  induction l generalizing images with
  | nil =>
    cases Option.some.inj hf
    exact fun b hb => absurd hb List.not_mem_nil
  | cons a rest ih =>
    rw [List.mapM_cons] at hf
    obtain ⟨b, hb, hf⟩ := Option.bind_eq_some_iff.mp hf
    obtain ⟨others, hothers, hf⟩ := Option.bind_eq_some_iff.mp hf
    cases Option.some.inj hf
    intro c hc
    rcases List.mem_cons.mp hc with rfl | hc
    · exact ⟨a, List.mem_cons_self, hb⟩
    · obtain ⟨a', ha', hc⟩ := ih hothers c hc
      exact ⟨a', List.mem_cons_of_mem _ ha', hc⟩

end Partial

/-! ## The cache hits of the rows -/

/-- The run with other cache hits. -/
def mapHits (φ : Bool → Bool) (run : SignalRun) : SignalRun :=
  { run with rows := run.rows.map fun row => { row with cacheHit := φ row.cacheHit } }

section Replay

variable {replay : SignalReplay}

/-- **No decision looks at a cache hit.** -/
theorem decide_mapHits (φ : Bool → Bool) (run : SignalRun) (event : ReplayEvent)
    (request : SignalRequest) (answer : SignalAnswer) (hit : Bool) :
    replay.decide (mapHits φ run) event request answer (φ hit) =
      (replay.decide run event request answer hit).map (mapHits φ) := by
  unfold SignalReplay.decide
  cases answer.action.bind actionOf with
  | none => rfl
  | some action =>
    cases answer.confidence with
    | none => rfl
    | some confidence =>
      cases replay.candleAt event.symbol event.index with
      | none => rfl
      | some latest =>
        simp only [Option.bind_eq_bind, Option.bind_some, Option.map_bind]
        congr 1
        funext acted
        simp [mapHits]

/-- A result with another cache hit. -/
def mapHit (φ : Bool → Bool) (result : SignalReplay.Result) : SignalReplay.Result :=
  { result with cacheHit := φ result.cacheHit }

/-- Changing which answers count as cached changes nothing else of what a close decides. -/
theorem decideAll_mapHits (φ : Bool → Bool) (run : SignalRun)
    (results : List SignalReplay.Result) :
    replay.decideAll (mapHits φ run) (results.map (mapHit φ)) =
      (replay.decideAll run results).map (mapHits φ) := by
  have hruns : (runPartial (fun run (result : SignalReplay.Result) =>
        replay.decide run result.event result.request result.answer result.cacheHit) run
        results).map (mapHits φ) =
      runPartial (fun run (result : SignalReplay.Result) =>
        replay.decide run result.event result.request result.answer (φ result.cacheHit))
        (mapHits φ run) results :=
    @runPartial_map _ _ _ _ _ _ (fun _ => True) _
      (fun run result _ _ => (decide_mapHits φ run _ _ _ _).symm)
      (fun _ _ _ _ _ _ => trivial) _ trivial
  rw [SignalReplay.decideAll, List.foldlM_map]
  exact hruns.symm

/-! ## The calls of a close -/

/-- The events are those of the mechanical replay over the same histories. -/
def asMechanical (replay : SignalReplay) : MechanicalReplay where
  timeframe := replay.timeframe
  timeframeText := replay.timeframeText
  startMs := replay.startMs
  endMs := replay.endMs
  candleLookback := replay.candleLookback
  lookback_pos := replay.lookback_pos
  llmOhlcvWindow := replay.llmOhlcvWindow
  settings := { risk := replay.riskConfig, thresholds := {}, suppressBuyRegimes := [] }
  startingEquityUsdt := replay.startingEquityUsdt
  feePct := replay.feePct
  slippagePct := replay.slippagePct
  compounding := replay.compounding
  ignoreKillswitch := false
  candlesBySymbol := replay.candlesBySymbol
  computeIndicators _ := none
  iso := replay.iso

/-- The events of a close are events, of one close. -/
theorem mem_events_of_mem_close {group : List ReplayEvent} (hgroup : group ∈ replay.closes)
    {event : ReplayEvent} (hevent : event ∈ group) : event ∈ replay.events := by
  rw [← List.flatten_splitBy (fun a b : ReplayEvent => a.closeTs == b.closeTs) replay.events]
  exact List.mem_flatten.mpr ⟨group, hgroup, hevent⟩

theorem closeTs_pairwise {group : List ReplayEvent} (hgroup : group ∈ replay.closes) :
    group.Pairwise fun a b => a.closeTs = b.closeTs := by
  have htrans : Trans (fun a b : ReplayEvent => a.closeTs = b.closeTs)
      (fun a b : ReplayEvent => a.closeTs = b.closeTs) fun a b => a.closeTs = b.closeTs :=
    ⟨Eq.trans⟩
  exact ((List.isChain_of_mem_splitBy hgroup).imp fun _ _ => eq_of_beq).pairwise

/-- Every event of a close has the close time of the first one. -/
theorem closeTs_eq_of_mem_close {group : List ReplayEvent} (hgroup : group ∈ replay.closes)
    {closeTs : ℤ} (hhead : group.head?.map ReplayEvent.closeTs = some closeTs)
    {event : ReplayEvent} (hevent : event ∈ group) : event.closeTs = closeTs := by
  have hpairwise := closeTs_pairwise hgroup
  cases group with
  | nil => cases hhead
  | cons first rest =>
    cases Option.some.inj hhead
    rcases List.mem_cons.mp hevent with rfl | hevent
    · rfl
    · exact ((List.pairwise_cons.mp hpairwise).1 event hevent).symm

/-- A close has one event for each of its symbols. -/
theorem symbols_nodup_of_close {group : List ReplayEvent} (hgroup : group ∈ replay.closes) :
    (group.map ReplayEvent.symbol).Nodup := by
  have hsublist : group.Sublist replay.events := by
    rw [← List.flatten_splitBy (fun a b : ReplayEvent => a.closeTs == b.closeTs) replay.events]
    exact List.sublist_flatten_of_mem hgroup
  have hkeys : (group.map ReplayEvent.key).Nodup :=
    (events_nodup (asMechanical replay)).sublist (hsublist.map _)
  refine List.pairwise_map.mpr (((List.pairwise_map.mp hkeys).and (closeTs_pairwise hgroup)).imp ?_)
  rintro a b ⟨hkey, hclose⟩ hsymbol
  exact hkey (Prod.ext hsymbol (congrArg (· * 1000) hclose))

theorem requestAt_symbol {ledger : Ledger} {event : ReplayEvent} {request : SignalRequest}
    (h : replay.requestAt ledger event = some request) : request.request.symbol = event.symbol := by
  unfold SignalReplay.requestAt at h
  obtain ⟨window, -, h⟩ := Option.bind_eq_some_iff.mp h
  obtain ⟨values, -, h⟩ := Option.bind_eq_some_iff.mp h
  obtain ⟨latest, -, h⟩ := Option.bind_eq_some_iff.mp h
  obtain ⟨previous, -, h⟩ := Option.bind_eq_some_iff.mp h
  obtain ⟨sentiment, -, h⟩ := Option.bind_eq_some_iff.mp h
  obtain ⟨context, -, h⟩ := Option.bind_eq_some_iff.mp h
  cases Option.some.inj h
  rfl

/-- The requests of a close are those of its events. -/
theorem requestsAt_events {ledger : Ledger} {group : List ReplayEvent}
    {requests : List (ReplayEvent × SignalRequest)}
    (h : replay.requestsAt ledger group = some requests) : requests.map Prod.fst = group := by
  have hfst : group.mapM some = some (requests.map Prod.fst) :=
    mapM_of_mapM (fun event _ asked hasked => by
      obtain ⟨request, -, rfl⟩ := Option.map_eq_some_iff.mp hasked
      rfl) h
  have hall : group.mapM some = some (group.map id) := mapM_eq_map fun _ _ => rfl
  rw [hall, List.map_id] at hfst
  exact (Option.some.inj hfst).symm

/-- **Each symbol of a close has its own request.** -/
structure RequestsApart (requests : List (ReplayEvent × SignalRequest)) : Prop where
  symbols : (requests.map fun asked => asked.1.symbol).Nodup
  own : ∀ asked ∈ requests, asked.2.request.symbol = asked.1.symbol

theorem requestsApart_of_close {group : List ReplayEvent} (hgroup : group ∈ replay.closes)
    {ledger : Ledger} {requests : List (ReplayEvent × SignalRequest)}
    (h : replay.requestsAt ledger group = some requests) : RequestsApart requests := by
  constructor
  · have hsymbols := symbols_nodup_of_close hgroup
    rw [← requestsAt_events h, List.map_map] at hsymbols
    exact hsymbols
  · intro asked hasked
    obtain ⟨event, -, hevent⟩ := mem_of_mapM h asked hasked
    obtain ⟨request, hrequest, rfl⟩ := Option.map_eq_some_iff.mp hevent
    exact requestAt_symbol hrequest

section Calls

variable {requests : List (ReplayEvent × SignalRequest)}

/-- The request of a symbol is that of its event. -/
theorem requestOf_eq (h : RequestsApart requests) {asked : ReplayEvent × SignalRequest}
    (hasked : asked ∈ requests) :
    SignalReplay.requestOf requests asked.1.symbol = some asked := by
  unfold SignalReplay.requestOf
  have hsymbols := h.symbols
  clear h
  induction requests with
  | nil => cases hasked
  | cons first rest ih =>
    rw [List.map_cons, List.nodup_cons] at hsymbols
    rcases List.mem_cons.mp hasked with rfl | hasked
    · exact List.find?_cons_of_pos (decide_eq_true rfl)
    · have hne : first.1.symbol ≠ asked.1.symbol := fun heq =>
        hsymbols.1 (heq ▸ List.mem_map_of_mem hasked)
      rw [List.find?_cons_of_neg (by simpa using hne)]
      exact ih hasked hsymbols.2

/-- What has a symbol is one of the requests. -/
theorem requestOf_mem {symbol : Symbol} {asked : ReplayEvent × SignalRequest}
    (h : SignalReplay.requestOf requests symbol = some asked) :
    asked ∈ requests ∧ asked.1.symbol = symbol := by
  have hsymbol := List.find?_some h
  exact ⟨List.mem_of_find?_eq_some h, of_decide_eq_true hsymbol⟩

variable {κ : Type} {key : SignalRequest → κ}

theorem keysApart_of_requestsApart (h : RequestsApart requests) (hkey : Function.Injective key) :
    KeysApart key fun symbol => (SignalReplay.requestOf requests symbol).map Prod.snd := by
  intro symbol symbol' r r' hr hr' heq
  obtain ⟨asked, hasked, rfl⟩ := Option.map_eq_some_iff.mp hr
  obtain ⟨asked', hasked', rfl⟩ := Option.map_eq_some_iff.mp hr'
  obtain ⟨hmem, rfl⟩ := requestOf_mem hasked
  obtain ⟨hmem', rfl⟩ := requestOf_mem hasked'
  rw [← h.own asked hmem, ← h.own asked' hmem', hkey heq]

end Calls

/-- Every call of the run is made, and replied to. -/
def Replied (replay : SignalReplay) (around : SignalReplay.Surroundings) : Prop :=
  ∀ event ∈ replay.events, ∃ before mid after, around.turns event.closeTs =
    before ++ .ask event.symbol :: (mid ++ .reply event.symbol :: after)

/-- Where every call of the run is replied to, the calls of each close are all made. -/
theorem allMade_of_replied {around : SignalReplay.Surroundings} (h : Replied replay around)
    {group : List ReplayEvent} (hgroup : group ∈ replay.closes) {closeTs : ℤ}
    (hhead : group.head?.map ReplayEvent.closeTs = some closeTs)
    {requests : List (ReplayEvent × SignalRequest)} (hrequests : requests.map Prod.fst = group) :
    AllMade (fun symbol => (SignalReplay.requestOf requests symbol).map Prod.snd)
      (around.turns closeTs) := by
  intro symbol r hr
  obtain ⟨asked, hasked, -⟩ := Option.map_eq_some_iff.mp hr
  obtain ⟨hmem, rfl⟩ := requestOf_mem hasked
  have hevent : asked.1 ∈ group := hrequests ▸ List.mem_map_of_mem hmem
  rw [← closeTs_eq_of_mem_close hgroup hhead hevent]
  exact h asked.1 (mem_events_of_mem_close hgroup hevent)

/-- A close that came through, part by part. -/
theorem close_eq_some {κ : Type} [DecidableEq κ] {key : SignalRequest → κ}
    {around : SignalReplay.Surroundings} {state next : SignalRun × Dict κ SignalAnswer}
    {group : List ReplayEvent} (h : replay.close key around state group = some next) :
    ∃ ledger requests closeTs results run,
      replay.staticExits state.1.ledger group = some ledger ∧
      replay.requestsAt ledger group = some requests ∧
      group.head?.map ReplayEvent.closeTs = some closeTs ∧
      requests.mapM (fun asked => SignalReplay.resultOf asked
        ((SignalReplay.gather key around state.2 closeTs requests).phase asked.1.symbol)) =
          some results ∧
      replay.decideAll { state.1 with ledger } results = some run ∧
      next = (run, (SignalReplay.gather key around state.2 closeTs requests).cache) := by
  unfold SignalReplay.close at h
  obtain ⟨ledger, hledger, h⟩ := Option.bind_eq_some_iff.mp h
  obtain ⟨requests, hrequests, h⟩ := Option.bind_eq_some_iff.mp h
  obtain ⟨closeTs, hclose, h⟩ := Option.bind_eq_some_iff.mp h
  dsimp only at h
  obtain ⟨results, hresults, h⟩ := Option.bind_eq_some_iff.mp h
  obtain ⟨run, hrun, h⟩ := Option.bind_eq_some_iff.mp h
  exact ⟨ledger, requests, closeTs, results, run, hledger, hrequests, hclose, hresults, hrun,
    (Option.some.inj h).symm⟩

section Sound

variable {κ : Type} [DecidableEq κ] {key : SignalRequest → κ} {f : SignalRequest → SignalAnswer}
  {around : SignalReplay.Surroundings} {cache : Dict κ SignalAnswer}

/-- The calls of a close against `f` leave a faithful cache and its answers. -/
theorem gather_answeredBy (hkey : Function.Injective key) (hcache : Faithful key f cache)
    (hservice : ∀ event request, around.service event request = some (f request)) (closeTs : ℤ)
    (requests : List (ReplayEvent × SignalRequest)) :
    AnsweredBy key (fun symbol => (SignalReplay.requestOf requests symbol).map Prod.snd) f
      (SignalReplay.gather key around cache closeTs requests) := by
  refine answeredBy_run hkey (fun symbol r hr => .inr ?_) hcache _
  obtain ⟨asked, hasked, rfl⟩ := Option.map_eq_some_iff.mp hr
  rw [hasked, Option.bind_some, hservice]

theorem gather_not_failed (hservice : ∀ event request, (around.service event request).isSome)
    (closeTs : ℤ) (requests : List (ReplayEvent × SignalRequest)) (symbol : Symbol) :
    (SignalReplay.gather key around cache closeTs requests).phase symbol ≠ .failed := by
  refine not_failed_run (fun symbol r hr => ?_) _ _
  obtain ⟨asked, hasked, -⟩ := Option.map_eq_some_iff.mp hr
  rw [hasked, Option.bind_some]
  exact hservice _ _

/-- **A call that is made and does not fail is answered.** -/
theorem phase_answered (hservice : ∀ event request, (around.service event request).isSome)
    {closeTs : ℤ} {requests : List (ReplayEvent × SignalRequest)}
    (hmade : AllMade
      (fun symbol => (SignalReplay.requestOf requests symbol).map Prod.snd)
      (around.turns closeTs)) {asked : ReplayEvent × SignalRequest}
    (hasked : SignalReplay.requestOf requests asked.1.symbol = some asked) :
    ∃ answer hit, (SignalReplay.gather key around cache closeTs requests).phase asked.1.symbol =
      .answered answer hit := by
  have hrequest : (SignalReplay.requestOf requests asked.1.symbol).map Prod.snd = some asked.2 :=
    congrArg (Option.map Prod.snd) hasked
  have hsettled : ((SignalReplay.gather key around cache closeTs requests).phase
      asked.1.symbol).Final := final_of_allMade hmade hrequest
  cases hphase : (SignalReplay.gather key around cache closeTs requests).phase
      asked.1.symbol with
  | waiting | sent =>
    rw [hphase] at hsettled
    cases hsettled
  | answered answer hit => exact ⟨answer, hit, rfl⟩
  | failed => exact absurd hphase (gather_not_failed hservice closeTs requests _)

/-- **The results of a close are the answers of the service**, cached or not. -/
theorem results_of_service (hkey : Function.Injective key) (hcache : Faithful key f cache)
    (hservice : ∀ event request, around.service event request = some (f request)) {closeTs : ℤ}
    {requests : List (ReplayEvent × SignalRequest)} (hapart : RequestsApart requests)
    (hmade : AllMade
      (fun symbol => (SignalReplay.requestOf requests symbol).map Prod.snd)
      (around.turns closeTs)) :
    ∃ hits : ReplayEvent × SignalRequest → Bool,
      requests.mapM (fun asked => SignalReplay.resultOf asked
        ((SignalReplay.gather key around cache closeTs requests).phase asked.1.symbol)) =
      some (requests.map fun asked => ⟨asked.1, asked.2, f asked.2, hits asked⟩) := by
  have hanswered : ∀ asked ∈ requests, ∃ hit, SignalReplay.resultOf asked
      ((SignalReplay.gather key around cache closeTs requests).phase asked.1.symbol) =
      some ⟨asked.1, asked.2, f asked.2, hit⟩ := by
    intro asked hasked
    have hrequest := requestOf_eq hapart hasked
    obtain ⟨answer, hit, hphase⟩ := @phase_answered κ _ key around cache
      (fun event request => by rw [hservice]; rfl) closeTs requests hmade asked hrequest
    have hanswer := (gather_answeredBy hkey hcache hservice closeTs requests).answers _ _ _ _
      (congrArg (Option.map Prod.snd) hrequest) hphase
    exact ⟨hit, by rw [hphase, SignalReplay.resultOf, hanswer]⟩
  choose! hits hhits using hanswered
  exact ⟨hits, mapM_eq_map hhits⟩

/-- **A close behind the cache is a plain close**, but for the cache hits of its rows. -/
theorem close_sound (hkey : Function.Injective key) (hcache : Faithful key f cache)
    (hservice : ∀ event request, around.service event request = some (f request))
    (hreplied : Replied replay around) (run : SignalRun) {group : List ReplayEvent}
    (hgroup : group ∈ replay.closes) :
    (replay.close key around (run, cache) group).map
        (fun state => mapHits (fun _ => false) state.1) =
      replay.plainClose f (mapHits (fun _ => false) run) group := by
  have hne := List.ne_nil_of_mem_splitBy hgroup
  obtain ⟨closeTs, hclose⟩ : ∃ closeTs, group.head?.map ReplayEvent.closeTs = some closeTs := by
    cases group with
    | nil => exact absurd rfl hne
    | cons first rest => exact ⟨_, rfl⟩
  unfold SignalReplay.close SignalReplay.plainClose
  change _ = (replay.staticExits run.ledger group).bind _
  dsimp only
  cases replay.staticExits run.ledger group with
  | none => rfl
  | some ledger =>
    cases hrequests : replay.requestsAt ledger group with
    | none => simp [hrequests]
    | some requests =>
      have hapart := requestsApart_of_close hgroup hrequests
      have hmade := allMade_of_replied hreplied hgroup hclose (requestsAt_events hrequests)
      obtain ⟨hits, hresults⟩ := results_of_service hkey hcache hservice hapart
        hmade
      have hdecide := @decideAll_mapHits replay (fun _ => false) { run with ledger }
        (requests.map fun asked => ⟨asked.1, asked.2, f asked.2, hits asked⟩)
      rw [List.map_map] at hdecide
      simp only [Option.bind_eq_bind, Option.bind_some, hrequests, hclose, hresults,
        Option.map_bind]
      refine Eq.trans ?_ hdecide.symm
      rw [Option.map_eq_bind]
      rfl

/-- The cache goes on agreeing with the service. -/
theorem close_faithful (hkey : Function.Injective key)
    (hservice : ∀ event request, around.service event request = some (f request))
    {state next : SignalRun × Dict κ SignalAnswer} (hcache : Faithful key f state.2)
    {group : List ReplayEvent} (h : replay.close key around state group = some next) :
    Faithful key f next.2 := by
  obtain ⟨_, requests, closeTs, _, _, -, -, -, -, -, rfl⟩ := close_eq_some h
  exact (gather_answeredBy hkey hcache hservice closeTs requests).faithful

/-- **A run behind a faithful cache is a run without one**, but for the cache hits. -/
theorem run_sound (hkey : Function.Injective key) (hcache : Faithful key f cache)
    (hservice : ∀ event request, around.service event request = some (f request))
    (hreplied : Replied replay around) :
    (replay.run key around cache).map (fun state => mapHits (fun _ => false) state.1) =
      replay.plainRun f :=
  @runPartial_map _ _ _ _ _ _ (fun state => Faithful key f state.2) _
    (fun state _ hgroup hstate => close_sound hkey hstate hservice hreplied state.1 hgroup)
    (fun _ _ _ hstate _ h => close_faithful hkey hservice hstate h) _ hcache

end Sound

section Repeated

variable {κ : Type} [DecidableEq κ] {key : SignalRequest → κ}
  {around later : SignalReplay.Surroundings} {cache : Dict κ SignalAnswer}

/-- The second cache has all that the first has. -/
def Extends (cache more : Dict κ SignalAnswer) : Prop :=
  ∀ k answer, cache.lookup k = some answer → more.lookup k = some answer

/-- **A close records what it was answered**, and loses nothing. -/
theorem gather_stored (hkey : Function.Injective key) (cache : Dict κ SignalAnswer)
    (closeTs : ℤ) {requests : List (ReplayEvent × SignalRequest)}
    (hapart : RequestsApart requests) :
    AnswersStored key (fun symbol => (SignalReplay.requestOf requests symbol).map Prod.snd) cache
      (SignalReplay.gather key around cache closeTs requests) :=
  answersStored_run (keysApart_of_requestsApart hapart hkey) cache _

/-- **The results of a close, once they are cached, are had again**, all of them as hits. -/
theorem results_again (hkey : Function.Injective key)
    {more : Dict κ SignalAnswer} {closeTs : ℤ}
    {requests : List (ReplayEvent × SignalRequest)} (hapart : RequestsApart requests)
    (hanswered : ∀ symbol,
      (SignalReplay.gather key around cache closeTs requests).phase symbol ≠ .failed)
    (hmade : AllMade
      (fun symbol => (SignalReplay.requestOf requests symbol).map Prod.snd)
      (later.turns closeTs)) {results : List SignalReplay.Result}
    (hresults : requests.mapM (fun asked => SignalReplay.resultOf asked
      ((SignalReplay.gather key around cache closeTs requests).phase asked.1.symbol)) =
        some results)
    (hmore : Extends (SignalReplay.gather key around cache closeTs requests).cache more) :
    requests.mapM (fun asked => SignalReplay.resultOf asked
      ((SignalReplay.gather key later more closeTs requests).phase asked.1.symbol)) =
        some (results.map (mapHit fun _ => true)) ∧
      (SignalReplay.gather key later more closeTs requests).cache = more := by
  have hstored := @gather_stored _ _ _ around hkey cache closeTs _ hapart
  -- what the first calls were answered is in the cache of the later ones
  have hstays : ∀ asked ∈ requests, ∃ answer hit,
      (SignalReplay.gather key around cache closeTs requests).phase asked.1.symbol =
        .answered answer hit ∧ more.lookup (key asked.2) = some answer := by
    intro asked hasked
    have hrequest : (SignalReplay.requestOf requests asked.1.symbol).map Prod.snd =
        some asked.2 := congrArg (Option.map Prod.snd) (requestOf_eq hapart hasked)
    obtain ⟨result, hresult⟩ := image_of_mapM hresults asked hasked
    cases hphase : (SignalReplay.gather key around cache closeTs requests).phase
        asked.1.symbol with
    | waiting | sent =>
      rw [hphase] at hresult
      cases hresult
    | answered answer hit =>
      exact ⟨answer, hit, rfl, hmore _ _ (hstored.answered _ _ _ _ hrequest hphase)⟩
    | failed => exact absurd hphase (hanswered _)
  have hhits : AllHits key
      (fun symbol => (SignalReplay.requestOf requests symbol).map Prod.snd) more
      (SignalReplay.gather key later more closeTs requests) := by
    refine allHits_run (fun symbol r hr => ?_) _
    obtain ⟨asked, hasked, rfl⟩ := Option.map_eq_some_iff.mp hr
    obtain ⟨answer, -, -, hlookup⟩ := hstays asked (requestOf_mem hasked).1
    rw [hlookup]
    rfl
  refine ⟨mapM_of_mapM (fun asked hasked result hresult => ?_) hresults, hhits.unchanged⟩
  obtain ⟨answer, hit, hphase, hlookup⟩ := hstays asked hasked
  have hrequest : (SignalReplay.requestOf requests asked.1.symbol).map Prod.snd =
      some asked.2 := congrArg (Option.map Prod.snd) (requestOf_eq hapart hasked)
  rw [hphase] at hresult
  cases Option.some.inj hresult
  rcases hhits.phase _ _ hrequest with hwaiting | ⟨answer', hphase', hlookup'⟩
  · have hsettled : ((SignalReplay.gather key later more closeTs requests).phase
        asked.1.symbol).Final := final_of_allMade hmade hrequest
    rw [hwaiting] at hsettled
    cases hsettled
  · rw [hlookup] at hlookup'
    cases Option.some.inj hlookup'
    rw [hphase']
    rfl

/-- No call that a close makes fails. -/
def CloseAnswered (replay : SignalReplay) (key : SignalRequest → κ)
    (around : SignalReplay.Surroundings) (state : SignalRun × Dict κ SignalAnswer)
    (group : List ReplayEvent) : Prop :=
  ∀ ledger requests closeTs, replay.staticExits state.1.ledger group = some ledger →
    replay.requestsAt ledger group = some requests →
    group.head?.map ReplayEvent.closeTs = some closeTs →
    ∀ symbol, (SignalReplay.gather key around state.2 closeTs requests).phase symbol ≠ .failed

/-- No call fails in a close that a run from the state reaches. -/
def RunAnswered (replay : SignalReplay) (key : SignalRequest → κ)
    (around : SignalReplay.Surroundings) (state : SignalRun × Dict κ SignalAnswer)
    (groups : List (List ReplayEvent)) : Prop :=
  ∀ before group after reached, groups = before ++ group :: after →
    runPartial (replay.close key around) state before = some reached →
    CloseAnswered replay key around reached group

/-- Where the service answers whatever it is sent, no call fails. -/
theorem runAnswered_of_service (hservice : ∀ event request, (around.service event request).isSome)
    (state : SignalRun × Dict κ SignalAnswer) (groups : List (List ReplayEvent)) :
    RunAnswered replay key around state groups :=
  fun _ _ _ _ _ _ _ requests closeTs _ _ _ => gather_not_failed hservice closeTs requests

/-- The first close of a run and the run after it. -/
theorem RunAnswered.cons {state : SignalRun × Dict κ SignalAnswer} {group : List ReplayEvent}
    {rest : List (List ReplayEvent)} (h : RunAnswered replay key around state (group :: rest)) :
    CloseAnswered replay key around state group ∧
      ∀ next, replay.close key around state group = some next →
        RunAnswered replay key around next rest := by
  refine ⟨h [] group rest state rfl rfl, fun next hnext before later after reached hrest hrun => ?_⟩
  refine h (group :: before) later after reached (by rw [hrest, List.cons_append]) ?_
  rw [runPartial_cons, hnext]
  exact hrun

/-- **A close that came through comes through again** behind what it left in the cache. -/
theorem close_again (hkey : Function.Injective key)
    (hreplied : Replied replay later) {run next : SignalRun} {left : Dict κ SignalAnswer}
    {group : List ReplayEvent} (hgroup : group ∈ replay.closes)
    (hanswered : CloseAnswered replay key around (run, cache) group)
    (h : replay.close key around (run, cache) group = some (next, left)) :
    Extends cache left ∧ ∀ more, Extends left more →
      replay.close key later (mapHits (fun _ => true) run, more) group =
        some (mapHits (fun _ => true) next, more) := by
  obtain ⟨ledger, requests, closeTs, results, next', hledger, hrequests, hclose, hresults,
    hdecide, heq⟩ := close_eq_some h
  cases heq
  dsimp only at hledger hresults hdecide
  have hapart := requestsApart_of_close hgroup hrequests
  have hmade := allMade_of_replied hreplied hgroup hclose (requestsAt_events hrequests)
  refine ⟨(gather_stored hkey cache closeTs hapart).grown, fun more hmore => ?_⟩
  obtain ⟨hagain, hcache⟩ := results_again hkey hapart
    (hanswered ledger requests closeTs hledger hrequests hclose) hmade hresults hmore
  have hnext := @decideAll_mapHits replay (fun _ => true)
    { run with ledger } results
  rw [hdecide] at hnext
  unfold SignalReplay.close
  simp only [mapHits] at hnext ⊢
  simp only [hledger, hrequests, hclose, hagain, hnext, hcache, Option.bind_eq_bind,
    Option.bind_some, Option.map_some]
  rfl

/-- **A run that came through comes through again** behind what it left in the cache. -/
theorem run_again (hkey : Function.Injective key)
    (hreplied : Replied replay later) {groups : List (List ReplayEvent)}
    (hgroups : ∀ group ∈ groups, group ∈ replay.closes) {run next : SignalRun}
    {cache left : Dict κ SignalAnswer}
    (hanswered : RunAnswered replay key around (run, cache) groups)
    (h : runPartial (replay.close key around) (run, cache) groups = some (next, left)) :
    Extends cache left ∧ ∀ more, Extends left more →
      runPartial (replay.close key later) (mapHits (fun _ => true) run, more) groups =
        some (mapHits (fun _ => true) next, more) := by
  induction groups generalizing run cache with
  | nil =>
    cases Option.some.inj h
    exact ⟨fun _ _ h => h, fun _ _ => rfl⟩
  | cons group rest ih =>
    rw [runPartial_cons] at h
    obtain ⟨⟨mid, kept⟩, hmid, hrest⟩ := Option.bind_eq_some_iff.mp h
    obtain ⟨hfirst, hlater⟩ := hanswered.cons
    obtain ⟨hkept, hagain⟩ :=
      close_again hkey hreplied (hgroups group List.mem_cons_self) hfirst hmid
    obtain ⟨hleft, hrestAgain⟩ := ih (fun g hg => hgroups g (List.mem_cons_of_mem _ hg))
      (hlater _ hmid) hrest
    refine ⟨fun k answer hk => hleft k answer (hkept k answer hk), fun more hmore => ?_⟩
    rw [runPartial_cons, hagain more fun k answer hk => hmore k answer (hleft k answer hk)]
    exact hrestAgain more hmore

end Repeated

end Replay

/-! ## Runs -/

/-- **The cache is sound**: whatever calls filled it, of any runs, in any order, failed ones among
them, a run behind it against a service that answers by `f` trades as one that asks each time. -/
theorem replay_through_cache {ι : Type u} {κ : Type} [DecidableEq ι] [DecidableEq κ]
    (replay : SignalReplay) (key : SignalRequest → κ) (hkey : Function.Injective key)
    (f : SignalRequest → SignalAnswer) (request : ι → Option SignalRequest)
    (earlier : ι → Option SignalAnswer)
    (hearlier : ∀ i r, request i = some r → earlier i = none ∨ earlier i = some (f r))
    (filled : List (CallStep ι)) (around : SignalReplay.Surroundings)
    (hservice : ∀ event r, around.service event r = some (f r)) (hreplied : Replied replay around) :
    (replay.run key around
        (runFrom (callStep key request earlier) (.fresh ∅) filled).cache).map
      (fun state => mapHits (fun _ => false) state.1) = replay.plainRun f :=
  run_sound hkey (answeredBy_run hkey hearlier faithful_empty filled).faithful hservice hreplied

/-- **A run that is repeated sends no call**: if no call of it failed, then behind the cache it
left, or more, it trades the same, with every answer from the cache, whatever the service would
say. -/
theorem replay_repeats {κ : Type} [DecidableEq κ] (replay : SignalReplay)
    (key : SignalRequest → κ) (hkey : Function.Injective key)
    (around later : SignalReplay.Surroundings) (hreplied : Replied replay later)
    (cache left more : Dict κ SignalAnswer) (run : SignalRun)
    (hanswered : RunAnswered replay key around (replay.start, cache) replay.closes)
    (h : replay.run key around cache = some (run, left)) (hmore : Extends left more) :
    replay.run key later more = some (mapHits (fun _ => true) run, more) :=
  (run_again hkey hreplied (fun _ hgroup => hgroup) hanswered h).2 more hmore

theorem twenty_pos : 0 < 20 := Nat.succ_pos 19

/-- Twenty-one hours at one price. -/
def stillSeries : CandleSeries where
  candles := (List.range 21).map fun i => ⟨3600000 * i, ⟨2, 2, 2, 2, 5⟩⟩
  ascending := by decide

/-- What the indicators of a still market come to. -/
def stillIndicators (_window : List History.Candle) : Option Scheduler.IndicatorValues :=
  some
    { rsi14 := 100
      ema50 := 2
      ema200 := 2
      macd := { macd := 0, signal := 0, histogram := 0 }
      atr14 := 0
      volumeSma20 := 5 }

/-- A replay of them has one decision. -/
def stillReplay : SignalReplay where
  timeframe := ⟨1, .h, Nat.one_pos⟩
  timeframeText := "1h"
  startMs := 0
  endMs := 86400000
  candleLookback := 20
  lookback_pos := twenty_pos
  llmOhlcvWindow := 5
  riskConfig := {}
  startingEquityUsdt := 10000
  feePct := 1 / 1000
  slippagePct := 0
  compounding := false
  candlesBySymbol := (∅ : Dict Symbol CandleSeries).insert "BTC/USDT" stillSeries
  computeIndicators := stillIndicators
  iso _ := ""

/-- An entry. -/
def entryAnswer : SignalAnswer where
  action := some "BUY"
  confidence := some (9 / 10)

/-- A service that says so. -/
def buyingService : SignalReplay.Surroundings where
  service _ _ := some entryAnswer
  turns _ := [.ask "BTC/USDT", .reply "BTC/USDT"]

/-- A service that is down. -/
def noService : SignalReplay.Surroundings where
  service _ _ := none
  turns _ := [.ask "BTC/USDT", .reply "BTC/USDT"]

/-- Every call of the still replay is replied to where its one symbol is asked and answered at each
close. -/
theorem replied_stillReplay {around : SignalReplay.Surroundings}
    (h : ∀ closeTs, around.turns closeTs = [.ask "BTC/USDT", .reply "BTC/USDT"]) :
    Replied stillReplay around := by
  intro event hevent
  have hperm : event ∈ stillReplay.candlesBySymbol.entries.flatMap fun entry =>
      stillReplay.eventsOf entry.1 entry.2 := (sortBy_perm _ _).mem_iff.mp hevent
  obtain ⟨entry, hentry, hevent⟩ := List.mem_flatMap.mp hperm
  have hsymbol : event.symbol = entry.1 := (@eventsOf_eq (asMechanical stillReplay) _ _ _ hevent).1
  have hbtc : entry.1 = "BTC/USDT" := by
    have hsingle : stillReplay.candlesBySymbol.entries = [⟨"BTC/USDT", stillSeries⟩] := rfl
    rw [hsingle, List.mem_singleton] at hentry
    rw [hentry]
  rw [hsymbol, hbtc, h]
  exact ⟨[], [], [], rfl⟩

/-- A call that failed and one that did not fill the cache of a run that trades as without it. -/
theorem replay_through_cache_still :
    let request : Bool → Option SignalRequest := fun _ =>
      stillReplay.requestAt stillReplay.start.ledger ⟨72000000, "BTC/USDT", 19⟩
    let filled : CallCache Bool SignalRequest SignalAnswer :=
      runFrom (callStep id request fun i => if i then none else some entryAnswer) (.fresh ∅)
        [.ask true, .ask false, .reply true, .reply false]
    (stillReplay.run id buyingService filled.cache).map
        (fun state => mapHits (fun _ => false) state.1) =
      stillReplay.plainRun fun _ => entryAnswer := by
  intro request filled
  refine replay_through_cache stillReplay id Function.injective_id (fun _ => entryAnswer) request
    (fun i => if i then none else some entryAnswer) (fun i _ _ => ?_) _ buyingService
    (fun _ _ => rfl) (replied_stillReplay fun _ => rfl)
  cases i
  · exact .inr rfl
  · exact .inl rfl

/-- The run of one decision, repeated while the service is down. -/
theorem replay_repeats_still : ∃ run left,
    stillReplay.run id buyingService ∅ = some (run, left) ∧ run.rows.length = 1 ∧
      stillReplay.run id noService left = some (mapHits (fun _ => true) run, left) := by
  have hone : ((stillReplay.run id buyingService ∅).any fun state =>
      state.1.rows.length == 1) = true := by decide +kernel
  cases h : stillReplay.run id buyingService ∅ with
  | none =>
    rw [h] at hone
    cases hone
  | some state =>
    rw [h] at hone
    refine ⟨state.1, state.2, rfl, eq_of_beq hone, ?_⟩
    exact replay_repeats stillReplay id Function.injective_id buyingService noService
      (replied_stillReplay fun _ => rfl) ∅ state.2 state.2 state.1
      (runAnswered_of_service (fun _ _ => rfl) _ _) h fun _ _ hlookup => hlookup

end TradeMind.Analysis
