import TradeMind.Library.Dictionary
import TradeMind.Library.Machine

/-!
# Calls behind a cache

Calls of a service that overlap, each behind one look at a cache: a call whose key is there is
answered by it, another is sent and its answer stored, and one that fails is not.  A cache that
agrees with the service goes on doing so (`Faithful`); calls with different keys leave what they
found and what they were answered in it (`AnswersStored`), and find it there the next time
(`answered_of_cached`).
-/

set_option autoImplicit false

namespace TradeMind.Library

universe u v w x

/-- Where a call behind the cache stands. -/
inductive CallPhase (α : Type w)
  | waiting
  | sent
  /-- Answered, and whether by the cache. -/
  | answered (answer : α) (hit : Bool)
  | failed
  deriving DecidableEq, Repr

/-- A call looks at the cache, or its reply arrives. -/
inductive CallStep (ι : Type u)
  | ask (i : ι)
  | reply (i : ι)
  deriving DecidableEq, Repr

/-- The state of a cache and of the calls that share it; at the start every call waits. -/
structure CallCache (ι : Type u) (κ : Type v) (α : Type w) where
  cache : Dict κ α
  phase : ι → CallPhase α := fun _ => .waiting

variable {ι : Type u} {ρ : Type x} {κ : Type v} {α : Type w} [DecidableEq ι] [DecidableEq κ]

/-- One step of the calls of `request`; `service` is what each of them is answered if it is sent,
`none` for a failure. -/
def callStep (key : ρ → κ) (request : ι → Option ρ) (service : ι → Option α)
    (s : CallCache ι κ α) : CallStep ι → CallCache ι κ α
  | .ask i =>
    match s.phase i, request i with
    | .waiting, some r =>
      match s.cache.lookup (key r) with
      | some answer => { s with phase := Function.update s.phase i (.answered answer true) }
      | none => { s with phase := Function.update s.phase i .sent }
    | _, _ => s
  | .reply i =>
    match s.phase i, request i with
    | .sent, some r =>
      match service i with
      | some answer =>
        { cache := s.cache.insert (key r) answer
          phase := Function.update s.phase i (.answered answer false) }
      | none => { s with phase := Function.update s.phase i .failed }
    | _, _ => s

variable {key : ρ → κ} {request : ι → Option ρ} {service : ι → Option α} {f : ρ → α}
  {s s' : CallCache ι κ α}

/-- What a step of a call does: nothing, or the call is served from the cache, sent, answered and
stored, or failed. -/
inductive CallEffect (key : ρ → κ) (request : ι → Option ρ) (service : ι → Option α)
    (s : CallCache ι κ α) : CallStep ι → CallCache ι κ α → Prop
  | ignored (step : CallStep ι)
      (hask : ∀ i r, step = .ask i → request i = some r → s.phase i ≠ .waiting)
      (hreply : ∀ i r, step = .reply i → request i = some r → s.phase i ≠ .sent) :
      CallEffect key request service s step s
  | hit (i : ι) (r : ρ) (answer : α) (hphase : s.phase i = .waiting) (hrequest : request i = some r)
      (hcache : s.cache.lookup (key r) = some answer) :
      CallEffect key request service s (.ask i)
        { s with phase := Function.update s.phase i (.answered answer true) }
  | missed (i : ι) (r : ρ) (hphase : s.phase i = .waiting) (hrequest : request i = some r)
      (hcache : s.cache.lookup (key r) = none) :
      CallEffect key request service s (.ask i)
        { s with phase := Function.update s.phase i .sent }
  | stored (i : ι) (r : ρ) (answer : α) (hphase : s.phase i = .sent) (hrequest : request i = some r)
      (hanswer : service i = some answer) :
      CallEffect key request service s (.reply i)
        { cache := s.cache.insert (key r) answer
          phase := Function.update s.phase i (.answered answer false) }
  | failed (i : ι) (r : ρ) (hphase : s.phase i = .sent) (hrequest : request i = some r)
      (hanswer : service i = none) :
      CallEffect key request service s (.reply i)
        { s with phase := Function.update s.phase i .failed }

theorem callStep_effect (step : CallStep ι) :
    CallEffect key request service s step (callStep key request service s step) := by
  cases step with
  | ask i =>
    rw [callStep]
    split
    · next r hphase hrequest =>
      split
      · next answer hcache => exact .hit i r answer hphase hrequest hcache
      · next hcache => exact .missed i r hphase hrequest hcache
    · next hother =>
      refine .ignored _ (fun j r hj hrequest hphase => ?_) nofun
      cases hj
      exact hother r hphase hrequest
  | reply i =>
    rw [callStep]
    split
    · next r hphase hrequest =>
      split
      · next answer hanswer => exact .stored i r answer hphase hrequest hanswer
      · next hanswer => exact .failed i r hphase hrequest hanswer
    · next hother =>
      refine .ignored _ nofun fun j r hj hrequest hphase => ?_
      cases hj
      exact hother r hphase hrequest

/-! ## A cache that agrees with the service -/

/-- Whatever is cached under the key of a request is what the service answers it. -/
def Faithful (key : ρ → κ) (f : ρ → α) (cache : Dict κ α) : Prop :=
  ∀ r answer, cache.lookup (key r) = some answer → answer = f r

omit [DecidableEq ι] in
/-- An empty cache agrees with every service. -/
theorem faithful_empty : Faithful key f ∅ := by
  intro r answer h
  rw [AList.lookup_empty] at h
  cases h

omit [DecidableEq ι] in
/-- A cache that agrees with a service still does when one of its answers is stored. -/
theorem Faithful.insert {cache : Dict κ α} (h : Faithful key f cache)
    (hkey : Function.Injective key) (r : ρ) : Faithful key f (cache.insert (key r) (f r)) := by
  intro r' answer hlookup
  rcases Dict.lookup_of_insert hlookup with ⟨hsame, rfl⟩ | hold
  · rw [hkey hsame]
  · exact h r' answer hold

/-- The cache agrees with the service, and whoever is answered has its answer. -/
structure AnsweredBy (key : ρ → κ) (request : ι → Option ρ) (f : ρ → α) (s : CallCache ι κ α) :
    Prop where
  faithful : Faithful key f s.cache
  answers : ∀ i r answer hit, request i = some r → s.phase i = .answered answer hit → answer = f r

/-- A call moves on, and what it is answered is right. -/
theorem AnsweredBy.move (h : AnsweredBy key request f s) {cache : Dict κ α}
    (hcache : Faithful key f cache) {i : ι} {phase : CallPhase α}
    (hphase : ∀ r answer hit, request i = some r → phase = .answered answer hit → answer = f r) :
    AnsweredBy key request f { cache, phase := Function.update s.phase i phase } := by
  refine ⟨hcache, fun j r answer hit hrequest hj => ?_⟩
  dsimp only at hj
  rw [Function.update_apply] at hj
  split at hj
  · next heq =>
    rw [heq] at hrequest
    exact hphase r answer hit hrequest hj
  · exact h.answers j r answer hit hrequest hj

/-- **A step keeps a cache faithful** where the service answers by `f` or fails. -/
theorem AnsweredBy.step (h : AnsweredBy key request f s) (hkey : Function.Injective key)
    (hservice : ∀ i r, request i = some r → service i = none ∨ service i = some (f r))
    {step : CallStep ι} (heffect : CallEffect key request service s step s') :
    AnsweredBy key request f s' := by
  cases heffect with
  | ignored => exact h
  | hit i r answer hphase hrequest hcache =>
    refine h.move h.faithful fun r' answer' hit hrequest' heq => ?_
    rw [hrequest] at hrequest'
    cases hrequest'
    cases heq
    exact h.faithful r answer hcache
  | missed i r hphase hrequest hcache => exact h.move h.faithful nofun
  | stored i r answer hphase hrequest hanswer =>
    have hright : answer = f r := by
      rcases hservice i r hrequest with hnone | hsome
      · rw [hnone] at hanswer
        cases hanswer
      · rw [hsome] at hanswer
        exact (Option.some.inj hanswer).symm
    subst hright
    refine h.move (h.faithful.insert hkey r) fun r' answer' hit hrequest' heq => ?_
    rw [hrequest] at hrequest'
    cases hrequest'
    cases heq
    rfl
  | failed i r hphase hrequest hanswer => exact h.move h.faithful nofun

/-- Before any call has asked. -/
def CallCache.fresh (cache : Dict κ α) : CallCache ι κ α := { cache }

/-- **Calls of a service that answers by `f` or fails are answered by it**, whatever their
order. -/
theorem answeredBy_run (hkey : Function.Injective key)
    (hservice : ∀ i r, request i = some r → service i = none ∨ service i = some (f r))
    {cache : Dict κ α} (hcache : Faithful key f cache) (turns : List (CallStep ι)) :
    AnsweredBy key request f (runFrom (callStep key request service) (.fresh cache) turns) :=
  runFrom_inv ⟨hcache, nofun⟩ turns
    fun _ step _ h => h.step hkey hservice (callStep_effect step)

/-! ## What the calls leave in the cache -/

/-- The requests have different keys. -/
def KeysApart (key : ρ → κ) (request : ι → Option ρ) : Prop :=
  ∀ i j r r', request i = some r → request j = some r' → key r = key r' → i = j

/-- With different keys: nothing is lost, who is sent finds nothing under its key, and who is
answered finds its answer. -/
structure AnswersStored (key : ρ → κ) (request : ι → Option ρ) (cache : Dict κ α)
    (s : CallCache ι κ α) : Prop where
  grown : ∀ k answer, cache.lookup k = some answer → s.cache.lookup k = some answer
  sent : ∀ i r, request i = some r → s.phase i = .sent → s.cache.lookup (key r) = none
  answered : ∀ i r answer hit, request i = some r → s.phase i = .answered answer hit →
    s.cache.lookup (key r) = some answer

/-- A call moves on without a word to the cache. -/
theorem AnswersStored.move {cache : Dict κ α} (h : AnswersStored key request cache s) {i : ι}
    {phase : CallPhase α}
    (hsent : ∀ r, request i = some r → phase = .sent → s.cache.lookup (key r) = none)
    (hanswered : ∀ r answer hit, request i = some r → phase = .answered answer hit →
      s.cache.lookup (key r) = some answer) :
    AnswersStored key request cache { s with phase := Function.update s.phase i phase } := by
  refine ⟨h.grown, fun j r hrequest hj => ?_, fun j r answer hit hrequest hj => ?_⟩ <;>
    dsimp only at hj ⊢ <;> rw [Function.update_apply] at hj <;> split at hj
  · next heq =>
    rw [heq] at hrequest
    exact hsent r hrequest hj
  · exact h.sent j r hrequest hj
  · next heq =>
    rw [heq] at hrequest
    exact hanswered r answer hit hrequest hj
  · exact h.answered j r answer hit hrequest hj

/-- **A step records what it was answered**, and nothing over what was there. -/
theorem AnswersStored.step {cache : Dict κ α} (h : AnswersStored key request cache s)
    (hapart : KeysApart key request) {step : CallStep ι}
    (heffect : CallEffect key request service s step s') : AnswersStored key request cache s' := by
  cases heffect with
  | ignored => exact h
  | hit i r answer hphase hrequest hcache =>
    refine h.move nofun fun r' answer' hit hrequest' heq => ?_
    rw [hrequest] at hrequest'
    cases hrequest'
    cases heq
    exact hcache
  | missed i r hphase hrequest hcache =>
    refine h.move (fun r' hrequest' _ => ?_) nofun
    rw [hrequest] at hrequest'
    cases hrequest'
    exact hcache
  | stored i r answer hphase hrequest hanswer =>
    have hnone := h.sent i r hrequest hphase
    have hother : ∀ j r', request j = some r' → j ≠ i → key r' ≠ key r :=
      fun j r' hr' hne heq => hne (hapart j i r' r hr' hrequest heq)
    refine ⟨fun k a hk => ?_, fun j r' hr' hj => ?_, fun j r' a hit hr' hj => ?_⟩
    · -- the call was sent for want of an entry, so it replaces none
      have hold := h.grown k a hk
      have hne : k ≠ key r := by
        rintro rfl
        rw [hnone] at hold
        cases hold
      rw [AList.lookup_insert_ne hne]
      exact hold
    · dsimp only at hj ⊢
      rw [Function.update_apply] at hj
      split at hj
      · cases hj
      · next hne =>
        rw [AList.lookup_insert_ne (hother j r' hr' hne)]
        exact h.sent j r' hr' hj
    · dsimp only at hj ⊢
      rw [Function.update_apply] at hj
      split at hj
      · next heq =>
        subst heq
        rw [hrequest] at hr'
        cases hr'
        cases hj
        exact AList.lookup_insert _
      · next hne =>
        rw [AList.lookup_insert_ne (hother j r' hr' hne)]
        exact h.answered j r' a hit hr' hj
  | failed i r hphase hrequest hanswer => exact h.move nofun nofun

/-- **Calls with different keys leave their answers in the cache**, beside what was there. -/
theorem answersStored_run (hapart : KeysApart key request) (cache : Dict κ α)
    (turns : List (CallStep ι)) :
    AnswersStored key request cache
      (runFrom (callStep key request service) (.fresh cache) turns) :=
  runFrom_inv ⟨fun _ _ h => h, nofun, nofun⟩ turns
    fun _ step _ h => h.step hapart (callStep_effect step)

/-! ## Calls that are all cached -/

/-- The cache is as it was and every answer is from it. -/
structure AllHits (key : ρ → κ) (request : ι → Option ρ) (cache : Dict κ α)
    (s : CallCache ι κ α) : Prop where
  unchanged : s.cache = cache
  phase : ∀ i r, request i = some r → s.phase i = .waiting ∨
    ∃ answer, s.phase i = .answered answer true ∧ cache.lookup (key r) = some answer

/-- **A step of calls that are all cached is a hit.** -/
theorem AllHits.step {cache : Dict κ α} (h : AllHits key request cache s)
    (hcached : ∀ i r, request i = some r → (cache.lookup (key r)).isSome) {step : CallStep ι}
    (heffect : CallEffect key request service s step s') : AllHits key request cache s' := by
  have hnever : ∀ i r, request i = some r → s.phase i ≠ .sent := by
    intro i r hr hphase
    rcases h.phase i r hr with heq | ⟨answer, heq, -⟩ <;> rw [hphase] at heq <;> cases heq
  cases heffect with
  | ignored => exact h
  | hit i r answer hphase hrequest hcache =>
    refine ⟨h.unchanged, fun j r' hr' => ?_⟩
    dsimp only
    rw [Function.update_apply]
    split
    · next heq =>
      rw [heq, hrequest] at hr'
      cases hr'
      rw [h.unchanged] at hcache
      exact .inr ⟨answer, rfl, hcache⟩
    · exact h.phase j r' hr'
  | missed i r hphase hrequest hcache =>
    have hsome := hcached i r hrequest
    rw [← h.unchanged, hcache] at hsome
    cases hsome
  | stored i r answer hphase hrequest => exact absurd hphase (hnever i r hrequest)
  | failed i r hphase hrequest => exact absurd hphase (hnever i r hrequest)

/-- **Calls whose keys are all cached are all hits**, whatever the service would say. -/
theorem allHits_run {cache : Dict κ α}
    (hcached : ∀ i r, request i = some r → (cache.lookup (key r)).isSome)
    (turns : List (CallStep ι)) :
    AllHits key request cache (runFrom (callStep key request service) (.fresh cache) turns) :=
  runFrom_inv ⟨rfl, fun _ _ _ => .inl rfl⟩ turns
    fun _ step _ h => h.step hcached (callStep_effect step)

/-! ## Calls that are all made -/

/-- Every request is asked, and later its reply arrives. -/
def AllMade (request : ι → Option ρ) (turns : List (CallStep ι)) : Prop :=
  ∀ i r, request i = some r → ∃ before mid after,
    turns = before ++ .ask i :: (mid ++ .reply i :: after)

/-- Answered or failed. -/
def CallPhase.Final : CallPhase α → Prop
  | .answered _ _ | .failed => True
  | .waiting | .sent => False

/-- A call that has asked goes on from there, and one that is settled stays so. -/
theorem CallEffect.onward {step : CallStep ι} (heffect : CallEffect key request service s step s')
    (i : ι) : (s.phase i ≠ .waiting → s'.phase i ≠ .waiting) ∧
      ((s.phase i).Final → (s'.phase i).Final) := by
  have hupdate : ∀ (j : ι) (phase : CallPhase α), phase ≠ .waiting → ¬ (s.phase j).Final →
      ((s.phase i ≠ .waiting → Function.update s.phase j phase i ≠ .waiting) ∧
        ((s.phase i).Final → (Function.update s.phase j phase i).Final)) := by
    intro j phase hphase hbefore
    rw [Function.update_apply]
    split
    · next heq => exact ⟨fun _ => hphase, fun hsettled => absurd (heq ▸ hsettled) hbefore⟩
    · exact ⟨id, id⟩
  cases heffect with
  | ignored => exact ⟨id, id⟩
  | hit j r answer hphase | missed j r hphase | stored j r answer hphase | failed j r hphase =>
    refine hupdate j _ nofun ?_
    rw [hphase]
    exact id

/-- Where the service answers every call, none fails. -/
theorem CallEffect.notFailed {step : CallStep ι}
    (heffect : CallEffect key request service s step s')
    (hservice : ∀ i r, request i = some r → (service i).isSome) {i : ι}
    (h : s.phase i ≠ .failed) : s'.phase i ≠ .failed := by
  cases heffect with
  | ignored => exact h
  | hit | missed | stored =>
    dsimp only
    rw [Function.update_apply]
    split
    · nofun
    · exact h
  | failed j r hphase hrequest hanswer =>
    have hsome := hservice j r hrequest
    rw [hanswer] at hsome
    cases hsome

/-- Asking begins a call. -/
theorem CallEffect.asked {i : ι} {r : ρ} (hrequest : request i = some r)
    (heffect : CallEffect key request service s (.ask i) s') : s'.phase i ≠ .waiting := by
  cases heffect with
  | ignored _ hask _ => exact hask i r rfl hrequest
  | hit | missed =>
    dsimp only
    rw [Function.update_self]
    nofun

theorem CallEffect.replied {i : ι} {r : ρ} (hrequest : request i = some r)
    (hbegun : s.phase i ≠ .waiting)
    (heffect : CallEffect key request service s (.reply i) s') : (s'.phase i).Final := by
  cases heffect with
  | ignored _ _ hreply =>
    have hsent := hreply i r rfl hrequest
    cases hphase : s.phase i with
    | waiting => exact absurd hphase hbegun
    | sent => exact absurd hphase hsent
    | answered | failed => trivial
  | stored | failed =>
    dsimp only
    rw [Function.update_self]
    trivial

theorem not_failed_run (hservice : ∀ i r, request i = some r → (service i).isSome)
    {cache : Dict κ α} (turns : List (CallStep ι)) (i : ι) :
    (runFrom (callStep key request service) (.fresh cache) turns).phase i ≠ .failed := by
  have hfresh : (CallCache.fresh cache : CallCache ι κ α).phase i ≠ .failed :=
    fun heq => by cases heq
  exact runFrom_inv (P := fun s : CallCache ι κ α => s.phase i ≠ .failed) hfresh turns
    fun _ step _ h => (callStep_effect step).notFailed hservice h

/-- **Calls that are all made are all settled.** -/
theorem final_of_allMade {cache : Dict κ α} {turns : List (CallStep ι)}
    (hmade : AllMade request turns) {i : ι} {r : ρ} (hrequest : request i = some r) :
    ((runFrom (callStep key request service) (.fresh cache) turns).phase i).Final := by
  obtain ⟨before, mid, after, rfl⟩ := hmade i r hrequest
  rw [runFrom, List.foldl_append, List.foldl_cons, List.foldl_append, List.foldl_cons]
  refine runFrom_inv (P := fun s : CallCache ι κ α => (s.phase i).Final) ?_ after
    fun s step _ h => ((callStep_effect step).onward i).2 h
  refine (callStep_effect _).replied hrequest ?_
  exact runFrom_inv (P := fun s : CallCache ι κ α => s.phase i ≠ .waiting)
    ((callStep_effect _).asked hrequest) mid
    fun s step _ h => ((callStep_effect step).onward i).1 h

end TradeMind.Library
