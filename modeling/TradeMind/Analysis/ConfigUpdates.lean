import TradeMind.Model.RiskConfigStore

/-!
# Overlapping configuration updates

`PATCH /config` requests that overlap.  Each writes the whole overrides back, so a field it
does not patch goes back to what it loaded, and an update committed in between is lost.
`run_configAgrees_iff` says exactly which runs keep the effective configuration equal to
the defaults overlaid by the changes the committed events record.
-/

set_option autoImplicit false

namespace TradeMind.Analysis

open TradeMind.Library TradeMind.Model

variable (defaults : RiskConfig) (encode : Decimal → ℚ)

/-- The configuration after the changes of one CONFIG_CHANGED event, as its payload records
them. -/
def replayChanges (c : Option RiskConfig) (patch : RiskConfigPatch) : Option RiskConfig :=
  c.map fun c => c.overlay encode patch.changes

/-- The configuration in effect is the defaults overlaid by the recorded changes, in commit
order. -/
def ConfigAgrees (s : Table RiskConfigPatch RiskConfigState) : Prop :=
  loadEffectiveRiskConfig defaults s.committed =
    some (s.log.foldl (fun c patch => c.overlay encode patch.changes) defaults)

instance (s : Table RiskConfigPatch RiskConfigState) :
    Decidable (ConfigAgrees defaults encode s) := inferInstanceAs (Decidable (_ = _))

/-- A commit that stores new overrides stores the values its event records, and every field it
does not patch is in effect as it loaded it; one that found its overrides stored already finds
the values its event records in effect. -/
def StoresItsChanges (s : Table RiskConfigPatch RiskConfigState) :
    RowStep RiskConfigPatch → Prop
  | .commit t => ∀ patch loaded write,
    s.transactions t = some (patch, .flushed loaded write) →
      if (overridesOf loaded).merge patch.changes = overridesOf loaded then
        ∀ f v, patch.changes f = some v →
          (effectiveConfig defaults s.committed).get f = f.kind.read encode v
      else
        (∀ f v, patch.changes f = some v →
          f.kind.read Decimal.value v = f.kind.read encode v) ∧
        ∀ f, patch.changes f = none →
          (effectiveConfig defaults s.committed).get f = (effectiveConfig defaults loaded).get f
  | _ => True

theorem foldl_replayChanges (c : RiskConfig) (log : List RiskConfigPatch) :
    log.foldl (replayChanges encode) (some c) =
      some (log.foldl (fun c patch => c.overlay encode patch.changes) c) := by
  induction log generalizing c with
  | nil => rfl
  | cons patch log ih => exact ih _

theorem configAgrees_iff (s : Table RiskConfigPatch RiskConfigState) :
    ConfigAgrees defaults encode s ↔
      Agrees (loadEffectiveRiskConfig defaults) (replayChanges encode) (some defaults) s := by
  unfold ConfigAgrees Agrees
  rw [foldl_replayChanges]

variable {defaults encode}

/-- A configuration that loads is the effective one. -/
theorem loadEffectiveRiskConfig_eq {row : Option RiskConfigState} {c : RiskConfig}
    (h : loadEffectiveRiskConfig defaults row = some c) :
    c = effectiveConfig defaults row := by
  unfold loadEffectiveRiskConfig at h
  dsimp only at h
  split at h
  · exact (Option.some.inj h).symm
  · cases h

/-- What a request that is not refused wants: its changes merged into the overrides it loaded,
which load, and which it had some changes for. -/
theorem patchConfig_some {patch : RiskConfigPatch} {loaded : Option RiskConfigState}
    {wanted : RiskConfigState} (h : patchConfig defaults patch loaded = some wanted) :
    wanted = { overrides := some ((overridesOf loaded).merge patch.changes) } ∧
      loadEffectiveRiskConfig defaults (some wanted) =
        some (effectiveConfig defaults (some wanted)) ∧
      patch.changes ≠ Overrides.empty := by
  unfold patchConfig at h
  split at h
  · cases h
  · rename_i hsome
    split at h
    · cases h
    · split at h
      · cases h
      · unfold applyRiskConfigPatch at h
        dsimp only at h
        split at h
        · rename_i hvalid
          cases h
          exact ⟨rfl, if_pos hvalid, hsome⟩
        · cases h

theorem merge_ne_empty {overrides changes : Overrides} (h : changes ≠ Overrides.empty) :
    overrides.merge changes ≠ Overrides.empty := by
  intro hmerge
  refine h (funext fun f => ?_)
  have hf := congrFun hmerge f
  unfold Overrides.merge Overrides.empty at hf
  exact (Option.or_eq_none_iff.mp hf).1

/-- A request finds its overrides stored exactly where it does not change the column. -/
theorem stored_iff {row : RiskConfigState} {changes : Overrides}
    (h : changes ≠ Overrides.empty) :
    some ((overridesOf (some row)).merge changes) = row.overrides ↔
      (overridesOf (some row)).merge changes = overridesOf (some row) := by
  obtain ⟨overrides⟩ := row
  cases overrides with
  | none => exact iff_of_false nofun (merge_ne_empty h)
  | some overrides => exact Option.some_inj

/-- **What a commit leaves in effect**: the committed configuration where the request found its
overrides stored, and otherwise the overrides it loaded with its changes merged in. -/
theorem Writes.config {committed loaded write : Option RiskConfigState} {patch : RiskConfigPatch}
    (h : Writes (riskConfigRow defaults) committed patch loaded write) :
    loadEffectiveRiskConfig defaults (write.or committed) =
      if (overridesOf loaded).merge patch.changes = overridesOf loaded then
        loadEffectiveRiskConfig defaults committed
      else
        some (defaults.overlay Decimal.value ((overridesOf loaded).merge patch.changes)) := by
  cases h with
  | updated row wanted current hplan hcommitted =>
    obtain ⟨rfl, hloads, hchanges⟩ := patchConfig_some hplan
    subst hcommitted
    rw [Option.some_or]
    simp only [writeBack, riskConfigRow, List.foldl_cons, List.foldl_nil, Column.carry]
    by_cases hstored : (overridesOf (some row)).merge patch.changes = overridesOf (some row)
    · rw [if_pos hstored, if_pos ((stored_iff hchanges).mpr hstored)]
    · rw [if_neg hstored, if_neg (mt (stored_iff hchanges).mp hstored)]
      exact hloads
  | inserted wanted hplan hcommitted =>
    obtain ⟨rfl, hloads, hchanges⟩ := patchConfig_some hplan
    rw [if_neg (show ¬ (overridesOf none).merge patch.changes = overridesOf none from
      merge_ne_empty hchanges), Option.some_or, hloads]
    rfl
  | unchanged row wanted hplan hsame =>
    obtain ⟨rfl, _, hchanges⟩ := patchConfig_some hplan
    have hstored : (overridesOf (some row)).merge patch.changes = overridesOf (some row) := by
      rw [← stored_iff hchanges]
      by_contra hne
      exact hsame ⟨_, List.mem_cons_self, hne⟩
    rw [if_pos hstored, Option.none_or]

theorem overlay_get_some {dec : Decimal → ℚ} {base : RiskConfig} {o : Overrides} {f : ConfigField}
    {v : f.kind.Stored} (h : o f = some v) : (base.overlay dec o).get f = f.kind.read dec v := by
  rw [RiskConfig.overlay_get, h]
  rfl

/-- A field that is not patched reads as before. -/
theorem overlay_get_none {dec : Decimal → ℚ} {base : RiskConfig} {o : Overrides} {f : ConfigField}
    (h : o f = none) : (base.overlay dec o).get f = base.get f := by
  rw [RiskConfig.overlay_get, h]
  rfl

/-- A field that is not patched reads what the overrides it is merged into give. -/
theorem overlay_merge_get_none {base : RiskConfig} {o changes : Overrides} {f : ConfigField}
    (h : changes f = none) :
    (base.overlay Decimal.value (o.merge changes)).get f =
      (base.overlay Decimal.value o).get f := by
  have hmerge : o.merge changes f = o f := by
    unfold Overrides.merge
    rw [h, Option.none_or]
  rw [RiskConfig.overlay_get, RiskConfig.overlay_get, hmerge]

/-- Overlaying the recorded changes changes nothing exactly where they are in effect. -/
theorem overlay_eq_self_iff (c : RiskConfig) (changes : Overrides) :
    c = c.overlay encode changes ↔
      ∀ f v, changes f = some v → c.get f = f.kind.read encode v := by
  constructor
  · intro h f v hv
    rw [← overlay_get_some hv, ← h]
  · intro h
    refine RiskConfig.ext_fields rfl rfl fun f => ?_
    cases hv : changes f with
    | none => exact (overlay_get_none hv).symm
    | some v => exact (h f v hv).trans (overlay_get_some hv).symm

/-- Storing the changes in the overrides of one row is overlaying the recorded changes on the
configuration of another exactly where they are recorded as stored and the other fields
agree. -/
theorem overlay_merge_eq_iff (c : RiskConfig) (o changes : Overrides)
    (hscale : defaults.minConfidenceSizeScale = c.minConfidenceSizeScale)
    (hfee : defaults.estimatedFeePct = c.estimatedFeePct) :
    defaults.overlay Decimal.value (o.merge changes) = c.overlay encode changes ↔
      (∀ f v, changes f = some v → f.kind.read Decimal.value v = f.kind.read encode v) ∧
        ∀ f, changes f = none → c.get f = (defaults.overlay Decimal.value o).get f := by
  have hpatched : ∀ f v, changes f = some v → (o.merge changes) f = some v := by
    intro f v hv
    unfold Overrides.merge
    rw [hv, Option.some_or]
  constructor
  · intro h
    constructor
    · intro f v hv
      rw [← overlay_get_some (hpatched f v hv), h, overlay_get_some hv]
    · intro f hnone
      rw [← overlay_merge_get_none hnone, h, overlay_get_none hnone]
  · rintro ⟨hsame, hothers⟩
    refine RiskConfig.ext_fields hscale hfee fun f => ?_
    cases hv : changes f with
    | none => rw [overlay_merge_get_none hv, overlay_get_none hv, hothers f hv]
    | some v =>
      rw [overlay_get_some (hpatched f v hv), overlay_get_some hv]
      exact hsame f v hv

/-- **A commit applies its own request** exactly where it stores its changes. -/
theorem appliesChanges_iff (s : Table RiskConfigPatch RiskConfigState)
    (i : RowStep RiskConfigPatch) (hs : s.WellFormed (riskConfigRow defaults))
    (hagrees : ConfigAgrees defaults encode s) :
    AppliesRequest (loadEffectiveRiskConfig defaults) (replayChanges encode) s i ↔
      StoresItsChanges defaults encode s i := by
  cases i with
  | commit t =>
    refine forall_congr' fun patch => forall_congr' fun loaded => forall_congr' fun write =>
      forall_congr' fun ht => ?_
    have hcommitted : loadEffectiveRiskConfig defaults s.committed =
        some (effectiveConfig defaults s.committed) := by
      have hc := loadEffectiveRiskConfig_eq hagrees
      rw [← hc]
      exact hagrees
    rw [Writes.config (hs.writes t patch loaded write ht), hcommitted]
    unfold replayChanges
    rw [Option.map_some]
    split
    · rw [Option.some_inj]
      exact overlay_eq_self_iff _ _
    · rw [Option.some_inj]
      exact overlay_merge_eq_iff _ _ _ rfl rfl
  | start | read | flush | rollback => exact Iff.rfl

/-- **When no update is lost.**  A run of overlapping patches keeps the configuration in effect
equal to the defaults overlaid by the recorded changes, in every state, if and only if every
commit of it stores its changes; and then it does so in every state where no request is
open. -/
theorem run_configAgrees_iff (defaults : RiskConfig) (encode : Decimal → ℚ)
    (s : Table RiskConfigPatch RiskConfigState) (hs : s.Quiescent)
    (h : ConfigAgrees defaults encode s) (steps : List (RowStep RiskConfigPatch)) :
    (AllStates (rowStep (riskConfigRow defaults)) (ConfigAgrees defaults encode) s steps ↔
        AllSteps (rowStep (riskConfigRow defaults)) (StoresItsChanges defaults encode) s
          steps) ∧
      (AllSteps (rowStep (riskConfigRow defaults)) (StoresItsChanges defaults encode) s steps →
        AllStates (rowStep (riskConfigRow defaults))
          (fun s => s.Quiescent → ConfigAgrees defaults encode s) s steps) := by
  have hiff : AllStates (rowStep (riskConfigRow defaults)) (ConfigAgrees defaults encode) s steps ↔
      AllSteps (rowStep (riskConfigRow defaults)) (StoresItsChanges defaults encode) s steps := by
    have hpred : ConfigAgrees defaults encode =
        Agrees (loadEffectiveRiskConfig defaults) (replayChanges encode) (some defaults) :=
      funext fun s => propext (configAgrees_iff defaults encode s)
    rw [hpred]
    refine allStates_agrees_iff _ _ (fun s i hs hagrees => ?_) hs.wellFormed
      ((configAgrees_iff defaults encode s).mp h) steps
    exact appliesChanges_iff s i hs ((configAgrees_iff defaults encode s).mpr hagrees)
  have hweaker : ∀ s, ConfigAgrees defaults encode s →
      s.Quiescent → ConfigAgrees defaults encode s := fun _ hagrees _ => hagrees
  exact ⟨hiff, fun hsteps => AllStates.imp hweaker (hiff.mpr hsteps)⟩

/-! ## Two patches of different fields -/

/-- A patch of `cooldown_minutes`. -/
def cooldownPatch (n : ℤ) : RiskConfigPatch where
  changes := fun f =>
    match f with
    | .cooldownMinutes => some n
    | _ => none
  sampleSize_pos := nofun

/-- A patch of `max_open_positions`. -/
def openPositionsPatch (n : ℤ) : RiskConfigPatch where
  changes := fun f =>
    match f with
    | .maxOpenPositions => some n
    | _ => none
  sampleSize_pos := nofun

/-- The table as the migration leaves it. -/
def migratedConfig : Table RiskConfigPatch RiskConfigState where
  committed := some { overrides := none }

/-- A patch that nothing comes between. -/
theorem undisturbed_patch_agrees :
    AllStates (rowStep (riskConfigRow {})) (ConfigAgrees {} Decimal.value) migratedConfig
      (undisturbed 0 (cooldownPatch 30)) := by
  refine (run_configAgrees_iff {} Decimal.value migratedConfig (fun _ => rfl)
    (by decide +kernel) _).1.mpr ⟨trivial, trivial, trivial, ?_, trivial⟩
  rintro patch loaded write ⟨⟩
  rw [if_neg (by decide +kernel)]
  exact ⟨fun _ _ _ => rfl, fun _ _ => rfl⟩

/-- A patch of the cooldown loads the row, a patch of the open positions commits, and the patch
of the cooldown commits after it. -/
def overlappingPatches : List (RowStep RiskConfigPatch) :=
  [.start 0 (cooldownPatch 30), .read 0] ++ undisturbed 1 (openPositionsPatch 3) ++
    [.flush 0, .commit 0]

/-- **The update in between is lost.** -/
theorem overlapping_patch_lost :
    ¬ ∀ (defaults : RiskConfig) (encode : Decimal → ℚ)
      (s : Table RiskConfigPatch RiskConfigState) (steps : List (RowStep RiskConfigPatch)),
      s.Quiescent → ConfigAgrees defaults encode s →
        AllStates (rowStep (riskConfigRow defaults))
          (fun s => s.Quiescent → ConfigAgrees defaults encode s) s steps := by
  intro h
  have hlast := (h {} Decimal.value migratedConfig overlappingPatches (fun _ => rfl)
    (by decide +kernel)).last
  have hquiescent :
      (runFrom (rowStep (riskConfigRow {})) migratedConfig overlappingPatches).Quiescent := by
    intro t
    rcases t with _ | _ | t <;> rfl
  have hagrees := hlast hquiescent
  revert hagrees
  decide +kernel

end TradeMind.Analysis
