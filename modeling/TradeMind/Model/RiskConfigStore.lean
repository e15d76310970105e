import TradeMind.Library.RowTransactions
import TradeMind.Model.Sizing

/-!
# The risk configuration store

`common/risk_config_store.py` and the `PATCH /config` handler of `admin_api/routers/config.py`.
The overrides are one JSON column of the `RiskConfigState` row: a partial dict of the fields
ever patched, a `Decimal` among them as its `str`.  `str` writes different decimals
differently, so a stored decimal is modelled by the decimal itself; what a decimal becomes
in the `changes` of an audit event is left to a parameter, for the encoder that writes it
is not the repository's.
-/

set_option autoImplicit false

namespace TradeMind.Model

open TradeMind.Library

/-- A finite `Decimal`: two that differ in trailing zeros are different texts of one value. -/
structure Decimal where
  negative : Bool := false
  coefficient : ℕ
  exponent : ℤ
  deriving DecidableEq, Repr

/-- The number a decimal stands for. -/
def Decimal.value (d : Decimal) : ℚ :=
  (if d.negative then -1 else 1) * d.coefficient * (10 : ℚ) ^ d.exponent

/-! ## Fields -/

/-- The fields of `RiskConfigPatch` that change the configuration. -/
inductive ConfigField
  | riskPerTradePct | maxPositionPct | maxTotalExposurePct | maxOpenPositions | maxDailyLossPct
  | consecutiveLossLimit | consecutiveLossClusterMinutes | cooldownMinutes | minConfidence
  | signalMaxAgeMinutes | atrStopMultiplier | minStopLossPct | maxStopLossPct | dryRun
  | expectancyFilterEnabled | expectancyMinSampleSize | expectancyMinR
  deriving DecidableEq, Repr

/-- The types the fields have. -/
inductive FieldKind
  | decimal | int | bool

/-- What a patch and the overrides hold for a field. -/
abbrev FieldKind.Stored : FieldKind → Type
  | .decimal => Decimal
  | .int => ℤ
  | .bool => Bool

/-- What the configuration holds for a field. -/
abbrev FieldKind.Read : FieldKind → Type
  | .decimal => ℚ
  | .int => ℤ
  | .bool => Bool

/-- The type of a field. -/
abbrev ConfigField.kind : ConfigField → FieldKind
  | .riskPerTradePct | .maxPositionPct | .maxTotalExposurePct | .maxDailyLossPct
  | .minConfidence | .atrStopMultiplier | .minStopLossPct | .maxStopLossPct
  | .expectancyMinR => .decimal
  | .maxOpenPositions | .consecutiveLossLimit | .consecutiveLossClusterMinutes
  | .cooldownMinutes | .signalMaxAgeMinutes | .expectancyMinSampleSize => .int
  | .dryRun | .expectancyFilterEnabled => .bool

instance (k : FieldKind) : DecidableEq k.Stored :=
  match k with
  | .decimal => inferInstanceAs (DecidableEq Decimal)
  | .int => inferInstanceAs (DecidableEq ℤ)
  | .bool => inferInstanceAs (DecidableEq Bool)

/-- All fields. -/
def ConfigField.all : List ConfigField :=
  [.riskPerTradePct, .maxPositionPct, .maxTotalExposurePct, .maxOpenPositions,
    .maxDailyLossPct, .consecutiveLossLimit, .consecutiveLossClusterMinutes, .cooldownMinutes,
    .minConfidence, .signalMaxAgeMinutes, .atrStopMultiplier, .minStopLossPct, .maxStopLossPct,
    .dryRun, .expectancyFilterEnabled, .expectancyMinSampleSize, .expectancyMinR]

theorem ConfigField.mem_all (f : ConfigField) : f ∈ ConfigField.all := by
  cases f <;> decide

/-- A partial dict of fields: a patch's `changes`, or the overrides. -/
abbrev Overrides := (f : ConfigField) → Option f.kind.Stored

instance : DecidableEq Overrides := fun a b =>
  decidable_of_iff (∀ f ∈ ConfigField.all, a f = b f)
    ⟨fun h => funext fun f => h f f.mem_all, fun h _ _ => h ▸ rfl⟩

/-- `{**overrides, **changes}`. -/
def Overrides.merge (overrides changes : Overrides) : Overrides :=
  fun f => (changes f).or (overrides f)

/-- The empty dict. -/
def Overrides.empty : Overrides := fun _ => none

/-- A stored value as the configuration reads it, under a reading of decimals. -/
def FieldKind.read (dec : Decimal → ℚ) : (k : FieldKind) → k.Stored → k.Read
  | .decimal => dec
  | .int => id
  | .bool => id

/-- The value of a field. -/
def RiskConfig.get (c : RiskConfig) : (f : ConfigField) → f.kind.Read
  | .riskPerTradePct => c.riskPerTradePct
  | .maxPositionPct => c.maxPositionPct
  | .maxTotalExposurePct => c.maxTotalExposurePct
  | .maxOpenPositions => c.maxOpenPositions
  | .maxDailyLossPct => c.maxDailyLossPct
  | .consecutiveLossLimit => c.consecutiveLossLimit
  | .consecutiveLossClusterMinutes => c.consecutiveLossClusterMinutes
  | .cooldownMinutes => c.cooldownMinutes
  | .minConfidence => c.minConfidence
  | .signalMaxAgeMinutes => c.signalMaxAgeMinutes
  | .atrStopMultiplier => c.atrStopMultiplier
  | .minStopLossPct => c.minStopLossPct
  | .maxStopLossPct => c.maxStopLossPct
  | .dryRun => c.dryRun
  | .expectancyFilterEnabled => c.expectancyFilterEnabled
  | .expectancyMinSampleSize => c.expectancyMinSampleSize
  | .expectancyMinR => c.expectancyMinR

/-- `RiskConfig(**{**base.model_dump(), **o})`, under a reading of decimals. -/
def RiskConfig.overlay (dec : Decimal → ℚ) (base : RiskConfig) (o : Overrides) : RiskConfig :=
  { base with
    riskPerTradePct := ((o .riskPerTradePct).map dec).getD base.riskPerTradePct
    maxPositionPct := ((o .maxPositionPct).map dec).getD base.maxPositionPct
    maxTotalExposurePct := ((o .maxTotalExposurePct).map dec).getD base.maxTotalExposurePct
    maxOpenPositions := (o .maxOpenPositions).getD base.maxOpenPositions
    maxDailyLossPct := ((o .maxDailyLossPct).map dec).getD base.maxDailyLossPct
    consecutiveLossLimit := (o .consecutiveLossLimit).getD base.consecutiveLossLimit
    consecutiveLossClusterMinutes :=
      (o .consecutiveLossClusterMinutes).getD base.consecutiveLossClusterMinutes
    cooldownMinutes := (o .cooldownMinutes).getD base.cooldownMinutes
    minConfidence := ((o .minConfidence).map dec).getD base.minConfidence
    signalMaxAgeMinutes := (o .signalMaxAgeMinutes).getD base.signalMaxAgeMinutes
    atrStopMultiplier := ((o .atrStopMultiplier).map dec).getD base.atrStopMultiplier
    minStopLossPct := ((o .minStopLossPct).map dec).getD base.minStopLossPct
    maxStopLossPct := ((o .maxStopLossPct).map dec).getD base.maxStopLossPct
    dryRun := (o .dryRun).getD base.dryRun
    expectancyFilterEnabled := (o .expectancyFilterEnabled).getD base.expectancyFilterEnabled
    expectancyMinSampleSize := (o .expectancyMinSampleSize).getD base.expectancyMinSampleSize
    expectancyMinR := ((o .expectancyMinR).map dec).getD base.expectancyMinR }

/-- The bound `RiskConfig` checks where it is constructed. -/
def RiskConfig.Valid (c : RiskConfig) : Prop := 0 ≤ c.consecutiveLossClusterMinutes

instance (c : RiskConfig) : Decidable c.Valid := inferInstanceAs (Decidable (_ ≤ _))

/-- An overlaid field reads its override, or as before. -/
theorem RiskConfig.overlay_get (dec : Decimal → ℚ) (base : RiskConfig) (o : Overrides)
    (f : ConfigField) :
    (base.overlay dec o).get f = ((o f).map (f.kind.read dec)).getD (base.get f) := by
  cases f <;> simp [RiskConfig.overlay, RiskConfig.get, FieldKind.read]

/-- Two overlays of configurations that agree beyond the fields are equal where all fields
read the same. -/
theorem RiskConfig.ext_fields {c c' : RiskConfig}
    (hscale : c.minConfidenceSizeScale = c'.minConfidenceSizeScale)
    (hfee : c.estimatedFeePct = c'.estimatedFeePct) (h : ∀ f, c.get f = c'.get f) : c = c' := by
  cases c
  cases c'
  simp only [RiskConfig.mk.injEq]
  exact ⟨h .riskPerTradePct, h .maxPositionPct, h .maxTotalExposurePct, h .maxOpenPositions,
    h .maxDailyLossPct, h .consecutiveLossLimit, h .consecutiveLossClusterMinutes,
    h .cooldownMinutes, h .minConfidence, hscale, h .signalMaxAgeMinutes, h .atrStopMultiplier,
    h .minStopLossPct, h .maxStopLossPct, h .dryRun, hfee, h .expectancyFilterEnabled,
    h .expectancyMinSampleSize, h .expectancyMinR⟩

/-! ## The row and the patch -/

structure RiskConfigState where
  overrides : Option Overrides
  deriving DecidableEq

/-- `state.overrides or {}`; a missing row has none. -/
def overridesOf (row : Option RiskConfigState) : Overrides :=
  (row.bind RiskConfigState.overrides).getD Overrides.empty

/-- The configuration a row makes of the environment's defaults. -/
def effectiveConfig (defaults : RiskConfig) (row : Option RiskConfigState) : RiskConfig :=
  defaults.overlay Decimal.value (overridesOf row)

/-- `load_effective_risk_config`; `none` where `RiskConfig(**merged)` raises. -/
def loadEffectiveRiskConfig (defaults : RiskConfig) (row : Option RiskConfigState) :
    Option RiskConfig :=
  let merged := effectiveConfig defaults row
  if merged.Valid then some merged else none

/-- `RiskConfigPatch`, which carries the check of its own schema. -/
structure RiskConfigPatch where
  changes : Overrides
  confirmDryRunChange : Bool := false
  sampleSize_pos : ∀ n, changes .expectancyMinSampleSize = some n → 1 ≤ n

/-- The patch changes `dry_run` and does not confirm it. -/
def RiskConfigPatch.Unconfirmed (patch : RiskConfigPatch) (current : RiskConfig) : Prop :=
  (∃ b, patch.changes .dryRun = some b ∧ b ≠ current.dryRun) ∧ patch.confirmDryRunChange = false

instance (patch : RiskConfigPatch) (current : RiskConfig) :
    Decidable (patch.Unconfirmed current) :=
  match h : patch.changes .dryRun with
  | none => isFalse fun hun => by
    obtain ⟨⟨b, hb, _⟩, _⟩ := hun
    exact absurd (h.symm.trans hb) nofun
  | some b =>
    decidable_of_iff (b ≠ current.dryRun ∧ patch.confirmDryRunChange = false) (by
      unfold RiskConfigPatch.Unconfirmed
      rw [h]
      simp)

/-- `apply_risk_config_patch` on the loaded row; `none` where `RiskConfig(...)` raises. -/
def applyRiskConfigPatch (defaults : RiskConfig) (loaded : Option RiskConfigState)
    (changes : Overrides) : Option RiskConfigState :=
  let mergedOverrides := (overridesOf loaded).merge changes
  let effective := defaults.overlay Decimal.value mergedOverrides
  if effective.Valid then some { overrides := some mergedOverrides } else none

/-- `patch_config` up to its flush: the row it wants, or none where it answers with an error. -/
def patchConfig (defaults : RiskConfig) (patch : RiskConfigPatch)
    (loaded : Option RiskConfigState) : Option RiskConfigState :=
  if patch.changes = Overrides.empty then none
  else
    match loadEffectiveRiskConfig defaults loaded with
    | none => none
    | some current =>
      if patch.Unconfirmed current then none
      else applyRiskConfigPatch defaults loaded patch.changes

/-- `PATCH /config` requests as transactions on the `RiskConfigState` row. -/
def riskConfigRow (defaults : RiskConfig) : RowProgram RiskConfigPatch RiskConfigState where
  columns := [⟨Option Overrides, inferInstance, RiskConfigState.overrides,
    fun v s => { s with overrides := v }⟩]
  plan := patchConfig defaults

end TradeMind.Model
