import Mathlib.Data.List.Induction

/-!
# Runs of a partial machine

A partial machine steps to a state or stops without one.  `runPartial` is its run over a list
of labels.  `runPartial_inv` proves a property of every state such runs reach, the property
being about the labels processed so far as well; `runPartial_split` cuts a run at a label.  Where
the steps only add to a log, `Logs.run_until` finds the log of a first part of a run in that of
the whole.
-/

set_option autoImplicit false

namespace TradeMind.Library

universe u v

variable {σ : Type u} {ι : Type v}

/-- The state after all labels, if no step stops. -/
def runPartial (step : σ → ι → Option σ) (s : σ) (labels : List ι) : Option σ :=
  labels.foldlM step s

variable {step : σ → ι → Option σ} {s s' : σ}

theorem runPartial_cons {i : ι} {labels : List ι} :
    runPartial step s (i :: labels) = (step s i).bind fun s => runPartial step s labels := rfl

theorem runPartial_append {before after : List ι} :
    runPartial step s (before ++ after) =
      (runPartial step s before).bind fun s => runPartial step s after := by
  simp [runPartial, List.foldlM_append]

/-- A run to `before ++ i :: after` passes through the states around `i`. -/
theorem runPartial_split {before after : List ι} {i : ι}
    (h : runPartial step s (before ++ i :: after) = some s') :
    ∃ mid next, runPartial step s before = some mid ∧ step mid i = some next ∧
      runPartial step next after = some s' := by
  rw [runPartial_append] at h
  obtain ⟨mid, hmid, hrest⟩ := Option.bind_eq_some_iff.mp h
  rw [runPartial_cons] at hrest
  obtain ⟨next, hnext, hafter⟩ := Option.bind_eq_some_iff.mp hrest
  exact ⟨mid, next, hmid, hnext, hafter⟩

/-- **The invariant rule for partial runs.**  What holds before the first label and is carried
over each label of `all` by its step holds after every prefix of `all`. -/
theorem runPartial_inv {P : List ι → σ → Prop} {all : List ι} (h0 : P [] s)
    (hstep : ∀ before i mid next, before ++ [i] <+: all → P before mid →
      step mid i = some next → P (before ++ [i]) next) {before : List ι}
    (hpre : before <+: all) (h : runPartial step s before = some s') : P before s' := by
  induction before using List.reverseRecOn generalizing s' with
  | nil =>
    cases Option.some.inj h
    exact h0
  | append_singleton before i ih =>
    obtain ⟨mid, next, hmid, hnext, hlast⟩ := runPartial_split h
    cases Option.some.inj hlast
    exact hstep before i mid _ hpre
      (ih ((List.prefix_append before [i]).trans hpre) hmid) hnext

/-- **The simulation rule for partial runs.**  Where each step of one machine is the image of a
step of the other, and `P` goes on holding of that, the run is the image of the run. -/
theorem runPartial_map {τ : Type u} {step' : τ → ι → Option τ} {g : σ → τ} {P : σ → Prop}
    {labels : List ι}
    (hstep : ∀ s, ∀ i ∈ labels, P s → (step s i).map g = step' (g s) i)
    (hkeep : ∀ s, ∀ i ∈ labels, P s → ∀ s', step s i = some s' → P s') {s : σ} (hs : P s) :
    (runPartial step s labels).map g = runPartial step' (g s) labels := by
  induction labels generalizing s with
  | nil => rfl
  | cons i rest ih =>
    rw [runPartial_cons, runPartial_cons, ← hstep s i List.mem_cons_self hs]
    cases hnext : step s i with
    | none => rfl
    | some next =>
      exact ih (fun s j hj => hstep s j (List.mem_cons_of_mem _ hj))
        (fun s j hj => hkeep s j (List.mem_cons_of_mem _ hj))
        (hkeep s i List.mem_cons_self hs next hnext)

/-- Machines that make the same steps for the labels of a run make the same run. -/
theorem runPartial_congr {step' : σ → ι → Option σ} {labels : List ι}
    (h : ∀ s, ∀ i ∈ labels, step s i = step' s i) (s : σ) :
    runPartial step s labels = runPartial step' s labels := by
  have hmap : (runPartial step s labels).map id = runPartial step' (id s) labels :=
    runPartial_map (P := fun _ => True) (fun s i hi _ => by rw [Option.map_id, h s i hi]; rfl)
      (fun _ _ _ _ _ _ => trivial) trivial
  rwa [Option.map_id] at hmap

/-! ## Logs -/

section Logs

universe w

variable {α : Type w} {log : σ → List α} {adds : ι → α → Prop}

/-- Each step only adds to the log, and nothing but what its label may. -/
def Logs (step : σ → ι → Option σ) (log : σ → List α) (adds : ι → α → Prop) : Prop :=
  ∀ s i s', step s i = some s' → ∃ more, log s' = log s ++ more ∧ ∀ a ∈ more, adds i a

/-- A run adds what its labels may. -/
theorem Logs.run (h : Logs step log adds) {labels : List ι}
    (hrun : runPartial step s labels = some s') :
    ∃ more, log s' = log s ++ more ∧ ∀ a ∈ more, ∃ i ∈ labels, adds i a := by
  induction labels generalizing s with
  | nil =>
    cases Option.some.inj hrun
    exact ⟨[], (List.append_nil _).symm, fun a ha => absurd ha List.not_mem_nil⟩
  | cons i rest ih =>
    rw [runPartial_cons] at hrun
    obtain ⟨next, hnext, hrest⟩ := Option.bind_eq_some_iff.mp hrun
    obtain ⟨first, hfirst, hadds⟩ := h s i next hnext
    obtain ⟨more, hmore, hlater⟩ := ih hrest
    refine ⟨first ++ more, by rw [hmore, hfirst, List.append_assoc], fun a ha => ?_⟩
    rcases List.mem_append.mp ha with ha | ha
    · exact ⟨i, List.mem_cons_self, hadds a ha⟩
    · obtain ⟨j, hj, ha⟩ := hlater a ha
      exact ⟨j, List.mem_cons_of_mem _ hj, ha⟩

/-- **The causality rule.**  Where the labels of a first part add what `p` is true of, and the
others what it is not, the log after the first part is what of the whole log `p` is true of. -/
theorem Logs.run_until (h : Logs step log adds) (p : α → Bool) {early late : List ι}
    (hs : log s = []) (hearly : ∀ i ∈ early, ∀ a, adds i a → p a = true)
    (hlate : ∀ i ∈ late, ∀ a, adds i a → p a = false)
    (hrun : runPartial step s (early ++ late) = some s') :
    ∃ mid, runPartial step s early = some mid ∧ (log s').filter p = log mid := by
  rw [runPartial_append] at hrun
  obtain ⟨mid, hmid, hrest⟩ := Option.bind_eq_some_iff.mp hrun
  obtain ⟨first, hfirst, hbefore⟩ := h.run hmid
  obtain ⟨more, hmore, hafter⟩ := h.run hrest
  refine ⟨mid, hmid, ?_⟩
  rw [hs, List.nil_append] at hfirst
  have hkept : first.filter p = first := List.filter_eq_self.mpr fun a ha => by
    obtain ⟨i, hi, ha⟩ := hbefore a ha
    exact hearly i hi a ha
  have hdropped : more.filter p = [] := List.filter_eq_nil_iff.mpr fun a ha => by
    obtain ⟨i, hi, ha⟩ := hafter a ha
    rw [hlate i hi a ha]
    exact Bool.false_ne_true
  rw [hmore, hfirst, List.filter_append, hkept, hdropped, List.append_nil]

end Logs

end TradeMind.Library
