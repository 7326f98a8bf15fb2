/-
  File:      ModelOps/Router/Generations.lean
  Subject:   PUT /router/config over many models, one call at a time.

  The store has one slot, and `put_config` compares revisions only where the slot holds the model that
  is put (`putRule`).

  * **`generations_iff`** -- the revisions accepted of each model ascend exactly if no put comes back: to
    a model another one was put over, under a revision the router had already accepted, or an older one;
  * `generations_go_back` -- one other model in between is enough.
-/
import ModelOps.Lib.Slot
import ModelOps.Router.Config

namespace ModelOps

open Labelled Versioned

/-- PUT /router/config against the store; `accepted` lists what was answered 200. -/
def handlePut (s : RouterSettings) (slot : Slot RouterConfig) (config : RouterConfig) :
    Slot RouterConfig :=
  match putConfig s config slot.current with
  | .ok config => ⟨config, slot.accepted ++ [config]⟩
  | .error _ => slot

/-- The store after the puts, of a router that held `initial`. -/
def handlePuts (s : RouterSettings) (initial : RouterConfig) (puts : List RouterConfig) :
    Slot RouterConfig :=
  puts.foldl (handlePut s) ⟨initial, []⟩

/-- The revisions of each model are strictly ascending. -/
def GenerationsAscend (accepted : List RouterConfig) : Prop :=
  accepted.Pairwise fun c c' => c.modelName = c'.modelName → c.revision < c'.revision

/-- A put of known versions, for a model the router does not hold, under a revision it has accepted
    for that model or an older one. -/
def ComesBack (s : RouterSettings) (slot : Slot RouterConfig) (config : RouterConfig) : Prop :=
  (∀ t ∈ config.targets, s.Knows t.version) ∧ config.modelName ≠ slot.current.modelName ∧
    ∃ c ∈ slot.accepted, c.modelName = config.modelName ∧ config.revision ≤ c.revision

instance (s : RouterSettings) (slot : Slot RouterConfig) (config : RouterConfig) :
    Decidable (ComesBack s slot config) :=
  inferInstanceAs (Decidable (_ ∧ _ ∧ _))

instance (accepted : List RouterConfig) : Decidable (GenerationsAscend accepted) :=
  inferInstanceAs (Decidable (List.Pairwise _ _))

/-- The rule of `put_config`. -/
def putRule (s : RouterSettings) : Rule RouterConfig String Int where
  key := RouterConfig.modelName
  version := RouterConfig.revision
  admits := fun config => decide (unknownVersions s config = [])

section Rule

variable (s : RouterSettings)

theorem handlePut_eq_offer : handlePut s = (putRule s).offer := by
  funext slot config
  unfold handlePut putConfig
  rcases offer_cases (putRule s) slot config with ⟨ha, hs, h⟩ | h
  · have hcheck : putCheck s config slot.current = .ok () :=
      putCheck_ok.mpr ⟨unknownVersions_eq_nil.mp (of_decide_eq_true ha), hs⟩
    rw [hcheck, h]
  · rw [h]
    cases hcheck : putCheck s config slot.current with
    | error e => rfl
    | ok u =>
        obtain ⟨hknown, hs⟩ := putCheck_ok.mp hcheck
        have hadmits : (putRule s).admits config = true :=
          decide_eq_true (unknownVersions_eq_nil.mpr hknown)
        rw [offer_accepted hadmits hs] at h
        exact h

theorem comesBack_iff (slot : Slot RouterConfig) (config : RouterConfig) :
    ComesBack s slot config ↔ (putRule s).Returns slot config := by
  unfold ComesBack Rule.Returns
  rw [← unknownVersions_eq_nil]
  exact and_congr_left fun _ => decide_eq_true_iff.symm

/-- **Per model, generations ascend exactly if no put comes back**, whatever the router held before. -/
theorem generations_iff (initial : RouterConfig) (puts : List RouterConfig) :
    GenerationsAscend (handlePuts s initial puts).accepted ↔
      Along (fun slot config => some (handlePut s slot config))
        (fun slot config _ => ¬ComesBack s slot config) ⟨initial, []⟩ puts := by
  unfold handlePuts
  rw [handlePut_eq_offer]
  simp only [comesBack_iff]
  have htop : (putRule s).Top ⟨initial, []⟩ := fun y hy => (List.not_mem_nil hy).elim
  have hasc : (putRule s).Ascending [] := List.Pairwise.nil
  exact ascending_iff htop hasc puts

end Rule

/-- Generation 2 of one model, another model, and generation 1 of the first, delayed. -/
def samplePuts : List RouterConfig :=
  [sampleConfig 2, { sampleConfig 1 with modelName := "benchmark-model" }, sampleConfig 1]

/-- **One model in between is enough.** -/
theorem generations_go_back :
    ¬∀ (s : RouterSettings) (initial : RouterConfig) (puts : List RouterConfig),
      GenerationsAscend (handlePuts s initial puts).accepted := by
  intro h
  have hback : ¬GenerationsAscend
      (handlePuts sampleRouter sampleRouter.toRouterConfig samplePuts).accepted := by decide +kernel
  exact hback (h _ _ _)

end ModelOps
