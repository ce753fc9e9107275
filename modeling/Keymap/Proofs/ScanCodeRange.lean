import Keymap.Proofs.Acceptance.Layers
import Keymap.Proofs.Checks
import Keymap.Proofs.Symbols

/-!
# Lists beyond the greatest scan code

What layers file is told from the declarations that count, also where names are declared
twice or references lead nowhere. A trigger that is filed beyond the greatest scan code is
found fault with once for every number under which it is filed, however many layers bind it,
however often they do, and however many of its elements have the number.
-/

namespace Keymap

open Config (Layer Trigger TriggerElement)

namespace Config

/-- The declarations that count: of several with one name the first. -/
def counted (config : Config) : Config :=
  { config with
    capabilities := config.distinctCapabilities
    results := config.distinctResults
    triggers := config.distinctTriggers
    animations := config.distinctAnimations }

variable (config : Config)

/-- The declarations that count have distinct names. -/
theorem distinctNames_counted : config.counted.DistinctNames where
  capabilities := nodup_map_firstsBy [] _
  results := nodup_map_firstsBy [] _
  triggers := nodup_map_firstsBy [] _
  animations := nodup_map_firstsBy [] _

/-- Triggers refer to declarations that count. -/
theorem triggerScope_counted :
    Assembly.triggerScope config.counted = Assembly.triggerScope config := by
  rw [Assembly.triggerScope, config.distinctNames_counted.distinctAnimations]
  rfl

/-- In every configuration, a layer files a trigger exactly under the lists through which it
fires it. -/
theorem files_layerRow_iff_counted {layer : Layer} {uid index : Nat} :
    (Assembly.layerRow (Assembly.triggerScope config) config.distinctTriggers layer).map.Files
        uid index ↔ config.counted.Fires layer uid index := by
  have hd := config.distinctNames_counted
  rw [← Assembly.files_layerRow_iff_fires hd, config.triggerScope_counted, hd.distinctTriggers]
  rfl

/-- In every configuration, the list of an element is that under which it is filed. -/
theorem listUid_eq_some_iff_counted {element : TriggerElement} {uid : Nat} :
    (Assembly.triggerScope config).listUid element = some uid ↔
      element.FiledUnder config.counted uid := by
  rw [← Assembly.TriggerScope.listUid_eq_some_iff config.distinctNames_counted,
    config.triggerScope_counted]

/-- The name of a trigger macro is that of the trigger at its index. -/
theorem name?_trigger_eq_some_iff {index : Nat} {name : String} :
    (Assembly.build config).symbols.name? .trigger index = some name ↔
      ∃ trigger, config.counted.triggers[index]? = some trigger ∧ trigger.name = name :=
  Assembly.name?_trigger_build config

/-- The trigger macros and numbers beyond the greatest scan code under which they are filed,
in the order in which the layers are gone through. -/
def beyond : List (Nat × Nat) :=
  (firstsBy (·.1) []
    (Validation.filedBeyond config.maxScanCode.toNat (Assembly.build config).layers)).map (·.1)

/-- The finding says that a trigger macro is filed under a number beyond the greatest scan
code. -/
def ReportsBeyond (pair : Nat × Nat) (finding : Finding) : Prop :=
  ∃ name, (Assembly.build config).symbols.name? .trigger pair.1 = some name ∧
    finding = .error .scanCodeRange name
      (.range (.scanCode name pair.2 config.maxScanCode.toNat))

/-- A trigger macro is filed beyond the greatest scan code if some layer fires it through a
list there. -/
theorem mem_beyond_iff {index uid : Nat} :
    (index, uid) ∈ config.beyond ↔
      config.maxScanCode.toNat < uid ∧
        ∃ layer ∈ config.layers, config.counted.Fires layer uid index := by
  rw [beyond, mem_map_firstsBy, and_iff_left List.not_mem_nil,
    Validation.mem_map_filedBeyond_iff, config.build_layers]
  simp only [List.mem_map, exists_exists_and_eq_and, files_layerRow_iff_counted]

/-- The check of the greatest scan code has a finding for every macro and number beyond it. -/
theorem forall₂_reportsBeyond :
    List.Forall₂ config.ReportsBeyond config.beyond (config.check.byCheck .scanCodeRange) := by
  have hfindings : config.check.byCheck .scanCodeRange =
      Validation.scanCodeRange (Assembly.build config) := by
    rw [byCheck_eq_filter (by decide), Validation.filter_findings]
  rw [hfindings, beyond, Validation.scanCodeRange, List.forall₂_map_left_iff,
    List.forall₂_map_right_iff]
  refine List.forall₂_same.mpr ?_
  rintro ⟨⟨index, uid⟩, layer⟩ hentry
  have hmem : (index, uid) ∈ config.beyond := List.mem_map_of_mem hentry
  -- what is filed is a trigger, and so it has a name
  obtain ⟨_, _, _, trigger, htrigger, _⟩ := config.mem_beyond_iff.mp hmem
  have hname := config.name?_trigger_eq_some_iff.mpr ⟨trigger, htrigger, rfl⟩
  refine ⟨trigger.name, hname, ?_⟩
  simp only [hname, Option.getD_some]
  rfl

/-- Different trigger macros and numbers have different findings. -/
theorem biUnique_reportsBeyond : Relator.BiUnique config.ReportsBeyond := by
  constructor
  · rintro ⟨index, uid⟩ ⟨other, otherUid⟩ _ ⟨name, hname, rfl⟩ ⟨_, hother, he⟩
    simp only [Finding.error, Finding.mk.injEq, Fault.range.injEq, RangeFault.scanCode.injEq,
      true_and, and_true] at he
    obtain ⟨rfl, -, rfl⟩ := he
    obtain ⟨trigger, htrigger, rfl⟩ := config.name?_trigger_eq_some_iff.mp hname
    obtain ⟨otherTrigger, hotherTrigger, he⟩ := config.name?_trigger_eq_some_iff.mp hother
    have hindex := eq_of_nodup_map config.distinctNames_counted.triggers htrigger hotherTrigger
      he.symm
    exact Prod.ext hindex.1 rfl
  · rintro ⟨index, uid⟩ _ _ ⟨name, hname, rfl⟩ ⟨_, hother, rfl⟩
    obtain rfl := Option.some.inj (hname.symm.trans hother)
    rfl

/-- In every configuration, with or without errors, the findings on the range of scan codes
stand for the trigger macros and the numbers beyond the greatest scan code under which some
layer files them: there is one for every such macro and number, with the name of the macro,
the number and the greatest scan code, and no finding is there twice. -/
theorem reported_once_beyond :
    ∃ pairs : List (Nat × Nat), pairs.Nodup ∧
      (∀ index uid, (index, uid) ∈ pairs ↔
        config.maxScanCode.toNat < uid ∧
          ∃ layer ∈ config.layers, config.counted.Fires layer uid index) ∧
      List.Forall₂ config.ReportsBeyond pairs (config.check.byCheck .scanCodeRange) ∧
      (config.check.byCheck .scanCodeRange).Nodup := by
  have hnodup : config.beyond.Nodup := nodup_map_firstsBy [] _
  have hreports := config.forall₂_reportsBeyond
  refine ⟨config.beyond, hnodup, fun _ _ => config.mem_beyond_iff, hreports, ?_⟩
  exact (List.rel_nodup config.biUnique_reportsBeyond hreports).mp hnodup

end Config

end Keymap
