import Keymap.Proofs.Acceptance.Results
import Keymap.Proofs.Acceptance.Triggers

/-!
# Scopes that grow

A scope that begins another has the same capabilities, settings and boards at the
same places, and the other may have more behind them. What has a call or a condition
in the first scope has the same one in the other, so that results and triggers
without errors are compiled to the same combos.
-/

namespace Keymap.Assembly

open Config (LayerMode Result ResultElement Trigger TriggerElement)
open Guide (Call Condition)

/-- Everything that results refer to in a scope is at the same place in another. -/
structure ResultScope.Begins (scope other : ResultScope) : Prop where
  capabilities : scope.capabilities <+: other.capabilities
  settings : scope.settings <+: other.settings
  routing : other.routing = scope.routing
  layerCount : scope.layerCount ≤ other.layerCount

/-- Everything that triggers refer to in a scope is at the same place in another. -/
structure TriggerScope.Begins (scope other : TriggerScope) : Prop where
  offsets : other.offsets = scope.offsets
  layerCount : scope.layerCount ≤ other.layerCount
  animations : scope.animations <+: other.animations

namespace ResultScope.Begins

variable {scope other : ResultScope} (h : scope.Begins other) {symbol : String}
include h

theorem capability? {name : String} {found : UInt8 × Config.Capability}
    (hf : scope.capability? name = some found) : other.capability? name = some found := by
  rw [ResultScope.capability?] at hf ⊢
  obtain ⟨⟨i, capability⟩, hl, rfl⟩ := Option.map_eq_some_iff.mp hf
  rw [locateBy_mono h.capabilities hl, Option.map_some]

/-- A call through the routing stays the same. -/
theorem routed {name : String} {value : Int} {call : Call}
    (hok : scope.routed symbol name value = .ok call) :
    other.routed symbol name value = .ok call := by
  rw [ResultScope.routed] at hok
  split at hok
  next => cases hok
  next index capability hc =>
    rw [ResultScope.routed, h.capability? hc]
    exact hok

/-- A call by name stays the same. -/
theorem called {name : String} {values : List Int64} {call : Call}
    (hok : scope.called symbol name values = .ok call) :
    other.called symbol name values = .ok call := by
  rw [ResultScope.called] at hok
  dsimp only at hok
  split at hok
  next => cases hok
  next index capability hc =>
    rw [ResultScope.called, h.capability? hc]
    exact hok

/-- The call of the spacer stays the same. -/
theorem spacer {call : Call} (hok : scope.spacer symbol = .ok call) :
    other.spacer symbol = .ok call := by
  have hname : other.spacerName = scope.spacerName := by
    rw [spacerName, spacerName, h.routing]
  rw [ResultScope.spacer] at hok
  split at hok
  next index capability hc =>
    rw [ResultScope.spacer, hname, h.capability? hc]
    exact hok
  next => cases hok

/-- The call of an element stays the same. -/
theorem call {element : ResultElement} {call : Call}
    (hok : scope.call symbol element = .ok call) : other.call symbol element = .ok call := by
  cases element with
  | capability name values => exact h.called hok
  | usb code =>
    rw [ResultScope.call, h.routing]
    exact h.routed hok
  | consumer code =>
    rw [ResultScope.call, h.routing]
    exact h.routed hok
  | system code =>
    rw [ResultScope.call, h.routing]
    exact h.routed hok
  | layer mode n =>
    rw [ResultScope.call] at hok
    split at hok
    next hlt =>
      rw [ResultScope.call, h.routing, if_pos (Nat.lt_of_lt_of_le hlt h.layerCount)]
      exact h.routed hok
    next => cases hok
  | animation settings =>
    rw [ResultScope.call] at hok
    split at hok
    next index hindex =>
      rw [ResultScope.call, h.routing, idxOf?_mono h.settings hindex]
      exact h.routed hok
    next => cases hok
  | none => exact h.spacer hok

/-- A result without errors is compiled to the same combos. -/
theorem combos_eq {result : Result} (hclean : Clean (scope.findings result)) :
    other.combos result = scope.combos result := by
  rw [findings, clean_sequenceFindings_iff] at hclean
  have hspaced : other.isSpaced result = scope.isSpaced result := by
    rw [isSpaced, isSpaced, h.routing]
  refine List.flatMap_congr fun step hstep => ?_
  have hstepClean := hclean.2 step hstep
  rw [stepFindings, Clean.append_iff,
    clean_filterMap_errorOf_iff (failsWithErrors_call scope result.name)] at hstepClean
  obtain ⟨hcalls, hspacer⟩ := hstepClean
  have helements : step.filterMap (fun element => (other.call result.name element).toOption) =
      step.filterMap fun element => (scope.call result.name element).toOption := by
    refine List.filterMap_congr fun element helement => ?_
    obtain ⟨call, hcall⟩ := hcalls element helement
    rw [hcall, h.call hcall]
  have hafter : other.spacerCombos result = scope.spacerCombos result := by
    rw [spacerCombos, spacerCombos, hspaced]
    split
    next hyes =>
      have herrors : ∀ finding, scope.spacer result.name = .error finding →
          finding.isError = true := failsWithErrors_call scope result.name .none
      rw [if_pos hyes, clean_toList_errorOf_iff herrors] at hspacer
      obtain ⟨call, hcall⟩ := hspacer
      rw [hcall, h.spacer hcall]
    next => rfl
  rw [helements, hafter]

/-- A result without errors has the same row. -/
theorem row_eq {result : Result} (hclean : Clean (scope.findings result)) :
    other.row result = scope.row result := by
  rw [row, row, h.combos_eq hclean]

end ResultScope.Begins

namespace TriggerScope.Begins

variable {scope other : TriggerScope} (h : scope.Begins other) {symbol : String}
include h

/-- The condition of an element stays the same. -/
theorem condition {element : TriggerElement} {condition : Condition}
    (hok : scope.condition symbol element = .ok condition) :
    other.condition symbol element = .ok condition := by
  cases element with
  | switch scanCode board state =>
    rw [TriggerScope.condition, h.offsets]
    exact hok
  | indicator code state => exact hok
  | layer n mode state =>
    rw [TriggerScope.condition] at hok
    split at hok
    next hlt =>
      rw [TriggerScope.condition, if_pos (Nat.lt_of_lt_of_le hlt h.layerCount)]
      exact hok
    next => cases hok
  | animation name event =>
    rw [TriggerScope.condition] at hok
    split at hok
    next index hindex =>
      rw [TriggerScope.condition, idxOf?_mono h.animations hindex]
      exact hok
    next => cases hok
  | analog code threshold => exact hok
  | generic code uid param => exact hok

/-- An element that has a condition is filed in the same list. -/
theorem listUid_eq {element : TriggerElement} {condition : Condition}
    (hok : scope.condition symbol element = .ok condition) :
    other.listUid element = scope.listUid element := by
  cases element with
  | switch scanCode board state => rw [listUid, listUid, h.offsets]
  | indicator code state => rfl
  | layer n mode state =>
    rw [TriggerScope.condition] at hok
    split at hok
    next hlt =>
      rw [listUid, listUid, if_pos hlt, if_pos (Nat.lt_of_lt_of_le hlt h.layerCount)]
    next => cases hok
  | animation name event =>
    rw [TriggerScope.condition] at hok
    split at hok
    next index hindex => rw [listUid, listUid, hindex, idxOf?_mono h.animations hindex]
    next => cases hok
  | analog code threshold => rfl
  | generic code uid param => rfl

section Clean

variable {trigger : Trigger} (hclean : Clean (scope.findings trigger))
include hclean

omit h in
/-- Every element of a trigger without errors has a condition. -/
theorem exists_condition_of_clean {step : List TriggerElement} (hstep : step ∈ trigger.sequence)
    {element : TriggerElement} (helement : element ∈ step) :
    ∃ condition, scope.condition trigger.name element = .ok condition := by
  rw [findings, clean_sequenceFindings_iff] at hclean
  exact (clean_filterMap_errorOf_iff (failsWithErrors_condition scope trigger.name)).mp
    (hclean.2 step hstep) element helement

/-- A trigger without errors is compiled to the same combos. -/
theorem combos_eq : other.combos trigger = scope.combos trigger := by
  refine List.map_congr_left fun step hstep => List.filterMap_congr fun element helement => ?_
  obtain ⟨condition, hcondition⟩ := exists_condition_of_clean hclean hstep helement
  rw [hcondition, h.condition hcondition]

/-- A trigger without errors is filed in the same lists. -/
theorem file_eq (map : ScanMap) (index : Nat) :
    file other map (index, trigger) = file scope map (index, trigger) := by
  have huids : (elements trigger).filterMap other.listUid =
      (elements trigger).filterMap scope.listUid := by
    refine List.filterMap_congr fun element helement => ?_
    obtain ⟨step, hstep, hmem⟩ := List.mem_flatten.mp helement
    obtain ⟨condition, hcondition⟩ := exists_condition_of_clean hclean hstep hmem
    exact h.listUid_eq hcondition
  rw [file, file, huids]

end Clean

end TriggerScope.Begins

end Keymap.Assembly
