import Keymap.Proofs.Acceptance.Names
import Keymap.Proofs.InStep

/-!
# Accepted results

For every kind of element it is said exactly when it has a call and which one.
From this follows when the findings on a result are clean: its steps are well
shaped, every element calls a declared capability with values that fit, and a
spacer that separates several steps is declared.
-/

namespace Keymap.Assembly

open Config (Capability ResultElement Result)
open Guide (Call)

/-- The index of a capability as a byte of a guide; beyond a byte it is the greatest. -/
def capabilityByte (index : Nat) : UInt8 := UInt8.ofNat (min index 255)

/-- The bytes of values, each as wide as its argument. -/
def argumentBytes (values : List Int64) (args : List Config.Argument) : List UInt8 :=
  (values.zip args).flatMap fun entry => Guide.lowBytes entry.1.toInt entry.2.width.toNat

/-- A value is encoded exactly when it fits. -/
theorem encodeArgument_eq_ok_iff {symbol : String} {value : Int} {width : Nat}
    {bytes : List UInt8} :
    Guide.encodeArgument symbol value width = .ok bytes ↔
      Guide.Fits value width ∧ bytes = Guide.lowBytes value width := by
  rw [Guide.encodeArgument]
  split
  next h => simp [h, eq_comm]
  next h => simp [h]

namespace ResultScope

variable {scope : ResultScope} {symbol : String}

/-- Values are encoded exactly when each of them fits, one behind the other. -/
theorem encodeValues_eq_ok_iff {values : List Int64} {args : List Config.Argument}
    {bytes : List UInt8} :
    encodeValues symbol values args = .ok bytes ↔
      (∀ entry ∈ values.zip args, Guide.Fits entry.1.toInt entry.2.width.toNat) ∧
        bytes = argumentBytes values args := by
  rw [encodeValues, bind_eq_ok_iff]
  simp only [mapM_eq_ok_iff fun entry bytes => encodeArgument_eq_ok_iff]
  constructor
  · rintro ⟨_, ⟨hfit, rfl⟩, hb⟩
    exact ⟨hfit, (Except.ok.inj hb).symm.trans List.flatMap_def.symm⟩
  · rintro ⟨hfit, rfl⟩
    exact ⟨_, ⟨hfit, rfl⟩, congrArg Except.ok List.flatMap_def.symm⟩

section Look

variable (h : (scope.capabilities.map (·.name)).Nodup)
include h

/-- A capability is found under its name, with its index as a byte. -/
theorem capability?_eq_some_iff {name : String} {byte : UInt8} {capability : Capability} :
    scope.capability? name = some (byte, capability) ↔
      ∃ i, scope.capabilities[i]? = some capability ∧ capability.name = name ∧
        byte = capabilityByte i := by
  simp only [capability?, Option.map_eq_some_iff, Prod.exists, Prod.mk.injEq,
    locateBy_eq_some_iff h]
  constructor
  · rintro ⟨i, _, ⟨hget, hname⟩, rfl, rfl⟩
    exact ⟨i, hget, hname, rfl⟩
  · rintro ⟨i, hget, hname, rfl⟩
    exact ⟨i, capability, ⟨hget, hname⟩, rfl, rfl⟩

/-- A capability of one argument is called exactly with values that fit the argument. -/
theorem routed_eq_ok_iff {name : String} {value : Int} {call : Call} :
    scope.routed symbol name value = .ok call ↔
      ∃ i capability arg, scope.capabilities[i]? = some capability ∧ capability.name = name ∧
        capability.args = [arg] ∧ Guide.Fits value arg.width.toNat ∧
        call = ⟨capabilityByte i, Guide.lowBytes value arg.width.toNat⟩ := by
  constructor
  · intro hok
    rw [routed] at hok
    split at hok
    next => simp at hok
    next byte capability hc =>
      obtain ⟨i, hget, hname, rfl⟩ := (capability?_eq_some_iff h).mp hc
      split at hok
      next arg hargs =>
        split at hok
        next bytes he =>
          obtain ⟨hfit, rfl⟩ := encodeArgument_eq_ok_iff.mp he
          exact ⟨i, capability, arg, hget, hname, hargs, hfit, (Except.ok.inj hok).symm⟩
        next => simp at hok
      next => simp at hok
  · rintro ⟨i, capability, arg, hget, hname, hargs, hfit, rfl⟩
    have hc := (capability?_eq_some_iff h).mpr ⟨i, hget, hname, rfl⟩
    have he : Guide.encodeArgument symbol value arg.width.toNat = .ok _ :=
      encodeArgument_eq_ok_iff.mpr ⟨hfit, rfl⟩
    simp only [routed, hc, hargs, he]

/-- A capability is called by its name exactly with as many values as it has
arguments, each of which fits. -/
theorem called_eq_ok_iff {name : String} {values : List Int64} {call : Call} :
    scope.called symbol name values = .ok call ↔
      ∃ i capability, scope.capabilities[i]? = some capability ∧ capability.name = name ∧
        Config.ValuesFit values capability.args ∧
        call = ⟨capabilityByte i, argumentBytes values capability.args⟩ := by
  constructor
  · intro hok
    rw [called] at hok
    split at hok
    next => simp at hok
    next byte capability hc =>
      obtain ⟨i, hget, hname, rfl⟩ := (capability?_eq_some_iff h).mp hc
      split at hok
      next => simp at hok
      next hlength =>
        split at hok
        next bytes he =>
          obtain ⟨hfit, rfl⟩ := encodeValues_eq_ok_iff.mp he
          exact ⟨i, capability, hget, hname, ⟨not_not.mp hlength, hfit⟩,
            (Except.ok.inj hok).symm⟩
        next => simp at hok
  · rintro ⟨i, capability, hget, hname, ⟨hlength, hfit⟩, rfl⟩
    have hc := (capability?_eq_some_iff h).mpr ⟨i, hget, hname, rfl⟩
    have he : encodeValues symbol values capability.args = .ok _ :=
      encodeValues_eq_ok_iff.mpr ⟨hfit, rfl⟩
    simp only [called, hc, hlength, he, ne_eq, not_true_eq_false, if_false]

/-- The spacer is called exactly when it is declared, with all its arguments zero. -/
theorem spacer_eq_ok_iff {call : Call} :
    scope.spacer symbol = .ok call ↔
      ∃ i capability, scope.capabilities[i]? = some capability ∧
        capability.name = scope.spacerName ∧
        call = ⟨capabilityByte i, List.replicate capability.argBytes 0⟩ := by
  constructor
  · intro hok
    rw [spacer] at hok
    split at hok
    next byte capability hc =>
      obtain ⟨i, hget, hname, rfl⟩ := (capability?_eq_some_iff h).mp hc
      exact ⟨i, capability, hget, hname, (Except.ok.inj hok).symm⟩
    next => simp at hok
  · rintro ⟨i, capability, hget, hname, rfl⟩
    have hc := (capability?_eq_some_iff h).mpr ⟨i, hget, hname, rfl⟩
    simp only [spacer, hc]

end Look

/-- What keeps an element of a result from having a call is an error. -/
theorem failsWithErrors_call (scope : ResultScope) (symbol : String) :
    FailsWithErrors (scope.call symbol) := by
  have hrouted : ∀ name value finding, scope.routed symbol name value = .error finding →
      finding.isError = true := by
    intro name value finding h
    rw [routed] at h
    repeat' split at h
    all_goals cases h
    all_goals rfl
  intro element finding h
  cases element with
  | capability name values =>
    rw [call, called] at h
    repeat' split at h
    all_goals cases h
    all_goals rfl
  | usb code => exact hrouted _ _ _ h
  | consumer code => exact hrouted _ _ _ h
  | system code => exact hrouted _ _ _ h
  | layer mode n =>
    rw [call] at h
    split at h
    · exact hrouted _ _ _ h
    · cases h
      rfl
  | animation settings =>
    rw [call] at h
    split at h
    · exact hrouted _ _ _ h
    · cases h
      rfl
  | none =>
    rw [call, spacer] at h
    split at h
    all_goals cases h
    rfl

end ResultScope

/-- The scope of the results of a configuration whose settings table has the
names of all animations and settings. -/
structure ResultScope.Covers (scope : ResultScope) (config : Config) : Prop where
  capabilities : scope.capabilities = config.capabilities
  settings : scope.settings = config.settingsNames
  routing : scope.routing = config.routing
  layerCount : scope.layerCount = config.layers.length

/-- Where names are distinct, the results refer to all declarations. -/
theorem covers_resultScope {config : Config} (hd : config.DistinctNames)
    (hn : config.settingsNames.Nodup) : config.resultScope.Covers config where
  capabilities := hd.distinctCapabilities
  settings := Config.map_name_settingsTable hn
  routing := rfl
  layerCount := rfl

namespace ResultScope.Covers

variable {scope : ResultScope} {config : Config} (hs : scope.Covers config)
  (hc : (config.capabilities.map (·.name)).Nodup) {symbol : String}
include hs hc

theorem nodup_capabilities : (scope.capabilities.map (·.name)).Nodup := by
  rw [hs.capabilities]
  exact hc

/-- The routing has a call for a value exactly when a declared capability serves it. -/
theorem exists_routed_iff {name : String} {value : Int} :
    (∃ call, scope.routed symbol name value = .ok call) ↔ config.Serves name value := by
  simp only [routed_eq_ok_iff (hs.nodup_capabilities hc), hs.capabilities, Config.Serves]
  constructor
  · rintro ⟨_, i, capability, arg, hget, hname, hargs, hfit, _⟩
    exact ⟨capability, List.mem_of_getElem? hget, hname, arg, hargs, hfit⟩
  · rintro ⟨capability, hmem, hname, arg, hargs, hfit⟩
    obtain ⟨i, hget⟩ := List.getElem?_of_mem hmem
    exact ⟨_, i, capability, arg, hget, hname, hargs, hfit, rfl⟩

/-- The spacer has a call exactly when a capability of its name is declared. -/
theorem exists_spacer_iff :
    (∃ call, scope.spacer symbol = .ok call) ↔
      config.routing.spacerName ∈ config.capabilities.map (·.name) := by
  simp only [spacer_eq_ok_iff (hs.nodup_capabilities hc), hs.capabilities, spacerName,
    hs.routing, List.mem_map]
  constructor
  · rintro ⟨_, i, capability, hget, hname, _⟩
    exact ⟨capability, List.mem_of_getElem? hget, hname⟩
  · rintro ⟨capability, hmem, hname⟩
    obtain ⟨i, hget⟩ := List.getElem?_of_mem hmem
    exact ⟨_, i, capability, hget, hname, rfl⟩

/-- An element has a call exactly when it is valid. -/
theorem exists_call_iff (hn : config.settingsNames.Nodup) {element : ResultElement} :
    (∃ call, scope.call symbol element = .ok call) ↔ element.Valid config := by
  cases element with
  | capability name values =>
    simp only [call, called_eq_ok_iff (hs.nodup_capabilities hc), hs.capabilities,
      ResultElement.Valid]
    constructor
    · rintro ⟨_, i, capability, hget, hname, hfit, _⟩
      exact ⟨capability, List.mem_of_getElem? hget, hname, hfit⟩
    · rintro ⟨capability, hmem, hname, hfit⟩
      obtain ⟨i, hget⟩ := List.getElem?_of_mem hmem
      exact ⟨_, i, capability, hget, hname, hfit, rfl⟩
  | usb code =>
    rw [call, hs.routing]
    exact hs.exists_routed_iff hc
  | consumer code =>
    rw [call, hs.routing]
    exact hs.exists_routed_iff hc
  | system code =>
    rw [call, hs.routing]
    exact hs.exists_routed_iff hc
  | layer mode n =>
    rw [call, hs.layerCount, hs.routing, ResultElement.Valid]
    have hmode : layerCapability config.routing mode = config.routing.layer mode := by
      cases mode <;> rfl
    split
    next hlt => rw [hs.exists_routed_iff hc, hmode, and_iff_right hlt]
    next hlt => simp [hlt]
  | animation settings =>
    rw [call, hs.settings, hs.routing, ResultElement.Valid]
    simp only [← idxOf?_eq_some_iff_getElem? hn]
    cases config.settingsNames.idxOf? settings with
    | some index =>
      simp only [Option.some.injEq, exists_eq_left']
      exact hs.exists_routed_iff hc
    | none => simp
  | none => exact hs.exists_spacer_iff hc

/-- The findings on a result are clean exactly when it is valid. -/
theorem clean_findings_iff (hn : config.settingsNames.Nodup) {result : Result} :
    Clean (scope.findings result) ↔ result.Valid config := by
  have hclean : Clean (errorOf (scope.spacer result.name)).toList ↔
      ∃ call, scope.spacer result.name = .ok call :=
    clean_toList_errorOf_iff (failsWithErrors_call scope result.name .none)
  have hspacer : Clean (if scope.isSpaced result then
        (errorOf (scope.spacer result.name)).toList else []) ↔
      (1 < result.steps.length → ∀ name, config.routing.spacer = some name →
        name ∈ config.capabilities.map (·.name)) := by
    rw [isSpaced, hs.routing]
    cases hr : config.routing.spacer with
    | none => simp
    | some name =>
      have hname : config.routing.spacerName = name := by
        rw [Config.Routing.spacerName, hr, Option.getD_some]
      by_cases hlength : 1 < result.steps.length
      · simp only [hlength, Option.isSome_some, decide_true, Bool.and_self, if_true,
          forall_const, Option.some.injEq, forall_eq']
        exact hclean.trans (hname ▸ hs.exists_spacer_iff hc)
      · simp [hlength]
  rw [findings, clean_sequenceFindings_iff]
  simp only [stepFindings, Clean.append_iff, hspacer, hs.exists_call_iff hc hn,
    clean_filterMap_errorOf_iff (failsWithErrors_call scope result.name)]
  constructor
  · rintro ⟨hshaped, h⟩
    obtain ⟨step, hstep⟩ := List.exists_mem_of_ne_nil _ hshaped.1
    exact ⟨hshaped, fun step hstep => (h step hstep).1, (h step hstep).2⟩
  · rintro ⟨hshaped, helements, hsp⟩
    exact ⟨hshaped, fun step hstep => ⟨helements step hstep, hsp⟩⟩

end ResultScope.Covers

end Keymap.Assembly
