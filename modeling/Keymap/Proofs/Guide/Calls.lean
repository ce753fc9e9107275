import Keymap.Proofs.Acceptance.Results

/-!
# Calls and the capability table

A call is sized by a table of capabilities if its index is that of a capability
and it has as many argument bytes as the capability declares. Every call that
is compiled is sized by the table, provided the table has no more capabilities
than a byte has values; so the check of the finished calls never fails on
tables that were assembled.
-/

namespace Keymap

namespace Guide

/-- The index of a call is that of a capability which declares as many argument bytes. -/
def Call.Sized (capabilities : List Config.Capability) (call : Call) : Prop :=
  ∃ capability, capabilities[call.capability.toNat]? = some capability ∧
    call.args.length = capability.argBytes

end Guide

namespace Assembly

open Guide (Call)

/-- An index below 256 is its own byte. -/
theorem toNat_capabilityByte {i : Nat} (h : i < 256) : (capabilityByte i).toNat = i := by
  rw [capabilityByte, show min i 255 = i by omega, UInt8.toNat_ofNat']
  exact Nat.mod_eq_of_lt h

/-- The index of a capability of a table that is not too long is that of the capability. -/
theorem getElem?_capabilityByte {capabilities : List Config.Capability}
    (h : capabilities.length ≤ 256) {i : Nat} {capability : Config.Capability}
    (hget : capabilities[i]? = some capability) :
    capabilities[(capabilityByte i).toNat]? = some capability := by
  have hi := (List.getElem?_eq_some_iff.mp hget).1
  rw [toNat_capabilityByte (by omega)]
  exact hget

/-- As many values as there are arguments take the bytes of the arguments together. -/
theorem length_argumentBytes {values : List Int64} {args : List Config.Argument}
    (h : values.length = args.length) :
    (argumentBytes values args).length = (args.map fun arg => arg.width.toNat).sum := by
  induction values generalizing args with
  | nil =>
    obtain rfl : args = [] := List.length_eq_zero_iff.mp h.symm
    rfl
  | cons value values ih =>
    cases args with
    | nil => simp at h
    | cons arg args =>
      have hlength := ih (Nat.succ.inj h)
      rw [argumentBytes] at hlength ⊢
      rw [List.zip_cons_cons, List.flatMap_cons, List.length_append, Guide.length_lowBytes,
        hlength, List.map_cons, List.sum_cons]

namespace ResultScope

variable {scope : ResultScope} (hn : (scope.capabilities.map (·.name)).Nodup)
  (hc : scope.capabilities.length ≤ 256) {symbol : String}
include hn hc

/-- A routed call is sized. -/
theorem sized_of_routed {name : String} {value : Int} {call : Call}
    (h : scope.routed symbol name value = .ok call) : call.Sized scope.capabilities := by
  obtain ⟨i, capability, arg, hget, _, hargs, _, rfl⟩ := (routed_eq_ok_iff hn).mp h
  refine ⟨capability, getElem?_capabilityByte hc hget, ?_⟩
  rw [Guide.length_lowBytes, Config.Capability.argBytes, hargs, List.map_singleton,
    List.sum_singleton]

/-- The call of the spacer is sized. -/
theorem sized_of_spacer {call : Call} (h : scope.spacer symbol = .ok call) :
    call.Sized scope.capabilities := by
  obtain ⟨i, capability, hget, _, rfl⟩ := (spacer_eq_ok_iff hn).mp h
  exact ⟨capability, getElem?_capabilityByte hc hget, List.length_replicate⟩

/-- The call of an element is sized. -/
theorem sized_of_call {element : Config.ResultElement} {call : Call}
    (h : scope.call symbol element = .ok call) : call.Sized scope.capabilities := by
  cases element with
  | capability name values =>
    obtain ⟨i, capability, hget, _, hfit, rfl⟩ := (called_eq_ok_iff hn).mp h
    exact ⟨capability, getElem?_capabilityByte hc hget, length_argumentBytes hfit.1⟩
  | usb code => exact sized_of_routed hn hc h
  | consumer code => exact sized_of_routed hn hc h
  | system code => exact sized_of_routed hn hc h
  | layer mode n =>
    rw [ResultScope.call] at h
    split at h
    · exact sized_of_routed hn hc h
    · simp at h
  | animation settings =>
    rw [ResultScope.call] at h
    split at h
    · exact sized_of_routed hn hc h
    · simp at h
  | none => exact sized_of_spacer hn hc h

/-- Every call in the combos of a result is sized. -/
theorem sized_of_mem_combos {result : Config.Result} {combo : List Call}
    (hcombo : combo ∈ scope.combos result) {call : Call} (hcall : call ∈ combo) :
    call.Sized scope.capabilities := by
  obtain ⟨step, _, hmem⟩ := List.mem_flatMap.mp hcombo
  rcases List.mem_cons.mp hmem with rfl | hmem
  · obtain ⟨element, _, hok⟩ := List.mem_filterMap.mp hcall
    exact sized_of_call hn hc (toOption_eq_some_iff.mp hok)
  · rw [spacerCombos] at hmem
    split at hmem
    · split at hmem
      next spacer hspacer =>
        rw [List.mem_singleton] at hmem
        subst hmem
        rw [List.mem_singleton] at hcall
        exact sized_of_spacer hn hc (hcall ▸ hspacer)
      next => exact absurd hmem List.not_mem_nil
    · exact absurd hmem List.not_mem_nil

end ResultScope

end Assembly

namespace Validation

/-- A call is found fault with exactly when it is not sized by the table. -/
theorem callFinding_eq_none_iff {capabilities : List Config.Capability} {result : String}
    {call : Guide.Call} :
    callFinding capabilities result call = none ↔ call.Sized capabilities := by
  rw [callFinding, Guide.Call.Sized]
  cases capabilities[call.capability.toNat]? with
  | none => simp
  | some capability => by_cases h : call.args.length = capability.argBytes <;> simp [h]

/-- The check of the calls of an assembled configuration is clean exactly when
there are no more capabilities than a byte has values. -/
theorem clean_capabilityArguments_build_iff (config : Config) :
    Clean (capabilityArguments (Assembly.build config)) ↔
      config.distinctCapabilities.length ≤ 256 := by
  have hmax : maxCapabilities = 256 := rfl
  have hcount : (Assembly.build config).capabilities = config.distinctCapabilities := rfl
  rw [capabilityArguments, hcount]
  split
  next h => simp only [Clean.cons_iff, Finding.isError_error, Bool.true_eq_false, false_and,
      false_iff]; omega
  next h =>
    have hle : config.distinctCapabilities.length ≤ 256 := by omega
    rw [iff_true_right hle, Config.build_results, Clean.flatMap_iff]
    intro row hrow
    obtain ⟨result, _, rfl⟩ := List.mem_map.mp hrow
    have hnone : (config.resultScope.combos result).flatten.filterMap
        (callFinding config.distinctCapabilities result.name) = [] := by
      apply List.filterMap_eq_nil_iff.mpr
      intro call hcall
      obtain ⟨combo, hcombo, hmem⟩ := List.mem_flatten.mp hcall
      exact callFinding_eq_none_iff.mpr (Assembly.ResultScope.sized_of_mem_combos
        (nodup_map_firstsBy [] config.capabilities) hle hcombo hmem)
    exact hnone ▸ Clean.nil

end Validation

end Keymap
