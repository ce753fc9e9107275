import Keymap.Proofs.Acceptance
import Keymap.Proofs.Guide.Reading
import Mathlib.Algebra.Order.Ring.Int
import Mathlib.Data.List.Flatten
import Mathlib.Tactic.Ring

/-!
# Guides of results

A reader that knows only how many argument bytes every capability takes reads
back the calls of each result. The calls are those of the declared elements: the
index is that of the capability in the table, and the arguments are the values
in two's complement, the least significant byte first.
-/

namespace Keymap

open Config (Argument Capability Result ResultElement)
open Guide (Call)

namespace Guide

/-- Read a call of a capability, given how many argument bytes every capability takes. -/
def callReader (widths : List Nat) : Reader Call where
  read
    | [] => none
    | capability :: bytes =>
      match widths[capability.toNat]? with
      | none => none
      | some width =>
        if width ≤ bytes.length then some (⟨capability, bytes.take width⟩, bytes.drop width)
        else none
  shorter bytes call rest h := by
    cases bytes with
    | nil => simp at h
    | cons capability bytes =>
      dsimp only at h
      split at h
      · cases h
      · split at h
        · cases h
          rw [List.length_drop, List.length_cons]
          omega
        · cases h

/-- A call that is sized by a table is read again. -/
theorem read_callReader {capabilities : List Capability} {call : Call}
    (h : call.Sized capabilities) (rest : List UInt8) :
    (callReader (capabilities.map (·.argBytes))).read (call.bytes ++ rest) = some (call, rest) := by
  obtain ⟨capability, hget, hlength⟩ := h
  have hwidth : (capabilities.map (·.argBytes))[call.capability.toNat]? =
      some capability.argBytes := by
    rw [List.getElem?_map, hget, Option.map_some]
  simp only [callReader, Call.bytes, List.cons_append, hwidth, ← hlength]
  rw [if_pos (by rw [List.length_append]; omega), List.take_left, List.drop_left]

/-- Combos of sized calls are read again. -/
theorem readCombos_resultBytes {capabilities : List Capability} {combos : ResultCombos}
    (h : ∀ combo ∈ combos, (1 ≤ combo.length ∧ combo.length ≤ 255) ∧
      ∀ call ∈ combo, call.Sized capabilities) (rest : List UInt8) :
    (callReader (capabilities.map (·.argBytes))).readCombos (resultBytes combos ++ rest) =
      some (combos, rest) := by
  have hread := (callReader (capabilities.map (·.argBytes))).readCombos_flatMap Call.bytes id
    (fun combo hcombo call hcall => read_callReader ((h combo hcombo).2 call hcall))
    (fun combo hcombo => (h combo hcombo).1) rest
  rw [List.map_id_fun, List.map_id_fun, id] at hread
  exact hread

/-- The number whose bytes are given, the least significant one first. -/
def littleEndian : List UInt8 → Nat
  | [] => 0
  | byte :: rest => byte.toNat + 256 * littleEndian rest

/-- The bytes are the two's complement of a value in some width. -/
structure Represents (value : Int) (width : Nat) (bytes : List UInt8) : Prop where
  length : bytes.length = width
  value : (littleEndian bytes : Int) = value % 256 ^ width

/-- A remainder is made of the lowest digit and the remainder of what lies above it. -/
private theorem emod_pow_succ (value : Int) (width : Nat) :
    value % 256 ^ (width + 1) = value % 256 + 256 * (value / 256 % 256 ^ width) := by
  have hpos : (0 : Int) < 256 ^ width := Int.pow_pos (by decide)
  have hlow := Int.emod_nonneg value (show (256 : Int) ≠ 0 by decide)
  have hlow' := Int.emod_lt_of_pos value (show (0 : Int) < 256 by decide)
  have hhigh := Int.emod_nonneg (value / 256) (Int.ne_of_gt hpos)
  have hhigh' := Int.emod_lt_of_pos (value / 256) hpos
  have hvalue : value = value % 256 + 256 * (value / 256 % 256 ^ width) +
      256 ^ (width + 1) * (value / 256 / 256 ^ width) := by
    have hdigits := Int.emod_add_mul_ediv value 256
    have hupper := Int.emod_add_mul_ediv (value / 256) (256 ^ width)
    calc value = value % 256 + 256 * (value / 256) := hdigits.symm
      _ = value % 256 + 256 * (value / 256 % 256 ^ width +
          256 ^ width * (value / 256 / 256 ^ width)) := by rw [hupper]
      _ = _ := by ring
  calc value % 256 ^ (width + 1)
      = (value % 256 + 256 * (value / 256 % 256 ^ width)) % 256 ^ (width + 1) := by
        conv_lhs => rw [hvalue, Int.add_mul_emod_self_left]
    _ = value % 256 + 256 * (value / 256 % 256 ^ width) := by
        refine Int.emod_eq_of_lt (by omega) ?_
        rw [Int.pow_succ]
        omega

/-- The lowest bytes of a value represent it. -/
theorem represents_lowBytes (value : Int) (width : Nat) :
    Represents value width (lowBytes value width) := by
  refine ⟨length_lowBytes value width, ?_⟩
  induction width generalizing value with
  | zero => simp [lowBytes, littleEndian]
  | succ width ih =>
    have hbyte : ((UInt8.ofNat (value % 256).toNat).toNat : Int) = value % 256 := by
      rw [UInt8.toNat_ofNat']
      omega
    rw [lowBytes, littleEndian, Nat.cast_add, Nat.cast_mul, ih, hbyte, emod_pow_succ]
    rfl

/-- The lowest bytes of an index that fits have its value. -/
theorem littleEndian_lowBytes {index width : Nat} (h : Fits index width) :
    littleEndian (lowBytes index width) = index := by
  have hvalue := (represents_lowBytes index width).value
  rw [Fits] at h
  split at h
  next hzero =>
    subst hzero
    rw [Int.natCast_eq_zero.mp h]
    rfl
  next =>
    have hlt : (index : Int) < 256 ^ width := by
      rw [show (256 : Int) = 2 ^ 8 from rfl, ← Int.pow_mul]
      exact h.2
    rw [Int.emod_eq_of_lt (Int.natCast_nonneg index) hlt] at hvalue
    exact Int.natCast_inj.mp hvalue

end Guide

namespace Config

/-- The call is of the capability with a name, by its place in the table. -/
def CallsNamed (config : Config) (name : String) (capability : Capability) (call : Call) : Prop :=
  config.capabilities[call.capability.toNat]? = some capability ∧ capability.name = name

/-- The call is of a capability with one argument, which represents a value. -/
def Routes (config : Config) (name : String) (value : Int) (call : Call) : Prop :=
  ∃ capability arg, config.CallsNamed name capability call ∧ capability.args = [arg] ∧
    Guide.Represents value arg.width.toNat call.args

/-- The call is of the spacer, all its argument bytes zero. -/
def CallsSpacer (config : Config) (call : Call) : Prop :=
  ∃ capability, config.CallsNamed config.routing.spacerName capability call ∧
    call.args = List.replicate capability.argBytes 0

/-- The bytes represent the values, each as wide as its argument, one behind the other. -/
def ArgumentsIn (values : List Int64) (args : List Argument) (bytes : List UInt8) : Prop :=
  values.length = args.length ∧ ∃ parts : List (List UInt8), bytes = parts.flatten ∧
    List.Forall₂ (fun entry part => Guide.Represents entry.1.toInt entry.2.width.toNat part)
      (values.zip args) parts

/-- The call is that of an element, with the declared values. -/
def ResultElement.CompiledAs (config : Config) (call : Call) : ResultElement → Prop
  | .capability name values =>
    ∃ capability, config.CallsNamed name capability call ∧
      ArgumentsIn values capability.args call.args
  | .usb code => config.Routes config.routing.usb code.toNat call
  | .consumer code => config.Routes config.routing.consumer code.toNat call
  | .system code => config.Routes config.routing.system code.toNat call
  | .layer mode n => config.Routes (config.routing.layer mode) n.toNat call
  | .animation settings =>
    ∃ index : Nat, (Assembly.build config).settingsIndex settings = some index ∧
      config.Routes config.routing.animation index call
  | .none => config.CallsSpacer call

/-- The combos are the steps of a result, a call for every element, each step
followed by the spacer if there are several and the routing has one. -/
def Result.CompiledAs (config : Config) (combos : Guide.ResultCombos) (result : Result) : Prop :=
  ∃ steps : Guide.ResultCombos,
    List.Forall₂ (List.Forall₂ fun element call => element.CompiledAs config call)
      result.steps steps ∧
    if 1 < result.steps.length ∧ config.routing.spacer.isSome = true then
      ∃ spacer, config.CallsSpacer spacer ∧ combos = steps.flatMap fun step => [step, [spacer]]
    else combos = steps

end Config

namespace Assembly.ResultScope

/-- The calls of the steps of a result. -/
def stepCalls (scope : ResultScope) (result : Result) : Guide.ResultCombos :=
  result.steps.map fun step =>
    step.filterMap fun element => (scope.call result.name element).toOption

/-- Each step is followed by the spacer, if there is one. -/
theorem combos_eq_flatMap (scope : ResultScope) (result : Result) :
    scope.combos result =
      (scope.stepCalls result).flatMap fun calls => calls :: scope.spacerCombos result := by
  rw [stepCalls, List.flatMap_map, combos]

/-- The steps of a result are among the combos of its guide. -/
theorem sublist_combos (scope : ResultScope) (result : Result) :
    (scope.stepCalls result).Sublist (scope.combos result) := by
  have hsteps := List.Sublist.flatMap_right (scope.stepCalls result) (f := fun calls => [calls])
    (g := fun calls => calls :: scope.spacerCombos result) fun calls _ =>
      (List.nil_sublist _).cons_cons calls
  rwa [List.flatMap_singleton', ← scope.combos_eq_flatMap] at hsteps

variable {config : Config} (h : config.WellFormed) {symbol : String}
include h

private theorem covers_of_wellFormed : config.resultScope.Covers config :=
  covers_resultScope h.distinctNames h.settingsNames

private theorem callsNamed_capabilityByte {i : Nat} {capability : Capability} {bytes : List UInt8}
    (hget : config.capabilities[i]? = some capability) :
    config.CallsNamed capability.name capability ⟨capabilityByte i, bytes⟩ :=
  ⟨getElem?_capabilityByte h.capabilityCount hget, rfl⟩

/-- A routed call has the capability of its route, and its argument has the value. -/
private theorem routes_of_routed {name : String} {value : Int} {call : Call}
    (hok : config.resultScope.routed symbol name value = .ok call) :
    config.Routes name value call := by
  have hs := covers_of_wellFormed h
  obtain ⟨i, capability, arg, hget, rfl, hargs, _, rfl⟩ :=
    (routed_eq_ok_iff (hs.nodup_capabilities h.capabilityNames)).mp hok
  rw [hs.capabilities] at hget
  exact ⟨capability, arg, callsNamed_capabilityByte h hget, hargs,
    Guide.represents_lowBytes _ _⟩

/-- A compiled spacer is a call of the spacer capability without arguments. -/
private theorem callsSpacer_of_spacer {call : Call}
    (hok : config.resultScope.spacer symbol = .ok call) : config.CallsSpacer call := by
  have hs := covers_of_wellFormed h
  obtain ⟨i, capability, hget, hname, rfl⟩ :=
    (spacer_eq_ok_iff (hs.nodup_capabilities h.capabilityNames)).mp hok
  rw [hs.capabilities] at hget
  have hspacer : config.routing.spacerName = capability.name := hname.symm
  exact ⟨capability, hspacer ▸ callsNamed_capabilityByte h hget, rfl⟩

/-- The call of an element is the one with its declared values. -/
theorem compiledAs_of_call {element : ResultElement} {call : Call}
    (hok : config.resultScope.call symbol element = .ok call) : element.CompiledAs config call := by
  have hs := covers_of_wellFormed h
  cases element with
  | capability name values =>
    obtain ⟨i, capability, hget, rfl, ⟨hlength, _⟩, rfl⟩ :=
      (called_eq_ok_iff (hs.nodup_capabilities h.capabilityNames)).mp hok
    rw [hs.capabilities] at hget
    refine ⟨capability, callsNamed_capabilityByte h hget, hlength, _, List.flatMap_def, ?_⟩
    rw [List.forall₂_map_right_iff]
    exact List.forall₂_same.mpr fun _ _ => Guide.represents_lowBytes _ _
  | usb code => exact routes_of_routed h hok
  | consumer code => exact routes_of_routed h hok
  | system code => exact routes_of_routed h hok
  | layer mode n =>
    have hmode : layerCapability config.routing mode = config.routing.layer mode := by
      cases mode <;> rfl
    rw [ResultScope.call, hs.routing, hmode] at hok
    split at hok
    · exact routes_of_routed h hok
    · cases hok
  | animation settings =>
    rw [ResultScope.call, hs.routing] at hok
    split at hok
    next index hindex => exact ⟨index, hindex, routes_of_routed h hok⟩
    next => cases hok
  | none => exact callsSpacer_of_spacer h hok

/-- Every step of a valid result has a call for each of its elements. -/
theorem forall₂_stepCalls_of_call {result : Result} (hr : result.Valid config)
    {related : ResultElement → Call → Prop}
    (hrelated : ∀ step ∈ result.steps, ∀ element ∈ step, ∀ call,
      config.resultScope.call result.name element = .ok call → related element call) :
    List.Forall₂ (List.Forall₂ related) result.steps (config.resultScope.stepCalls result) := by
  rw [stepCalls, List.forall₂_map_right_iff]
  refine List.forall₂_same.mpr fun step hstep => forall₂_filterMap_toOption fun element he => ?_
  obtain ⟨call, hcall⟩ := ((covers_of_wellFormed h).exists_call_iff h.capabilityNames
    h.settingsNames).mpr (hr.elements step hstep element he)
  exact ⟨call, hcall, hrelated step hstep element he call hcall⟩

/-- The calls of a valid result are those of its elements. -/
theorem forall₂_stepCalls {result : Result} (hr : result.Valid config) :
    List.Forall₂ (List.Forall₂ fun element call => element.CompiledAs config call)
      result.steps (config.resultScope.stepCalls result) :=
  forall₂_stepCalls_of_call h hr fun _ _ _ _ _ hcall => compiledAs_of_call h hcall

/-- The combos of a valid result are its compiled steps. -/
theorem compiledAs_combos {result : Result} (hr : result.Valid config) :
    result.CompiledAs config (config.resultScope.combos result) := by
  have hs := covers_of_wellFormed h
  have hspaced : config.resultScope.isSpaced result = true ↔
      1 < result.steps.length ∧ config.routing.spacer.isSome = true := by
    rw [isSpaced, hs.routing, Bool.and_eq_true, decide_eq_true_iff]
  refine ⟨config.resultScope.stepCalls result, forall₂_stepCalls h hr, ?_⟩
  rw [combos_eq_flatMap, spacerCombos]
  split
  next hyes =>
    obtain ⟨name, hname⟩ := Option.isSome_iff_exists.mp hyes.2
    have hspacer : config.routing.spacerName = name := by
      rw [Config.Routing.spacerName, hname, Option.getD_some]
    obtain ⟨spacer, hok⟩ := (@Covers.exists_spacer_iff _ _ hs h.capabilityNames result.name).mpr
      (hspacer ▸ hr.spacer hyes.1 name hname)
    rw [if_pos (hspaced.mpr hyes), hok]
    exact ⟨spacer, callsSpacer_of_spacer h hok, rfl⟩
  next hno =>
    rw [if_neg (mt hspaced.mp hno)]
    exact List.flatMap_singleton' _

/-- The combos of a valid result have calls, as many as a byte counts, which are
sized by the table of capabilities. -/
theorem sized_combos {result : Result} (hr : result.Valid config) :
    ∀ combo ∈ config.resultScope.combos result, (1 ≤ combo.length ∧ combo.length ≤ 255) ∧
      ∀ call ∈ combo, call.Sized config.resultScope.capabilities := by
  have hs := covers_of_wellFormed h
  have hcount : config.resultScope.capabilities.length ≤ 256 := by
    rw [hs.capabilities]
    exact h.capabilityCount
  intro combo hcombo
  refine ⟨?_, fun call hcall =>
    sized_of_mem_combos (hs.nodup_capabilities h.capabilityNames) hcount hcombo hcall⟩
  rw [combos_eq_flatMap, List.mem_flatMap] at hcombo
  obtain ⟨calls, hcalls, hmem⟩ := hcombo
  rcases List.mem_cons.mp hmem with rfl | hmem
  · exact (hr.shaped.of_forall₂ (forall₂_stepCalls h hr)).2 _ hcalls
  · rw [spacerCombos] at hmem
    split at hmem
    · split at hmem
      · rw [List.mem_singleton.mp hmem, List.length_singleton]
        decide
      · exact absurd hmem List.not_mem_nil
    · exact absurd hmem List.not_mem_nil

end Assembly.ResultScope

namespace Config

/-- A row has the compiled steps of a result, and its guide is read back as
these, whatever follows the guide. -/
structure Result.DecodedFrom (config : Config) (result : Result) (row : ResultRow) : Prop where
  name : row.name = result.name
  compiled : result.CompiledAs config row.combos
  read : ∀ rest,
    (Guide.callReader ((Assembly.build config).capabilities.map (·.argBytes))).readCombos
      (Guide.resultBytes row.combos ++ rest) = some (row.combos, rest)

/-- Where the report has no errors, the guide of every result decodes to the
declared result, by the argument widths of the capabilities alone. -/
theorem resultGuides_decode {config : Config} (h : config.check.hasErrors = false) :
    List.Forall₂ (fun result row => result.DecodedFrom config row)
      config.results (Assembly.build config).results := by
  have hw := WellFormed.of_check h
  rw [config.build_results, hw.distinctNames.distinctResults, List.forall₂_map_right_iff]
  refine List.forall₂_same.mpr fun result hmem => ?_
  have hr := hw.results result hmem
  refine ⟨rfl, Assembly.ResultScope.compiledAs_combos hw hr, fun rest => ?_⟩
  have hsized := Assembly.ResultScope.sized_combos hw hr
  have hread := (Guide.callReader ((Assembly.build config).capabilities.map
    (·.argBytes))).readCombos_flatMap Call.bytes id
    (fun combo hcombo call hcall => Guide.read_callReader ((hsized combo hcombo).2 call hcall))
    (fun combo hcombo => (hsized combo hcombo).1) rest
  rw [List.map_id_fun, List.map_id_fun, id] at hread
  exact hread

/-- The sample has a result of two steps, the second with a key and an element that does
nothing, and a result that shifts to a layer. -/
theorem resultGuides_decode_sample :
    sample.check.hasErrors = false ∧
      List.Forall₂ (fun result row => result.DecodedFrom sample row)
        sample.results (Assembly.build sample).results :=
  ⟨check_sample, resultGuides_decode check_sample⟩

end Config

end Keymap
