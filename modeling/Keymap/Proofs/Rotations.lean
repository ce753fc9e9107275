import Keymap.Assembly.Build
import Keymap.Proofs.Distinct
import Keymap.Proofs.RotationTable
import Mathlib.Order.Bounds.Basic

/-!
# Rotations of bound triggers

The rotation table of a configuration tells, for every uid of one byte, the greatest
parameter of the rotations that the triggers bound on some layer have. A name that a
layer binds stands for the first trigger with the name. Which rotations there are is
all that counts: neither the order nor the number of layers, bindings, combos and
elements does, and nor do triggers that no layer binds.
-/

namespace Keymap

namespace Config

/-- Some layer binds the triggers of a name. -/
def Binds (config : Config) (name : String) : Prop :=
  ∃ layer ∈ config.layers, name ∈ layer.triggers

/-- The first trigger with a name has an element. -/
def HasElement (config : Config) (name : String) (element : TriggerElement) : Prop :=
  ∃ trigger, config.triggers.find? (fun trigger => decide (trigger.name = name)) = some trigger ∧
    ∃ combo ∈ trigger.sequence, element ∈ combo

/-- A trigger that is bound on some layer has a rotation with a uid of one byte and a parameter. -/
def Rotates (config : Config) (uid : Nat) (param : UInt8) : Prop :=
  ∃ name, config.Binds name ∧ ∃ wide : UInt16, config.HasElement name (.generic 0x15 wide param) ∧
    wide.toNat = uid ∧ uid ≤ 255

/-- The parameters are as many as the greatest uid in use asks for, and each is the greatest
one of its uid, or zero where the uid is not in use. -/
structure GreatestParameters (config : Config) (maxima : List UInt8) : Prop where
  length : (∀ uid param, ¬config.Rotates uid param) ∧ maxima.length = 0 ∨
    ∃ uid, IsGreatest {uid | ∃ param, config.Rotates uid param} uid ∧ maxima.length = 1 + uid
  entry : ∀ uid max, maxima[uid]? = some max →
    (∀ param, ¬config.Rotates uid param) ∧ max = 0 ∨
      IsGreatest {param | config.Rotates uid param} max

/-- The layers of two configurations bind the same names, and these have the same elements,
in any order and any number. -/
structure SameBound (config other : Config) : Prop where
  binds : ∀ name, config.Binds name ↔ other.Binds name
  elements : ∀ name, config.Binds name →
    ∀ element, config.HasElement name element ↔ other.HasElement name element

/-- Where the same is bound, there are the same rotations. -/
theorem SameBound.rotates_iff {config other : Config} (h : config.SameBound other) {uid : Nat}
    {param : UInt8} : config.Rotates uid param ↔ other.Rotates uid param := by
  refine exists_congr fun name => ?_
  rw [← h.binds]
  exact and_congr_right fun hbinds => by simp only [h.elements name hbinds]

end Config

namespace Assembly

open Config (Layer Trigger TriggerElement)

variable {config : Config}

/-- An element is a rotation exactly if it has the code of rotations and a uid of one byte. -/
theorem rotation?_eq_some_iff {element : TriggerElement} {uid param : UInt8} :
    rotation? element = some (uid, param) ↔
      ∃ wide : UInt16, element = .generic 0x15 wide param ∧ wide.toNat = uid.toNat := by
  cases element with
  | generic code wide other =>
    have hcode : Guide.rotationType = 0x15 := rfl
    simp only [rotation?, hcode, Option.ite_none_right_eq_some, Option.some.injEq, Prod.mk.injEq,
      TriggerElement.generic.injEq]
    constructor
    · rintro ⟨⟨rfl, hlt⟩, rfl, rfl⟩
      exact ⟨wide, ⟨rfl, rfl, rfl⟩, (UInt8.toNat_ofNat_of_lt' hlt).symm⟩
    · rintro ⟨_, ⟨rfl, rfl, rfl⟩, huid⟩
      have hlt := uid.toNat_lt
      exact ⟨⟨rfl, by omega⟩, by rw [huid, UInt8.ofNat_toNat], rfl⟩
  | _ => simp [rotation?]

/-- A layer binds the first triggers with the names that it lists. -/
theorem exists_mem_bound_iff {layer : Layer} {trigger : Trigger} :
    (∃ index, (index, trigger) ∈ bound config.distinctTriggers layer) ↔
      ∃ name ∈ layer.triggers,
        config.triggers.find? (fun trigger => decide (trigger.name = name)) = some trigger := by
  simp only [bound, List.mem_filterMap]
  rw [exists_comm]
  refine exists_congr fun name => ?_
  rw [exists_and_left, Config.distinctTriggers, exists_locateBy_firstsBy_iff]

/-- The rotations that are collected are those of the triggers bound on some layer. -/
theorem mem_rotations_iff {uid param : UInt8} :
    (uid, param) ∈ rotations config.distinctTriggers config.layers ↔
      config.Rotates uid.toNat param := by
  have hle : uid.toNat ≤ 255 := Nat.le_of_lt_succ uid.toNat_lt
  simp only [rotations, List.mem_flatMap, List.mem_filterMap, rotation?_eq_some_iff, elements,
    List.mem_flatten]
  constructor
  · rintro ⟨layer, hlayer, ⟨index, trigger⟩, hbound, element, ⟨combo, hcombo, helement⟩, wide,
      rfl, hwide⟩
    obtain ⟨name, hname, hfind⟩ := exists_mem_bound_iff.mp ⟨index, hbound⟩
    exact ⟨name, ⟨layer, hlayer, hname⟩, wide, ⟨trigger, hfind, combo, hcombo, helement⟩, hwide,
      hle⟩
  · rintro ⟨name, ⟨layer, hlayer, hname⟩, wide, ⟨trigger, hfind, combo, hcombo, helement⟩,
      hwide, _⟩
    obtain ⟨index, hbound⟩ := exists_mem_bound_iff.mpr ⟨name, hname, hfind⟩
    exact ⟨layer, hlayer, (index, trigger), hbound, _, ⟨combo, hcombo, helement⟩, wide, rfl,
      hwide⟩

/-- A uid that rotates is one byte, and the rotation is among those that are collected. -/
theorem exists_mem_rotations {uid : Nat} {param : UInt8} (h : config.Rotates uid param) :
    ∃ byte : UInt8, byte.toNat = uid ∧
      (byte, param) ∈ rotations config.distinctTriggers config.layers := by
  have hle : uid ≤ 255 := by
    obtain ⟨_, _, _, _, _, hle⟩ := h
    exact hle
  have hbyte : (UInt8.ofNat uid).toNat = uid := UInt8.toNat_ofNat_of_lt' (Nat.lt_succ_of_le hle)
  exact ⟨UInt8.ofNat uid, hbyte, mem_rotations_iff.mpr (hbyte.symm ▸ h)⟩

end Assembly

namespace Config

/-- A table of the rotations that are collected has the greatest parameters. -/
theorem greatestParameters_of_tabulates {config : Config} {table : RotationTable}
    (h : table.Tabulates (Assembly.rotations config.distinctTriggers config.layers)) :
    config.GreatestParameters table.maxima where
  length := by
    have hlt : ∀ uid param, config.Rotates uid param → uid < table.maxima.length := by
      intro uid param hrotates
      obtain ⟨byte, rfl, hmem⟩ := Assembly.exists_mem_rotations hrotates
      rw [h.length]
      exact PixelMap.le_greatest (List.mem_map_of_mem (f := fun r => r.1.toNat + 1) hmem)
    rcases PixelMap.greatest_mem
        ((Assembly.rotations config.distinctTriggers config.layers).map fun r => r.1.toNat + 1)
      with hzero | hmem
    · rw [← h.length] at hzero
      refine Or.inl ⟨fun uid param hrotates => ?_, hzero⟩
      have huid := hlt uid param hrotates
      omega
    · rw [← h.length] at hmem
      obtain ⟨⟨byte, param⟩, hrotation, hlength⟩ := List.mem_map.mp hmem
      refine Or.inr ⟨byte.toNat, ⟨⟨param, Assembly.mem_rotations_iff.mp hrotation⟩, ?_⟩, ?_⟩
      · rintro uid ⟨other, hrotates⟩
        have huid := hlt uid other hrotates
        dsimp only at hlength
        omega
      · rw [← hlength, Nat.add_comm]
  entry uid max hmax := by
    have hentry : table.entry uid = max := by rw [RotationTable.entry, hmax, Option.getD_some]
    have hbound : max ∈ upperBounds {param | config.Rotates uid param} := by
      intro param hrotates
      obtain ⟨byte, rfl, hmem⟩ := Assembly.exists_mem_rotations hrotates
      rw [← hentry]
      exact h.bound _ hmem
    rcases h.attained uid with hzero | ⟨⟨byte, param⟩, hmem, rfl, hparam⟩
    · rw [hentry] at hzero
      by_cases hnone : ∃ param, config.Rotates uid param
      · obtain ⟨param, hrotates⟩ := hnone
        -- a parameter that is at most zero is zero
        have hparam : param = max := by
          refine UInt8.le_antisymm (hbound hrotates) ?_
          rw [hzero]
          exact UInt8.zero_le
        exact Or.inr ⟨hparam ▸ hrotates, hbound⟩
      · exact Or.inl ⟨not_exists.mp hnone, hzero⟩
    · rw [hentry] at hparam
      obtain rfl : param = max := hparam
      exact Or.inr ⟨Assembly.mem_rotations_iff.mp hmem, hbound⟩

/-- In every configuration, with or without errors, the rotation table reaches up to the
greatest uid of a rotation in a trigger that is bound on some layer, and it has the greatest
parameter of every uid. Every configuration that binds the same elements has the same table. -/
theorem rotations_tabulated (config : Config) :
    config.GreatestParameters (Assembly.build config).rotation.maxima ∧
      ∀ other, config.SameBound other →
        (Assembly.build other).rotation = (Assembly.build config).rotation := by
  have htabulates : ∀ config : Config, (Assembly.build config).rotation.Tabulates
      (Assembly.rotations config.distinctTriggers config.layers) := fun config =>
    RotationTable.tabulates_empty.foldl _
  refine ⟨greatestParameters_of_tabulates (htabulates config), fun other h => ?_⟩
  refine (htabulates other).unique (htabulates config) fun (uid, param) => ?_
  rw [Assembly.mem_rotations_iff, Assembly.mem_rotations_iff, h.rotates_iff]

end Config

end Keymap
