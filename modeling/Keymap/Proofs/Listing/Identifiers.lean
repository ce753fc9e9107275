import Keymap.Proofs.Acceptance
import Keymap.Proofs.Animation.Numbering
import Keymap.Proofs.Generation
import Keymap.Proofs.Listing.Declarations

/-!
# Identifiers in the listings

The listings make identifiers of names, which may be any texts: of the name of an
animation with a number or a word behind it those of the arrays of its frames, and with
a word before it that of its index. A number is told apart from what stands before it by
the digits at the end, and the word for the array of all frames does not end in one. So
distinct names make distinct identifiers. The index of a capability has its name from
the function of the capability, of which no one says that it is the function of no other.
-/

namespace Keymap.Listing

open Animation (Compiled Frame frameSymbol)
open Text

section Arrays

/-- The name of an array of an animation: that of one of its frames by number, or else
that of the array of all its frames. -/
def arrayName (animation : String) : Option Nat → String
  | some number => frameSymbol animation number
  | none => framesName animation

/-- The names of the arrays of an animation. -/
def arrayNames (animation : Compiled) : List String :=
  ((animation.frames.map fun frame : Frame => some frame.number) ++ [none]).map
    (arrayName animation.name)

/-- A section of a listing defines an array: behind a remark, if there is one, stand its
type and its name. -/
def DefinesArray (text name : String) : Prop :=
  ∃ remark type body, (remark = "" ∨ ∃ line, remark = "//" ++ line ++ "\n") ∧
    type ∈ ["const uint8_t ", "const uint8_t *"] ∧
    text = remark ++ type ++ name ++ "[] = \x7b" ++ body ++ "\x7d;"

private theorem getLast?_frame (animation : String) :
    (animation ++ "_frame").toList.getLast? = some 'e' := by
  simp [String.toList_append]

/-- The array of all frames is none of the arrays of single frames: no digit ends its name. -/
theorem frameSymbol_ne_framesName (animation other : String) (number : Nat) :
    frameSymbol animation number ≠ framesName other := by
  intro h
  have hends : endDigits (framesName other) = [] := by
    simp [endDigits, framesName, String.toList_append]
  have hdigits := endDigits_append_toString (getLast?_frame animation) (by decide) number
  rw [← frameSymbol, h, hends, eq_comm, List.reverse_eq_nil_iff] at hdigits
  exact (isWord_toString number).1 (String.toList_inj.mp hdigits)

/-- Every array has a name of its own. -/
theorem arrayName_injective {animation other : String} {number number' : Option Nat}
    (h : arrayName animation number = arrayName other number') :
    animation = other ∧ number = number' := by
  cases number with
  | some n =>
    cases number' with
    | some m =>
      obtain ⟨hstem, rfl⟩ := append_toString_injective (getLast?_frame animation) (by decide)
        (getLast?_frame other) (by decide) h
      exact ⟨(String.append_left_inj _).mp hstem, rfl⟩
    | none => exact absurd h (frameSymbol_ne_framesName animation other n)
  | none =>
    cases number' with
    | some m => exact absurd h.symm (frameSymbol_ne_framesName other animation m)
    | none => exact ⟨(String.append_left_inj _).mp h, rfl⟩

/-- The arrays of animations with distinct names, the frames of each of which have
distinct numbers, have distinct names. -/
theorem nodup_arrayNames {animations : List Compiled}
    (hnames : (animations.map (·.name)).Nodup)
    (hframes : ∀ animation ∈ animations, (animation.frames.map (·.number)).Nodup) :
    (animations.flatMap arrayNames).Nodup := by
  rw [List.nodup_flatMap]
  constructor
  · -- within an animation the numbers tell the arrays apart, across animations the names do
    intro animation hanimation
    refine List.Nodup.map (fun _ _ h => (arrayName_injective h).2) ?_
    have hnumbers : (animation.frames.map fun frame => some frame.number).Nodup := by
      have hsome := (hframes animation hanimation).map fun _ _ => Option.some.inj
      rwa [List.map_map] at hsome
    rw [← List.concat_eq_append, List.nodup_concat]
    exact ⟨by simp, hnumbers⟩
  · refine (List.pairwise_map.mp hnames).imp fun hne name hname hname' => ?_
    obtain ⟨_, _, rfl⟩ := List.mem_map.mp hname
    obtain ⟨_, _, he⟩ := List.mem_map.mp hname'
    exact hne (arrayName_injective he).1.symm

/-- The listing of a frame defines the array of the frame. -/
theorem definesArray_frameText (animation : String) (frame : Frame) :
    DefinesArray (frameText animation frame) (frameSymbol animation frame.number) := by
  rw [frameText]
  split
  · refine ⟨"", "const uint8_t ", " " ++ tokens [addressName .stop] ++ " ", Or.inl rfl,
      by decide, ?_⟩
    simp only [inlined_eq_append, String.empty_append, String.append_assoc]
    rfl
  · refine ⟨_, "const uint8_t ", "\n" ++ String.join ((frame.records.map fun record =>
        row (tokens (recordTokens record) ++ ",")) ++ [row (addressName .stop)]),
      Or.inr ⟨" " ++ animation ++ " frame " ++ toString frame.number, rfl⟩, by decide, ?_⟩
    simp only [table_eq_append, String.append_assoc]
    rfl

/-- The listing of the frames of an animation defines their array. -/
theorem definesArray_frameSet (animation : Compiled) :
    DefinesArray (frameSet animation) (framesName animation.name) := by
  refine ⟨_, "const uint8_t *", "\n" ++ String.join ((animation.frames.map fun frame =>
      row (frameSymbol animation.name frame.number ++ ",")) ++ [row "0"]),
    Or.inr ⟨"// " ++ animation.name ++ " Animation Frame Set ////", rfl⟩, by decide, ?_⟩
  simp only [frameSet, table_eq_append, String.append_assoc]
  rfl

end Arrays

section Indices

/-- The names of the indices of the capabilities. -/
def capabilityIndexNames (assembly : Assembly) : List String :=
  assembly.capabilities.map capabilityIndexName

/-- The names of the indices of the animations; none without a pixel section. -/
def animationIndexNames (assembly : Assembly) : List String :=
  if assembly.pixels.isNone then [] else assembly.animations.map (animationIndexName ·.name)

/-- The listing of the capabilities' indices is made of their names. -/
theorem capabilityIndices_eq (assembly : Assembly) :
    capabilityIndices assembly =
      braced "typedef enum CapabilityIndex"
        ((capabilityIndexNames assembly).map fun name => row (name ++ ","))
        " CapabilityIndex;" := by
  rw [capabilityIndexNames, List.map_map]
  rfl

/-- The listing of the animations' indices is made of their names. -/
theorem animationIndices_eq (assembly : Assembly) :
    animationIndices assembly =
      String.join ((animationIndexNames assembly).zipIdx.map fun (name, i) =>
        "\n" ++ definition name (toString i)) := by
  rw [animationIndices, animationIndexNames]
  split
  next => rfl
  next =>
    rw [List.zipIdx_map, List.map_map]
    rfl

/-- Capabilities have indices of different names exactly if they have different functions. -/
theorem nodup_capabilityIndexNames_iff (assembly : Assembly) :
    (capabilityIndexNames assembly).Nodup ↔ (assembly.capabilities.map (·.function)).Nodup := by
  have hfunctions : capabilityIndexNames assembly =
      (assembly.capabilities.map (·.function)).map (· ++ "_index") := by
    rw [capabilityIndexNames, List.map_map]
    rfl
  rw [hfunctions]
  exact List.nodup_map_iff fun _ _ h => (String.append_left_inj "_index").mp h

theorem nodup_animationIndexNames {assembly : Assembly}
    (h : (assembly.animations.map (·.name)).Nodup) :
    (animationIndexNames assembly).Nodup := by
  rw [animationIndexNames]
  split
  next => exact List.nodup_nil
  next =>
    have hmap : assembly.animations.map (animationIndexName ·.name) =
        (assembly.animations.map (·.name)).map animationIndexName := by
      rw [List.map_map]
      rfl
    rw [hmap]
    exact h.map fun _ _ he => (String.append_right_inj "Animation__").mp he

end Indices

end Keymap.Listing

namespace Keymap

open Listing

/-- The identifiers in the listings and which of them are told apart: the names of the
capabilities' indices if the functions of capabilities are, the arrays of frames, and the
names of the animations' indices. -/
structure Assembly.TellsApart (assembly : Assembly) : Prop where
  capabilities :
    capabilityIndices assembly =
        braced "typedef enum CapabilityIndex"
          ((capabilityIndexNames assembly).map fun name => row (name ++ ",")) " CapabilityIndex;" ∧
      ((capabilityIndexNames assembly).Nodup ↔ (assembly.capabilities.map (·.function)).Nodup)
  indices :
    (∀ i capability, assembly.capabilities[i]? = some capability →
        (capabilityIndexNames assembly).idxOf? (capabilityIndexName capability) = some i) ↔
      (assembly.capabilities.map (·.function)).Nodup
  arrays : ∃ texts, Listing.frames assembly = sections texts ∧
    List.Forall₂ DefinesArray texts (assembly.animations.flatMap arrayNames) ∧
    (assembly.animations.flatMap arrayNames).Nodup
  animations :
    animationIndices assembly =
        String.join ((animationIndexNames assembly).zipIdx.map fun (name, i) =>
          "\n" ++ definition name (toString i)) ∧
      (animationIndexNames assembly).Nodup

namespace Config

/-- In the listings of every configuration the arrays and the indices of animations have
names of their own, and so have the indices of capabilities if and only if no two of
these have one function. -/
theorem identifiers_apart (config : Config) : (Assembly.build config).TellsApart := by
  have hnames : ((Assembly.build config).animations.map (·.name)).Nodup := by
    rw [Assembly.animations_build, List.map_map]
    exact nodup_map_firstsBy [] config.animations
  have hframes : ∀ animation ∈ (Assembly.build config).animations,
      (animation.frames.map (·.number)).Nodup := by
    rw [Assembly.animations_build, List.forall_mem_map]
    intro animation _
    rw [Animation.compile, Animation.gapless_framesOf.map_number fun _ _ hfirst => hfirst.number]
    exact List.nodup_range'
  refine ⟨⟨capabilityIndices_eq _, nodup_capabilityIndexNames_iff _⟩, ?_, ?_,
    animationIndices_eq _, nodup_animationIndexNames hnames⟩
  · rw [← nodup_capabilityIndexNames_iff, nodup_iff_idxOf?]
    simp only [capabilityIndexNames, List.getElem?_map, Option.map_eq_some_iff]
    constructor
    · rintro h i _ ⟨capability, hget, rfl⟩
      exact h i capability hget
    · exact fun h i capability hget => h i _ ⟨capability, hget, rfl⟩
  · refine ⟨_, rfl, forall₂_flatMap fun animation _ => ?_, nodup_arrayNames hnames hframes⟩
    rw [arrayNames, List.map_append, List.map_map]
    refine List.rel_append ?_ (.cons (definesArray_frameSet animation) .nil)
    rw [List.forall₂_map_left_iff, List.forall₂_map_right_iff]
    exact List.forall₂_same.mpr fun frame _ => definesArray_frameText animation.name frame

/-- Two capabilities with one function. -/
def twofold : Config :=
  { Config.empty "twofold" 8 with
    capabilities :=
      [⟨"keyOut", "usb", [⟨"code", 1⟩], .safe⟩, ⟨"modOut", "usb", [⟨"code", 1⟩], .safe⟩] }

/-- Two capabilities with one function have indices of one name, and it is listed twice. -/
theorem enumerator_repeated : ∃ outputs, twofold.generate .standard = .ok outputs ∧
    capabilityIndices (Assembly.build twofold) =
      "typedef enum CapabilityIndex \x7b\n\tusb_index,\n\tusb_index,\n\x7d CapabilityIndex;" ∧
    ¬(capabilityIndexNames (Assembly.build twofold)).Nodup := by
  have hcheck : twofold.check.hasErrors = false := by decide +kernel
  obtain ⟨outputs, h⟩ := exists_generate_standard hcheck
  exact ⟨outputs, h, by decide +kernel, by decide +kernel⟩

end Config

end Keymap
