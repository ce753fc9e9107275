import Keymap.Proofs.Acceptance

/-!
# Compiled animations

The frames of a valid animation stand at the places of their numbers, with one
record for each that is declared; where no frame is declared with a number, an
empty one fills its place. All of them are terminated and their payloads have
the widths of the frame format, so that each is read back from its bytes.
-/

namespace Keymap.Animation

open Config (FrameFormat PixelRecord)

/-- A record has the address of a declared one in bytes, its change and its payload. -/
structure FrameRecord.CompiledFrom (symbol : String) (extent : Extent) (record : PixelRecord)
    (r : FrameRecord) : Prop where
  address : encodeAddress symbol extent record.address = .ok (r.mode, r.address)
  op : r.op = record.op
  payload : r.payload = record.payload

/-- A frame has a number and the records of the declared frame with that number;
without such a declaration it is empty. -/
structure Frame.CompiledFrom (extent : Extent) (animation : Config.Animation) (place : Nat)
    (frame : Frame) : Prop where
  number : frame.number = place
  records : ∀ declared ∈ animation.frames, declared.index.toNat = place →
    List.Forall₂ (FrameRecord.CompiledFrom (frameSymbol animation.name place) extent)
      declared.records frame.records
  filled : (∀ declared ∈ animation.frames, declared.index.toNat ≠ place) → frame.records = []

/-- The frames of an animation from the first one on, at least up to the last
declared one, are terminated, and their payloads have the widths of the format. -/
structure Compiled.CompiledFrom (config : Config) (animation : Config.Animation)
    (compiled : Compiled) : Prop where
  name : compiled.name = animation.name
  frames : ∀ (i : Nat) (frame : Frame), compiled.frames[i]? = some frame →
    frame.CompiledFrom config.extent animation (i + 1)
  complete : ∀ declared ∈ animation.frames, 1 ≤ declared.index.toNat ∧
    declared.index.toNat ≤ compiled.frames.length
  terminated : ∀ frame ∈ compiled.frames, frame.isTerminated = true
  payloads : ∀ frame ∈ compiled.frames, ∀ r ∈ frame.records,
    r.payload.length = Validation.payloadWidth config.frameFormat r.op

section Frames

variable {extent : Extent} {animation : Config.Animation}

/-- Records with valid addresses are compiled one by one. -/
theorem forall₂_encodeRecords {symbol : String} {records : List PixelRecord}
    (h : ∀ record ∈ records, record.address.Valid extent) :
    List.Forall₂ (FrameRecord.CompiledFrom symbol extent) records
      (encodeRecords symbol extent records) := by
  refine Assembly.forall₂_filterMap_toOption fun record hrecord => ?_
  obtain ⟨r, hr⟩ := exists_encodeRecord_iff.mpr (h record hrecord)
  refine ⟨r, hr, ?_⟩
  obtain ⟨⟨mode, address⟩, haddress, he⟩ := bind_eq_ok_iff.mp hr
  obtain rfl := Except.ok.inj he
  exact ⟨haddress, rfl, rfl⟩

/-- Where every frame counts, the frame at a place is the one that is declared
with the number of the place, or an empty one. -/
theorem compiledFrom_of_getElem?_framesOf (h : kept animation = animation.frames)
    (hn : (animation.frames.map (·.index)).Nodup)
    (haddresses : ∀ declared ∈ animation.frames, ∀ record ∈ declared.records,
      record.address.Valid extent)
    {i : Nat} {frame : Frame} (hframe : (framesOf extent animation)[i]? = some frame) :
    frame.CompiledFrom extent animation (i + 1) := by
  rw [framesOf, h, List.getElem?_map] at hframe
  obtain ⟨place, hplace, hframe⟩ := Option.map_eq_some_iff.mp hframe
  obtain ⟨hi, rfl⟩ := List.getElem?_eq_some_iff.mp hplace
  rw [List.getElem_range] at hframe
  dsimp only at hframe
  split at hframe
  next found hfound =>
    have hmem := List.mem_of_find?_eq_some hfound
    have hnumber : found.index.toNat = i + 1 := of_decide_eq_true (List.find?_some hfound :)
    subst hframe
    refine ⟨rfl, fun declared hdeclared he => ?_, fun hnone => absurd hnumber (hnone found hmem)⟩
    have hsame : declared = found :=
      List.inj_on_of_nodup_map hn hdeclared hmem (UInt32.toNat_inj.mp (he.trans hnumber.symm))
    subst hsame
    exact forall₂_encodeRecords (haddresses declared hdeclared)
  next hfound =>
    subst hframe
    refine ⟨rfl, fun declared hdeclared he => ?_, fun _ => rfl⟩
    exact absurd (decide_eq_true he) (List.find?_eq_none.mp hfound declared hdeclared)

end Frames

/-- A valid animation is compiled frame by frame. -/
theorem compiledFrom_compile {config : Config} {animation : Config.Animation}
    (h : animation.Valid config) :
    (compile config.extent animation).CompiledFrom config animation := by
  have hkept := kept_eq_self h.numbers h.distinct
  have hclean := Clean.flatMap_iff.mp (clean_animation_iff.mpr h).2
  refine ⟨rfl, fun i frame hframe => ?_, fun declared hdeclared => ?_, fun frame hframe => ?_,
    fun frame hframe => ?_⟩
  · refine compiledFrom_of_getElem?_framesOf hkept h.distinct ?_ hframe
    exact fun declared hd record hr => (h.records declared hd record hr).address
  · refine ⟨(h.numbers declared hdeclared).1, ?_⟩
    have hframes : (compile config.extent animation).frames =
        framesOf config.extent animation := rfl
    rw [hframes, framesOf, List.length_map, List.length_range, hkept]
    exact PixelMap.le_greatest (List.mem_map_of_mem hdeclared)
  · exact Frame.isTerminated_iff.mpr (clean_frameFindings_iff.mp (hclean frame hframe)).1
  · exact (clean_frameFindings_iff.mp (hclean frame hframe)).2

/-- A terminated frame whose payloads have the widths of a format is read back,
whatever follows it, and it ends nowhere but at its last byte. Where the report on a
configuration has no errors, all frames of the compiled animations are of this kind
for the format of the configuration, and they have the declared records in order. -/
theorem frames_read_back :
    (∀ (format : FrameFormat) (frame : Frame), frame.isTerminated = true →
      (∀ r ∈ frame.records, r.payload.length = Validation.payloadWidth format r.op) →
      (∀ rest, readFrame format (frame.bytes ++ rest) = some (frame.records, rest)) ∧
        ∀ front back, frame.bytes = front ++ back → back ≠ [] → readFrame format front = none) ∧
    ∀ config : Config, config.check.hasErrors = false →
      List.Forall₂ (fun animation compiled => compiled.CompiledFrom config animation)
        config.animations (Assembly.build config).animations := by
  refine ⟨fun format frame h hpayload => ⟨Frame.readFrame_bytes h hpayload,
    fun front back => Frame.readFrame_eq_none h hpayload⟩, fun config h => ?_⟩
  have hw := Config.WellFormed.of_check h
  have hanimations : (Assembly.build config).animations = config.distinctAnimations.map
      (compile (Assembly.extentOf (config.pixels.map PixelMap.build))) := rfl
  rw [hanimations, extentOf_build, hw.distinctNames.distinctAnimations,
    List.forall₂_map_right_iff]
  exact List.forall₂_same.mpr fun animation hmem =>
    compiledFrom_compile (hw.animations animation hmem)

/-- A frame with one record is read back in front of a further byte, and the animated sample
has a blank frame before its declared one. -/
theorem frames_read_back_animated :
    Frame.isTerminated ⟨2, [⟨.index, [3, 0, 0, 0], .set, [1, 0, 3]⟩]⟩ = true ∧
      readFrame {} [1, 3, 0, 0, 0, 0, 1, 0, 3, 0, 7] =
        some ([⟨.index, [3, 0, 0, 0], .set, [1, 0, 3]⟩], [7]) ∧
      Config.animated.check.hasErrors = false ∧
      List.Forall₂ (fun animation compiled => compiled.CompiledFrom Config.animated animation)
        Config.animated.animations (Assembly.build Config.animated).animations :=
  have h := frames_read_back
  ⟨by decide, (h.1 {} ⟨2, [⟨.index, [3, 0, 0, 0], .set, [1, 0, 3]⟩]⟩ (by decide) (by decide)).1 [7],
    Config.check_animated, h.2 _ Config.check_animated⟩

end Keymap.Animation
