import Keymap.Proofs.Acceptance
import Keymap.Proofs.InStep
import Keymap.Proofs.RotationTable

/-!
# Rearranged sections

The triggers that a layer binds, the key positions, the pixels and the frames of an
animation may stand in any order. Each table of these sections is filled with a rule for
the case that several declarations meet at one place: the first counts, or the last, or
the greatest. Where no declaration is found fault with there is at most one for every
place, and then the table does not turn on their order. A rearranged section is not found
fault with either.
-/

namespace Keymap

namespace Config

/-- A layer that binds the same triggers, in any order and number. -/
structure Layer.Rearranged (layer other : Layer) : Prop where
  name : other.name = layer.name
  sources : other.sources = layer.sources
  triggers : ∀ name, name ∈ other.triggers ↔ name ∈ layer.triggers

/-- A pixel section with the same pixels in any order. -/
structure PixelSection.Rearranged (declared other : PixelSection) : Prop where
  buffers : other.buffers = declared.buffers
  pixels : declared.pixels.Perm other.pixels
  display : other.display = declared.display
  ledBufferStruct : other.ledBufferStruct = declared.ledBufferStruct
  frameFormat : other.frameFormat = declared.frameFormat

/-- An animation with the same frames in any order. -/
structure Animation.Rearranged (animation other : Animation) : Prop where
  name : other.name = animation.name
  settings : other.settings = animation.settings
  frames : animation.frames.Perm other.frames

end Config

namespace Assembly

open Config (Layer Trigger)

section Layers

variable {layer other : Layer} (h : layer.Rearranged other) (triggers : List Trigger)
include h

/-- A rearranged layer binds the same triggers. -/
theorem mem_bound_rearranged {binding : Nat × Trigger} :
    binding ∈ bound triggers other ↔ binding ∈ bound triggers layer := by
  simp only [bound, List.mem_filterMap, h.triggers]

/-- A rearranged layer has the same row, because the lists of a row are ordered and hold
each trigger once. -/
theorem layerRow_rearranged (scope : TriggerScope) :
    layerRow scope triggers other = layerRow scope triggers layer := by
  have hmap : (layerRow scope triggers other).map = (layerRow scope triggers layer).map := by
    refine ScanMap.Ordered.eq_of_files (ordered_layerRow ..) (ordered_layerRow ..) ?_
    intro uid index
    rw [files_layerRow, files_layerRow]
    simp only [mem_bound_rearranged h]
  have hlabel : layerLabel other = layerLabel layer := by
    rw [layerLabel, h.sources, h.name, layerLabel]
  rw [layerRow, layerRow, LayerRow.mk.injEq]
  exact ⟨h.name, hlabel, hmap⟩

/-- Where all triggers of a layer are declared, so are those of a rearranged one. -/
theorem layerFindings_rearranged (hnone : layerFindings triggers layer = []) :
    layerFindings triggers other = [] := by
  rw [layerFindings, List.map_eq_nil_iff, List.filter_eq_nil_iff] at hnone ⊢
  intro name hname
  exact hnone name ((h.triggers name).mp hname)

end Layers

/-- Where all triggers of some layers are declared, so are those of rearranged ones. -/
theorem flatMap_layerFindings_rearranged {layers others : List Layer} {triggers : List Trigger}
    (h : List.Forall₂ Layer.Rearranged layers others)
    (hnone : layers.flatMap (layerFindings triggers) = []) :
    others.flatMap (layerFindings triggers) = [] := by
  rw [List.flatMap_eq_nil_iff] at hnone ⊢
  have hothers : List.Forall₂ (fun _ other => layerFindings triggers other = []) layers others :=
    forall₂_of_forall_mem hnone h fun _ _ hlayer hr => layerFindings_rearranged hr _ hlayer
  exact forall_mem_of_forall₂ (fun _ _ hother => hother) hothers.flip

/-- The rotations of rearranged layers are the same. -/
theorem mem_rotations_rearranged {layers others : List Layer} {triggers : List Trigger}
    (h : List.Forall₂ Layer.Rearranged layers others) (r : UInt8 × UInt8) :
    r ∈ rotations triggers others ↔ r ∈ rotations triggers layers := by
  induction h with
  | nil => rfl
  | cons hlayer _ ih =>
    rw [rotations, rotations, List.flatMap_cons, List.flatMap_cons, List.mem_append,
      List.mem_append]
    refine or_congr ?_ ih
    simp only [List.mem_flatMap, mem_bound_rearranged hlayer]

end Assembly

section Positions

variable {positions others : List Config.Position} (h : positions.Perm others)
include h

/-- Where scan codes are distinct, the position of a key is found in every order. -/
theorem KeyPositions.lastFor_perm (hn : (positions.map (·.scanCode)).Nodup)
    (scanCode : UInt16) : lastFor others scanCode = lastFor positions scanCode := by
  have hnone : ∀ {list : List Config.Position}, (list.map (·.scanCode)).Nodup →
      (list.filter fun p => decide (p.scanCode = scanCode)).Pairwise fun _ _ => False := by
    intro list hlist
    refine List.Pairwise.imp_of_mem ?_ (List.Pairwise.filter _ (List.pairwise_map.mp hlist))
    intro p q hp hq hne
    have hscan := of_decide_eq_true (List.mem_filter.mp hp).2
    have hscan' := of_decide_eq_true (List.mem_filter.mp hq).2
    exact hne (hscan.trans hscan'.symm)
  have hn' : (others.map (·.scanCode)).Nodup := (h.map _).nodup_iff.mp hn
  rw [lastFor, lastFor]
  refine congrArg List.getLast? (Eq.symm ?_)
  exact (h.filter _).eq_of_pairwise (fun _ _ _ _ hf => hf.elim) (hnone hn) (hnone hn')

/-- Where scan codes are distinct, the position table does not turn on the order. -/
theorem KeyPositions.build_perm (hn : (positions.map (·.scanCode)).Nodup) (max : UInt16) :
    build others max = build positions max := by
  have hvalid : (inRange positions max).Perm (inRange others max) := h.filter _
  have hdistinct : ((inRange positions max).map (·.scanCode)).Nodup :=
    hn.sublist (List.Sublist.map _ List.filter_sublist)
  have hgreatest : PixelMap.greatest ((inRange others max).map (·.scanCode.toNat)) =
      PixelMap.greatest ((inRange positions max).map (·.scanCode.toNat)) :=
    PixelMap.greatest_congr fun _ => (hvalid.map _).mem_iff.symm
  rw [PixelMap.greatest, PixelMap.greatest] at hgreatest
  simp only [build, hgreatest, lastFor_perm hvalid hdistinct]

end Positions

namespace PixelMap

open Config (Pixel PixelSection)

variable {pixels others : List Pixel}

/-- The scan codes that lead to pixels are those of the pixels, without zero. -/
theorem map_fst_scanned (pixels : List Pixel) :
    (scanned pixels).map (·.1) =
      ((pixels.filterMap (·.scanCode)).map (·.toNat)).filter fun n => decide (0 < n) := by
  induction pixels with
  | nil => rfl
  | cons pixel rest ih =>
    rw [scanned] at ih ⊢
    cases hcode : pixel.scanCode with
    | none => simpa only [List.filterMap_cons, hcode] using ih
    | some code =>
      have hpos : 0 < code ↔ 0 < code.toNat := UInt16.lt_iff_toNat_lt
      by_cases hzero : 0 < code.toNat
      · simp only [List.filterMap_cons, hcode, hpos, hzero, if_true, List.map_cons, ih,
          List.filter_cons, decide_true]
      · simp only [List.filterMap_cons, hcode, hpos, hzero, if_false, List.map_cons, ih,
          List.filter_cons, decide_false, Bool.false_eq_true]

/-- Where numbers are distinct, the pixel table does not turn on the order. -/
theorem mappingOf_perm (h : pixels.Perm others) (hn : (pixels.map (·.id)).Nodup)
    (buffers : List PixelBuffer) : mappingOf buffers others = mappingOf buffers pixels := by
  have hfirst : ∀ id, firstWithId others id = firstWithId pixels id := fun id =>
    (find?_perm h id fun _ hp _ hq he =>
      List.inj_on_of_nodup_map hn hp hq (UInt16.toNat_inj.mp he)).symm
  have hgreatest : greatest (others.map (·.id.toNat)) = greatest (pixels.map (·.id.toNat)) :=
    greatest_congr fun _ => (h.map _).mem_iff.symm
  simp only [mappingOf, hgreatest, hfirst]

/-- Where scan codes are distinct, the table from scan codes to pixels does not turn on
the order. -/
theorem scanToPixelOf_perm (h : pixels.Perm others)
    (hn : ((pixels.filterMap (·.scanCode)).map (·.toNat)).Nodup) :
    scanToPixelOf others = scanToPixelOf pixels := by
  have hscanned : (scanned pixels).Perm (scanned others) := h.filterMap _
  have hdistinct : ((scanned pixels).map (·.1)).Nodup := by
    rw [map_fst_scanned]
    exact hn.sublist List.filter_sublist
  have hgreatest : greatest ((scanned others).map (·.1)) = greatest ((scanned pixels).map (·.1)) :=
    greatest_congr fun _ => (hscanned.map _).mem_iff.symm
  simp only [scanToPixelOf, hgreatest, lookup_perm hscanned hdistinct]

/-- Where numbers and scan codes of pixels are distinct, a rearranged pixel section has
the same tables. -/
theorem build_rearranged {declared other : PixelSection} (h : declared.Rearranged other)
    (hids : (declared.pixels.map (·.id)).Nodup)
    (hcodes : ((declared.pixels.filterMap (·.scanCode)).map (·.toNat)).Nodup) :
    build other = build declared := by
  simp only [build, h.buffers, h.display, h.ledBufferStruct, mappingOf_perm h.pixels hids,
    scanToPixelOf_perm h.pixels hcodes]

end PixelMap

namespace Validation

open Config (Pixel)

theorem isError_of_mem_pixelNumbers {seen : List UInt16} {pixels : List Pixel} :
    ∀ f ∈ pixelNumbers seen pixels, f.isError = true := by
  induction pixels generalizing seen with
  | nil => exact fun _ h => absurd h List.not_mem_nil
  | cons p rest ih =>
    rw [pixelNumbers]
    split
    next => exact List.forall_mem_cons.mpr ⟨rfl, ih⟩
    next =>
      split
      next => exact List.forall_mem_cons.mpr ⟨rfl, ih⟩
      next => exact ih

/-- The numbers of pixels are not found fault with exactly if none is zero and they are
distinct. -/
theorem pixelNumbers_eq_nil_iff {pixels : List Pixel} :
    pixelNumbers [] pixels = [] ↔ (∀ p ∈ pixels, p.id ≠ 0) ∧ (pixels.map (·.id)).Nodup := by
  rw [Clean.eq_nil_iff isError_of_mem_pixelNumbers, clean_pixelNumbers_iff, fresh_nil_iff]

/-- The scan codes of pixels are not found fault with, not even by a warning, exactly if
they are in range and fresh. -/
theorem pixelScanCodes_eq_nil_iff {max : Nat} {owners : List (Nat × Nat)} {pixels : List Pixel} :
    pixelScanCodes max owners pixels = [] ↔
      (∀ code ∈ pixels.filterMap (·.scanCode), code.toNat ≤ max) ∧
        Fresh (·.toNat) (owners.map (·.1)) (pixels.filterMap (·.scanCode)) := by
  induction pixels generalizing owners with
  | nil => simp [pixelScanCodes]
  | cons p rest ih =>
    rw [pixelScanCodes]
    split
    next hcode =>
      rw [List.filterMap_cons_none hcode]
      exact ih
    next code hcode =>
      rw [List.filterMap_cons_some hcode, List.forall_mem_cons, fresh_cons_iff]
      dsimp only
      split
      next first howner =>
        obtain ⟨before, after, rfl, _⟩ := List.lookup_eq_some_iff.mp howner
        simp
      next howner =>
        have hnew : code.toNat ∉ owners.map (·.1) := by
          intro hmem
          obtain ⟨entry, hentry, he⟩ := List.mem_map.mp hmem
          have hne := List.lookup_eq_none_iff.mp howner entry hentry
          exact bne_iff_ne.mp hne he.symm
        rw [List.append_eq_nil_iff, ih, List.map_cons, and_iff_right hnew, ← and_assoc]
        refine and_congr_left fun _ => and_congr_left fun _ => ?_
        by_cases hmax : max < code.toNat
        · simp [hmax]
        · simp [hmax, Nat.not_lt.mp hmax]

/-- Pixels whose numbers are not found fault with may stand in any order. -/
theorem pixelNumbers_perm {pixels others : List Pixel} (h : pixels.Perm others)
    (hnone : pixelNumbers [] pixels = []) : pixelNumbers [] others = [] := by
  obtain ⟨hzero, hdistinct⟩ := pixelNumbers_eq_nil_iff.mp hnone
  refine pixelNumbers_eq_nil_iff.mpr ⟨fun p hp => ?_, ?_⟩
  · exact hzero p (h.mem_iff.mpr hp)
  · exact (h.map (·.id)).nodup_iff.mp hdistinct

/-- Pixels whose scan codes are not found fault with may stand in any order. -/
theorem pixelScanCodes_perm {pixels others : List Pixel} (h : pixels.Perm others) {max : Nat}
    (hnone : pixelScanCodes max [] pixels = []) : pixelScanCodes max [] others = [] := by
  have hcodes := h.filterMap (·.scanCode)
  obtain ⟨hrange, hfresh⟩ := pixelScanCodes_eq_nil_iff.mp hnone
  refine pixelScanCodes_eq_nil_iff.mpr ⟨fun code hcode => ?_, ?_⟩
  · exact hrange code (hcodes.mem_iff.mpr hcode)
  · exact fresh_nil_iff.mpr ((hcodes.map _).nodup_iff.mp (fresh_nil_iff.mp hfresh))

/-- Positions that are not found fault with may stand in any order. -/
theorem keyPositions_perm {config other : Config} (h : config.positions.Perm other.positions)
    (hmax : other.maxScanCode = config.maxScanCode) (hnone : keyPositions config = []) :
    keyPositions other = [] := by
  rw [keyPositions, List.map_eq_nil_iff, List.filter_eq_nil_iff] at hnone ⊢
  intro p hp
  rw [hmax]
  exact hnone p (h.mem_iff.mpr hp)

end Validation

/-- A configuration that is not found fault with is well formed. -/
theorem Config.WellFormed.of_check_eq_empty {config : Config} (h : config.check = .empty) :
    config.WellFormed := by
  apply WellFormed.of_check
  rw [h]
  rfl

/-- Where nothing is found fault with, no two pixels have one number or one scan code. -/
theorem Config.distinct_pixels_of_check {config : Config} {declared : Config.PixelSection}
    (h : config.check = .empty) (hpixels : config.pixels = some declared) :
    (declared.pixels.map (·.id)).Nodup ∧
      ((declared.pixels.filterMap (·.scanCode)).map (·.toNat)).Nodup := by
  have hchecks : Validation.findings (Assembly.build config) = [] :=
    (List.append_eq_nil_iff.mp (congrArg Report.findings h)).2
  simp only [Validation.findings, List.append_eq_nil_iff] at hchecks
  have hsection : Validation.pixels (Assembly.build config) = [] := hchecks.1.2
  rw [Validation.pixels, Assembly.pixels_build, Assembly.config_build, hpixels] at hsection
  simp only [Option.map_some, List.append_eq_nil_iff] at hsection
  obtain ⟨⟨⟨_, hcodes⟩, _⟩, _⟩ := hsection
  have hvalid := (WellFormed.of_check_eq_empty h).pixels declared hpixels
  exact ⟨hvalid.distinct, fresh_nil_iff.mp (Validation.pixelScanCodes_eq_nil_iff.mp hcodes).2⟩

namespace Animation

theorem isError_of_mem_findingsFrom {extent : Extent} {name : String} {seen : List UInt32}
    {frames : List Config.Frame} :
    ∀ f ∈ findingsFrom extent name seen frames, f.isError = true := by
  have hrecords : ∀ symbol records, ∀ f ∈ recordFindings symbol extent records,
      f.isError = true := by
    intro symbol records f hf
    obtain ⟨record, _, hrecord⟩ := List.mem_filterMap.mp hf
    split at hrecord
    · cases hrecord
    · cases hrecord
      rfl
  induction frames generalizing seen with
  | nil => exact fun _ h => absurd h List.not_mem_nil
  | cons frame rest ih =>
    rw [findingsFrom]
    split
    next => exact List.forall_mem_cons.mpr ⟨rfl, ih⟩
    next =>
      split
      next => exact List.forall_mem_cons.mpr ⟨rfl, ih⟩
      next =>
        split
        next => exact List.forall_mem_cons.mpr ⟨rfl, ih⟩
        next => exact List.forall_mem_append.mpr ⟨hrecords _ _, ih⟩

/-- The frames of an animation are not found fault with exactly if their numbers are in
range and distinct and the addresses of their records are valid. -/
theorem findings_eq_nil_iff {extent : Extent} {animation : Config.Animation} :
    findings extent animation = [] ↔
      (∀ frame ∈ animation.frames, 1 ≤ frame.index.toNat ∧ frame.index.toNat ≤ 65535) ∧
        (animation.frames.map (·.index)).Nodup ∧
        ∀ frame ∈ animation.frames, ∀ record ∈ frame.records, record.address.Valid extent := by
  rw [findings, Clean.eq_nil_iff isError_of_mem_findingsFrom, clean_findingsFrom_iff,
    fresh_nil_iff]

variable {extent : Extent} {animation other : Config.Animation} (h : animation.Rearranged other)
  (hnone : findings extent animation = [])
include h hnone

/-- A rearranged animation is not found fault with if the animation is not. -/
theorem findings_rearranged : findings extent other = [] := by
  obtain ⟨hnumbers, hdistinct, haddresses⟩ := findings_eq_nil_iff.mp hnone
  have hdistinct' : (other.frames.map (·.index)).Nodup :=
    (h.frames.map (·.index)).nodup_iff.mp hdistinct
  refine findings_eq_nil_iff.mpr ⟨fun frame hframe => ?_, hdistinct', fun frame hframe => ?_⟩
  · exact hnumbers frame (h.frames.mem_iff.mpr hframe)
  · exact haddresses frame (h.frames.mem_iff.mpr hframe)

/-- A rearranged animation is compiled to the same frames. -/
theorem compile_rearranged : compile extent other = compile extent animation := by
  obtain ⟨hnumbers, hdistinct, _⟩ := findings_eq_nil_iff.mp hnone
  obtain ⟨hnumbers', hdistinct', _⟩ := findings_eq_nil_iff.mp (findings_rearranged h hnone)
  have hgreatest : PixelMap.greatest (other.frames.map (·.index.toNat)) =
      PixelMap.greatest (animation.frames.map (·.index.toNat)) :=
    PixelMap.greatest_congr fun _ => (h.frames.map _).mem_iff.symm
  have hfind : ∀ number : Nat, (other.frames.find? fun f => decide (f.index.toNat = number)) =
      animation.frames.find? fun f => decide (f.index.toNat = number) := fun number =>
    (find?_perm h.frames number fun _ hf _ hg he =>
      List.inj_on_of_nodup_map hdistinct hf hg (UInt32.toNat_inj.mp he)).symm
  simp only [compile, framesOf, kept_eq_self hnumbers hdistinct,
    kept_eq_self hnumbers' hdistinct', hgreatest, hfind, h.name]

end Animation

end Keymap
