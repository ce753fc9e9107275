import Keymap.Proofs.Generation
import Keymap.Proofs.InStep
import Keymap.Proofs.Rearrangement.Sections

/-!
# Rearranged configurations

A configuration is rearranged if the triggers that its layers bind, its key positions, its
pixels and the frames of its animations stand in another order. If there are no findings
on a configuration and its key positions have distinct scan codes, then no two
declarations meet at one place of a table, so that all tables are the same. What the
checks and the listings read of the declarations themselves is not rearranged, or is read
one by one.
-/

namespace Keymap

/-- The same declarations, with the triggers that layers bind, the positions, the pixels
and the frames of animations in any order. -/
structure Config.Rearranged (config other : Config) : Prop where
  layers : List.Forall₂ Layer.Rearranged config.layers other.layers
  positions : config.positions.Perm other.positions
  pixels : Option.Rel PixelSection.Rearranged config.pixels other.pixels
  animations : List.Forall₂ Animation.Rearranged config.animations other.animations
  rest : other = { config with
    layers := other.layers, positions := other.positions, pixels := other.pixels,
    animations := other.animations }

/-- The description of layers does not turn on the triggers that are declared for them. -/
theorem Description.map_layer_rearranged {layers others : List Config.Layer}
    (h : List.Forall₂ Config.Layer.Rearranged layers others) (symbols : SymbolIndex)
    (rows : List LayerRow) :
    (rows.zip others).map (fun (row, declared) => layer symbols row declared) =
      (rows.zip layers).map fun (row, declared) => layer symbols row declared := by
  induction h generalizing rows with
  | nil => rfl
  | cons hlayer _ ih =>
    cases rows with
    | nil => rfl
    | cons row rest =>
      rw [List.zip_cons_cons, List.zip_cons_cons, List.map_cons, List.map_cons, ih]
      simp only [layer, hlayer.sources]

namespace Config

/-- The tables of a configuration are not found fault with, and no two positions are for
one scan code. -/
structure Faultless (config : Config) : Prop where
  check : config.check = .empty
  positions : (config.positions.map (·.scanCode)).Nodup

namespace Faultless

variable {config : Config} (h : config.Faultless)
include h

/-- Neither the pass that makes the tables nor the one over them finds anything. -/
theorem findings : (Assembly.build config).recorded = [] ∧
    Validation.findings (Assembly.build config) = [] := by
  have hnone := congrArg Report.findings h.check
  exact List.append_eq_nil_iff.mp hnone

theorem wellFormed : config.WellFormed := .of_check_eq_empty h.check

/-- No two pixels have one number or one scan code. -/
theorem pixels {declared : PixelSection} (hd : config.pixels = some declared) :
    (declared.pixels.map (·.id)).Nodup ∧
      ((declared.pixels.filterMap (·.scanCode)).map (·.toNat)).Nodup :=
  distinct_pixels_of_check h.check hd

/-- The animations are not found fault with. -/
theorem animations {animation : Animation} (ha : animation ∈ config.animations) :
    Animation.findings (Assembly.extentOf (config.pixels.map PixelMap.build)) animation = [] := by
  have hrecorded := h.findings.1
  rw [build_recorded, h.wellFormed.distinctNames.distinctAnimations, List.append_eq_nil_iff,
    List.flatMap_eq_nil_iff] at hrecorded
  exact hrecorded.2 animation ha

end Faultless

namespace Rearranged

variable {config other : Config} (h : config.Rearranged other) (hf : config.Faultless)
include h

/-- The animations have the same names in the same order. -/
theorem map_name_animations :
    config.animations.map (·.name) = other.animations.map (·.name) :=
  map_eq_map_iff_forall₂.mpr (h.animations.imp fun _ _ ha => ha.name.symm)

theorem maxScanCode : other.maxScanCode = config.maxScanCode := by rw [h.rest]

theorem distinctTriggers : other.distinctTriggers = config.distinctTriggers := by
  rw [h.rest]
  rfl

theorem distinctResults : other.distinctResults = config.distinctResults := by
  rw [h.rest]
  rfl

/-- The tables of layers are the same. -/
theorem layerRows (scope : Assembly.TriggerScope) (triggers : List Trigger) :
    other.layers.map (Assembly.layerRow scope triggers) =
      config.layers.map (Assembly.layerRow scope triggers) := by
  rw [eq_comm, map_eq_map_iff_forall₂]
  exact h.layers.imp fun _ _ hl => (Assembly.layerRow_rearranged hl triggers scope).symm

theorem rotationTable (triggers : List Trigger) :
    Assembly.rotationTable triggers other.layers = Assembly.rotationTable triggers config.layers :=
  Assembly.rotationTable_congr (Assembly.mem_rotations_rearranged h.layers)

/-- The position tables are the same. -/
theorem keyPositions (hn : (config.positions.map (·.scanCode)).Nodup) :
    KeyPositions.build other.positions other.maxScanCode =
      KeyPositions.build config.positions config.maxScanCode := by
  rw [h.maxScanCode]
  exact KeyPositions.build_perm h.positions hn _

include hf

/-- What is the same for rearranged animations is the same for those of a rearranged
configuration. -/
theorem map_distinctAnimations {value : Animation → β}
    (hvalue : ∀ a b, a ∈ config.animations → a.Rearranged b → value a = value b) :
    other.distinctAnimations.map value = config.distinctAnimations.map value := by
  have hdistinct := hf.wellFormed.distinctNames
  have hother : other.distinctAnimations = other.animations := by
    refine firstsBy_nil_eq_self ?_
    rw [← h.map_name_animations]
    exact hdistinct.animations
  rw [hother, hdistinct.distinctAnimations, eq_comm, map_eq_map_iff_forall₂]
  exact forall₂_of_forall_mem (fun _ ha => ha) h.animations hvalue

/-- The tables of pixels are the same. -/
theorem map_build_pixels :
    other.pixels.map PixelMap.build = config.pixels.map PixelMap.build := by
  have hdistinct := @hf.pixels
  have hrel := h.pixels
  -- only of two sections by themselves can the relation be taken apart
  revert hdistinct hrel
  generalize config.pixels = declared
  generalize other.pixels = rearranged
  intro hdistinct hrel
  cases hrel with
  | none => rfl
  | some hpixels =>
    obtain ⟨hids, hcodes⟩ := hdistinct rfl
    exact congrArg some (PixelMap.build_rearranged hpixels hids hcodes)

/-- The names that count are the same. -/
theorem map_name_distinctAnimations :
    other.distinctAnimations.map (·.name) = config.distinctAnimations.map (·.name) :=
  h.map_distinctAnimations hf fun _ _ _ ha => ha.name.symm

/-- The compiled animations are the same. -/
theorem compiled :
    other.distinctAnimations.map
        (Animation.compile (Assembly.extentOf (config.pixels.map PixelMap.build))) =
      config.distinctAnimations.map
        (Animation.compile (Assembly.extentOf (config.pixels.map PixelMap.build))) :=
  h.map_distinctAnimations hf fun _ _ hmem ha =>
    (Animation.compile_rearranged ha (hf.animations hmem)).symm

/-- The settings tables are the same. -/
theorem settingsTable : other.settingsTable = config.settingsTable := by
  have hnames := h.map_name_distinctAnimations hf
  have hinitial : ∀ names, other.distinctAnimations.map (Assembly.initialRow names) =
      config.distinctAnimations.map (Assembly.initialRow names) := fun names =>
    h.map_distinctAnimations hf fun _ _ _ ha => by
      rw [Assembly.initialRow, Assembly.initialRow, ha.name, ha.settings]
  have hdeclared : other.animationSettings = config.animationSettings := by rw [h.rest]
  rw [Config.settingsTable, Config.settingsTable, hnames, h.distinctTriggers, Assembly.settingsRows,
    Assembly.settingsRows, hdeclared]
  exact congrArg (· ++ _) (hinitial _)

/-- The scopes of results are the same. -/
theorem resultScope : other.resultScope = config.resultScope := by
  have hlength := h.layers.length_eq.symm
  rw [Config.resultScope, Config.resultScope, h.settingsTable hf, Assembly.resultScope,
    Assembly.resultScope, hlength, h.rest]
  rfl

/-- The scopes of triggers are the same. -/
theorem triggerScope : Assembly.triggerScope other = Assembly.triggerScope config := by
  have hlength := h.layers.length_eq.symm
  rw [Assembly.triggerScope, Assembly.triggerScope, h.map_name_distinctAnimations hf, hlength,
    h.rest]
  rfl

/-- All tables of a rearranged configuration are the same. -/
theorem build : Assembly.build other =
    { Assembly.build config with
      config := other, recorded := (Assembly.build other).recorded } := by
  have hcapabilities : other.distinctCapabilities = config.distinctCapabilities := by
    rw [h.rest]
    rfl
  have hoffsets : other.offsets = config.offsets := by
    rw [h.rest]
    rfl
  have hpixels := h.map_build_pixels hf
  have hsymbols : Assembly.symbolsOf other (other.pixels.map PixelMap.build) =
      Assembly.symbolsOf config (config.pixels.map PixelMap.build) := by
    rw [Assembly.symbolsOf, Assembly.symbolsOf, hcapabilities, h.distinctResults,
      h.distinctTriggers, hpixels, h.map_name_distinctAnimations hf]
  have hshared : Assembly.shareAll (Assembly.triggerScope other)
        (other.distinctResults.map (·.name)) [] other.distinctTriggers =
      Assembly.shareAll (Assembly.triggerScope config)
        (config.distinctResults.map (·.name)) [] config.distinctTriggers := by
    rw [h.triggerScope hf, h.distinctResults, h.distinctTriggers]
  refine Assembly.ext rfl hsymbols hcapabilities hoffsets ?results (congrArg Prod.fst hshared)
    (congrArg Prod.snd hshared) ?layers ?rotation (h.keyPositions hf.positions) hpixels
    ?animations (h.settingsTable hf) rfl
  case results =>
    rw [build_results, h.distinctResults, h.resultScope hf]
    rfl
  case layers =>
    rw [build_layers, h.triggerScope hf, h.distinctTriggers]
    exact h.layerRows _ _
  case rotation =>
    have hbuild : (Assembly.build other).rotation =
        Assembly.rotationTable other.distinctTriggers other.layers := rfl
    rw [hbuild, h.distinctTriggers, h.rotationTable]
    rfl
  case animations =>
    rw [Assembly.animations_build, hpixels, h.compiled hf]
    rfl

/-- Nothing is recorded while the tables of a rearranged configuration are built. -/
theorem recorded : (Assembly.build other).recorded = [] := by
  have hnone := hf.findings.1
  have hnames : Assembly.nameFindings other = Assembly.nameFindings config := by
    rw [Assembly.nameFindings, ← h.map_name_animations, h.rest]
    rfl
  have hsettings : other.animationSettings = config.animationSettings := by rw [h.rest]
  have hanimations : other.distinctAnimations.flatMap
        (Animation.findings (Assembly.extentOf (config.pixels.map PixelMap.build))) =
      config.distinctAnimations.flatMap
        (Animation.findings (Assembly.extentOf (config.pixels.map PixelMap.build))) := by
    rw [List.flatMap_def, List.flatMap_def]
    refine congrArg List.flatten (h.map_distinctAnimations hf fun _ _ hmem ha => ?_)
    rw [hf.animations hmem, Animation.findings_rearranged ha (hf.animations hmem)]
  rw [build_recorded] at hnone ⊢
  rw [hnames, h.map_name_distinctAnimations hf, h.distinctTriggers, hsettings, h.distinctResults,
    h.resultScope hf, h.triggerScope hf, h.map_build_pixels hf, hanimations]
  simp only [List.append_eq_nil_iff] at hnone ⊢
  obtain ⟨⟨hbefore, hbindings⟩, hafter⟩ := hnone
  exact ⟨⟨hbefore, Assembly.flatMap_layerFindings_rearranged h.layers hbindings⟩, hafter⟩

/-- The checks of pixels find nothing. -/
theorem pixelFindings (recorded : List Finding) : Validation.pixelIndices other = [] ∧
    Validation.pixels { Assembly.build config with config := other, recorded := recorded } =
      [] := by
  have hchecks := hf.findings.2
  simp only [Validation.findings, List.append_eq_nil_iff] at hchecks
  have hindices : Validation.pixelIndices config = [] := hchecks.1.1.2
  have hpixels : Validation.pixels (Assembly.build config) = [] := hchecks.1.2
  rw [Validation.pixelIndices] at hindices ⊢
  rw [Validation.pixels, Assembly.pixels_build] at hpixels ⊢
  rw [Assembly.config_build] at hpixels
  rw [h.maxScanCode]
  have hrel := h.pixels
  revert hrel hindices hpixels
  generalize config.pixels = declared
  generalize other.pixels = rearranged
  intro hindices hpixels hrel
  cases hrel with
  | none => exact ⟨rfl, rfl⟩
  | @some declared rearranged hrel =>
    simp only [Option.map_some, List.append_eq_nil_iff] at hindices hpixels ⊢
    obtain ⟨⟨⟨⟨hchannels, hlayout⟩, hcodes⟩, hscanned⟩, hdisplay⟩ := hpixels
    have hlayout' : Validation.bufferLayout rearranged (PixelMap.build declared) = [] := by
      rw [Validation.bufferLayout, hrel.buffers]
      exact hlayout
    exact ⟨Validation.pixelNumbers_perm hrel.pixels hindices,
      ⟨⟨⟨hchannels, hlayout'⟩, Validation.pixelScanCodes_perm hrel.pixels hcodes⟩, hscanned⟩,
      hdisplay⟩

omit hf in
/-- Changes have the same payload bytes. -/
theorem frameFormat : other.frameFormat = config.frameFormat := by
  have hrel := h.pixels
  rw [Config.frameFormat, Config.frameFormat]
  revert hrel
  generalize config.pixels = declared
  generalize other.pixels = rearranged
  intro hrel
  cases hrel with
  | none => rfl
  | some hrel => exact hrel.frameFormat

/-- The checks of the tables of a rearranged configuration find nothing. -/
theorem findings : Validation.findings (Assembly.build other) = [] := by
  have hchecks := hf.findings.2
  have hword : other.stateWordSize = config.stateWordSize := by rw [h.rest]
  obtain ⟨hindices, hpixels⟩ := h.pixelFindings hf (Assembly.build other).recorded
  rw [h.build hf]
  simp only [Validation.findings, List.append_eq_nil_iff] at hchecks ⊢
  obtain ⟨⟨⟨⟨⟨⟨⟨⟨⟨hgreatest, hresolved⟩, hrange⟩, hcalls⟩, hwords⟩, hboards⟩, hpositions⟩, _⟩, _⟩,
    hframes⟩ := hchecks
  refine ⟨⟨⟨⟨⟨⟨⟨⟨⟨?_, hresolved⟩, ?_⟩, hcalls⟩, ?_⟩, ?_⟩, ?_⟩, hindices⟩, hpixels⟩, ?_⟩
  · rw [Validation.maxScanCode, h.maxScanCode]
    exact hgreatest
  · rw [Validation.scanCodeRange, h.maxScanCode]
    exact hrange
  · rw [Validation.stateWordSize, hword]
    exact hwords
  · rw [Validation.interconnect, h.maxScanCode]
    exact hboards
  · exact Validation.keyPositions_perm h.positions h.maxScanCode hpositions
  · have hformat : Assembly.frameFormat { Assembly.build config with
        config := other, recorded := (Assembly.build other).recorded } =
        (Assembly.build config).frameFormat := h.frameFormat
    rw [Validation.frames, hformat]
    exact hframes

/-- There are no findings on a rearranged configuration. -/
theorem check : other.check = .empty := by
  rw [Config.check, Assembly.validate, h.recorded hf, h.findings hf]
  rfl

/-- The listings of a rearranged configuration are the same. -/
theorem text? (p : Placeholder) :
    p.text? (Assembly.build other) = p.text? (Assembly.build config) := by
  have hconfig := Assembly.config_build config
  rw [h.build hf, h.rest]
  generalize (Assembly.build other).recorded = recorded
  generalize Assembly.build config = assembly at hconfig ⊢
  subst hconfig
  cases p <;> rfl

/-- The description of a rearranged configuration is the same. -/
theorem describe : (Assembly.build other).describe = (Assembly.build config).describe := by
  have hdefines : other.defines = config.defines := by rw [h.rest]
  have hconfig := Assembly.config_build config
  rw [h.build hf]
  generalize (Assembly.build other).recorded = recorded
  generalize Assembly.build config = assembly at hconfig ⊢
  subst hconfig
  have hlayers : Description.layers { assembly with config := other, recorded := recorded } =
      Description.layers assembly :=
    congrArg Json.array (Description.map_layer_rearranged h.layers _ _)
  rw [Assembly.describe, Assembly.describe, hlayers, hdefines]
  rfl

/-- The outputs of a rearranged configuration are the same for all templates. -/
theorem outputs (templates : Templates) :
    (Assembly.build other).outputs templates = (Assembly.build config).outputs templates := by
  have hfill : ∀ name, Template.fill name (Assembly.build other) =
      Template.fill name (Assembly.build config) := by
    intro name
    funext segment
    cases segment with
    | literal _ => rfl
    | slot p => rw [Template.fill, Template.fill, h.text? hf]
  have hfilled : ∀ template : Template, template.filled (Assembly.build other) =
      template.filled (Assembly.build config) := by
    intro template
    rw [Template.filled, Template.filled, Template.render, Template.render, hfill]
  have hpixels : (Assembly.build other).pixels = (Assembly.build config).pixels :=
    h.map_build_pixels hf
  rw [Assembly.outputs, Assembly.outputs, hfilled, hfilled, hfilled, hpixels, h.describe hf]

/-- A rearranged configuration generates the same. -/
theorem generate (templates : Templates) :
    other.generate templates = config.generate templates := by
  rw [Config.generate, Config.generate, Assembly.generate, Assembly.generate, h.outputs hf]
  rw [← Config.check, ← Config.check, h.check hf, hf.check]

end Rearranged

/-- If there are no findings on a configuration and its positions have distinct scan codes,
then the triggers that its layers bind, its positions, its pixels and the frames of its
animations may stand in any order, and the triggers may be bound again: there are no
findings then either, and with all templates the outputs, or the failure, are the same. -/
theorem generate_rearranged {config other : Config} (hcheck : config.check = .empty)
    (hpositions : (config.positions.map (·.scanCode)).Nodup) (h : config.Rearranged other) :
    other.check = .empty ∧
      ∀ templates, other.generate templates = config.generate templates :=
  ⟨h.check ⟨hcheck, hpositions⟩, h.generate ⟨hcheck, hpositions⟩⟩

/-- Two keys with lights, of which one fades. -/
def glowing : Config :=
  { animated with
    positions := [⟨2, .zero, .zero, .zero, .zero, .zero, .zero⟩, .origin 3]
    pixels := some
      { buffers := [⟨6, 8, none, "LED_Buffer"⟩]
        pixels := [⟨1, [0, 1, 2], some 2⟩, ⟨2, [3, 4, 5], some 3⟩]
        display := [[1, 2]]
        ledBufferStruct := none
        frameFormat := {} }
    animations := [⟨"fade", {}, [⟨2, [⟨.index 3, .set, [1, 0, 3]⟩]⟩, ⟨1, []⟩]⟩] }

/-- The same in another order, with one trigger bound again. -/
def shuffled : Config :=
  { glowing with
    layers := [⟨"default", [], ["either", "again", "either"]⟩, ⟨"function", [], []⟩]
    positions := glowing.positions.reverse
    pixels := glowing.pixels.map fun declared => { declared with pixels := declared.pixels.reverse }
    animations := [⟨"fade", {}, [⟨1, []⟩, ⟨2, [⟨.index 3, .set, [1, 0, 3]⟩]⟩]⟩] }

/-- The shuffled configuration is a rearrangement in all four sections. -/
theorem glowing_rearranged : glowing.Rearranged shuffled where
  layers := by
    refine .cons ⟨rfl, rfl, fun name => ?_⟩ (.cons ⟨rfl, rfl, fun _ => Iff.rfl⟩ .nil)
    simp only [List.mem_cons, List.not_mem_nil, or_false]
    tauto
  positions := (List.reverse_perm _).symm
  pixels := .some ⟨rfl, (List.reverse_perm _).symm, rfl, rfl, rfl⟩
  animations := .cons ⟨rfl, rfl, .swap _ _ _⟩ .nil
  rest := rfl

/-- The outputs are the same where pixels, positions and frames are declared in the opposite
order, and a layer has its triggers in another order and one of them twice. -/
theorem generate_shuffled : (glowing.check = .empty ∧ (glowing.positions.map (·.scanCode)).Nodup ∧
    glowing.Rearranged shuffled) ∧ shuffled.check = .empty ∧
      ∀ templates, shuffled.generate templates = glowing.generate templates :=
  have hcheck : glowing.check = .empty := by decide +kernel
  ⟨⟨hcheck, by decide, glowing_rearranged⟩,
    generate_rearranged hcheck (by decide) glowing_rearranged⟩

end Config

end Keymap
