import Keymap.Proofs.Acceptance.Animations
import Keymap.Proofs.Acceptance.Layers
import Keymap.Proofs.Acceptance.Pixels
import Keymap.Proofs.Acceptance.Ranges
import Keymap.Proofs.Guide.Calls
import Keymap.Proofs.Guide.Sharing

/-!
# Accepted configurations

The report on a configuration has no errors exactly when the configuration is
well formed. The findings that were recorded while the tables were built and
those of the checks that followed belong together table by table: where names
are distinct, both kinds of findings on a table are clean exactly when the
declarations of the table are valid.
-/

namespace Keymap

variable {config : Config}

section Tables

/-- The findings on results are clean exactly when all results are valid. -/
theorem clean_results_iff (hd : config.DistinctNames) (hn : config.settingsNames.Nodup) :
    Clean (config.distinctResults.flatMap config.resultScope.findings) ↔
      ∀ result ∈ config.results, result.Valid config := by
  rw [hd.distinctResults, Clean.flatMap_iff]
  exact forall₂_congr fun _ _ =>
    (Assembly.covers_resultScope hd hn).clean_findings_iff hd.capabilities hn

/-- The guides and the trigger table are those of the triggers that count. -/
theorem build_shareAll (hd : config.DistinctNames) :
    ((Assembly.build config).guides, (Assembly.build config).triggers) =
      Assembly.shareAll (Assembly.triggerScope config) (config.results.map (·.name)) []
        config.triggers := by
  have hbuild : ((Assembly.build config).guides, (Assembly.build config).triggers) =
      Assembly.shareAll (Assembly.triggerScope config) (config.distinctResults.map (·.name)) []
        config.distinctTriggers := rfl
  rw [hbuild, hd.distinctResults, hd.distinctTriggers]

/-- Every trigger has its row in the trigger table. -/
theorem rows_build (hd : config.DistinctNames) :
    List.Forall₂ (TriggerRow.RowOf (Assembly.triggerScope config) (config.results.map (·.name))
      (Assembly.build config).guides) config.triggers (Assembly.build config).triggers := by
  have hrows := @Assembly.rows_shareAll (Assembly.triggerScope config)
    (config.results.map (·.name)) [] config.triggers
  rwa [← build_shareAll hd] at hrows

/-- The findings on triggers and on their results are clean exactly when all
triggers are valid. -/
theorem clean_triggers_iff (hd : config.DistinctNames) :
    Clean (config.distinctTriggers.flatMap (Assembly.triggerScope config).findings) ∧
        Clean (Validation.resultReferences (Assembly.build config).triggers) ↔
      ∀ trigger ∈ config.triggers, trigger.Valid config := by
  have hresult : ∀ {results : List String} {triggers : List Config.Trigger}
      {rows : List TriggerRow}, List.Forall₂ (TriggerRow.RowOf (Assembly.triggerScope config)
        results (Assembly.build config).guides) triggers rows →
      ((∀ row ∈ rows, row.result.isSome = true) ↔
        ∀ trigger ∈ triggers, trigger.result ∈ results) := by
    intro results triggers rows h
    induction h with
    | nil => simp
    | cons hrow _ ih =>
      rw [List.forall_mem_cons, List.forall_mem_cons, ih, hrow.result, List.isSome_idxOf?]
  rw [hd.distinctTriggers, Clean.flatMap_iff, Validation.clean_resultReferences_iff,
    hresult (rows_build hd), ← forall₂_and]
  simp only [Assembly.TriggerScope.clean_findings_iff hd]
  refine forall₂_congr fun trigger _ => ?_
  constructor
  · rintro ⟨⟨hshaped, helements⟩, hresult⟩
    exact ⟨hshaped, helements, hresult⟩
  · rintro ⟨hshaped, helements, hresult⟩
    exact ⟨⟨hshaped, helements⟩, hresult⟩

/-- The size of the display is the one that is declared. -/
theorem extentOf_build (config : Config) :
    Assembly.extentOf (config.pixels.map PixelMap.build) = config.extent := by
  cases hp : config.pixels with
  | none =>
    rw [Config.extent, hp]
    rfl
  | some declared =>
    rw [Config.extent, hp]
    exact PixelMap.extent_build declared

/-- The findings on animations and on their frames are clean exactly when all
animations are valid. -/
theorem clean_animations_iff (hd : config.DistinctNames) :
    Clean (config.distinctAnimations.flatMap
        (Animation.findings (Assembly.extentOf (config.pixels.map PixelMap.build)))) ∧
        Clean (Validation.frames (Assembly.build config)) ↔
      ∀ animation ∈ config.animations, animation.Valid config := by
  have hformat : (Assembly.build config).frameFormat = config.frameFormat := rfl
  rw [Validation.frames, Assembly.animations_build, hformat, extentOf_build, hd.distinctAnimations,
    Clean.flatMap_iff, Clean.flatMap_iff, List.forall_mem_map, ← forall₂_and]
  exact forall₂_congr fun _ _ => Animation.clean_animation_iff

/-- The state word counts the rows of the tables exactly when it counts the declarations. -/
theorem clean_stateWord_iff (hd : config.DistinctNames) :
    Clean (Validation.stateWordSize (Assembly.build config)) ↔
      ∀ bits, config.stateWordSize = some bits →
        config.triggers.length ≤ min (2 ^ bits.toNat) (2 ^ 64 - 1) ∧
          config.results.length ≤ min (2 ^ bits.toNat) (2 ^ 64 - 1) := by
  rw [Validation.clean_stateWordSize_iff, Assembly.config_build, ← (rows_build hd).length_eq,
    config.build_results, List.length_map, hd.distinctResults]

/-- The findings on settings are clean exactly when all names are distinct and
the settings are valid. -/
theorem clean_settings_iff (hd : config.DistinctNames) :
    Clean (Assembly.settingsFindings (config.distinctAnimations.map (·.name))
        (config.distinctTriggers.map (·.name)) (config.distinctAnimations.map (·.name))
        config.animationSettings) ↔
      config.settingsNames.Nodup ∧
        ∀ settings ∈ config.animationSettings, settings.Valid config := by
  rw [hd.distinctAnimations, hd.distinctTriggers, Assembly.clean_settingsFindings_iff,
    config.nodup_settingsNames_iff, and_iff_right hd.animations]
  refine and_congr_right fun _ => forall₂_congr fun settings _ => ?_
  rw [Assembly.clean_settingsReferences_iff]
  exact ⟨fun h => ⟨h.1, h.2⟩, fun h => ⟨h.animation, h.trigger⟩⟩

end Tables

/-- The report has no errors exactly when both kinds of findings on every table are clean. -/
private theorem hasErrors_check_iff :
    config.check.hasErrors = false ↔
      (Clean (Assembly.nameFindings config) ∧
        Clean (Assembly.settingsFindings (config.distinctAnimations.map (·.name))
          (config.distinctTriggers.map (·.name)) (config.distinctAnimations.map (·.name))
          config.animationSettings)) ∧
      Clean (config.distinctResults.flatMap config.resultScope.findings) ∧
      (Clean (config.distinctTriggers.flatMap (Assembly.triggerScope config).findings) ∧
        Clean (Validation.resultReferences (Assembly.build config).triggers)) ∧
      (Clean (config.layers.flatMap (Assembly.layerFindings config.distinctTriggers)) ∧
        Clean (Validation.scanCodeRange (Assembly.build config))) ∧
      (Clean (config.distinctAnimations.flatMap
          (Animation.findings (Assembly.extentOf (config.pixels.map PixelMap.build)))) ∧
        Clean (Validation.frames (Assembly.build config))) ∧
      (Clean (Validation.pixelIndices config) ∧
        Clean (Validation.pixels (Assembly.build config))) ∧
      (Clean (Validation.maxScanCode config) ∧
        Clean (Validation.capabilityArguments (Assembly.build config)) ∧
        Clean (Validation.stateWordSize (Assembly.build config))) ∧
      Clean (Validation.interconnect (Assembly.build config)) ∧
      Clean (Validation.keyPositions config) := by
  rw [Report.hasErrors_eq_false_iff, Config.check, Assembly.validate, Clean.append_iff,
    Validation.findings, config.build_recorded, Assembly.config_build]
  simp only [Clean.append_iff]
  tauto

namespace Config

/-- A configuration whose report has no errors is well formed. -/
theorem WellFormed.of_check (h : config.check.hasErrors = false) : config.WellFormed := by
  obtain ⟨⟨hnames, hsettings⟩, hresults, htriggers, hlayers, hanimations, hpixels,
    ⟨hmax, hcount, hword⟩, hoffsets, hpositions⟩ := hasErrors_check_iff.mp h
  have hd := Assembly.clean_nameFindings_iff.mp hnames
  obtain ⟨hn, hsettings⟩ := (clean_settings_iff hd).mp hsettings
  rw [Validation.clean_capabilityArguments_build_iff, hd.distinctCapabilities] at hcount
  rw [Validation.interconnect, Clean.append_iff, Validation.clean_offsetsBeyond_iff,
    Validation.clean_offsetsDescending_iff] at hoffsets
  exact
    { capabilityNames := hd.capabilities
      resultNames := hd.results
      triggerNames := hd.triggers
      settingsNames := hn
      maxScanCode := Validation.clean_maxScanCode_iff.mp hmax
      capabilityCount := hcount
      results := (clean_results_iff hd hn).mp hresults
      triggers := (clean_triggers_iff hd).mp htriggers
      layers := (Validation.clean_layers_iff hd).mp hlayers
      settings := hsettings
      animations := (clean_animations_iff hd).mp hanimations
      stateWord := (clean_stateWord_iff hd).mp hword
      offsets := hoffsets.1
      ascending := hoffsets.2
      positions := Validation.clean_keyPositions_iff.mp hpositions
      pixels := Validation.clean_pixels_iff.mp hpixels }

/-- The report on a well-formed configuration has no errors. -/
theorem WellFormed.check (h : config.WellFormed) : config.check.hasErrors = false := by
  have hd := h.distinctNames
  have hn := h.settingsNames
  have hcount : Clean (Validation.capabilityArguments (Assembly.build config)) := by
    rw [Validation.clean_capabilityArguments_build_iff, hd.distinctCapabilities]
    exact h.capabilityCount
  have hoffsets : Clean (Validation.interconnect (Assembly.build config)) := by
    rw [Validation.interconnect, Clean.append_iff, Validation.clean_offsetsBeyond_iff,
      Validation.clean_offsetsDescending_iff]
    exact ⟨h.offsets, h.ascending⟩
  exact hasErrors_check_iff.mpr
    ⟨⟨Assembly.clean_nameFindings_iff.mpr hd, (clean_settings_iff hd).mpr ⟨hn, h.settings⟩⟩,
      (clean_results_iff hd hn).mpr h.results, (clean_triggers_iff hd).mpr h.triggers,
      (Validation.clean_layers_iff hd).mpr h.layers,
      (clean_animations_iff hd).mpr h.animations, Validation.clean_pixels_iff.mpr h.pixels,
      ⟨Validation.clean_maxScanCode_iff.mpr h.maxScanCode, hcount,
        (clean_stateWord_iff hd).mpr h.stateWord⟩,
      hoffsets, Validation.clean_keyPositions_iff.mpr h.positions⟩

/-- The report on a configuration has no errors exactly when the configuration is well formed. -/
theorem check_hasErrors_eq_false_iff_wellFormed (config : Config) :
    config.check.hasErrors = false ↔ config.WellFormed :=
  ⟨WellFormed.of_check, WellFormed.check⟩

/-- A small well-formed configuration: two keys, one of which shifts to a second layer. -/
def sample : Config where
  schemaVersion := currentVersion
  name := "sample"
  sources := {}
  defines := []
  maxScanCode := 8
  stateWordSize := some 8
  interconnectOffsets := []
  boardScanCodes := []
  capabilities :=
    [⟨"usbKeyOut", "usb", [⟨"code", 1⟩], .safe⟩, ⟨"layerShift", "shift", [⟨"layer", 2⟩], .none⟩]
  routing := {}
  results := [⟨"AB", [[.usb 4], [.usb 5, .none]]⟩, ⟨"Fn", [[.layer .shift 1]]⟩]
  triggers :=
    [⟨"S2", [[.switch 2 0 .press]], "AB"⟩, ⟨"S3", [[.switch 3 0 .press]], "Fn"⟩,
     ⟨"again", [[.switch 2 0 .press]], "Fn"⟩, ⟨"S5", [[.switch 5 0 .hold, .analog 7 9]], "AB"⟩]
  layers := [⟨"default", [], ["S2", "S3"]⟩, ⟨"function", [], ["again", "S5"]⟩]
  positions := []
  pixels := none
  animations := []
  animationSettings := []

theorem check_sample : sample.check.hasErrors = false := by decide +kernel

/-- The same with an animation, for the repetition of which one trigger waits, and
another for its end or repetition; it has a second frame, but no first one. -/
def animated : Config :=
  { sample with
    triggers :=
      [⟨"again", [[.animation "fade" .repeat]], "AB"⟩,
       ⟨"either", [[.animation "fade" .doneOrRepeat]], "Fn"⟩]
    layers := [⟨"default", [], ["again", "either"]⟩, ⟨"function", [], []⟩]
    animations := [⟨"fade", {}, [⟨2, [⟨.index 3, .set, [1, 0, 3]⟩]⟩]⟩] }

theorem check_animated : animated.check.hasErrors = false := by decide +kernel

end Config

end Keymap
