import Keymap.Proofs.Generation
import Keymap.Proofs.Listing.Evaluation
import Keymap.Proofs.Tables

/-!
# References to animations

Guides refer to animations by numbers: a result to a row of the settings table, and a
trigger to an animation. The table stands in the pixel source, and the number of the
animations in the definitions. Both are there for the configurations that have a
pixel section. Without one the pixel source is empty and the number is zero, but
results and triggers are compiled all the same. So their references lead into the
tables exactly where there is a pixel section or nothing refers to animations.
-/

namespace Keymap

open Config (Result ResultElement Trigger TriggerElement)
open Guide (Call)

/-- The text of a guide is read as combos: its tokens have the values of bytes from
which the combos are read. -/
def Guide.Reader.ReadsText (reader : Guide.Reader α) (text : String) (combos : List (List α)) :
    Prop :=
  ∃ bytes : List UInt8, Listing.evaluateGuide text = some (bytes.map (·.toNat)) ∧
    reader.readCombos bytes = some (combos, [])

namespace Assembly

/-- The rows of the settings table in the outputs. -/
def printedSettings (assembly : Assembly) : List SettingsRow :=
  if assembly.pixels.isSome then assembly.settings else []

/-- The number of animations in the outputs. -/
def printedAnimations (assembly : Assembly) : Nat :=
  if assembly.pixels.isSome then assembly.animations.length else 0

/-- The outputs have the guides, the settings table if there is a pixel section, and
the number of animations. -/
structure Prints (assembly : Assembly) (outputs : Outputs) : Prop where
  results : ∃ before after, outputs.keymap = before ++ Listing.resultGuides assembly ++ after
  resultTexts : ∀ row ∈ assembly.results,
    (Guide.callReader (assembly.capabilities.map (·.argBytes))).ReadsText
      (Listing.tokens (Listing.resultTokens row.combos)) row.combos
  triggers : ∃ before after, outputs.keymap = before ++ Listing.triggerGuides assembly ++ after
  triggerTexts : ∀ guide ∈ assembly.guides, Guide.conditionReader.ReadsText
    (Listing.tokens (Listing.triggerTokens guide.combos)) (Guide.triples guide.combos)
  settings : assembly.pixels.isSome = true → ∃ first later before after,
    first ++ later = assembly.printedSettings.zipIdx ∧
      outputs.pixelMap = before ++
        ("const AnimationStackElement Pixel_AnimationSettings[] = \x7b" ++
          Listing.settingsLines first ++ "\n\n\t/* Additional Settings */" ++
          Listing.settingsLines later ++ "\n\x7d;") ++ after
  noSettings : assembly.pixels.isSome = false →
    assembly.printedSettings = [] ∧ outputs.pixelMap = ""
  animations : ∃ before after, outputs.defines = before ++
    ("\n#define AnimationNum_KLL " ++ toString assembly.printedAnimations ++ "\n") ++ after

end Assembly

/-- The index in the call is that of the row with the settings. -/
def Config.ResultElement.RefersTo (config : Config) (rows : List SettingsRow) (call : Call) :
    ResultElement → Prop
  | .animation settings =>
    (∃ capability, config.CallsNamed config.routing.animation capability call) ∧
      ∃ row, rows[Guide.littleEndian call.args]? = some row ∧ row.name = settings
  | _ => True

/-- The type and the uid are those of the index of the animation, which is below the
number of animations. -/
def Config.TriggerElement.RefersTo (config : Config) (count : Nat)
    (triple : UInt8 × UInt8 × UInt8) : TriggerElement → Prop
  | .animation name _ =>
    ∃ index, (config.animations.map (·.name))[index]? = some name ∧ index < count ∧
      triple.1.toNat = 0x0D + index / 256 ∧ triple.2.2.toNat = index % 256
  | _ => True

namespace Config

/-- The calls of the steps of a result refer to rows of a settings table. -/
structure Result.RefersTo (config : Config) (rows : List SettingsRow) (result : Result)
    (row : ResultRow) : Prop where
  name : row.name = result.name
  steps : ∃ steps : Guide.ResultCombos, steps.Sublist row.combos ∧
    List.Forall₂ (List.Forall₂ fun element call => element.RefersTo config rows call)
      result.steps steps

/-- The guide of a trigger refers to animations of which there are so many. -/
structure Trigger.RefersTo (config : Config) (count : Nat) (trigger : Trigger)
    (row : TriggerRow) : Prop where
  name : row.name = trigger.name
  guide : ∃ guide, (Assembly.build config).guides[row.guide]? = some guide ∧
    List.Forall₂ (List.Forall₂ fun element triple => element.RefersTo config count triple)
      trigger.sequence (Guide.triples guide.combos)

/-- All references to animations lead into tables. -/
structure RefersTo (config : Config) (rows : List SettingsRow) (count : Nat) : Prop where
  results : List.Forall₂ (fun result row => result.RefersTo config rows row)
    config.results (Assembly.build config).results
  triggers : List.Forall₂ (fun trigger row => trigger.RefersTo config count row)
    config.triggers (Assembly.build config).triggers

/-- Nothing refers to animations. -/
structure Still (config : Config) : Prop where
  results : ∀ result ∈ config.results, ∀ step ∈ result.steps, ∀ settings,
    ResultElement.animation settings ∉ step
  triggers : ∀ trigger ∈ config.triggers, ∀ step ∈ trigger.sequence, ∀ name event,
    TriggerElement.animation name event ∉ step

end Config

section Printing

variable {config : Config} {outputs : Outputs}

/-- The last of several sizes is the number of animations. -/
theorem exists_tableSizes (assembly : Assembly) : ∃ sizes, sizes ≠ [] ∧
    Listing.tableSizes assembly = sizes ++ [("AnimationNum", assembly.printedAnimations)] := by
  have hlast : ("AnimationNum", assembly.printedAnimations) ∈
      (Listing.tableSizes assembly).getLast? := by
    rw [Listing.tableSizes, Listing.pixelSizes, Assembly.printedAnimations]
    cases assembly.pixels <;> rfl
  refine ⟨_, ?_, (List.dropLast_append_getLast? _ hlast).symm⟩
  rw [Listing.tableSizes, Listing.pixelSizes]
  cases assembly.pixels <;> exact List.cons_ne_nil _ _

/-- The line behind those of all other sizes has the number of animations. -/
theorem exists_sizeDefines (assembly : Assembly) : ∃ before, Listing.sizeDefines assembly =
    before ++ ("\n#define AnimationNum_KLL " ++ toString assembly.printedAnimations) := by
  obtain ⟨sizes, hne, hsizes⟩ := exists_tableSizes assembly
  have hlines : ∀ line : String × Nat → String, sizes.map line ≠ [] := fun line => by
    rwa [ne_eq, List.map_eq_nil_iff]
  rw [Listing.sizeDefines, hsizes, List.map_append, List.map_singleton, Listing.lines,
    String.intercalate_append_of_ne_nil (hlines _) (List.cons_ne_nil _ _),
    String.intercalate_singleton, String.append_assoc]
  exact ⟨_, rfl⟩

/-- The texts of the guides of a well-formed configuration are read as their combos. -/
theorem Config.WellFormed.readsText (h : config.WellFormed) :
    (∀ row ∈ (Assembly.build config).results,
      (Guide.callReader ((Assembly.build config).capabilities.map (·.argBytes))).ReadsText
        (Listing.tokens (Listing.resultTokens row.combos)) row.combos) ∧
    ∀ guide ∈ (Assembly.build config).guides, Guide.conditionReader.ReadsText
      (Listing.tokens (Listing.triggerTokens guide.combos)) (Guide.triples guide.combos) := by
  refine ⟨?_, fun guide hguide => ?_⟩
  · rw [config.build_results, h.distinctNames.distinctResults, List.forall_mem_map]
    intro result hresult
    have hsized := Assembly.ResultScope.sized_combos h (h.results result hresult)
    have hread := Guide.readCombos_resultBytes hsized []
    rw [List.append_nil] at hread
    exact ⟨_, Listing.evaluateGuide_resultTokens fun combo hcombo => (hsized combo hcombo).1.2,
      hread⟩
  · have hshaped := shaped_guide h hguide
    have hread := Guide.readCombos_triggerBytes hshaped []
    rw [List.append_nil] at hread
    exact ⟨_, Listing.evaluateGuide_triggerTokens fun combo hcombo => (hshaped.2 combo hcombo).2,
      hread⟩

/-- The line with the number of animations is in the definitions. -/
theorem Assembly.Writes.animations (hwrites : (Assembly.build config).Writes .standard outputs) :
    ∃ before after, outputs.defines = before ++ ("\n#define AnimationNum_KLL " ++
      toString (Assembly.build config).printedAnimations ++ "\n") ++ after := by
  have hinfix : [Segment.slot .sizeDefines, .literal "\n\n"] <:+:
      Templates.standard.defines.segments := by decide
  obtain ⟨before, after, htext⟩ := Template.contains_of_infix hwrites.defines hinfix
  obtain ⟨sizes, hsizes⟩ := exists_sizeDefines (Assembly.build config)
  refine ⟨before ++ sizes, "\n" ++ after, ?_⟩
  rw [htext]
  simp only [List.map_cons, List.map_nil, Template.segmentText, Placeholder.text?, hsizes,
    Option.getD_some, String.join_cons, String.join_nil, String.append_empty,
    String.append_assoc]
  rfl

/-- The settings table with all its rows is in the pixel source. -/
theorem Assembly.Writes.settings (hwrites : (Assembly.build config).Writes .standard outputs)
    (hpixels : (Assembly.build config).pixels.isSome = true) : ∃ first later before after,
    first ++ later = (Assembly.build config).settings.zipIdx ∧
      outputs.pixelMap = before ++
        ("const AnimationStackElement Pixel_AnimationSettings[] = \x7b" ++
          Listing.settingsLines first ++ "\n\n\t/* Additional Settings */" ++
          Listing.settingsLines later ++ "\n\x7d;") ++ after := by
  obtain ⟨map, hmap⟩ := Option.isSome_iff_exists.mp hpixels
  have hlisting : Placeholder.settingsTable.text? (Assembly.build config) =
      some (Listing.settingsTable (Assembly.build config)) := by
    rw [Placeholder.text?, hmap, Option.map_some]
  obtain ⟨before, after, htext⟩ :=
    Template.contains_listing (hwrites.pixelMap hpixels) (by decide) hlisting
  obtain ⟨first, later, hrows, _, _, hprinted⟩ := (settingsInOrder_build config).printed
  exact ⟨first, later, before, after, hrows, hprinted ▸ htext⟩

/-- The outputs of the standard templates have the guides and the tables. -/
theorem Assembly.Writes.prints (hwrites : (Assembly.build config).Writes .standard outputs)
    (h : config.WellFormed) : (Assembly.build config).Prints outputs where
  results := Template.contains_listing hwrites.keymap (p := .resultGuides) (by decide) rfl
  resultTexts := h.readsText.1
  triggers := Template.contains_listing hwrites.keymap (p := .triggerGuides) (by decide) rfl
  triggerTexts := h.readsText.2
  settings hpixels := by
    rw [printedSettings, if_pos hpixels]
    exact hwrites.settings hpixels
  noSettings hpixels := by
    refine ⟨?_, hwrites.noPixelMap hpixels⟩
    rw [printedSettings, hpixels]
    rfl
  animations := hwrites.animations

end Printing

namespace Config

variable {config : Config}

/-- An element that does not refer to animations refers to no wrong row. -/
theorem ResultElement.refersTo_of_ne {rows : List SettingsRow} {call : Call}
    {element : ResultElement} (h : ∀ settings, element ≠ .animation settings) :
    element.RefersTo config rows call := by
  cases element with
  | animation settings => exact absurd rfl (h settings)
  | _ => trivial

theorem TriggerElement.refersTo_of_ne {count : Nat} {triple : UInt8 × UInt8 × UInt8}
    {element : TriggerElement} (h : ∀ name event, element ≠ .animation name event) :
    element.RefersTo config count triple := by
  cases element with
  | animation name event => exact absurd rfl (h name event)
  | _ => trivial

/-- No row of an empty table is referred to. -/
theorem ResultElement.ne_of_refersTo_nil {call : Call} {element : ResultElement}
    (h : element.RefersTo config [] call) : ∀ settings, element ≠ .animation settings := by
  rintro settings rfl
  obtain ⟨_, row, hrow, _⟩ := h
  cases hrow

/-- Where there are no animations, none is referred to. -/
theorem TriggerElement.ne_of_refersTo_zero {triple : UInt8 × UInt8 × UInt8}
    {element : TriggerElement} (h : element.RefersTo config 0 triple) :
    ∀ name event, element ≠ .animation name event := by
  rintro name event rfl
  obtain ⟨index, _, hlt, _⟩ := h
  exact Nat.not_lt_zero index hlt

/-- The call of an element has the index of its settings in the settings table. -/
theorem ResultElement.refersTo_of_call (h : config.WellFormed) {symbol : String} {call : Call}
    {element : ResultElement} (hok : config.resultScope.call symbol element = .ok call) :
    element.RefersTo config (Assembly.build config).settings call := by
  have hs := Assembly.covers_resultScope h.distinctNames h.settingsNames
  cases element with
  | animation settings =>
    rw [Assembly.ResultScope.call, hs.routing] at hok
    split at hok
    next index hindex =>
      have hnames := hs.nodup_capabilities h.capabilityNames
      obtain ⟨i, capability, arg, hget, hname, _, hfits, rfl⟩ :=
        (Assembly.ResultScope.routed_eq_ok_iff hnames).mp hok
      rw [hs.capabilities] at hget
      refine ⟨⟨capability, Assembly.getElem?_capabilityByte h.capabilityCount hget, hname⟩, ?_⟩
      have hrow := (pointsAt_idxOf? (Assembly.nodup_settings config) settings index).mp hindex
      rw [List.getElem?_map, Option.map_eq_some_iff] at hrow
      obtain ⟨row, hrow, hsettings⟩ := hrow
      -- the index fits the argument, so that the bytes of the call hold all of it
      exact ⟨row, by rw [Guide.littleEndian_lowBytes hfits, hrow], hsettings⟩
    next => cases hok
  | _ => trivial

/-- The condition of an element has the index of its animation. -/
theorem TriggerElement.refersTo_of_encodedAs {condition : Guide.Condition}
    {element : TriggerElement} (h : element.EncodedAs config condition) :
    element.RefersTo config config.animations.length condition.triple := by
  cases element with
  | animation name event =>
    obtain ⟨index, hname, hbank, _⟩ := h
    have hlt := (List.getElem?_eq_some_iff.mp hname).1
    rw [List.length_map] at hlt
    exact ⟨index, hname, hlt, hbank.type, hbank.uid⟩
  | _ => trivial

/-- With a pixel section the settings and the animations are in the outputs. -/
theorem printed_build_of_isSome (h : config.WellFormed) (hp : config.pixels.isSome = true) :
    (Assembly.build config).printedSettings = (Assembly.build config).settings ∧
      (Assembly.build config).printedAnimations = config.animations.length := by
  have hpixels : (Assembly.build config).pixels.isSome = true := by
    rwa [Assembly.isSome_pixels_build]
  refine ⟨if_pos hpixels, ?_⟩
  rw [Assembly.printedAnimations, if_pos hpixels, Assembly.animations_build, List.length_map,
    h.distinctNames.distinctAnimations]

/-- Without a pixel section there are none. -/
theorem printed_build_of_not_isSome (hp : ¬config.pixels.isSome = true) :
    (Assembly.build config).printedSettings = [] ∧
      (Assembly.build config).printedAnimations = 0 := by
  rw [← Assembly.isSome_pixels_build] at hp
  exact ⟨if_neg hp, if_neg hp⟩

/-- The guides of results refer to rows of the settings table in the outputs. -/
theorem WellFormed.results_refersTo (h : config.WellFormed)
    (hp : config.pixels.isSome = true ∨ config.Still) {result : Result}
    (hresult : result ∈ config.results) :
    result.RefersTo config (Assembly.build config).printedSettings
      (config.resultScope.row result) where
  name := rfl
  steps := by
    refine ⟨config.resultScope.stepCalls result, Assembly.ResultScope.sublist_combos _ _, ?_⟩
    refine Assembly.ResultScope.forall₂_stepCalls_of_call h (h.results result hresult)
      fun step hstep element helement call hcall => ?_
    rcases hp with hp | hp
    · rw [(printed_build_of_isSome h hp).1]
      exact ResultElement.refersTo_of_call h hcall
    · refine ResultElement.refersTo_of_ne ?_
      rintro settings rfl
      exact hp.results result hresult step hstep settings helement

/-- The guides of triggers refer to animations in the outputs. -/
theorem WellFormed.triggers_refersTo (h : config.WellFormed)
    (hp : config.pixels.isSome = true ∨ config.Still) {trigger : Trigger}
    (htrigger : trigger ∈ config.triggers) {row : TriggerRow}
    (hrow : trigger.DecodedFrom config row) :
    trigger.RefersTo config (Assembly.build config).printedAnimations row where
  name := hrow.name
  guide := by
    obtain ⟨guide, hguide, htriples⟩ := hrow.guide
    refine ⟨guide, hguide, ?_⟩
    rw [htriples, Guide.triples, List.forall₂_map_right_iff]
    refine forall₂_of_forall_mem (fun _ => id) hrow.compiled
      fun step conditions hstep hencoded => ?_
    rw [List.forall₂_map_right_iff]
    refine forall₂_of_forall_mem (fun _ => id) hencoded fun element condition helement hc => ?_
    rcases hp with hp | hp
    · rw [(printed_build_of_isSome h hp).2]
      exact TriggerElement.refersTo_of_encodedAs hc
    · refine TriggerElement.refersTo_of_ne ?_
      rintro name event rfl
      exact hp.triggers trigger htrigger step hstep name event helement

/-- Where there is a pixel section, or else nothing refers to animations, all references
lead into the tables in the outputs. -/
theorem WellFormed.refersTo (h : config.WellFormed)
    (hp : config.pixels.isSome = true ∨ config.Still) :
    config.RefersTo (Assembly.build config).printedSettings
      (Assembly.build config).printedAnimations where
  results := by
    rw [config.build_results, h.distinctNames.distinctResults, List.forall₂_map_right_iff]
    exact List.forall₂_same.mpr fun result hresult => h.results_refersTo hp hresult
  triggers :=
    forall₂_of_forall_mem (fun _ => id) (rows_build h.distinctNames) fun _ _ htrigger hrow =>
      h.triggers_refersTo hp htrigger (decodedFrom_of_rowOf h htrigger hrow)

/-- Where all references lead into empty tables, there are none. -/
theorem still_of_refersTo (h : config.RefersTo [] 0) : config.Still where
  results := by
    refine forall_mem_of_forall₂ (fun result row hrow => ?_) h.results
    obtain ⟨steps, _, hsteps⟩ := hrow.steps
    refine forall_mem_of_forall₂ (fun step calls hcalls settings hmem => ?_) hsteps
    have hne := forall_mem_of_forall₂
      (p := fun element => ∀ settings, element ≠ .animation settings)
      (fun _ _ => ResultElement.ne_of_refersTo_nil) hcalls
    exact hne _ hmem settings rfl
  triggers := by
    refine forall_mem_of_forall₂ (fun trigger row hrow => ?_) h.triggers
    obtain ⟨guide, _, hsteps⟩ := hrow.guide
    refine forall_mem_of_forall₂ (fun step triples htriples name event hmem => ?_) hsteps
    have hne := forall_mem_of_forall₂
      (p := fun element => ∀ name event, element ≠ .animation name event)
      (fun _ _ => TriggerElement.ne_of_refersTo_zero) htriples
    exact hne _ hmem name event rfl

/-- The outputs have the guides and the tables, and the references of the guides lead into
these tables exactly where there is a pixel section or nothing refers to animations. -/
theorem refersTo_printed_iff {outputs : Outputs}
    (h : config.generate .standard = .ok outputs) :
    (Assembly.build config).Prints outputs ∧
      (config.RefersTo (Assembly.build config).printedSettings
          (Assembly.build config).printedAnimations ↔
        config.pixels.isSome = true ∨ config.Still) := by
  obtain ⟨hcheck, hwrites⟩ := generate_eq_ok_iff.mp h
  have hw := WellFormed.of_check hcheck
  refine ⟨hwrites.prints hw, fun hrefers => ?_, hw.refersTo⟩
  by_cases hp : config.pixels.isSome = true
  · exact Or.inl hp
  · rw [(printed_build_of_not_isSome hp).1, (printed_build_of_not_isSome hp).2] at hrefers
    exact Or.inr (still_of_refersTo hrefers)

/-- An animation for which triggers wait and which a result starts. -/
def fading (pixels : Option PixelSection) : Config :=
  { animated with
    capabilities :=
      animated.capabilities ++ [⟨"animationIndex", "animation", [⟨"index", 2⟩], .none⟩]
    results := animated.results ++ [⟨"Fade", [[.animation "fade"]]⟩]
    pixels := pixels }

/-- One pixel on a display of one cell. -/
def onePixel : PixelSection where
  buffers := [⟨1, 8, none, "leds"⟩]
  pixels := [⟨1, [0], some 1⟩]
  display := [[1]]
  ledBufferStruct := none
  frameFormat := {}

/-- An animation that is used without a pixel section is accepted. -/
theorem check_fading : (fading none).check.hasErrors = false := by decide +kernel

theorem check_fading_onePixel : (fading onePixel).check.hasErrors = false := by decide +kernel

/-- With a pixel section the references to the animation, from a result and from two triggers,
lead into the printed tables. -/
theorem refersTo_printed_iff_fading :
    ∃ outputs, (fading onePixel).generate .standard = .ok outputs ∧
      (Assembly.build (fading onePixel)).Prints outputs ∧
      (fading onePixel).RefersTo (Assembly.build (fading onePixel)).printedSettings
        (Assembly.build (fading onePixel)).printedAnimations := by
  obtain ⟨outputs, h⟩ := exists_generate_standard check_fading_onePixel
  have hiff := refersTo_printed_iff h
  exact ⟨outputs, h, hiff.1, hiff.2.mpr (Or.inl rfl)⟩

/-- Without a pixel section the guides refer to the animation all the same. -/
theorem references_without_tables :
    ∃ outputs before after, (fading none).generate .standard = .ok outputs ∧
      outputs.pixelMap = "" ∧
      outputs.defines = before ++ "\n#define AnimationNum_KLL 0\n" ++ after ∧
      (Assembly.build (fading none)).results[2]? = some ⟨"Fade", [[⟨2, [0, 0]⟩]]⟩ ∧
      (Assembly.build (fading none)).guides.map (Guide.triples ·.combos) = [[[(0x0D, 0x07, 0)]]] ∧
      ¬(fading none).RefersTo (Assembly.build (fading none)).printedSettings
        (Assembly.build (fading none)).printedAnimations := by
  obtain ⟨outputs, h⟩ := exists_generate_standard check_fading
  have hprints := (generate_eq_ok_iff.mp h).2.prints (WellFormed.of_check check_fading)
  have hnone : ¬(fading none).pixels.isSome = true := by decide
  obtain ⟨hsettings, hanimations⟩ := printed_build_of_not_isSome hnone
  obtain ⟨before, after, hdefines⟩ := hprints.animations
  rw [hanimations] at hdefines
  refine ⟨outputs, before, after, h, (hprints.noSettings rfl).2, hdefines, rfl, rfl, ?_⟩
  rw [hsettings, hanimations]
  intro hrefers
  have hstill := (still_of_refersTo hrefers).results ⟨"Fade", [[.animation "fade"]]⟩
  exact hstill (List.mem_append_right _ (List.mem_singleton.mpr rfl)) _
    (List.mem_singleton.mpr rfl) "fade" (List.mem_singleton.mpr rfl)

end Config

end Keymap
