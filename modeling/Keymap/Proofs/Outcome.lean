import Keymap.Proofs.Generation

/-!
# When a run fails

A run stops at a report with errors. Otherwise it can fail only for want of a pixel
section: at the first placeholder of the keymap that needs one, or else at the first
one of the definitions. The template of the pixel source is no obstacle, because it is
filled only with a pixel section. So the report, the pixel section and the placeholders
of two templates decide how a run ends.
-/

namespace Keymap

/-- What keeps a template from being filled without a pixel section: its first placeholder
that needs one. -/
def Template.obstacle? (template : Template) : Option Failure :=
  (template.placeholders.find? (·.needsPixels)).map fun p =>
    .template (.noGenerator template.name p.name)

/-- What keeps a run from having outputs. -/
def Config.obstacle? (config : Config) (templates : Templates) : Option Failure :=
  if config.check.hasErrors then some (.validation config.check)
  else if config.pixels.isSome then none
  else templates.keymap.obstacle?.or templates.defines.obstacle?

namespace Template

variable {template : Template} {assembly : Assembly}

/-- Filling segments stops at the first placeholder that has no text. -/
theorem mapM_fill (name : String) (assembly : Assembly) (segments : List Segment) :
    segments.mapM (fill name assembly) =
      match (segments.filterMap slot?).find? fun p => (p.text? assembly).isNone with
      | some p => .error (.noGenerator name p.name)
      | none => .ok (segments.map (segmentText assembly)) := by
  induction segments with
  | nil => rfl
  | cons segment rest ih =>
    rw [List.mapM_cons, ih]
    cases segment with
    | literal words =>
      have hslots : (Segment.literal words :: rest).filterMap slot? = rest.filterMap slot? := rfl
      rw [hslots]
      cases (rest.filterMap slot?).find? fun p => (p.text? assembly).isNone <;> rfl
    | slot placeholder =>
      have hslots : (Segment.slot placeholder :: rest).filterMap slot? =
          placeholder :: rest.filterMap slot? := rfl
      rw [hslots, List.find?_cons, fill]
      cases hp : placeholder.text? assembly with
      | none => rfl
      | some listing =>
        rw [Option.isNone_some]
        cases (rest.filterMap slot?).find? fun p => (p.text? assembly).isNone with
        | some p => rfl
        | none =>
          rw [List.map_cons, segmentText, hp]
          rfl

/-- With a pixel section no template stops a run. -/
theorem exists_filled (h : assembly.pixels.isSome = true) :
    ∃ text, template.filled assembly = .ok text := by
  obtain ⟨text, htext⟩ := @exists_render template assembly fun _ _ _ => h
  exact ⟨text, Assembly.filled_eq_ok_iff.mpr htext⟩

/-- Without a pixel section a template is filled unless it has an obstacle. -/
theorem filled_eq (h : assembly.pixels.isSome = false) :
    template.filled assembly =
      match template.obstacle? with
      | some failure => .error failure
      | none => .ok (String.join (template.segments.map (segmentText assembly))) := by
  have hmissing : (fun p : Placeholder => (p.text? assembly).isNone) = (·.needsPixels) := by
    funext p
    rw [← Option.not_isSome, Placeholder.text?_isSome, h, Bool.or_false, Bool.not_not]
  rw [filled, render, mapM_fill, hmissing, obstacle?, placeholders]
  cases (template.segments.filterMap slot?).find? (·.needsPixels) <;> rfl

end Template

namespace Assembly

variable {assembly : Assembly} {templates : Templates}

/-- With a pixel section tables have outputs. -/
theorem exists_outputs_of_pixels (h : assembly.pixels.isSome = true) :
    ∃ outputs, assembly.outputs templates = .ok outputs := by
  obtain ⟨keymap, hkeymap⟩ := @Template.exists_filled templates.keymap _ h
  obtain ⟨defines, hdefines⟩ := @Template.exists_filled templates.defines _ h
  obtain ⟨pixelMap, hpixelMap⟩ := @Template.exists_filled templates.pixelMap _ h
  rw [filled_eq_ok_iff] at hkeymap hdefines hpixelMap
  exact ⟨⟨keymap, pixelMap, defines, _⟩, outputs_eq_ok_iff.mpr
    ⟨hkeymap, hdefines, fun _ => hpixelMap, by simp [h], rfl⟩⟩

/-- Without a pixel section tables have no outputs if a template has an obstacle. -/
theorem outputs_of_obstacle {failure : Failure} (h : assembly.pixels.isSome = false)
    (hobstacle : templates.keymap.obstacle?.or templates.defines.obstacle? = some failure) :
    assembly.outputs templates = .error failure := by
  rw [outputs, Template.filled_eq h, Template.filled_eq h]
  cases hkeymap : templates.keymap.obstacle? with
  | some first =>
    rw [hkeymap, Option.some_or] at hobstacle
    rw [Option.some.inj hobstacle]
    rfl
  | none =>
    rw [hkeymap, Option.none_or] at hobstacle
    rw [hobstacle]
    rfl

/-- Without a pixel section tables have outputs if neither template has an obstacle. -/
theorem exists_outputs_of_no_obstacle (h : assembly.pixels.isSome = false)
    (hobstacle : templates.keymap.obstacle?.or templates.defines.obstacle? = none) :
    ∃ outputs, assembly.outputs templates = .ok outputs := by
  obtain ⟨hkeymap, hdefines⟩ := Option.or_eq_none_iff.mp hobstacle
  have hfilled := @Template.filled_eq templates.keymap _ h
  have hfilled' := @Template.filled_eq templates.defines _ h
  rw [hkeymap] at hfilled
  rw [hdefines] at hfilled'
  exact ⟨⟨_, "", _, _⟩, outputs_eq_ok_iff.mpr ⟨filled_eq_ok_iff.mp hfilled,
    filled_eq_ok_iff.mp hfilled', by simp [h], fun _ => rfl, rfl⟩⟩

end Assembly

namespace Config

/-- A run with errors ends with its report. -/
theorem generate_of_hasErrors {config : Config} {templates : Templates}
    (h : config.check.hasErrors = true) :
    config.generate templates = .error (.validation config.check) := by
  rw [generate, Assembly.generate, Report.toExcept, ← check, if_pos h]
  rfl

/-- A run without errors ends as its templates are filled. -/
theorem generate_of_not_hasErrors {config : Config} {templates : Templates}
    (h : config.check.hasErrors = false) :
    config.generate templates = (Assembly.build config).outputs templates := by
  rw [generate, Assembly.generate, Report.toExcept, ← check, h, if_neg Bool.false_ne_true]
  rfl

/-- A run fails with its obstacle, or has outputs where there is none. -/
theorem generate_ends (config : Config) (templates : Templates) :
    (∃ failure, config.obstacle? templates = some failure ∧
      config.generate templates = .error failure) ∨
    config.obstacle? templates = none ∧ ∃ outputs, config.generate templates = .ok outputs := by
  rw [obstacle?]
  cases herrors : config.check.hasErrors with
  | true => exact Or.inl ⟨_, if_pos rfl, generate_of_hasErrors herrors⟩
  | false =>
    have hpixels := Assembly.isSome_pixels_build config
    rw [if_neg Bool.false_ne_true, generate_of_not_hasErrors herrors]
    cases hp : config.pixels.isSome with
    | true =>
      rw [hp] at hpixels
      exact Or.inr ⟨if_pos rfl, Assembly.exists_outputs_of_pixels hpixels⟩
    | false =>
      rw [hp] at hpixels
      rw [if_neg Bool.false_ne_true]
      cases hobstacle : templates.keymap.obstacle?.or templates.defines.obstacle? with
      | some failure => exact Or.inl ⟨failure, rfl, Assembly.outputs_of_obstacle hpixels hobstacle⟩
      | none => exact Or.inr ⟨rfl, Assembly.exists_outputs_of_no_obstacle hpixels hobstacle⟩

/-- A run fails exactly with its obstacle, and has outputs exactly where there is none. A
report with errors is an obstacle by itself, before any template is looked at; without a
pixel section there is no pixel source. With the standard templates only errors of the
report are obstacles. -/
theorem generate_eq_error_iff_obstacle (config : Config) (templates : Templates) :
    (∀ failure, config.generate templates = .error failure ↔
      config.obstacle? templates = some failure) ∧
    ((∃ outputs, config.generate templates = .ok outputs) ↔
      config.obstacle? templates = none) ∧
    (∀ outputs, config.generate templates = .ok outputs → config.pixels = none →
      outputs.pixelMap = "") ∧
    (config.check.hasErrors = true →
      config.generateLog templates = (Assembly.build config).buildLog) ∧
    ((∃ outputs, config.generate .standard = .ok outputs) ↔ config.check.hasErrors = false) := by
  refine ⟨fun failure => ?_, ?_, fun outputs h hp => ?_, fun h => ?_,
    fun ⟨outputs, h⟩ => (generate_eq_ok_iff.mp h).1, exists_generate_standard⟩
  · obtain ⟨first, hobstacle, hfails⟩ | ⟨hobstacle, outputs, hok⟩ := generate_ends config templates
    · rw [hobstacle, hfails, Except.error.injEq, Option.some.injEq]
    · rw [hobstacle, hok]
      simp
  · obtain ⟨first, hobstacle, hfails⟩ | ⟨hobstacle, hok⟩ := generate_ends config templates
    · rw [hobstacle, hfails]
      simp
    · exact iff_of_true hok hobstacle
  · have hpixels : (Assembly.build config).pixels.isSome = false := by
      rw [Assembly.isSome_pixels_build, hp, Option.isSome_none]
    exact (generate_eq_ok_iff.mp h).2.noPixelMap hpixels
  · rw [generateLog, Assembly.generateLog, ← check, Report.toExcept, if_pos h, List.append_nil]

end Config

end Keymap
