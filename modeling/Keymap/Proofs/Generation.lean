import Keymap.Generate
import Keymap.Proofs.Acceptance.Results
import Keymap.Template.Standard

/-!
# What a run writes

A run has outputs exactly when the report has no errors and the placeholders of the
templates that it fills have texts. An output is made of the texts of the segments
of its template one behind the other, so that it contains the listings that the
template names. The standard templates can be filled for every configuration whose
report has no errors.
-/

namespace Keymap

namespace Template

variable {template : Template} {assembly : Assembly} {text : String}

/-- The text that stands for a segment whose placeholder, if it has one, has a text. -/
def segmentText (assembly : Assembly) : Segment → String
  | .literal text => text
  | .slot placeholder => (placeholder.text? assembly).getD ""

/-- A segment is filled exactly when its placeholder, if it has one, has a text. -/
theorem fill_eq_ok_iff {name : String} {segment : Segment} :
    fill name assembly segment = .ok text ↔
      (∀ p, slot? segment = some p → (p.text? assembly).isSome = true) ∧
        text = segmentText assembly segment := by
  cases segment with
  | literal words =>
    constructor
    · intro h
      obtain rfl := Except.ok.inj h
      exact ⟨fun p hp => absurd hp (by simp [slot?]), rfl⟩
    · rintro ⟨_, rfl⟩
      rfl
  | slot placeholder =>
    rw [fill, segmentText]
    cases hp : placeholder.text? assembly with
    | none => simp [slot?, hp]
    | some listing =>
      constructor
      · intro h
        obtain rfl := Except.ok.inj h
        exact ⟨fun p he => Option.some.inj he ▸ Option.isSome_of_eq_some hp, rfl⟩
      · rintro ⟨_, rfl⟩
        rfl

/-- A template is filled exactly when its placeholders have texts, and its text is that
of its segments. -/
theorem render_eq_ok_iff :
    template.render assembly = .ok text ↔
      (∀ p ∈ template.placeholders, (p.text? assembly).isSome = true) ∧
        text = String.join (template.segments.map (segmentText assembly)) := by
  have hplaceholders : (∀ p ∈ template.placeholders, (p.text? assembly).isSome = true) ↔
      ∀ segment ∈ template.segments, ∀ p, slot? segment = some p →
        (p.text? assembly).isSome = true := by
    simp only [placeholders, List.mem_filterMap]
    exact ⟨fun h segment hmem p hp => h p ⟨segment, hmem, hp⟩,
      fun h p ⟨segment, hmem, hp⟩ => h segment hmem p hp⟩
  rw [render, bind_eq_ok_iff, hplaceholders]
  simp only [mapM_eq_ok_iff fun _ _ => fill_eq_ok_iff]
  constructor
  · rintro ⟨texts, ⟨hfilled, rfl⟩, htext⟩
    exact ⟨hfilled, (Except.ok.inj htext).symm⟩
  · rintro ⟨hfilled, rfl⟩
    exact ⟨_, ⟨hfilled, rfl⟩, rfl⟩

/-- A filled template contains the texts of segments that follow one another in it. -/
theorem contains_of_infix (h : template.render assembly = .ok text) {segments : List Segment}
    (hs : segments <:+: template.segments) :
    ∃ before after,
      text = before ++ String.join (segments.map (segmentText assembly)) ++ after := by
  obtain ⟨first, last, hsplit⟩ := hs
  refine ⟨String.join (first.map (segmentText assembly)),
    String.join (last.map (segmentText assembly)), ?_⟩
  rw [(render_eq_ok_iff.mp h).2, ← hsplit, List.map_append, List.map_append,
    String.join_append, String.join_append]

/-- A filled template contains the listings of its placeholders. -/
theorem contains_listing (h : template.render assembly = .ok text) {p : Placeholder}
    (hp : .slot p ∈ template.segments) {listing : String} (hl : p.text? assembly = some listing) :
    ∃ before after, text = before ++ listing ++ after := by
  have hinfix : [Segment.slot p] <:+: template.segments := by
    obtain ⟨first, last, hsplit⟩ := List.append_of_mem hp
    exact ⟨first, last, by rw [hsplit, List.append_assoc, List.singleton_append]⟩
  obtain ⟨before, after, htext⟩ := contains_of_infix h hinfix
  rw [List.map_singleton, segmentText, hl, Option.getD_some, String.join_cons, String.join_nil,
    String.append_empty] at htext
  exact ⟨before, after, htext⟩

/-- Whether a template can be filled turns on its placeholders that need a pixel section. -/
theorem exists_render (h : ∀ p ∈ template.placeholders,
      p.needsPixels = true → assembly.pixels.isSome = true) :
    ∃ text, template.render assembly = .ok text := by
  refine ⟨_, render_eq_ok_iff.mpr ⟨fun p hp => ?_, rfl⟩⟩
  rw [Placeholder.text?_isSome]
  cases hn : p.needsPixels with
  | false => rfl
  | true => rw [h p hp hn]; rfl

end Template

/-- The outputs are the filled templates; without pixels there is no pixel source. -/
structure Assembly.Writes (assembly : Assembly) (templates : Templates) (outputs : Outputs) :
    Prop where
  keymap : templates.keymap.render assembly = .ok outputs.keymap
  defines : templates.defines.render assembly = .ok outputs.defines
  pixelMap : assembly.pixels.isSome = true →
    templates.pixelMap.render assembly = .ok outputs.pixelMap
  noPixelMap : assembly.pixels.isSome = false → outputs.pixelMap = ""
  json : outputs.json = assembly.describe.text

namespace Assembly

variable {assembly : Assembly} {templates : Templates} {outputs : Outputs}

theorem filled_eq_ok_iff {template : Template} {text : String} :
    template.filled assembly = .ok text ↔ template.render assembly = .ok text := by
  rw [Template.filled]
  cases template.render assembly <;> simp

/-- Tables have outputs exactly when these are the filled templates. -/
theorem outputs_eq_ok_iff :
    assembly.outputs templates = .ok outputs ↔ assembly.Writes templates outputs := by
  cases hp : assembly.pixels.isSome with
  | true =>
    simp only [Assembly.outputs, bind_eq_ok_iff, filled_eq_ok_iff, hp, if_true]
    constructor
    · rintro ⟨keymap, hkeymap, defines, hdefines, pixelMap, hpixelMap, houtputs⟩
      obtain rfl := Except.ok.inj houtputs
      have hno : assembly.pixels.isSome = false → pixelMap = "" := by simp [hp]
      exact ⟨hkeymap, hdefines, fun _ => hpixelMap, hno, rfl⟩
    · rintro ⟨hkeymap, hdefines, hpixelMap, _, hjson⟩
      refine ⟨_, hkeymap, _, hdefines, _, hpixelMap hp, ?_⟩
      rw [← hjson]
      rfl
  | false =>
    simp only [Assembly.outputs, bind_eq_ok_iff, filled_eq_ok_iff, hp, Bool.false_eq_true, if_false]
    constructor
    · rintro ⟨keymap, hkeymap, defines, hdefines, pixelMap, hpixelMap, houtputs⟩
      obtain rfl := Except.ok.inj houtputs
      have hsome : assembly.pixels.isSome = true →
          templates.pixelMap.render assembly = .ok pixelMap := by simp [hp]
      exact ⟨hkeymap, hdefines, hsome, fun _ => (Except.ok.inj hpixelMap).symm, rfl⟩
    · rintro ⟨hkeymap, hdefines, _, hnoPixelMap, hjson⟩
      refine ⟨_, hkeymap, _, hdefines, "", rfl, ?_⟩
      rw [← hjson, ← hnoPixelMap hp]
      rfl

end Assembly

namespace Config

variable {config : Config} {templates : Templates} {outputs : Outputs}

/-- A run has outputs exactly when the report has no errors and these are the filled templates. -/
theorem generate_eq_ok_iff :
    config.generate templates = .ok outputs ↔
      config.check.hasErrors = false ∧ (Assembly.build config).Writes templates outputs := by
  rw [generate, Assembly.generate, bind_eq_ok_iff]
  simp only [Report.toExcept, Assembly.outputs_eq_ok_iff]
  rw [← check]
  cases config.check.hasErrors <;> simp

/-- With the standard templates every configuration without errors has outputs. -/
theorem exists_generate_standard (h : config.check.hasErrors = false) :
    ∃ outputs, config.generate .standard = .ok outputs := by
  have hneeds : ∀ p ∈ Templates.standard.keymap.placeholders ++
      Templates.standard.defines.placeholders, p.needsPixels = false := by decide
  obtain ⟨keymap, hkeymap⟩ := @Template.exists_render Templates.standard.keymap
    (Assembly.build config) fun p hp hn => by
      simp [hneeds p (List.mem_append_left _ hp)] at hn
  obtain ⟨defines, hdefines⟩ := @Template.exists_render Templates.standard.defines
    (Assembly.build config) fun p hp hn => by
      simp [hneeds p (List.mem_append_right _ hp)] at hn
  cases hp : (Assembly.build config).pixels.isSome with
  | true =>
    obtain ⟨pixelMap, hpixelMap⟩ := @Template.exists_render Templates.standard.pixelMap
      (Assembly.build config) fun _ _ _ => hp
    exact ⟨⟨keymap, pixelMap, defines, _⟩, generate_eq_ok_iff.mpr
      ⟨h, hkeymap, hdefines, fun _ => hpixelMap, by simp [hp], rfl⟩⟩
  | false =>
    exact ⟨⟨keymap, "", defines, _⟩, generate_eq_ok_iff.mpr
      ⟨h, hkeymap, hdefines, by simp [hp], fun _ => rfl, rfl⟩⟩

end Config

end Keymap
