import Keymap.Proofs.Distinct
import Keymap.Proofs.WellFormed

/-!
# Distinct names

The findings on names are clean exactly when no name is declared twice. In that
case every declaration counts, so that the tables have one row for each of them
in the order of declaration.
-/

namespace Keymap

open Config (AnimationSettings)

/-- No two capabilities, results, triggers or animations have one name. -/
structure Config.DistinctNames (config : Config) : Prop where
  capabilities : (config.capabilities.map (·.name)).Nodup
  results : (config.results.map (·.name)).Nodup
  triggers : (config.triggers.map (·.name)).Nodup
  animations : (config.animations.map (·.name)).Nodup

/-- Animations and settings together have distinct names exactly when those of
the animations are distinct and those of the settings are fresh after them. -/
theorem Config.nodup_settingsNames_iff (config : Config) :
    config.settingsNames.Nodup ↔
      (config.animations.map (·.name)).Nodup ∧
        Fresh (·.name) (config.animations.map (·.name)) config.animationSettings := by
  rw [settingsNames, List.nodup_append, Fresh]
  refine and_congr_right fun _ => and_congr_right fun _ => ?_
  constructor
  · intro h settings hs hmem
    exact h _ hmem _ (List.mem_map_of_mem hs) rfl
  · rintro h name hname _ hother rfl
    obtain ⟨settings, hs, he⟩ := List.mem_map.mp hother
    exact h settings hs (he ▸ hname)

namespace Config.WellFormed

/-- A well-formed configuration has distinct names. -/
theorem distinctNames {config : Config} (h : config.WellFormed) : config.DistinctNames where
  capabilities := h.capabilityNames
  results := h.resultNames
  triggers := h.triggerNames
  animations := (config.nodup_settingsNames_iff.mp h.settingsNames).1

end Config.WellFormed

namespace Config.DistinctNames

variable {config : Config} (h : config.DistinctNames)
include h

/-- All capabilities count. -/
theorem distinctCapabilities : config.distinctCapabilities = config.capabilities :=
  firstsBy_nil_eq_self h.capabilities

/-- All results count. -/
theorem distinctResults : config.distinctResults = config.results :=
  firstsBy_nil_eq_self h.results

/-- All triggers count. -/
theorem distinctTriggers : config.distinctTriggers = config.triggers :=
  firstsBy_nil_eq_self h.triggers

/-- All animations count. -/
theorem distinctAnimations : config.distinctAnimations = config.animations :=
  firstsBy_nil_eq_self h.animations

end Config.DistinctNames

namespace Assembly

/-- The findings on a kind of names are clean exactly when the names are distinct. -/
theorem clean_repeatFindings_iff {kind : SymbolKind} {names : List String} :
    Clean (repeatFindings kind names) ↔ names.Nodup := by
  rw [repeatFindings, Clean.map_error_iff, repeatsBy_eq_nil_iff, fresh_nil_iff, List.map_id]

/-- The findings on names are clean exactly when the names of each kind are distinct. -/
theorem clean_nameFindings_iff {config : Config} :
    Clean (nameFindings config) ↔ config.DistinctNames := by
  simp only [nameFindings, Clean.append_iff, clean_repeatFindings_iff]
  constructor
  · rintro ⟨⟨⟨hc, hr⟩, ht⟩, ha⟩
    exact ⟨hc, hr, ht, ha⟩
  · rintro ⟨hc, hr, ht, ha⟩
    exact ⟨⟨⟨hc, hr⟩, ht⟩, ha⟩

/-- The findings on what settings refer to are clean exactly when it is declared. -/
theorem clean_settingsReferences_iff {animations triggers : List String}
    {settings : AnimationSettings} :
    Clean (settingsReferences animations triggers settings) ↔
      settings.animation ∈ animations ∧
        ∀ name, settings.trigger = some name → name ∈ triggers := by
  rw [settingsReferences, Clean.append_iff, Clean.ite_not_error_iff]
  refine and_congr_right fun _ => ?_
  cases settings.trigger with
  | none => simp
  | some trigger =>
    rw [Clean.ite_not_error_iff]
    exact ⟨fun h name he => Option.some.inj he ▸ h, fun h => h trigger rfl⟩

/-- The findings on settings are clean exactly when their names are fresh and
what they refer to is declared. -/
theorem clean_settingsFindings_iff {animations triggers taken : List String}
    {settings : List AnimationSettings} :
    Clean (settingsFindings animations triggers taken settings) ↔
      Fresh (·.name) taken settings ∧
        ∀ s ∈ settings, Clean (settingsReferences animations triggers s) := by
  induction settings generalizing taken with
  | nil => simp [settingsFindings]
  | cons s rest ih =>
    rw [settingsFindings, fresh_cons_iff, List.forall_mem_cons]
    split
    next hmem => simp [hmem]
    next hmem =>
      rw [Clean.append_iff, ih, and_iff_right hmem]
      exact and_left_comm

end Assembly

namespace Config

/-- The settings table of a configuration. -/
def settingsTable (config : Config) : List SettingsRow :=
  Assembly.settingsRows config (config.distinctAnimations.map (·.name))
    (config.distinctTriggers.map (·.name))

/-- What the results of a configuration refer to. -/
def resultScope (config : Config) : Assembly.ResultScope :=
  Assembly.resultScope config config.settingsTable

theorem build_results (config : Config) :
    (Assembly.build config).results = config.distinctResults.map config.resultScope.row := rfl

/-- What is found while the tables are built, table by table. -/
theorem build_recorded (config : Config) : (Assembly.build config).recorded =
    Assembly.nameFindings config ++
      Assembly.settingsFindings (config.distinctAnimations.map (·.name))
        (config.distinctTriggers.map (·.name)) (config.distinctAnimations.map (·.name))
        config.animationSettings ++
      config.distinctResults.flatMap config.resultScope.findings ++
      config.distinctTriggers.flatMap (Assembly.triggerScope config).findings ++
      config.layers.flatMap (Assembly.layerFindings config.distinctTriggers) ++
      config.distinctAnimations.flatMap
        (Animation.findings (Assembly.extentOf (config.pixels.map PixelMap.build))) := rfl

/-- Where the names of animations and settings are distinct, they are those of
the settings table. -/
theorem map_name_settingsTable {config : Config} (h : config.settingsNames.Nodup) :
    config.settingsTable.map (·.name) = config.settingsNames := by
  obtain ⟨ha, hs⟩ := config.nodup_settingsNames_iff.mp h
  have hfirst : config.distinctAnimations = config.animations := firstsBy_nil_eq_self ha
  rw [settingsTable, Assembly.settingsRows, hfirst, firstsBy_nil_eq_self ha, firstsBy_eq_self hs,
    List.map_append, List.map_map, List.map_map]
  rfl

end Config

end Keymap
