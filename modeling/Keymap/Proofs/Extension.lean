import Keymap.Proofs.Acceptance
import Keymap.Proofs.Extension.Scopes
import Keymap.Proofs.Symbols

/-!
# Configurations that are extended

Declarations that are added at the end of a configuration without errors change
nothing in its tables: every index and every guide stays, and what is new comes
behind. A late declaration cannot capture an earlier reference, because in a
configuration without errors every reference has been resolved already, and of
several declarations with one name the first counts.
-/

namespace Keymap

open Config (Layer Trigger)

namespace Config

/-- Declarations that come behind those of a configuration. -/
structure Additions where
  capabilities : List Capability := []
  results : List Result := []
  triggers : List Trigger := []
  layers : List Layer := []
  animationSettings : List AnimationSettings := []

/-- The configuration with further declarations behind its own. -/
def extended (config : Config) (added : Additions) : Config :=
  { config with
    capabilities := config.capabilities ++ added.capabilities
    results := config.results ++ added.results
    triggers := config.triggers ++ added.triggers
    layers := config.layers ++ added.layers
    animationSettings := config.animationSettings ++ added.animationSettings }

end Config

/-- Every guide still has its number and its combos, and its users come first. -/
def KeepsGuides (guides others : List SharedGuide) : Prop :=
  ∀ (i : Nat) (guide : SharedGuide), guides[i]? = some guide →
    ∃ other : SharedGuide, others[i]? = some other ∧ other.combos = guide.combos ∧
      guide.users <+: other.users

/-- The tables of an assembly are the first rows of the tables of another, and the names
that are declared for it have the same indices there. -/
structure Assembly.Begins (assembly other : Assembly) : Prop where
  capabilities : assembly.capabilities <+: other.capabilities
  results : assembly.results <+: other.results
  guides : KeepsGuides assembly.guides other.guides
  triggers : assembly.triggers <+: other.triggers
  settings : assembly.settings <+: other.settings
  layers : assembly.layers <+: other.layers
  resolve : ∀ kind, ∀ name ∈ Assembly.declaredNames assembly.config kind,
    other.symbols.resolve kind name = assembly.symbols.resolve kind name

section Guides

theorem keepsGuides_refl (guides : List SharedGuide) : KeepsGuides guides guides :=
  fun _ guide h => ⟨guide, h, rfl, List.prefix_refl _⟩

theorem KeepsGuides.trans {first second third : List SharedGuide} (h : KeepsGuides first second)
    (h' : KeepsGuides second third) : KeepsGuides first third := by
  intro i guide hguide
  obtain ⟨shared, hshared, hcombos, husers⟩ := h i guide hguide
  obtain ⟨other, hother, hcombos', husers'⟩ := h' i shared hshared
  exact ⟨other, hother, hcombos'.trans hcombos, husers.trans husers'⟩

namespace Assembly

/-- A trigger more keeps the guides. -/
theorem keepsGuides_share (guides : List SharedGuide) (name : String)
    (combos : Guide.TriggerCombos) : KeepsGuides guides (share guides name combos).1 := by
  intro i guide hguide
  rw [share]
  split
  next j _ =>
    dsimp only
    rw [List.getElem?_modify, hguide]
    refine ⟨_, rfl, ?_⟩
    dsimp only
    by_cases hji : j = i
    · rw [if_pos hji]
      exact ⟨rfl, List.prefix_append _ _⟩
    · rw [if_neg hji]
      exact ⟨rfl, List.prefix_refl _⟩
  next =>
    have hlt := (List.getElem?_eq_some_iff.mp hguide).1
    dsimp only
    rw [List.getElem?_append_left hlt]
    exact ⟨guide, hguide, rfl, List.prefix_refl _⟩

variable {scope other : TriggerScope} {results others : List String}

/-- Compiling further triggers keeps the guides. -/
theorem keepsGuides_shareAll (guides : List SharedGuide) (triggers : List Trigger) :
    KeepsGuides guides (shareAll scope results guides triggers).1 := by
  induction triggers generalizing guides with
  | nil => exact keepsGuides_refl guides
  | cons trigger rest ih =>
    exact (keepsGuides_share guides trigger.name (scope.combos trigger)).trans (ih _)

/-- More triggers are compiled from the guides of those before them. -/
theorem shareAll_append (guides : List SharedGuide) (triggers more : List Trigger) :
    shareAll scope results guides (triggers ++ more) =
      let (shared, rows) := shareAll scope results guides triggers
      let (all, later) := shareAll scope results shared more
      (all, rows ++ later) := by
  induction triggers generalizing guides with
  | nil => rfl
  | cons trigger rest ih =>
    rw [List.cons_append, shareAll, shareAll]
    dsimp only
    rw [ih]
    rfl

/-- Triggers that are compiled to the same combos and have their results at the
same places have the same guides and rows. -/
theorem shareAll_congr {triggers : List Trigger}
    (hcombos : ∀ trigger ∈ triggers, other.combos trigger = scope.combos trigger)
    (hresults : ∀ trigger ∈ triggers,
      others.idxOf? trigger.result = results.idxOf? trigger.result)
    (guides : List SharedGuide) :
    shareAll other others guides triggers = shareAll scope results guides triggers := by
  induction triggers generalizing guides with
  | nil => rfl
  | cons trigger rest ih =>
    rw [List.forall_mem_cons] at hcombos hresults
    rw [shareAll, shareAll, hcombos.1, hresults.1]
    dsimp only
    rw [ih hcombos.2 hresults.2]

end Assembly

end Guides

section Layers

namespace Assembly

variable {scope other : TriggerScope} {triggers others : List Trigger} {layer : Layer}

/-- A layer that binds declared triggers binds the same ones among more triggers. -/
theorem bound_eq (h : triggers <+: others) (hclean : Clean (layerFindings triggers layer)) :
    bound others layer = bound triggers layer := by
  refine List.filterMap_congr fun name hname => ?_
  have hmem := clean_layerFindings_iff.mp hclean name hname
  cases hl : locateBy (fun trigger : Trigger => trigger.name) name 0 triggers with
  | none => exact absurd hmem (locateBy_eq_none_iff.mp hl)
  | some found => exact locateBy_mono h hl

/-- A layer has the same row where the triggers that it binds stay the same. -/
theorem layerRow_eq (hscope : scope.Begins other) (htriggers : triggers <+: others)
    (hclean : ∀ trigger ∈ triggers, Clean (scope.findings trigger))
    (hlayer : Clean (layerFindings triggers layer)) :
    layerRow other others layer = layerRow scope triggers layer := by
  have hfile : ∀ (map : ScanMap) (binding : Nat × Trigger), binding ∈ bound triggers layer →
      file other map binding = file scope map binding := by
    rintro map ⟨index, trigger⟩ hbinding
    obtain ⟨name, _, hl⟩ := List.mem_filterMap.mp hbinding
    have hmem := List.mem_of_getElem? (getElem?_of_locateBy hl).2.1
    exact hscope.file_eq (hclean trigger hmem) map index
  rw [layerRow, layerRow, bound_eq htriggers hlayer, List.foldl_ext _ _ _ hfile]

end Assembly

end Layers

namespace Config

section Scopes

variable (config : Config) (added : Additions)

/-- The triggers that count come first among those of an extended configuration. -/
theorem prefix_distinctTriggers :
    config.distinctTriggers <+: (config.extended added).distinctTriggers :=
  prefix_firstsBy_append [] config.triggers added.triggers

/-- The triggers of an extended configuration have the same scope, with perhaps more layers. -/
theorem triggerScope_begins :
    (Assembly.triggerScope config).Begins (Assembly.triggerScope (config.extended added)) where
  offsets := rfl
  layerCount := (List.prefix_append config.layers added.layers).length_le
  animations := List.prefix_refl _

/-- A declared name has the same index in an extended configuration. -/
theorem resolve_extended (kind : SymbolKind) {name : String}
    (hname : name ∈ Assembly.declaredNames config kind) :
    (Assembly.build (config.extended added)).symbols.resolve kind name =
      (Assembly.build config).symbols.resolve kind name := by
  have hdeclared : Assembly.declaredNames config kind <+:
      Assembly.declaredNames (config.extended added) kind := by
    cases kind with
    | capability => exact (List.prefix_append config.capabilities added.capabilities).map _
    | trigger => exact (List.prefix_append config.triggers added.triggers).map _
    | result => exact (List.prefix_append config.results added.results).map _
    | pixel => exact List.prefix_refl _
    | animation => exact List.prefix_refl _
  obtain ⟨more, hmore⟩ := hdeclared
  have hnames : (Assembly.build config).symbols.names kind <+:
      (Assembly.build (config.extended added)).symbols.names kind := by
    rw [Assembly.names_symbols_build, Assembly.names_symbols_build, ← hmore]
    exact prefix_firstsBy_append [] _ more
  have hmem := ((Assembly.firstOccurrences_build config kind).mem_iff name).mpr hname
  rw [Assembly.resolve_symbols_build, Assembly.resolve_symbols_build]
  exact idxOf?_eq_of_mem hnames hmem

end Scopes

variable {config : Config} (h : config.WellFormed) (added : Additions)
include h

/-- The settings table of an extended configuration begins with that of the configuration. -/
theorem prefix_settingsTable : config.settingsTable <+: (config.extended added).settingsTable := by
  have hd := h.distinctNames
  have htriggers := (prefix_distinctTriggers config added).map (·.name)
  have hkept : firstsBy (·.name) (config.distinctAnimations.map (·.name))
      config.animationSettings = config.animationSettings := by
    rw [hd.distinctAnimations]
    exact firstsBy_eq_self (config.nodup_settingsNames_iff.mp h.settingsNames).2
  have hrows : config.animationSettings.map
        (Assembly.declaredRow (config.distinctAnimations.map (·.name))
          ((config.extended added).distinctTriggers.map (·.name))) =
      config.animationSettings.map
        (Assembly.declaredRow (config.distinctAnimations.map (·.name))
          (config.distinctTriggers.map (·.name))) := by
    refine List.map_congr_left fun settings hsettings => ?_
    rw [Assembly.declaredRow, Assembly.declaredRow]
    cases hs : settings.trigger with
    | none => rfl
    | some name =>
      have hmem : name ∈ config.distinctTriggers.map (·.name) := by
        rw [hd.distinctTriggers]
        exact (h.settings settings hsettings).trigger name hs
      rw [Option.bind_some, Option.bind_some, idxOf?_eq_of_mem htriggers hmem]
  have hfirst : firstsBy (·.name) (config.distinctAnimations.map (·.name))
        config.animationSettings <+:
      firstsBy (·.name) (config.distinctAnimations.map (·.name))
        (config.animationSettings ++ added.animationSettings) :=
    prefix_firstsBy_append _ _ _
  rw [hkept] at hfirst
  rw [settingsTable, settingsTable, Assembly.settingsRows, Assembly.settingsRows, hkept, ← hrows]
  exact (List.prefix_append_right_inj _).mpr (hfirst.map _)

/-- The results of an extended configuration have all that they had in their scope. -/
theorem resultScope_begins : config.resultScope.Begins (config.extended added).resultScope where
  capabilities := prefix_firstsBy_append [] config.capabilities added.capabilities
  settings := (prefix_settingsTable h added).map _
  routing := rfl
  layerCount := (List.prefix_append config.layers added.layers).length_le

/-- The result table begins with the rows that the results had. -/
theorem prefix_results :
    (Assembly.build config).results <+: (Assembly.build (config.extended added)).results := by
  have hclean : ∀ result ∈ config.distinctResults, Clean (config.resultScope.findings result) :=
    Clean.flatMap_iff.mp ((clean_results_iff h.distinctNames h.settingsNames).mpr h.results)
  have hrows : config.distinctResults.map (config.extended added).resultScope.row =
      config.distinctResults.map config.resultScope.row :=
    List.map_congr_left fun result hresult =>
      (resultScope_begins h added).row_eq (hclean result hresult)
  have hresults : config.distinctResults <+: (config.extended added).distinctResults :=
    prefix_firstsBy_append [] config.results added.results
  rw [build_results, build_results, ← hrows]
  exact hresults.map _

/-- The findings on the triggers that count are clean. -/
theorem clean_distinctTriggers :
    ∀ trigger ∈ config.distinctTriggers,
      Clean ((Assembly.triggerScope config).findings trigger) :=
  Clean.flatMap_iff.mp ((clean_triggers_iff h.distinctNames).mpr h.triggers).1

/-- The guides are kept, and the trigger table begins with the rows that the triggers had. -/
theorem keepsGuides_and_prefix_triggers :
    KeepsGuides (Assembly.build config).guides
        (Assembly.build (config.extended added)).guides ∧
      (Assembly.build config).triggers <+:
        (Assembly.build (config.extended added)).triggers := by
  obtain ⟨more, hmore⟩ := prefix_distinctTriggers config added
  have hcombos : ∀ trigger ∈ config.distinctTriggers,
      (Assembly.triggerScope (config.extended added)).combos trigger =
        (Assembly.triggerScope config).combos trigger := fun trigger htrigger =>
    (triggerScope_begins config added).combos_eq (clean_distinctTriggers h trigger htrigger)
  have hresults : ∀ trigger ∈ config.distinctTriggers,
      ((config.extended added).distinctResults.map (·.name)).idxOf? trigger.result =
        (config.distinctResults.map (·.name)).idxOf? trigger.result := by
    intro trigger htrigger
    rw [h.distinctNames.distinctTriggers] at htrigger
    have hmem : trigger.result ∈ config.distinctResults.map (·.name) := by
      rw [h.distinctNames.distinctResults]
      exact (h.triggers trigger htrigger).result
    exact idxOf?_eq_of_mem
      ((prefix_firstsBy_append [] config.results added.results).map _) hmem
  have hbuild : ∀ config : Config,
      ((Assembly.build config).guides, (Assembly.build config).triggers) =
        Assembly.shareAll (Assembly.triggerScope config) (config.distinctResults.map (·.name)) []
          config.distinctTriggers := fun _ => rfl
  have hall := hbuild (config.extended added)
  rw [← hmore, Assembly.shareAll_append, Assembly.shareAll_congr hcombos hresults,
    ← hbuild config] at hall
  dsimp only at hall
  obtain ⟨hguides, htriggers⟩ := Prod.mk.inj hall
  rw [hguides, htriggers]
  exact ⟨Assembly.keepsGuides_shareAll _ _, List.prefix_append _ _⟩

/-- The layer table begins with the rows that the layers had. -/
theorem prefix_layers :
    (Assembly.build config).layers <+: (Assembly.build (config.extended added)).layers := by
  have hlayers := (Validation.clean_layers_iff h.distinctNames).mpr h.layers
  have hrows : config.layers.map
        (Assembly.layerRow (Assembly.triggerScope (config.extended added))
          (config.extended added).distinctTriggers) =
      config.layers.map
        (Assembly.layerRow (Assembly.triggerScope config) config.distinctTriggers) :=
    List.map_congr_left fun layer hlayer =>
      Assembly.layerRow_eq (triggerScope_begins config added)
        (prefix_distinctTriggers config added) (clean_distinctTriggers h)
        (Clean.flatMap_iff.mp hlayers.1 layer hlayer)
  rw [build_layers, build_layers, ← hrows]
  exact (List.prefix_append config.layers added.layers).map _

end Config

/-- Whatever is added behind the declarations of a configuration without errors, with
or without errors of its own: the tables begin with the rows that they had, every guide
keeps its number and bytes and gets its further users behind those it had, and the
declared names keep their indices. -/
theorem Config.begins_extended {config : Config} (h : config.check.hasErrors = false)
    (added : Config.Additions) :
    (Assembly.build config).Begins (Assembly.build (config.extended added)) := by
  have hw := Config.WellFormed.of_check h
  have htriggers := Config.keepsGuides_and_prefix_triggers hw added
  exact
    { capabilities := prefix_firstsBy_append [] config.capabilities added.capabilities
      results := Config.prefix_results hw added
      guides := htriggers.1
      triggers := htriggers.2
      settings := Config.prefix_settingsTable hw added
      layers := Config.prefix_layers hw added
      resolve := fun kind _ hname => Config.resolve_extended config added kind hname }

/-- Declarations under names that the sample has already, with references to nothing and
a trigger that shares a guide of the sample. -/
def Config.careless : Config.Additions where
  capabilities := [⟨"usbKeyOut", "other", [], .none⟩]
  results := [⟨"AB", []⟩, ⟨"late", [[.animation "missing"]]⟩]
  triggers := [⟨"S2", [], "late"⟩, ⟨"S9", [[.switch 2 0 .press]], "missing"⟩]
  layers := [⟨"default", [], ["S9", "nobody"]⟩]
  animationSettings := [⟨"glow", "missing", some "S9", {}⟩]

/-- The additions redeclare a capability, a result and a trigger, refer to what is not there
and use a guide of the sample once more: the report has errors, and the tables begin as before. -/
theorem Config.begins_extended_careless :
    sample.check.hasErrors = false ∧ (sample.extended careless).check.hasErrors = true ∧
      (Assembly.build sample).Begins (Assembly.build (sample.extended careless)) :=
  ⟨check_sample, by decide +kernel, begins_extended check_sample careless⟩

end Keymap
