import Keymap.Proofs.Acceptance.Triggers
import Keymap.Proofs.ScanMap

/-!
# Accepted layers

What a layer files under a scan code are the triggers that it binds and that
have an element with the number of that list. From this follows when the
findings on the bindings of layers are clean, and when the check of the greatest
scan code is.
-/

namespace Keymap

open Config (Layer Trigger)

/-- A layer binds a trigger with an element that fires through a list. -/
def Config.Fires (config : Config) (layer : Layer) (uid index : Nat) : Prop :=
  ∃ trigger, config.triggers[index]? = some trigger ∧ trigger.name ∈ layer.triggers ∧
    ∃ element ∈ trigger.sequence.flatten, element.FiledUnder config uid

theorem Config.build_layers (config : Config) :
    (Assembly.build config).layers = config.layers.map
      (Assembly.layerRow (Assembly.triggerScope config) config.distinctTriggers) := rfl

namespace Assembly

/-- Filing a trigger adds it to the lists of its elements and to no others. -/
theorem files_file {scope : TriggerScope} {map : ScanMap} {binding : Nat × Trigger}
    {uid index : Nat} :
    (file scope map binding).Files uid index ↔
      map.Files uid index ∨
        index = binding.1 ∧ ∃ element ∈ elements binding.2, scope.listUid element = some uid := by
  have hgeneral : ∀ (uids : List Nat) (map : ScanMap),
      (uids.foldl (fun map uid => map.insert uid binding.1) map).Files uid index ↔
        map.Files uid index ∨ index = binding.1 ∧ uid ∈ uids := by
    intro uids
    induction uids with
    | nil => simp
    | cons first rest ih =>
      intro map
      rw [List.foldl_cons, ih, ScanMap.files_insert, List.mem_cons]
      tauto
  rw [file, hgeneral, List.mem_filterMap]

/-- Filing keeps a map ordered. -/
theorem ordered_file {scope : TriggerScope} {map : ScanMap} (h : map.Ordered)
    (binding : Nat × Trigger) : (file scope map binding).Ordered := by
  have hgeneral : ∀ (uids : List Nat) (map : ScanMap), map.Ordered →
      (uids.foldl (fun map uid => map.insert uid binding.1) map).Ordered := by
    intro uids
    induction uids with
    | nil => exact fun _ h => h
    | cons first rest ih => exact fun map h => ih _ (h.insert first binding.1)
  exact hgeneral _ map h

private theorem files_foldl {scope : TriggerScope} {bindings : List (Nat × Trigger)}
    {map : ScanMap} {uid index : Nat} :
    (bindings.foldl (file scope) map).Files uid index ↔
      map.Files uid index ∨ ∃ binding ∈ bindings, index = binding.1 ∧
        ∃ element ∈ elements binding.2, scope.listUid element = some uid := by
  induction bindings generalizing map with
  | nil => simp
  | cons binding rest ih =>
    rw [List.foldl_cons, ih, files_file]
    simp only [List.mem_cons, exists_eq_or_imp, or_assoc]

/-- A layer files a trigger under a number exactly if it binds the trigger and
an element of it has the list with that number. -/
theorem files_layerRow {scope : TriggerScope} {triggers : List Trigger} {layer : Layer}
    {uid index : Nat} :
    (layerRow scope triggers layer).map.Files uid index ↔
      ∃ trigger, (index, trigger) ∈ bound triggers layer ∧
        ∃ element ∈ elements trigger, scope.listUid element = some uid := by
  have hempty : ¬ ScanMap.empty.Files uid index := fun ⟨_, h, _⟩ => absurd h List.not_mem_nil
  rw [layerRow, files_foldl, or_iff_right hempty]
  constructor
  · rintro ⟨binding, hmem, rfl, h⟩
    exact ⟨binding.2, hmem, h⟩
  · rintro ⟨trigger, hmem, h⟩
    exact ⟨(index, trigger), hmem, rfl, h⟩

/-- The map of a layer is ordered. -/
theorem ordered_layerRow (scope : TriggerScope) (triggers : List Trigger) (layer : Layer) :
    (layerRow scope triggers layer).map.Ordered := by
  have hgeneral : ∀ (bindings : List (Nat × Trigger)) (map : ScanMap), map.Ordered →
      (bindings.foldl (file scope) map).Ordered := by
    intro bindings
    induction bindings with
    | nil => exact fun _ h => h
    | cons binding rest ih => exact fun map h => ih _ (ordered_file h binding)
  exact hgeneral _ _ ScanMap.ordered_empty

/-- A layer binds the triggers whose names it lists, each with its own index. -/
theorem mem_bound_iff {triggers : List Trigger} (h : (triggers.map (·.name)).Nodup)
    {layer : Layer} {index : Nat} {trigger : Trigger} :
    (index, trigger) ∈ bound triggers layer ↔
      triggers[index]? = some trigger ∧ trigger.name ∈ layer.triggers := by
  simp only [bound, List.mem_filterMap, locateBy_eq_some_iff h]
  constructor
  · rintro ⟨name, hname, hget, rfl⟩
    exact ⟨hget, hname⟩
  · rintro ⟨hget, hname⟩
    exact ⟨trigger.name, hname, hget, rfl⟩

/-- A layer files a trigger under a number exactly if it fires it through that list. -/
theorem files_layerRow_iff_fires {config : Config} (hd : config.DistinctNames) {layer : Layer}
    {uid index : Nat} :
    (layerRow (triggerScope config) config.distinctTriggers layer).map.Files uid index ↔
      config.Fires layer uid index := by
  rw [files_layerRow, hd.distinctTriggers]
  simp only [mem_bound_iff hd.triggers, elements, TriggerScope.listUid_eq_some_iff hd,
    Config.Fires, and_assoc]

/-- The findings on the bindings of a layer are clean exactly when all names that
it binds are those of triggers. -/
theorem clean_layerFindings_iff {triggers : List Trigger} {layer : Layer} :
    Clean (layerFindings triggers layer) ↔
      ∀ name ∈ layer.triggers, name ∈ triggers.map (·.name) := by
  rw [layerFindings, Clean.map_error_iff, List.filter_eq_nil_iff]
  simp only [Option.isNone_iff_eq_none, locateBy_eq_none_iff, not_not]

end Assembly

namespace Validation

/-- What is filed beyond the greatest scan code is what some layer files there. -/
theorem mem_map_filedBeyond_iff {max : Nat} {layers : List LayerRow} {index uid : Nat} :
    (index, uid) ∈ (filedBeyond max layers).map (·.1) ↔
      max < uid ∧ ∃ layer ∈ layers, layer.map.Files uid index := by
  rw [List.mem_map]
  constructor
  · rintro ⟨⟨pair, name⟩, hmem, rfl⟩
    obtain ⟨layer, hlayer, hmem⟩ := List.mem_flatMap.mp hmem
    obtain ⟨⟨code, triggers⟩, hentry, hmem⟩ := List.mem_flatMap.mp hmem
    obtain ⟨hentry, hlt⟩ := List.mem_filter.mp hentry
    obtain ⟨trigger, htrigger, he⟩ := List.mem_map.mp hmem
    simp only [Prod.mk.injEq] at he
    obtain ⟨⟨rfl, rfl⟩, rfl⟩ := he
    exact ⟨of_decide_eq_true hlt, layer, hlayer, triggers, hentry, htrigger⟩
  · rintro ⟨hlt, layer, hlayer, triggers, hentry, hindex⟩
    refine ⟨((index, uid), layer.name), ?_, rfl⟩
    refine List.mem_flatMap.mpr ⟨layer, hlayer, List.mem_flatMap.mpr ⟨(uid, triggers), ?_, ?_⟩⟩
    · exact List.mem_filter.mpr ⟨hentry, decide_eq_true hlt⟩
    · exact List.mem_map.mpr ⟨index, hindex, rfl⟩

/-- The check of the greatest scan code is clean exactly when nothing is filed beyond it. -/
theorem clean_scanCodeRange_iff {assembly : Assembly} :
    Clean (scanCodeRange assembly) ↔
      ∀ layer ∈ assembly.layers, ∀ uid index, layer.map.Files uid index →
        uid ≤ assembly.config.maxScanCode.toNat := by
  rw [scanCodeRange, Clean.map_error_iff, firstsBy_nil_eq_nil_iff,
    ← List.map_eq_nil_iff (f := (·.1)), List.eq_nil_iff_forall_not_mem, Prod.forall]
  simp only [mem_map_filedBeyond_iff]
  constructor
  · intro hnone layer hlayer uid index hfiles
    refine Nat.le_of_not_lt fun hlt => ?_
    exact hnone index uid ⟨hlt, layer, hlayer, hfiles⟩
  · rintro hall index uid ⟨hlt, layer, hlayer, hfiles⟩
    exact absurd hlt (Nat.not_lt.mpr (hall layer hlayer uid index hfiles))

/-- All checks of the bindings of layers are clean exactly when the layers are valid. -/
theorem clean_layers_iff {config : Config} (hd : config.DistinctNames) :
    Clean (config.layers.flatMap (Assembly.layerFindings config.distinctTriggers)) ∧
        Clean (scanCodeRange (Assembly.build config)) ↔
      ∀ layer ∈ config.layers, layer.Valid config := by
  have hmax : (Assembly.build config).config.maxScanCode = config.maxScanCode := rfl
  rw [Clean.flatMap_iff, clean_scanCodeRange_iff, config.build_layers, List.forall_mem_map,
    hmax]
  simp only [Assembly.clean_layerFindings_iff, Assembly.files_layerRow_iff_fires hd]
  rw [← forall₂_and]
  refine forall₂_congr fun layer _ => ?_
  rw [hd.distinctTriggers]
  constructor
  · rintro ⟨hnames, hrange⟩ name hname
    obtain ⟨trigger, htrigger, rfl⟩ := List.mem_map.mp (hnames name hname)
    obtain ⟨index, hindex⟩ := List.getElem?_of_mem htrigger
    refine ⟨trigger, htrigger, rfl, fun element helement uid hfiled => ?_⟩
    exact hrange uid index ⟨trigger, hindex, hname, element, helement, hfiled⟩
  · intro hvalid
    constructor
    · intro name hname
      obtain ⟨trigger, htrigger, hn, _⟩ := hvalid name hname
      exact List.mem_map.mpr ⟨trigger, htrigger, hn⟩
    · rintro uid index ⟨trigger, hindex, hname, element, helement, hfiled⟩
      obtain ⟨other, hother, hn, hrange⟩ := hvalid _ hname
      obtain ⟨j, hj⟩ := List.getElem?_of_mem hother
      obtain ⟨_, rfl⟩ := eq_of_nodup_map hd.triggers hj hindex hn
      exact hrange element helement uid hfiled

end Validation

end Keymap
