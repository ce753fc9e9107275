import Keymap.Proofs.Acceptance
import Keymap.Proofs.Listing.Layers
import Keymap.Proofs.Symbols

/-!
# Looking up scan codes

Layers, scan codes and triggers meet in several tables that are generated one by
one: the trigger lists of the layers, the tables of these lists, and the index
that says at which scan code the lists of a layer begin. Whatever way is taken
through them, a scan code leads to the triggers that the layer binds and that
have an element with the number of that list.
-/

namespace Keymap

open Config (Layer Trigger TriggerElement)
open Listing (LayerTables layerIndexRows readLayerTables spans)

/-- The triggers of a layer and a scan code: the default layer has a list for
every scan code, a partial layer has one for those of its span. -/
def Assembly.lookUp (assembly : Assembly) (n scanCode : Nat) : List Nat :=
  if n = 0 then (Listing.defaultLists assembly)[scanCode]?.getD []
  else
    match assembly.layers[n]? with
    | some layer => layer.map.spanned scanCode
    | none => []

namespace Assembly

/-- The tables of the layers lead to the same triggers as the lists themselves. -/
theorem lookUp_layerTables (assembly : Assembly) {n : Nat} {layer : LayerRow}
    (hlayer : assembly.layers[n]? = some layer) (scanCode : Nat) :
    (LayerTables.of (spans assembly)).lookUp n scanCode = assembly.lookUp n scanCode := by
  rw [Listing.lookUp_of, Listing.getElem?_spans, lookUp, hlayer, Option.map_some]
  by_cases hn : n = 0
  · simp [hn]
  · simp only [if_neg hn]
    rw [ScanMap.spanned]
    obtain ⟨first, lists⟩ := layer.map.span
    simp only
    by_cases hfirst : first ≤ scanCode
    · by_cases hlast : scanCode < first + lists.length
      · rw [if_pos hfirst, if_pos ⟨hfirst, hlast⟩]
      · rw [if_pos hfirst, if_neg fun hin => hlast hin.2, List.getElem?_eq_none (by omega),
          Option.getD_none]
    · rw [if_neg hfirst, if_neg fun hin => hfirst hin.1]

/-- Where nothing is filed beyond the greatest scan code, the lists of a layer are
those of its map. -/
theorem lookUp_eq_get {assembly : Assembly} {n : Nat} {layer : LayerRow}
    (hlayer : assembly.layers[n]? = some layer) (hordered : layer.map.Ordered)
    (hmax : ∀ uid index, layer.map.Files uid index → uid ≤ assembly.config.maxScanCode.toNat)
    (scanCode : Nat) : assembly.lookUp n scanCode = layer.map.get scanCode := by
  rw [lookUp]
  by_cases hn : n = 0
  · subst hn
    rw [if_pos rfl, Listing.defaultLists_eq_dense hlayer, ScanMap.getElem?_dense, Nat.zero_add]
    split
    next => rfl
    next hout =>
      have hnone : ∀ index, index ∉ layer.map.get scanCode := fun index hindex =>
        hout (hmax _ index ((ScanMap.mem_get_iff hordered).mp hindex))
      exact (List.eq_nil_iff_forall_not_mem.mpr hnone).symm
  · rw [if_neg hn, hlayer]
    exact ScanMap.spanned_eq_get hordered scanCode

end Assembly

namespace Config

/-- A valid element that is no analog key has the number of exactly one list. -/
theorem TriggerElement.Valid.filedUnder {config : Config} (hd : config.DistinctNames)
    {element : TriggerElement} (h : element.Valid config) :
    (∃ code threshold, element = .analog code threshold) ∨
      ∃ uid, ∀ other, element.FiledUnder config other ↔ other = uid := by
  have hunique : ∀ {uid}, element.FiledUnder config uid →
      ∀ other, element.FiledUnder config other ↔ other = uid := by
    intro uid huid other
    rw [← Assembly.TriggerScope.listUid_eq_some_iff hd] at huid ⊢
    rw [huid, Option.some.injEq, eq_comm]
  cases element with
  | switch scanCode board state =>
    obtain ⟨offset, hat, _⟩ := h
    exact Or.inr ⟨_, hunique ⟨offset, hat, rfl⟩⟩
  | indicator code state => exact Or.inr ⟨_, hunique rfl⟩
  | layer n mode state => exact Or.inr ⟨_, hunique ⟨h.1, rfl⟩⟩
  | animation name event =>
    obtain ⟨index, hindex, _⟩ := h
    exact Or.inr ⟨index, hunique hindex⟩
  | analog code threshold => exact Or.inl ⟨code, threshold, rfl⟩
  | generic code uid param => exact Or.inr ⟨_, hunique rfl⟩

/-- Where there are no errors, the lists that are read from the listings of a layer are
those of its map, whose scan codes are no greater than the greatest one. -/
theorem lookUp_readLayerTables (hw : config.WellFormed) {n : Nat} {row : LayerRow}
    (hrow : (Assembly.build config).layers[n]? = some row) :
    row.map.Ordered ∧
      (∀ s, (readLayerTables (Assembly.build config)).lookUp n s = row.map.get s) ∧
      ∀ s index, index ∈ row.map.get s →
        s ≤ config.maxScanCode.toNat ∧ ∃ trigger, config.triggers[index]? = some trigger := by
  have hd := hw.distinctNames
  obtain ⟨layer, hlayer, rfl⟩ : ∃ layer, config.layers[n]? = some layer ∧
      Assembly.layerRow (Assembly.triggerScope config) config.distinctTriggers layer = row := by
    rwa [config.build_layers, List.getElem?_map, Option.map_eq_some_iff] at hrow
  have hordered := Assembly.ordered_layerRow (Assembly.triggerScope config)
    config.distinctTriggers layer
  have hmax := Validation.clean_scanCodeRange_iff.mp
    ((Validation.clean_layers_iff hd).mpr hw.layers).2 _ (List.mem_of_getElem? hrow)
  have htables : readLayerTables (Assembly.build config) =
      .of (Listing.spans (Assembly.build config)) :=
    Listing.readLayerTables_eq fun hnil => by simp [hnil] at hrow
  refine ⟨hordered, fun s => ?_, fun s index hindex => ?_⟩
  · rw [htables, Assembly.lookUp_layerTables _ hrow, Assembly.lookUp_eq_get hrow hordered hmax]
  · rw [ScanMap.mem_get_iff hordered] at hindex
    obtain ⟨trigger, htrigger, _⟩ := (Assembly.files_layerRow_iff_fires hd).mp hindex
    exact ⟨hmax _ _ hindex, trigger, htrigger⟩

/-- A name resolves to the trigger that has it. -/
theorem resolve_trigger_eq_some_iff {config : Config} (hd : config.DistinctNames) {name : String}
    {index : Nat} :
    (Assembly.build config).symbols.resolve .trigger name = some index ↔
      ∃ trigger, config.triggers[index]? = some trigger ∧ trigger.name = name := by
  rw [Assembly.resolve_build_eq_some_iff, Assembly.name?_trigger_build, hd.distinctTriggers]

/-- A layer fires a trigger through a list exactly if a name that it binds resolves
to the trigger and the trigger has an element with the number of the list. -/
theorem fires_iff_resolve {config : Config} (hd : config.DistinctNames) {layer : Layer}
    {uid index : Nat} :
    config.Fires layer uid index ↔
      ∃ name ∈ layer.triggers, (Assembly.build config).symbols.resolve .trigger name = some index ∧
        ∃ trigger, config.triggers[index]? = some trigger ∧
          ∃ element ∈ trigger.sequence.flatten, element.FiledUnder config uid := by
  simp only [resolve_trigger_eq_some_iff hd]
  constructor
  · rintro ⟨trigger, htrigger, hname, helement⟩
    exact ⟨trigger.name, hname, ⟨trigger, htrigger, rfl⟩, trigger, htrigger, helement⟩
  · rintro ⟨_, hname, ⟨trigger, htrigger, rfl⟩, other, hother, helement⟩
    obtain rfl := Option.some.inj (htrigger.symm.trans hother)
    exact ⟨trigger, htrigger, hname, helement⟩

/-- Where the report has no errors, looking up a scan code in a layer leads, in
ascending order, to exactly the triggers that a name bound on the layer resolves to
and that have an element with the number of that list. Every element of a bound
trigger has such a number up to the greatest scan code, unless it is an analog key.
The listings hold the tables of the layers: every trigger list behind its own
length, every table with the names of its lists in order, and the index with the
first scan codes. Looking up in the tables that are read from the listings leads
to the same triggers. -/
theorem lookUp_eq_bindings {config : Config} (h : config.check.hasErrors = false) {n : Nat}
    {layer : Layer} (hlayer : config.layers[n]? = some layer) :
    (∀ scanCode, ((Assembly.build config).lookUp n scanCode).Pairwise (· < ·) ∧
      ∀ index, index ∈ (Assembly.build config).lookUp n scanCode ↔
        ∃ name ∈ layer.triggers,
          (Assembly.build config).symbols.resolve .trigger name = some index ∧
          ∃ trigger, config.triggers[index]? = some trigger ∧
            ∃ element ∈ trigger.sequence.flatten, element.FiledUnder config scanCode) ∧
    (∀ name ∈ layer.triggers, ∃ index trigger,
      (Assembly.build config).symbols.resolve .trigger name = some index ∧
      config.triggers[index]? = some trigger ∧
      ∀ element ∈ trigger.sequence.flatten,
        (∃ code threshold, element = .analog code threshold) ∨
        ∃ uid ≤ config.maxScanCode.toNat, ∀ other, element.FiledUnder config other ↔ other = uid) ∧
    Listing.layerIndex (Assembly.build config) =
      Listing.table "const Layer LayerIndex[]" (layerIndexRows (Assembly.build config)) ∧
    readLayerTables (Assembly.build config) = .of (spans (Assembly.build config)) ∧
    ∀ scanCode, (readLayerTables (Assembly.build config)).lookUp n scanCode =
      (Assembly.build config).lookUp n scanCode := by
  have hw := WellFormed.of_check h
  have hd := hw.distinctNames
  have hvalid := hw.layers layer (List.mem_of_getElem? hlayer)
  have hrow : (Assembly.build config).layers[n]? =
      some (Assembly.layerRow (Assembly.triggerScope config) config.distinctTriggers layer) := by
    have hlayers : (Assembly.build config).layers = config.layers.map
        (Assembly.layerRow (Assembly.triggerScope config) config.distinctTriggers) := rfl
    rw [hlayers, List.getElem?_map, hlayer, Option.map_some]
  have hordered := Assembly.ordered_layerRow (Assembly.triggerScope config)
    config.distinctTriggers layer
  have hget := Assembly.lookUp_eq_get hrow hordered <|
    Validation.clean_scanCodeRange_iff.mp ((Validation.clean_layers_iff hd).mpr hw.layers).2 _
      (List.mem_of_getElem? hrow)
  have htables : readLayerTables (Assembly.build config) = .of (spans (Assembly.build config)) :=
    Listing.readLayerTables_eq fun hnil => by simp [hnil] at hrow
  refine ⟨fun scanCode => ⟨?_, fun index => ?_⟩, fun name hname => ?_, rfl, htables,
    fun scanCode => ?_⟩
  · rw [hget]
    exact ScanMap.pairwise_get hordered scanCode
  · rw [hget, ScanMap.mem_get_iff hordered, Assembly.files_layerRow_iff_fires hd,
      fires_iff_resolve hd]
  · obtain ⟨trigger, htrigger, rfl, hrange⟩ := hvalid name hname
    obtain ⟨index, hindex⟩ := List.getElem?_of_mem htrigger
    refine ⟨index, trigger, (resolve_trigger_eq_some_iff hd).mpr ⟨trigger, hindex, rfl⟩, hindex,
      fun element helement => ?_⟩
    obtain ⟨step, hstep, hmem⟩ := List.mem_flatten.mp helement
    have helementValid := (hw.triggers trigger htrigger).elements step hstep element hmem
    refine (helementValid.filedUnder hd).imp_right fun ⟨uid, huid⟩ => ?_
    exact ⟨uid, hrange element helement uid ((huid uid).mpr rfl), huid⟩
  · rw [htables, Assembly.lookUp_layerTables _ hrow]

/-- The second layer finds the last trigger under the scan code five, where its map does not
begin at zero. -/
theorem lookUp_eq_bindings_sample :
    sample.check.hasErrors = false ∧
      sample.layers[1]? = some ⟨"function", [], ["again", "S5"]⟩ ∧
      3 ∈ (readLayerTables (Assembly.build sample)).lookUp 1 5 := by
  have hlayer : sample.layers[1]? = some ⟨"function", [], ["again", "S5"]⟩ := rfl
  have h := lookUp_eq_bindings check_sample hlayer
  refine ⟨check_sample, hlayer, ?_⟩
  rw [h.2.2.2.2, (h.1 5).2]
  exact ⟨"S5", by decide, by decide, _, rfl, .switch 5 0 .hold, List.mem_cons_self .., 0,
    Or.inr ⟨by decide, rfl, rfl⟩, rfl⟩

end Config

end Keymap
