import Keymap.Description
import Keymap.Proofs.Document.Paths
import Keymap.Proofs.Lookup
import Keymap.Proofs.Tables

/-!
# The description of layers

The description of a layer has the triggers of every scan code with a list under the
scan code in base sixteen, while the listings have the lists of all scan codes between
two bounds and tables that lead to them. The trigger lists are those that are read from
the listings.
-/

namespace Keymap

open Listing (readLayerTables)

namespace Text

/-- A number below 256 behind `0x` with two digits in base sixteen. -/
def hexPair (n : Nat) : String := String.ofList ['0', 'x', hexDigit (n / 16), hexDigit (n % 16)]

/-- Numbers below 256 have two digits. -/
theorem hex_eq_hexPair {n : Nat} (h : n < 256) : hex n = hexPair n := by
  have hdigit : ∀ d < 16, Nat.toDigits 16 d = [Nat.digitChar d] := fun d hd =>
    Nat.toDigits_of_lt_base hd
  rw [hex, hexDigits, hexPair]
  rcases Nat.lt_or_ge n 16 with hlt | hge
  · rw [hdigit n hlt, Nat.div_eq_of_lt hlt, Nat.mod_eq_of_lt hlt]
    rfl
  · have hdigits : Nat.toDigits 16 n = [Nat.digitChar (n / 16), Nat.digitChar (n % 16)] := by
      have hsplit := Nat.toDigits_append_toDigits (b := 16) (by decide) (n := n / 16)
        (by omega) (Nat.mod_lt n (by decide))
      rw [Nat.div_add_mod, hdigit _ (by omega), hdigit _ (Nat.mod_lt n (by decide))] at hsplit
      exact hsplit.symm
    rw [hdigits]
    rfl

end Text

namespace Assembly

/-- A layer is described by the trigger lists that are read from its listings: under
every scan code with a list that is not empty stand the names of its triggers, and
nothing else is described. -/
structure DescribesLayer (a : Assembly) (n : Nat) : Prop where
  key : ∀ s ≤ a.config.maxScanCode.toNat,
    (a.describe.get? [.key "Layers", .index n, .key "triggers", .key (Text.hexPair s)]).isSome =
      true ↔ (readLayerTables a).lookUp n s ≠ []
  names : ∀ s ≤ a.config.maxScanCode.toNat, ∀ value,
    a.describe.get? [.key "Layers", .index n, .key "triggers", .key (Text.hexPair s)] =
      some value → ∃ names, value = .strings names ∧
        List.Forall₂ (fun index name => ∃ row, a.triggers[index]? = some row ∧ row.name = name)
          ((readLayerTables a).lookUp n s) names
  only : ∀ key,
    (a.describe.get? [.key "Layers", .index n, .key "triggers", .key key]).isSome = true →
      ∃ s ≤ a.config.maxScanCode.toNat, key = Text.hexPair s

end Assembly

namespace Description

open Json

variable {map : ScanMap}

/-- In the triggers of a layer, every scan code with a list leads to the names of its triggers. -/
theorem part?_layerTriggers_iff (symbols : SymbolIndex) (h : map.Ordered) {key : String}
    {value : Json} :
    (layerTriggers symbols map).part? (.key key) = some value ↔
      ∃ s, key = Text.hex s ∧ map.get s ≠ [] ∧
        value = strings ((map.get s).filterMap (symbols.name? .trigger)) := by
  have hmembers : layerTriggers symbols map = sortedObject (map.lists.map fun entry =>
      (Text.hex entry.1, strings (entry.2.filterMap (symbols.name? .trigger)))) := rfl
  have hkeys : ((map.lists.map fun entry =>
      (Text.hex entry.1, strings (entry.2.filterMap (symbols.name? .trigger)))).map
        (·.1)).Nodup := by
    -- the scan codes ascend, and no two numbers have one text
    rw [List.map_map, List.Nodup, List.pairwise_map]
    exact h.scanCodes.imp fun hlt he => Nat.ne_of_lt hlt (Text.hex_injective he)
  rw [hmembers, part?_sortedObject_iff hkeys, List.mem_map]
  constructor
  · rintro ⟨⟨s, triggers⟩, hmem, he⟩
    obtain ⟨rfl, rfl⟩ := Prod.mk.inj he
    obtain ⟨hne, rfl⟩ := (ScanMap.mem_lists_iff h).mp hmem
    exact ⟨s, rfl, hne, rfl⟩
  · rintro ⟨s, rfl, hne, rfl⟩
    exact ⟨(s, map.get s), (ScanMap.mem_lists_iff h).mpr ⟨hne, rfl⟩, rfl⟩

/-- The triggers of a layer stand under its number. -/
theorem get?_layers {a : Assembly} {n : Nat} {row : LayerRow} {declared : Config.Layer}
    (hrow : a.layers[n]? = some row) (hdeclared : a.config.layers[n]? = some declared)
    (key : String) :
    (layers a).get? [.index n, .key "triggers", .key key] =
      (layerTriggers a.symbols row.map).part? (.key key) := by
  have hzip : (a.layers.zip a.config.layers)[n]? = some (row, declared) :=
    List.getElem?_zip_eq_some.mpr ⟨hrow, hdeclared⟩
  have hitem : (layers a).part? (.index n) = some (layer a.symbols row declared) := by
    rw [layers, part?, List.getElem?_map, hzip, Option.map_some]
  have htriggers : (layer a.symbols row declared).part? (.key "triggers") =
      some (layerTriggers a.symbols row.map) := by
    have hnodup : ["name", "label", "sources", "triggers"].Nodup := by decide
    refine (part?_sortedObject ?_ _).trans rfl
    exact hnodup
  rw [get?, hitem, Option.bind_some, get?, htriggers, Option.bind_some, get?_singleton]

end Description

namespace Config

variable {config : Config}

/-- The name of a trigger is that of its row. -/
theorem exists_row_of_trigger (hd : config.DistinctNames) {index : Nat} {trigger : Trigger}
    (h : config.triggers[index]? = some trigger) :
    (Assembly.build config).symbols.name? .trigger index = some trigger.name ∧
      ∃ row, (Assembly.build config).triggers[index]? = some row ∧ row.name = trigger.name := by
  have hname : (Assembly.build config).symbols.name? .trigger index = some trigger.name := by
    rw [Assembly.name?_trigger_build, hd.distinctTriggers]
    exact ⟨trigger, h, rfl⟩
  have htable := Assembly.tableOf_triggers config
  have hlt : index < (Assembly.build config).triggers.length := by
    rw [htable.size]
    exact (List.getElem?_eq_some_iff.mp hname).1
  have hrow := List.getElem?_eq_getElem hlt
  exact ⟨hname, _, hrow, Option.some.inj ((htable.names index _ hrow).symm.trans hname)⟩

/-- The names of triggers are those of their rows, in their order. -/
theorem forall₂_names_of_triggers (hd : config.DistinctNames) {indices : List Nat}
    (h : ∀ index ∈ indices, ∃ trigger, config.triggers[index]? = some trigger) :
    List.Forall₂
      (fun index name =>
        ∃ row, (Assembly.build config).triggers[index]? = some row ∧ row.name = name)
      indices (indices.filterMap ((Assembly.build config).symbols.name? .trigger)) := by
  have hnamed : List.Forall₂
      (fun index name => (Assembly.build config).symbols.name? .trigger index = some name)
      indices (indices.filterMap ((Assembly.build config).symbols.name? .trigger)) := by
    refine forall₂_filterMap fun index hindex => ?_
    obtain ⟨trigger, htrigger⟩ := h index hindex
    exact ⟨_, (exists_row_of_trigger hd htrigger).1⟩
  refine forall₂_of_forall_mem h hnamed fun index name htrigger hname => ?_
  obtain ⟨trigger, htrigger⟩ := htrigger
  obtain ⟨hname', hrow⟩ := exists_row_of_trigger hd htrigger
  rwa [Option.some.inj (hname.symm.trans hname')]

/-- The layers of a configuration without errors are described. -/
theorem describesLayer_build (hw : config.WellFormed) {n : Nat}
    (hn : n < (Assembly.build config).layers.length) :
    (Assembly.build config).DescribesLayer n := by
  have hd := hw.distinctNames
  have hmax := hw.maxScanCode
  have hrow := List.getElem?_eq_getElem hn
  generalize (Assembly.build config).layers[n] = row at hrow
  obtain ⟨hordered, hlookUp, hfiled⟩ := lookUp_readLayerTables hw hrow
  obtain ⟨declared, hdeclared⟩ : ∃ declared, config.layers[n]? = some declared := by
    rw [config.build_layers, List.length_map] at hn
    exact ⟨_, List.getElem?_eq_getElem hn⟩
  have hfound : ∀ key value, (Assembly.build config).describe.get?
      [.key "Layers", .index n, .key "triggers", .key key] = some value ↔
        ∃ s, key = Text.hex s ∧ row.map.get s ≠ [] ∧ value = .strings
          ((row.map.get s).filterMap ((Assembly.build config).symbols.name? .trigger)) := by
    intro key value
    rw [← Description.part?_layerTriggers_iff _ hordered, ← Description.get?_layers hrow hdeclared]
    rfl
  have hpair : ∀ s ≤ config.maxScanCode.toNat, Text.hexPair s = Text.hex s := fun s hs =>
    (Text.hex_eq_hexPair (by omega)).symm
  refine ⟨fun s hs => ?_, fun s hs value hvalue => ?_, fun key hkey => ?_⟩
  · rw [hpair s hs, hlookUp, Option.isSome_iff_exists]
    constructor
    · rintro ⟨value, hvalue⟩
      obtain ⟨t, ht, hne, _⟩ := (hfound _ _).mp hvalue
      rwa [Text.hex_injective ht]
    · exact fun hne => ⟨_, (hfound _ _).mpr ⟨s, rfl, hne, rfl⟩⟩
  · rw [hpair s hs, hfound] at hvalue
    obtain ⟨t, ht, _, rfl⟩ := hvalue
    obtain rfl := Text.hex_injective ht
    refine ⟨_, rfl, ?_⟩
    rw [hlookUp]
    exact forall₂_names_of_triggers hd fun index hindex => (hfiled s index hindex).2
  -- a key stands for a list with a trigger, and the trigger bounds the scan code
  · obtain ⟨value, hvalue⟩ := Option.isSome_iff_exists.mp hkey
    obtain ⟨s, rfl, hne, _⟩ := (hfound _ _).mp hvalue
    obtain ⟨index, hindex⟩ := List.exists_mem_of_ne_nil _ hne
    have hs := (hfiled s index hindex).1
    exact ⟨s, hs, (hpair s hs).symm⟩

end Config

end Keymap
