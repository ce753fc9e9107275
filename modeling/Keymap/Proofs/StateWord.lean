import Keymap.Proofs.Lookup
import Mathlib.Data.List.Perm.Subperm

/-!
# Trigger lists and the state word

A trigger list is an array of state words: its length, and then the indices of its
triggers in ascending order. Where the report has no errors, the triggers are no more
than a state word has values. So every index fits, and so does the length of every
list but one: a list of as many triggers as the word has values has a length that
needs one bit more. The check of the state word counts the triggers and does not see
this list.
-/

namespace Keymap

open Config (Trigger TriggerElement)
open Listing (readLayerTables)

section Ascending

variable {numbers : List Nat} {n : Nat}

/-- Ascending numbers below a bound are a part of the numbers below it. -/
theorem subperm_range (h : numbers.Pairwise (· < ·)) (hb : ∀ k ∈ numbers, k < n) :
    numbers.Subperm (List.range n) :=
  h.nodup.subperm fun k hk => List.mem_range.mpr (hb k hk)

/-- Ascending numbers are all numbers below a bound if they are these in some order. -/
theorem eq_range_of_perm (h : numbers.Pairwise (· < ·)) (hperm : numbers.Perm (List.range n)) :
    numbers = List.range n := by
  refine hperm.eq_of_pairwise (fun a b _ _ hab hba => ?_) h List.pairwise_lt_range
  exact absurd hab (Nat.lt_asymm hba)

end Ascending

namespace Listing

variable {assembly : Assembly}

/-- A trigger list in the listings has its length and is that of a scan code of a layer,
or empty. -/
theorem exists_get_of_mem_lists {list : ReadList} (h : list ∈ (readLayerTables assembly).lists) :
    list.count = list.triggers.length ∧ ∃ layer ∈ assembly.layers,
      list.triggers = [] ∨ ∃ scanCode, layer.map.get scanCode = list.triggers := by
  rw [lists_readLayerTables] at h
  obtain ⟨n, k, span, triggers, hspan, hk, rfl⟩ := mem_lists_of_iff.mp h
  rw [getElem?_spans] at hspan
  obtain ⟨layer, hlayer, rfl⟩ := Option.map_eq_some_iff.mp hspan
  refine ⟨rfl, layer, List.mem_of_getElem? hlayer, ?_⟩
  by_cases hn : n = 0
  · subst hn
    rw [if_pos rfl, defaultLists_eq_dense hlayer] at hk
    exact Or.inr (ScanMap.exists_get_of_mem_dense (List.mem_of_getElem? hk))
  · rw [if_neg hn] at hk
    exact ScanMap.exists_get_of_mem_span (List.mem_of_getElem? hk)

/-- The list of the default layer for a scan code is one of those in the listings. -/
theorem get_mem_lists {layer : LayerRow} (h : assembly.layers[0]? = some layer) {k : Nat}
    (hk : k ≤ assembly.config.maxScanCode.toNat) :
    ⟨listName (tableName 0) k, (layer.map.get k).length, layer.map.get k⟩ ∈
      (readLayerTables assembly).lists := by
  rw [lists_readLayerTables, mem_lists_of_iff]
  refine ⟨0, k, (0, defaultLists assembly), layer.map.get k, ?_, ?_, rfl⟩
  · rw [getElem?_spans, h, Option.map_some, if_pos rfl]
  · rw [defaultLists_eq_dense h, ScanMap.getElem?_dense, Nat.zero_add, if_pos hk]

end Listing

namespace Config

variable {config : Config}

/-- Every trigger list in the listings has its length and, in ascending order,
indices of triggers that are declared. -/
theorem WellFormed.ascends_of_mem_lists (h : config.WellFormed) {list : Listing.ReadList}
    (hlist : list ∈ (readLayerTables (Assembly.build config)).lists) :
    list.count = list.triggers.length ∧ list.triggers.Pairwise (· < ·) ∧
      ∀ index ∈ list.triggers, index < config.triggers.length := by
  obtain ⟨hcount, row, hrow, hget⟩ := Listing.exists_get_of_mem_lists hlist
  refine ⟨hcount, ?_⟩
  rcases hget with hnil | ⟨scanCode, hget⟩
  · rw [hnil]
    exact ⟨List.Pairwise.nil, fun _ hmem => absurd hmem List.not_mem_nil⟩
  · rw [← hget]
    rw [config.build_layers] at hrow
    obtain ⟨layer, _, rfl⟩ := List.mem_map.mp hrow
    have hordered := Assembly.ordered_layerRow (Assembly.triggerScope config)
      config.distinctTriggers layer
    refine ⟨ScanMap.pairwise_get hordered scanCode, fun index hindex => ?_⟩
    have hfiles := (ScanMap.mem_get_iff hordered).mp hindex
    obtain ⟨trigger, htrigger, _⟩ :=
      (Assembly.files_layerRow_iff_fires h.distinctNames).mp hfiles
    exact (List.getElem?_eq_some_iff.mp htrigger).1

/-- Where the report has no errors, every index in the trigger lists fits the state word,
and so does the length of a list, unless the list has all triggers and these are as many
as the word has values. -/
theorem fits_stateWord {config : Config} (h : config.check.hasErrors = false) {bits : UInt8}
    (hbits : config.stateWordSize = some bits) :
    ∀ list ∈ (readLayerTables (Assembly.build config)).lists,
      list.count = list.triggers.length ∧
      (∀ index ∈ list.triggers, index < 2 ^ bits.toNat) ∧
      (list.count < 2 ^ bits.toNat ∨
        config.triggers.length = 2 ^ bits.toNat ∧ list.count = 2 ^ bits.toNat ∧
          list.triggers = List.range (2 ^ bits.toNat)) := by
  have hw := WellFormed.of_check h
  intro list hlist
  obtain ⟨hcount, hascends, hindex⟩ := hw.ascends_of_mem_lists hlist
  have htriggers : config.triggers.length ≤ 2 ^ bits.toNat :=
    Nat.le_trans (hw.stateWord bits hbits).1 (Nat.min_le_left _ _)
  have hfits : ∀ index ∈ list.triggers, index < 2 ^ bits.toNat := fun index hmem =>
    Nat.lt_of_lt_of_le (hindex index hmem) htriggers
  refine ⟨hcount, hfits, ?_⟩
  rcases Nat.lt_or_ge list.count (2 ^ bits.toNat) with hlt | hge
  · exact Or.inl hlt
  · -- the indices ascend below the number of triggers, so a list as long as this has them all
    have hlength := (subperm_range hascends hindex).length_le
    rw [List.length_range] at hlength
    refine Or.inr ⟨by omega, by omega, ?_⟩
    have hperm := (subperm_range hascends hfits).perm_of_length_le <| by
      rw [List.length_range]
      omega
    exact eq_range_of_perm hascends hperm

/-- The sample has a state word of 8 bits and four triggers, far from as many as it has values. -/
theorem fits_stateWord_sample :
    sample.check.hasErrors = false ∧ sample.stateWordSize = some 8 ∧
      ∀ list ∈ (readLayerTables (Assembly.build sample)).lists,
        (∀ index ∈ list.triggers, index < 2 ^ 8) ∧ list.count < 2 ^ 8 := by
  refine ⟨check_sample, rfl, fun list hlist => ?_⟩
  obtain ⟨_, hindex, hcount⟩ := fits_stateWord check_sample rfl list hlist
  exact ⟨hindex, hcount.resolve_right fun hall => absurd hall.1 (by decide)⟩

/-- The triggers of a crowded key have their numbers in their names. -/
def crowdedName (i : Nat) : String := "T" ++ toString i

/-- A key with many triggers, which all wait for it to be pressed. -/
def crowded (count : Nat) : Config :=
  { Config.empty "crowded" 8 with
    stateWordSize := some 8
    capabilities := [⟨"usbKeyOut", "usb", [⟨"code", 1⟩], .safe⟩]
    results := [⟨"A", [[.usb 4]]⟩]
    triggers := (List.range count).map fun i => ⟨crowdedName i, [[.switch 2 0 .press]], "A"⟩
    layers := [⟨"default", [], (List.range count).map crowdedName⟩] }

theorem boardAt_crowded {count board offset : Nat} :
    (crowded count).BoardAt board offset ↔ board = 0 ∧ offset = 0 := by
  have hoffsets : (crowded count).offsets = [] := rfl
  simp [BoardAt, hoffsets]

/-- All triggers of a crowded key wait for it and have one result. -/
theorem mem_triggers_crowded {count : Nat} {trigger : Trigger}
    (h : trigger ∈ (crowded count).triggers) :
    trigger.sequence = [[.switch 2 0 .press]] ∧ trigger.result = "A" := by
  obtain ⟨i, _, rfl⟩ := List.mem_map.mp h
  exact ⟨rfl, rfl⟩

/-- A crowded key fires through the list of its scan code alone. -/
theorem filedUnder_crowded {count uid : Nat} {element : TriggerElement}
    (h : element ∈ [TriggerElement.switch 2 0 .press]) :
    element.FiledUnder (crowded count) uid ↔ uid = 2 := by
  obtain rfl := List.mem_singleton.mp h
  have hcode : (2 : UInt16).toNat = 2 := rfl
  have hboard : (0 : UInt8).toNat = 0 := rfl
  simp [TriggerElement.FiledUnder, boardAt_crowded, hcode, hboard]

/-- As many triggers as the state word has values are accepted. -/
theorem wellFormed_crowded {count : Nat} (h : count ≤ 256) : (crowded count).WellFormed where
  capabilityNames := List.nodup_singleton _
  resultNames := List.nodup_singleton _
  triggerNames := by
    show (((List.range count).map _).map _).Nodup
    rw [List.map_map]
    refine List.Nodup.map (fun i j he => ?_) List.nodup_range
    exact Text.toString_injective ((String.append_right_inj _).mp he)
  settingsNames := List.nodup_nil
  maxScanCode := by
    show (8 : UInt16).toNat ≤ 255
    decide
  capabilityCount := by
    show 1 ≤ 256
    decide
  results result hresult := by
    obtain rfl := List.mem_singleton.mp hresult
    refine ⟨⟨List.cons_ne_nil _ _, by simp⟩, fun step hstep element helement => ?_, by simp⟩
    obtain rfl := List.mem_singleton.mp hstep
    obtain rfl := List.mem_singleton.mp helement
    exact ⟨_, List.mem_singleton.mpr rfl, rfl, _, rfl, by decide⟩
  triggers trigger htrigger := by
    obtain ⟨hsequence, hresult⟩ := mem_triggers_crowded htrigger
    refine ⟨?_, fun step hstep element helement => ?_, hresult ▸ List.mem_singleton.mpr rfl⟩
    · rw [hsequence]
      exact ⟨List.cons_ne_nil _ _, by simp⟩
    · rw [hsequence] at hstep
      obtain rfl := List.mem_singleton.mp hstep
      obtain rfl := List.mem_singleton.mp helement
      exact ⟨0, boardAt_crowded.mpr ⟨rfl, rfl⟩, by decide⟩
  layers layer hlayer name hname := by
    obtain rfl := List.mem_singleton.mp hlayer
    obtain ⟨i, hi, rfl⟩ := List.mem_map.mp hname
    refine ⟨_, List.mem_map.mpr ⟨i, hi, rfl⟩, rfl, fun element helement uid huid => ?_⟩
    rw [(filedUnder_crowded helement).mp huid]
    show 2 ≤ (8 : UInt16).toNat
    decide
  settings _ h := absurd h List.not_mem_nil
  animations _ h := absurd h List.not_mem_nil
  stateWord bits hbits := by
    obtain rfl := Option.some.inj hbits
    show ((List.range count).map _).length ≤ min 256 _ ∧ 1 ≤ min 256 _
    rw [List.length_map, List.length_range]
    exact ⟨Nat.le_min.mpr ⟨h, by omega⟩, by decide⟩
  offsets _ h := absurd h List.not_mem_nil
  ascending := List.Pairwise.nil
  positions _ h := absurd h List.not_mem_nil
  pixels _ h := nomatch h

/-- The list of the crowded key has the indices of all triggers. -/
theorem get_crowded {count : Nat} (h : count ≤ 256) {layer : LayerRow}
    (hlayer : (Assembly.build (crowded count)).layers[0]? = some layer) :
    layer.map.get 2 = List.range count := by
  have hd := (wellFormed_crowded h).distinctNames
  have hrow : Assembly.layerRow (Assembly.triggerScope (crowded count))
      (crowded count).distinctTriggers
      ⟨"default", [], (List.range count).map crowdedName⟩ = layer :=
    Option.some.inj (by rw [← hlayer, build_layers]; rfl)
  have hordered : layer.map.Ordered := hrow ▸ Assembly.ordered_layerRow _ _ _
  have hmem : ∀ index, index ∈ layer.map.get 2 ↔ index ∈ List.range count := by
    intro index
    rw [ScanMap.mem_get_iff hordered, ← hrow, Assembly.files_layerRow_iff_fires hd, List.mem_range]
    constructor
    · rintro ⟨trigger, htrigger, _⟩
      have hlt := (List.getElem?_eq_some_iff.mp htrigger).1
      rwa [show (crowded count).triggers = (List.range count).map _ from rfl, List.length_map,
        List.length_range] at hlt
    · intro hindex
      refine ⟨⟨crowdedName index, [[.switch 2 0 .press]], "A"⟩, ?_,
        List.mem_map.mpr ⟨index, List.mem_range.mpr hindex, rfl⟩, .switch 2 0 .press,
        List.mem_singleton.mpr rfl, (filedUnder_crowded (List.mem_singleton.mpr rfl)).mpr rfl⟩
      rw [show (crowded count).triggers = (List.range count).map _ from rfl, List.getElem?_map,
        List.getElem?_range hindex, Option.map_some]
  have hascends := ScanMap.pairwise_get hordered 2
  exact eq_range_of_perm hascends
    ((List.perm_ext_iff_of_nodup hascends.nodup List.nodup_range).mpr hmem)

/-- The length of the list of the crowded key is the number of the triggers. -/
theorem exists_list_crowded {count : Nat} (h : count ≤ 256) :
    ∃ list ∈ (readLayerTables (Assembly.build (crowded count))).lists, list.count = count := by
  obtain ⟨layer, hlayer⟩ : ∃ layer,
      (Assembly.build (crowded count)).layers[0]? = some layer := ⟨_, by rw [build_layers]; rfl⟩
  have hmax : 2 ≤ (Assembly.build (crowded count)).config.maxScanCode.toNat := by
    show 2 ≤ (8 : UInt16).toNat
    decide
  refine ⟨_, Listing.get_mem_lists hlayer hmax, ?_⟩
  simp only [get_crowded h hlayer, List.length_range]

/-- The list of as many triggers as the word has values has a length that is no value. -/
theorem length_exceeds_stateWord :
    (crowded 256).check.hasErrors = false ∧ (crowded 256).stateWordSize = some 8 ∧
      ∃ list ∈ (readLayerTables (Assembly.build (crowded 256))).lists, list.count = 2 ^ 8 :=
  ⟨(wellFormed_crowded (Nat.le_refl _)).check, rfl, exists_list_crowded (Nat.le_refl _)⟩

end Config

end Keymap
