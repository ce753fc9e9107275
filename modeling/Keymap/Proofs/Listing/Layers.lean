import Keymap.Proofs.Distinct
import Keymap.Proofs.Listing.TriggerLists

/-!
# Reading the listings of layers

The trigger lists and tables of all layers are read back from their listings,
and so is the layer index, whatever the labels of the layers are. As every list
and every table has a name of its own, the tables lead from a layer and a scan
code to the list that was written for them.
-/

namespace Keymap.Listing

open Text

/-- Read the table and the first scan code of a row of the layer index. The label
between them may be any text. -/
def readIndexRow (row : String) : Option (String × Nat) :=
  match words row, (words row).reverse with
  | _ :: map :: _, _ :: first :: _ => (readHex first).map (map, ·)
  | _, _ => none

/-- The tables that lead from a layer and a scan code to triggers. -/
structure LayerTables where
  lists : List ReadList
  maps : List ReadMap
  index : List (String × Nat)

/-- The tables of layers whose lists begin at some scan code. -/
def LayerTables.of (spans : List (Nat × List (List Nat))) : LayerTables where
  lists := spans.zipIdx.flatMap fun (span, n) => listsOf n span.2
  maps := spans.zipIdx.map fun (span, n) => mapOf n span.2
  index := spans.zipIdx.map fun (span, n) => (tableName n ++ "_scanMap", span.1)

/-- The first scan codes and the lists of the layers: the default layer has a list
for every scan code, a partial layer has those of its span. -/
def spans (assembly : Assembly) : List (Nat × List (List Nat)) :=
  match assembly.layers with
  | [] => []
  | _ :: rest => (0, defaultLists assembly) :: rest.map (·.map.span)

/-- The row of a layer in the layer index. -/
def indexRow (layer : LayerRow) (n : Nat) : String :=
  if n = 0 then layerIndexRow "default" "D" layer.label 0
  else layerIndexRow (layerName n) (toString n) layer.label layer.map.span.1

/-- The rows of the layer index. -/
def layerIndexRows (assembly : Assembly) : List String :=
  assembly.layers.zipIdx.map fun (layer, n) => indexRow layer n

/-- Read the tables of the layers from their listings. -/
def readLayerTables (assembly : Assembly) : LayerTables where
  lists := readLists (defaultTriggerLists assembly) ++ readLists (partialTriggerLists assembly)
  maps := readMaps (defaultScanMap assembly) ++ readMaps (partialScanMaps assembly)
  index := (layerIndexRows assembly).filterMap readIndexRow

/-- Look up the triggers of a layer and a scan code: the index has the table of the
layer and its first scan code, the table has the name of the list, and the list
begins with its length. -/
def LayerTables.lookUp (tables : LayerTables) (n scanCode : Nat) : List Nat :=
  Option.getD (do
    let (map, first) ← tables.index[n]?
    let k ← if first ≤ scanCode then some (scanCode - first) else none
    let map ← tables.maps.find? fun m => decide (m.declarator = "*" ++ map ++ "[]")
    let name ← map.rows[k]?
    let list ← tables.lists.find? fun l => decide (l.name = name)
    return list.triggers.take list.count) []

section Sections

/-- The declarations of the sections of the partial layers are those of the layers. -/
private theorem declares_partialSections {keyword : String}
    (hwords : keyword ∉ ["//", "Partial", "Layer"]) (hnumber : readNumber keyword = none)
    {text : Nat → LayerRow → String} {bodies : Nat → LayerRow → List (List String)}
    (h : ∀ n layer, n ≠ 0 → Declares keyword (words (text n layer)) (bodies n layer))
    (assembly : Assembly) :
    Declares keyword (words (partialSections assembly text))
      ((assembly.layers.tail.zipIdx 1).flatMap fun (layer, n) => bodies n layer) := by
  have hdrop : assembly.layers.zipIdx.drop 1 = assembly.layers.tail.zipIdx 1 := by
    cases assembly.layers <;> rfl
  rw [partialSections, sections, words_intercalate (by decide) (by decide) (by decide),
    List.flatMap_map, hdrop]
  refine Declares.flatMap fun (layer, n) hmem => ?_
  have hn : n ≠ 0 := Nat.ne_of_gt (List.le_snd_of_mem_zipIdx hmem)
  have hkeyword : keyword ∉ ["//", "Partial", "Layer"] ++ [toString n] := by
    rw [List.mem_append, List.mem_singleton, not_or]
    refine ⟨hwords, ?_⟩
    rintro rfl
    rw [readNumber_toString] at hnumber
    cases hnumber
  have hcomment : words ("// Partial Layer " ++ toString n ++ "\n") =
      ["//", "Partial", "Layer"] ++ [toString n] := by
    rw [words_append_of_opens (by decide), words_append_of_closes (by decide),
      words_of_isWord (isWord_toString n)]
    rfl
  simp only
  rw [words_append_of_closes (Closes.append (by decide) _), hcomment]
  exact (declares_of_not_mem hkeyword).append (h n layer hn)

private theorem tableName_of_ne {n : Nat} (h : n ≠ 0) : layerName n = tableName n :=
  (if_neg h).symm

private theorem readLists_default (assembly : Assembly) :
    readLists (defaultTriggerLists assembly) = listsOf 0 (defaultLists assembly) := by
  have hdeclares := declares_triggerLists 0 (defaultLists assembly)
  rw [readLists, defaultTriggerLists, show "default" = tableName 0 from rfl,
    hdeclares.declarations_eq, filterMap_readList]

/-- The trigger lists of all other layers are read back, layer by layer. -/
private theorem readLists_partial (assembly : Assembly) :
    readLists (partialTriggerLists assembly) =
      (assembly.layers.tail.zipIdx 1).flatMap fun (layer, n) => listsOf n layer.map.span.2 := by
  have hdeclares := @declares_partialSections "Define_TL(" (by decide) (by decide) _ _
    (fun n layer hn => tableName_of_ne hn ▸ declares_triggerLists n layer.map.span.2) assembly
  rw [readLists, partialTriggerLists, hdeclares.declarations_eq, List.filterMap_flatMap]
  simp only [filterMap_readList]

private theorem readMaps_default (assembly : Assembly) :
    readMaps (defaultScanMap assembly) = [mapOf 0 (defaultLists assembly)] := by
  have hdeclares := declares_scanMap 0 (defaultLists assembly)
  rw [readMaps, defaultScanMap, show "default" = tableName 0 from rfl,
    hdeclares.declarations_eq]
  rfl

/-- The scan maps of all other layers are read back. -/
private theorem readMaps_partial (assembly : Assembly) :
    readMaps (partialScanMaps assembly) =
      (assembly.layers.tail.zipIdx 1).map fun (layer, n) => mapOf n layer.map.span.2 := by
  have hdeclares := @declares_partialSections "nat_ptr_t" (by decide) (by decide) _ _
    (fun n layer hn => tableName_of_ne hn ▸ declares_scanMap n layer.map.span.2) assembly
  rw [readMaps, partialScanMaps, hdeclares.declarations_eq, List.filterMap_flatMap,
    List.map_eq_flatMap]
  rfl

end Sections

section Index

/-- The row of a layer in the layer index is read back whatever the label is. -/
private theorem readIndexRow_layerIndexRow (n first : Nat) (mark label : String) :
    readIndexRow (layerIndexRow (tableName n) mark label first) =
      some (tableName n ++ "_scanMap", first) := by
  have hmap : IsWord (tableName n ++ "_scanMap") := (isWord_tableName n).append (by decide)
  have hfront : words ("Layer_IN( " ++ (tableName n ++ "_scanMap") ++ ", ") =
      ["Layer_IN(", tableName n ++ "_scanMap"] := by
    rw [words_append_of_opens (by decide), words_append_of_closes (by decide),
      words_of_isWord hmap]
    rfl
  have hsplit : "Layer_IN( " ++ tableName n ++ "_scanMap, \"" ++ mark ++ ": " ++ label ++ "\", " ++
      hex first ++ " )," = "Layer_IN( " ++ (tableName n ++ "_scanMap") ++ ", " ++
        ("\"" ++ mark ++ ": " ++ label ++ "\", ") ++ hex first ++ " )," := by
    rw [show "_scanMap, \"" = "_scanMap" ++ (", " ++ "\"") from rfl]
    simp only [String.append_assoc]
  obtain ⟨middle, hmiddle⟩ : ∃ middle, words (layerIndexRow (tableName n) mark label first) =
      "Layer_IN(" :: (tableName n ++ "_scanMap") :: middle ++ [hex first, ")"] := by
    refine ⟨words ("\"" ++ mark ++ ": " ++ label ++ "\", "), ?_⟩
    have hlabel : Closes ("\"" ++ mark ++ ": " ++ label ++ "\", ") := Closes.append (by decide) _
    rw [layerIndexRow, words_row, hsplit, words_append_of_opens (by decide),
      words_append_of_closes (hlabel.append _),
      words_append_of_closes (Closes.append (by decide) _), hfront,
      words_of_isWord (isWord_hex first)]
    simp [show words " )," = [")"] by decide]
  rw [readIndexRow, hmiddle]
  simp [readHex_hex]

/-- A row of the layer index has the map and the first scan code of its layer. -/
private theorem readIndexRow_indexRow (layer : LayerRow) (n : Nat) :
    readIndexRow (indexRow layer n) =
      some (tableName n ++ "_scanMap", if n = 0 then 0 else layer.map.span.1) := by
  rw [indexRow]
  split
  next hn =>
    subst hn
    exact readIndexRow_layerIndexRow 0 0 "D" layer.label
  next hn => rw [tableName_of_ne hn, readIndexRow_layerIndexRow]

/-- The default layer has a list for every scan code up to the greatest one. -/
theorem defaultLists_eq_dense {assembly : Assembly} {layer : LayerRow}
    (h : assembly.layers[0]? = some layer) :
    defaultLists assembly = layer.map.dense 0 assembly.config.maxScanCode.toNat := by
  rw [defaultLists]
  cases hl : assembly.layers with
  | nil => simp [hl] at h
  | cons first rest =>
    rw [hl, List.getElem?_cons_zero, Option.some.injEq] at h
    rw [h]

/-- The first scan code and the lists of a layer. -/
theorem getElem?_spans (assembly : Assembly) (n : Nat) :
    (spans assembly)[n]? = assembly.layers[n]?.map fun layer =>
      if n = 0 then (0, defaultLists assembly) else layer.map.span := by
  rw [spans]
  cases assembly.layers with
  | nil => rfl
  | cons layer rest =>
    cases n with
    | zero => rfl
    | succ n => exact List.getElem?_map

/-- The layer index has the map and the first scan code of every layer in order. -/
private theorem readIndexRow_layerIndexRows (assembly : Assembly) :
    (layerIndexRows assembly).filterMap readIndexRow =
      (spans assembly).zipIdx.map fun (span, n) => (tableName n ++ "_scanMap", span.1) := by
  have hread : readIndexRow ∘ (fun (layer, n) => indexRow layer n) =
      fun entry : LayerRow × Nat =>
        some (tableName entry.2 ++ "_scanMap", if entry.2 = 0 then 0 else entry.1.map.span.1) :=
    funext fun (layer, n) => readIndexRow_indexRow layer n
  rw [layerIndexRows, List.filterMap_map, hread, List.filterMap_eq_map']
  refine List.ext_getElem? fun n => ?_
  simp only [List.getElem?_map, List.getElem?_zipIdx, getElem?_spans, Option.map_map, Nat.zero_add]
  refine congrArg (Option.map · _) (funext fun layer => ?_)
  by_cases hn : n = 0 <;> simp [hn]

end Index

/-- The trigger lists of the listings are those of the layers, one behind the other. -/
theorem lists_readLayerTables (assembly : Assembly) :
    (readLayerTables assembly).lists = (LayerTables.of (spans assembly)).lists := by
  simp only [readLayerTables, readLists_default, readLists_partial, LayerTables.of, spans]
  cases hl : assembly.layers with
  | nil =>
    have hlists : defaultLists assembly = [] := by rw [defaultLists, hl]
    rw [hlists]
    rfl
  | cons layer rest =>
    simp only [List.tail_cons, List.zipIdx_cons, List.zipIdx_map, List.flatMap_cons,
      List.flatMap_map]
    rfl

/-- The listings of the layers have the tables of the layers. -/
theorem readLayerTables_eq {assembly : Assembly} (h : assembly.layers ≠ []) :
    readLayerTables assembly = .of (spans assembly) := by
  have hmaps : readMaps (defaultScanMap assembly) ++ readMaps (partialScanMaps assembly) =
      (LayerTables.of (spans assembly)).maps := by
    rw [readMaps_default, readMaps_partial, LayerTables.of, spans]
    cases hl : assembly.layers with
    | nil => exact absurd hl h
    | cons layer rest =>
      simp only [List.tail_cons, List.zipIdx_cons, List.zipIdx_map, List.map_cons, List.map_map]
      rfl
  have hlists : readLists (defaultTriggerLists assembly) ++
      readLists (partialTriggerLists assembly) = (LayerTables.of (spans assembly)).lists :=
    lists_readLayerTables assembly
  rw [readLayerTables, readIndexRow_layerIndexRows, hlists, hmaps]
  rfl

section LookUp

variable {spans : List (Nat × List (List Nat))}

/-- The table of a layer is found by its declarator. -/
private theorem find?_maps {n first : Nat} {lists : List (List Nat)}
    (h : spans[n]? = some (first, lists)) :
    (LayerTables.of spans).maps.find? (fun m => decide (m.declarator =
      "*" ++ (tableName n ++ "_scanMap") ++ "[]")) = some (mapOf n lists) := by
  rw [find?_eq_some_iff_mem]
  · refine ⟨List.mem_map.mpr ⟨((first, lists), n), List.mk_mem_zipIdx_iff_getElem?.mpr h, rfl⟩, ?_⟩
    simp only [mapOf, String.append_assoc]
    rfl
  · intro a ha b hb hab
    obtain ⟨⟨span, m⟩, hspan, rfl⟩ := List.mem_map.mp ha
    obtain ⟨⟨span', m'⟩, hspan', rfl⟩ := List.mem_map.mp hb
    obtain rfl : m = m' :=
      tableName_injective ((String.append_right_inj _).mp ((String.append_left_inj _).mp hab))
    rw [List.mk_mem_zipIdx_iff_getElem?] at hspan hspan'
    rw [Option.some.inj (hspan.symm.trans hspan')]

/-- The trigger lists of the layers have their names and lengths. -/
theorem mem_lists_of_iff {list : ReadList} :
    list ∈ (LayerTables.of spans).lists ↔
      ∃ m k span triggers, spans[m]? = some span ∧ span.2[k]? = some triggers ∧
        list = ⟨listName (tableName m) k, triggers.length, triggers⟩ := by
  simp only [LayerTables.of, listsOf, List.mem_flatMap, List.mem_map]
  constructor
  · rintro ⟨⟨span, m⟩, hspan, ⟨triggers, l⟩, hl, rfl⟩
    exact ⟨m, l, span, triggers, List.mk_mem_zipIdx_iff_getElem?.mp hspan,
      List.mk_mem_zipIdx_iff_getElem?.mp hl, rfl⟩
  · rintro ⟨m, l, span, triggers, hspan, hl, rfl⟩
    exact ⟨(span, m), List.mk_mem_zipIdx_iff_getElem?.mpr hspan, (triggers, l),
      List.mk_mem_zipIdx_iff_getElem?.mpr hl, rfl⟩

/-- A trigger list of a layer is found by its name. -/
private theorem find?_lists {n first k : Nat} {lists : List (List Nat)} {triggers : List Nat}
    (h : spans[n]? = some (first, lists)) (hk : lists[k]? = some triggers) :
    (LayerTables.of spans).lists.find? (fun l => decide (l.name = listName (tableName n) k)) =
      some ⟨listName (tableName n) k, triggers.length, triggers⟩ := by
  rw [find?_eq_some_iff_mem]
  · exact ⟨mem_lists_of_iff.mpr ⟨n, k, _, triggers, h, hk, rfl⟩, rfl⟩
  · intro a ha b hb hab
    obtain ⟨m, l, span, triggers, hspan, hl, rfl⟩ := mem_lists_of_iff.mp ha
    obtain ⟨m', l', span', triggers', hspan', hl', rfl⟩ := mem_lists_of_iff.mp hb
    obtain ⟨rfl, rfl⟩ := listName_injective hab
    obtain rfl := Option.some.inj (hspan.symm.trans hspan')
    rw [Option.some.inj (hl.symm.trans hl')]

/-- Looking a scan code up in tables leads to the list that stands for it. -/
theorem lookUp_of (spans : List (Nat × List (List Nat))) (n scanCode : Nat) :
    (LayerTables.of spans).lookUp n scanCode =
      match spans[n]? with
      | some (first, lists) => if first ≤ scanCode then lists[scanCode - first]?.getD [] else []
      | none => [] := by
  have hindex : (LayerTables.of spans).index[n]? =
      spans[n]?.map fun span => (tableName n ++ "_scanMap", span.1) := by
    rw [LayerTables.of, List.getElem?_map, List.getElem?_zipIdx, Option.map_map, Nat.zero_add]
    rfl
  rw [LayerTables.lookUp, hindex]
  cases hn : spans[n]? with
  | none => rfl
  | some span =>
    obtain ⟨first, lists⟩ := span
    by_cases hfirst : first ≤ scanCode
    · have hrow : (mapOf n lists).rows[scanCode - first]? =
          lists[scanCode - first]?.map fun _ => listName (tableName n) (scanCode - first) := by
        rw [mapOf, List.getElem?_map]
        by_cases hlt : scanCode - first < lists.length
        · rw [List.getElem?_range hlt, List.getElem?_eq_getElem hlt]
          rfl
        · rw [List.getElem?_eq_none (by simpa using hlt), List.getElem?_eq_none (by omega)]
          rfl
      cases hk : lists[scanCode - first]? with
      | none => simp [find?_maps hn, hrow, hk, hfirst]
      | some triggers => simp [find?_maps hn, hrow, hk, hfirst, find?_lists hn hk]
    · simp [hfirst]

end LookUp

end Keymap.Listing
