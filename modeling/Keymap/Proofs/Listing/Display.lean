import Keymap.Proofs.Acceptance
import Keymap.Proofs.Listing.Numbers
import Keymap.Template.Placeholder

/-!
# Reading the display

The display is listed between braces. A compiler reads what stands there as an
initializer: numbers with commas between them, and possibly one comma behind the
last. Every row ends with a comma, and so the cells are read back row by row as
long as every row has some. A row without cells has its comma all the same, and
no initializer has a comma without a number before it. The definitions of the
sizes are read back as well, and they count the cells.
-/

namespace Keymap.Listing

open Text

/-- Read a number in base ten without zeros in front, which would change the base. -/
def readDecimal (word : String) : Option Nat :=
  (readNumber word).filter fun n => decide (toString n = word)

/-- Read an initializer: numbers between commas, of which one may follow the last number. -/
def readInitializer (text : String) : Option (List Nat) :=
  let items := fields text
  (if items.getLast? = some "" then items.dropLast else items).mapM readDecimal

/-- Read a definition of a number. -/
def readDefinition (line : String) : Option (String × Nat) :=
  match words line with
  | [keyword, name, value] =>
    if keyword = "#define" then (readDecimal value).map fun n => (name, n) else none
  | _ => none

/-- Read definitions of numbers line by line. -/
def readDefinitions (text : String) : Option (List (String × Nat)) :=
  (splitText "\n" text).mapM readDefinition

theorem readDecimal_toString (n : Nat) : readDecimal (toString n) = some n := by
  rw [readDecimal, readNumber_toString, Option.filter_some, if_pos (decide_eq_true rfl)]

section Cells

/-- The fields of a row of the display: the numbers of its cells, and an empty one if it has
no cells. -/
def cellFields (cells : List Nat) : List String :=
  if cells = [] then [""] else cells.map toString

/-- The field of an aligned number is the number. -/
theorem fields_aligned (n : Nat) : fields (aligned n) = [toString n] := by
  have hblank : Blank (String.ofList (List.replicate (3 - (Nat.toDigits 10 n).length) ' ')) := by
    intro c hc
    rw [String.toList_ofList] at hc
    rw [List.eq_of_mem_replicate hc]
    decide
  have hnone : Blank "" := by decide
  have hfields := fields_eq_singleton (isWord_toString n) hnone hnone
  rw [String.empty_append, String.append_empty] at hfields
  rw [aligned_eq_append, fields_blank_append hblank, hfields]

/-- The aligned cells of a row are parted by the commas between them. -/
theorem fields_cells (cells : List Nat) :
    fields (String.intercalate "," (cells.map aligned)) = cellFields cells := by
  rw [cellFields]
  split
  next hnone =>
    subst hnone
    decide +kernel
  next hsome =>
    have hne : cells.map aligned ≠ [] := by rwa [ne_eq, List.map_eq_nil_iff]
    rw [fields_intercalate hne, List.flatMap_map, List.map_eq_flatMap]
    exact List.flatMap_congr fun cell _ => fields_aligned cell

/-- What stands between the braces of the display. -/
def displayBody (rows : List (List Nat)) : String := "\n" ++ String.join (rows.map displayRow)

/-- The fields of the display are those of its rows and an empty one behind the last comma. -/
theorem fields_displayBody (rows : List (List Nat)) :
    fields (displayBody rows) = rows.flatMap cellFields ++ [""] := by
  induction rows with
  | nil => decide +kernel
  | cons cells rest ih =>
    have hsplit : displayBody (cells :: rest) =
        "\n" ++ String.intercalate "," (cells.map aligned) ++ "," ++ displayBody rest := by
      rw [displayBody, displayBody, List.map_cons, String.join_cons, displayRow,
        show ",\n" = "," ++ "\n" from rfl]
      simp only [String.append_assoc]
    rw [hsplit, fields_append, fields_blank_append (by decide), fields_cells, ih,
      List.flatMap_cons, List.append_assoc]

/-- The display has no braces within its braces. -/
theorem unbraced_displayBody (rows : List (List Nat)) : Unbraced (displayBody rows) := by
  have haligned : ∀ n, Unbraced (aligned n) := by
    intro n
    have hdigits := forall_mem_toString (p := fun c => c ≠ '\x7b' ∧ c ≠ '\x7d') (by decide) n
    rw [aligned_eq_append]
    refine Unbraced.append ?_ ⟨fun hc => (hdigits _ hc).1 rfl, fun hc => (hdigits _ hc).2 rfl⟩
    simp [Unbraced]
  refine Unbraced.append (by decide) (Unbraced.join (List.forall_mem_map.mpr fun cells _ => ?_))
  refine Unbraced.append (Unbraced.intercalate (by decide) ?_) (by decide)
  exact List.forall_mem_map.mpr fun cell _ => haligned cell

/-- The display stands between braces behind its declaration. -/
theorem displayTable_eq_append (map : PixelMap) :
    displayTable map = "const " ++ cellType map ++ " Pixel_DisplayMapping[] = " ++ "\x7b" ++
      displayBody map.display ++ "\x7d;" := by
  rw [displayTable, table_eq_append, displayBody]
  simp only [String.append_assoc]
  rfl

/-- Rows of one length have a row without cells only if none of them has any. -/
theorem displayBody_of_mem {rows : List (List Nat)} {width : Nat}
    (hrows : ∀ cells ∈ rows, cells.length = width) (hempty : [] ∈ rows) :
    rows.flatten = [] ∧
      displayBody rows = "\n" ++ String.join (List.replicate rows.length ",\n") := by
  have hwidth : width = 0 := (hrows [] hempty).symm
  have hall : rows = List.replicate rows.length [] :=
    List.eq_replicate_iff.mpr ⟨rfl, fun cells hcells =>
      List.length_eq_zero_iff.mp ((hrows cells hcells).trans hwidth)⟩
  refine ⟨List.flatten_eq_nil_iff.mpr fun cells hcells => ?_, ?_⟩
  · exact List.length_eq_zero_iff.mp ((hrows cells hcells).trans hwidth)
  · rw [displayBody, hall, List.map_replicate, List.length_replicate]
    rfl

end Cells

section Reading

/-- The cells of a display are read back unless a row has none, which leaves a comma without
a number before it. -/
theorem readInitializer_displayBody (rows : List (List Nat)) :
    readInitializer (displayBody rows) = if [] ∈ rows then none else some rows.flatten := by
  have hitems :
      readInitializer (displayBody rows) = (rows.flatMap cellFields).mapM readDecimal := by
    rw [readInitializer, fields_displayBody, List.getLast?_concat, if_pos rfl,
      List.dropLast_concat]
  rw [hitems]
  split
  next hempty =>
    -- whatever the rows before it have, the field of a row without cells is no number
    obtain ⟨before, after, rfl⟩ := List.append_of_mem hempty
    rw [List.flatMap_append, List.flatMap_cons, List.mapM_append, List.mapM_append, cellFields,
      if_pos rfl, List.mapM_cons, show readDecimal "" = none from rfl]
    cases (before.flatMap cellFields).mapM readDecimal <;> rfl
  next hfull =>
    have hcells : rows.flatMap cellFields = rows.flatten.map toString := by
      rw [List.map_flatten, ← List.flatMap_def]
      refine List.flatMap_congr fun cells hcells => ?_
      rw [cellFields, if_neg (ne_of_mem_of_not_mem hcells hfull)]
    rw [hcells, mapM_map_eq_some fun n _ => readDecimal_toString n, List.map_id']

example : readInitializer "\n  1, 20,\n300,  4,\n" = some [1, 20, 300, 4] := by decide +kernel
example : readInitializer "\n  1,,  2,\n" = none := by decide +kernel

/-- The definition of a number is read back, and it stands on one line. -/
theorem readDefinition_definition {name : String} (h : IsWord name) (n : Nat) :
    readDefinition (definition name (toString n)) = some (name, n) ∧
      '\n' ∉ (definition name (toString n)).toList := by
  have hwords : words (definition name (toString n)) = ["#define", name, toString n] := by
    rw [definition, words_append_of_closes (Closes.append (by decide) _),
      words_append_of_opens (by decide), words_append_of_closes (by decide), words_of_isWord h,
      words_of_isWord (isWord_toString n)]
    rfl
  have hline : ∀ {word : String}, IsWord word → '\n' ∉ word.toList := fun hword hc =>
    absurd (hword.2 _ hc) (by decide)
  refine ⟨?_, ?_⟩
  · rw [readDefinition, hwords]
    simp only [if_pos, readDecimal_toString, Option.map_some]
  · simp only [definition, String.toList_append, List.mem_append, hline h,
      hline (isWord_toString n), or_false]
    decide

/-- The sizes of the tables are read back. -/
theorem readDefinitions_sizeDefines (assembly : Assembly) :
    readDefinitions (sizeDefines assembly) =
      some ((tableSizes assembly).map fun (name, size) => (name ++ "_KLL", size)) := by
  have hnames : ∀ entry ∈ tableSizes assembly, IsWord (entry.1 ++ "_KLL") := by
    have hall : ∀ name ∈ (tableSizes assembly).map Prod.fst, IsWord (name ++ "_KLL") := by
      rw [tableSizes, pixelSizes]
      cases assembly.pixels <;> simp only [List.map_append, List.map_cons, List.map_nil] <;> decide
    rwa [List.forall_mem_map] at hall
  have hsizes : tableSizes assembly ≠ [] := List.cons_ne_nil _ _
  rw [readDefinitions, sizeDefines, lines, splitText_intercalate rfl (by simpa using hsizes)]
  · exact mapM_map_eq_some fun entry hentry =>
      (readDefinition_definition (hnames entry hentry) entry.2).1
  · exact List.forall_mem_map.mpr fun entry hentry =>
      (readDefinition_definition (hnames entry hentry) entry.2).2

/-- The definitions of the sizes of the tables have the rows and the columns of the display. -/
theorem lookup_sizeDefines {assembly : Assembly} {map : PixelMap}
    (h : assembly.pixels = some map) :
    ∃ definitions, readDefinitions (sizeDefines assembly) = some definitions ∧
      definitions.lookup "Pixel_DisplayMapping_Rows_KLL" = some map.rows ∧
      definitions.lookup "Pixel_DisplayMapping_Cols_KLL" = some map.columns := by
  refine ⟨_, readDefinitions_sizeDefines assembly, ?_⟩
  rw [tableSizes, pixelSizes, h]
  exact ⟨rfl, rfl⟩

end Reading

end Keymap.Listing

namespace Keymap

open Listing Text

/-- The display is listed between braces as the numbers of its cells, unless it has rows
without cells, which leave nothing but their commas. The definitions of the sizes say how
many cells it has. -/
structure Assembly.PrintsDisplay (assembly : Assembly) (rows : List (List Nat)) : Prop where
  listing : ∃ head body,
    Placeholder.displayTable.text? assembly = some (head ++ "\x7b" ++ body ++ "\x7d;") ∧
      Unbraced head ∧ Unbraced body ∧
      ([] ∉ rows → readInitializer body = some rows.flatten) ∧
      ([] ∈ rows → readInitializer body = none ∧ rows.flatten = [] ∧
        body = "\n" ++ String.join (List.replicate rows.length ",\n"))
  sizes : ∃ definitions height width,
    (Placeholder.sizeDefines.text? assembly).bind readDefinitions = some definitions ∧
      definitions.lookup "Pixel_DisplayMapping_Rows_KLL" = some height ∧
      definitions.lookup "Pixel_DisplayMapping_Cols_KLL" = some width ∧
      rows.flatten.length = height * width

namespace Config

variable {config : Config} {declared : PixelSection}

/-- The display of every configuration without errors is listed as its cells row by row,
as many as the sizes say, unless it has rows without cells. -/
theorem display_printed (h : config.check.hasErrors = false) (hp : config.pixels = some declared) :
    (Assembly.build config).PrintsDisplay
      (declared.display.map fun cells => cells.map (·.toNat)) := by
  have hrows := ((WellFormed.of_check h).pixels declared hp).rows
  have hmap : (Assembly.build config).pixels = some (PixelMap.build declared) := by
    show config.pixels.map PixelMap.build = _
    rw [hp, Option.map_some]
  have hwidths : ∀ cells ∈ (PixelMap.build declared).display, cells.length = declared.columns := by
    refine List.forall_mem_map.mpr fun cells hcells => ?_
    rw [List.length_map, hrows cells hcells]
  constructor
  · refine ⟨"const " ++ cellType (PixelMap.build declared) ++ " Pixel_DisplayMapping[] = ",
      displayBody (PixelMap.build declared).display, ?_, ?_, unbraced_displayBody _,
      fun hfull => ?_, fun hempty => ?_⟩
    · show (Assembly.build config).pixels.map displayTable = _
      rw [hmap, Option.map_some, displayTable_eq_append]
    · rw [cellType]
      split <;> decide
    · rw [readInitializer_displayBody]
      exact if_neg hfull
    · obtain ⟨hnone, hbody⟩ := displayBody_of_mem hwidths hempty
      rw [readInitializer_displayBody]
      exact ⟨if_pos hempty, hnone, hbody⟩
  · obtain ⟨definitions, hread, hheight, hwidth⟩ := lookup_sizeDefines hmap
    refine ⟨definitions, _, _, hread, hheight, hwidth, ?_⟩
    show (PixelMap.build declared).display.flatten.length = _
    rw [List.length_flatten, List.map_congr_left hwidths, PixelMap.columns_build, PixelMap.rows,
      List.map_const', List.sum_replicate_nat]

/-- A light on a display with such rows. -/
def panel (rows : List (List UInt16)) : Config :=
  { Config.empty "panel" 8 with
    pixels := some
      { buffers := [⟨1, 8, none, "leds"⟩]
        pixels := [⟨1, [0], some 1⟩]
        display := rows
        ledBufferStruct := none
        frameFormat := {} } }

/-- A display of two rows has its only light on the second cell of the first. -/
theorem display_printed_panel : (Assembly.build (panel [[0, 1, 0], [0, 0, 0]])).PrintsDisplay
    [[0, 1, 0], [0, 0, 0]] :=
  @display_printed (panel [[0, 1, 0], [0, 0, 0]]) _ (by decide +kernel) rfl

/-- Rows without cells leave their commas behind, which no initializer has. -/
theorem hollow_display_unread : (panel [[], []]).check.hasErrors = false ∧
    ∃ body, Placeholder.displayTable.text? (Assembly.build (panel [[], []])) =
        some ("const uint8_t Pixel_DisplayMapping[] = \x7b" ++ body ++ "\x7d;") ∧
      body = "\n,\n,\n" ∧ readInitializer body = none :=
  ⟨by decide +kernel, _, rfl, rfl, by decide +kernel⟩

end Config

end Keymap
