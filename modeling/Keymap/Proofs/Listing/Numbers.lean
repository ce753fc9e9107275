import Keymap.Listing.Places
import Keymap.Proofs.Listing.Constants
import Keymap.Proofs.Listing.Declarations

/-!
# Reading tables of numbers

A table of numbers is declared with the type of its elements. Its rows hold the
values one behind the other, some of them with a remark that says which number they
have. The type and all values are read back from the listing.
-/

namespace Keymap.Listing

open Text

/-- A declared table of numbers. -/
structure NumberTable where
  type : String
  name : String
  values : List Nat
  deriving DecidableEq

/-- The word is a remark. -/
def isRemark (word : String) : Bool := "/*".toList.isPrefixOf word.toList

/-- Read the values of a table up to the brace that ends it. -/
def readValues (words : List String) : Option (List Nat) :=
  ((words.takeWhile (· ≠ finish)).filter fun word => !isRemark word).mapM operand?

/-- Read a declaration of a table of numbers. -/
def readNumbers (text : String) : Option NumberTable :=
  match words text with
  | _ :: type :: name :: _ :: _ :: rest => (readValues rest).map fun values => ⟨type, name, values⟩
  | _ => none

/-- Words hold values, and they do not end the table. -/
structure Holds (text : List String) (values : List Nat) : Prop where
  unfinished : finish ∉ text
  values : (text.filter fun word => !isRemark word).mapM operand? = some values

section Holding

theorem holds_nil : Holds [] [] := ⟨List.not_mem_nil, rfl⟩

theorem Holds.append {first second : List String} {values values' : List Nat}
    (h : Holds first values) (h' : Holds second values') :
    Holds (first ++ second) (values ++ values') := by
  refine ⟨fun hmem => ?_, ?_⟩
  · rcases List.mem_append.mp hmem with hmem | hmem
    · exact h.unfinished hmem
    · exact h'.unfinished hmem
  · rw [List.filter_append, List.mapM_append, h.values, h'.values]
    rfl

theorem Holds.flatMap {items : List α} {text : α → List String} {values : α → List Nat}
    (h : ∀ item ∈ items, Holds (text item) (values item)) :
    Holds (items.flatMap text) (items.flatMap values) := by
  induction items with
  | nil => exact holds_nil
  | cons item items ih =>
    rw [List.forall_mem_cons] at h
    exact h.1.append (ih h.2)

/-- What holds one value for each item holds the values of the items. -/
theorem Holds.map {items : List α} {text : α → List String} {value : α → Nat}
    (h : ∀ item ∈ items, Holds (text item) [value item]) :
    Holds (items.flatMap text) (items.map value) := by
  rw [List.map_eq_flatMap]
  exact Holds.flatMap h

/-- A word with a value holds it, unless the word could be a remark or the end. -/
theorem holds_singleton {word : String} {n : Nat} (hslash : '/' ∉ word.toList)
    (hbrace : '\x7d' ∉ word.toList) (hvalue : operand? word = some n) : Holds [word] [n] := by
  have hremark : isRemark word = false := by
    rw [isRemark, Bool.eq_false_iff]
    intro hprefix
    have hmem := (List.isPrefixOf_iff_prefix.mp hprefix).subset (List.mem_cons_self ..)
    exact hslash hmem
  have hne : finish ≠ word := by
    rintro rfl
    exact hbrace (by decide)
  refine ⟨fun hmem => hne (List.mem_singleton.mp hmem), ?_⟩
  rw [List.filter_cons_of_pos (by rw [hremark]; rfl), List.filter_nil, List.mapM_cons, hvalue]
  rfl

/-- A number in base ten holds itself. -/
theorem holds_toString (n : Nat) : Holds [toString n] [n] := by
  have hdigits := forall_mem_toString (p := fun c => c ≠ '/' ∧ c ≠ '\x7d') (by decide) n
  exact holds_singleton (fun hmem => (hdigits _ hmem).1 rfl) (fun hmem => (hdigits _ hmem).2 rfl)
    (operand?_toString n)

/-- A number in base sixteen holds itself. -/
theorem holds_hex (n : Nat) : Holds [hex n] [n] := by
  have hdigits := forall_mem_hex (p := fun c => c ≠ '/' ∧ c ≠ '\x7d') (by decide) (by decide) n
  exact holds_singleton (fun hmem => (hdigits _ hmem).1 rfl) (fun hmem => (hdigits _ hmem).2 rfl)
    (operand?_hex n)

/-- A remark holds nothing. -/
theorem holds_remark (text : String) : Holds ["/*" ++ text] [] := by
  have hremark : isRemark ("/*" ++ text) = true := by
    rw [isRemark, String.toList_append]
    exact List.isPrefixOf_iff_prefix.mpr (List.prefix_append _ _)
  have hne : finish ≠ "/*" ++ text := by
    intro he
    have hhead := congrArg (fun word => word.toList.head?) he
    simp [finish, String.toList_append] at hhead
  refine ⟨fun hmem => hne (List.mem_singleton.mp hmem), ?_⟩
  rw [List.filter_cons_of_neg (by rw [hremark]; decide), List.filter_nil]
  rfl

end Holding

section Rows

/-- The words of a numbered row are a remark with its number, and its value. -/
theorem words_numberedRow (n value : Nat) :
    words (numberedRow n value) = ["/*" ++ (toString n ++ "*/"), toString value] := by
  have hremark : IsWord ("/*" ++ (toString n ++ "*/")) :=
    IsWord.append (by decide) ((isWord_toString n).append (by decide))
  have hsplit : "/*" ++ toString n ++ "*/ " = "/*" ++ (toString n ++ "*/") ++ " " := by
    rw [show "*/ " = "*/" ++ " " from rfl]
    simp only [String.append_assoc]
  rw [numberedRow, words_row, words_append_of_opens (by decide), hsplit,
    words_append_of_closes (Closes.append (by decide) _), words_append_of_opens (by decide),
    words_of_isWord hremark, words_of_isWord (isWord_toString value)]
  rfl

/-- A numbered row holds its value. -/
theorem holds_numberedRow (n value : Nat) : Holds (words (numberedRow n value)) [value] := by
  rw [words_numberedRow]
  exact (holds_remark _).append (holds_toString value)

/-- Numbered rows hold their values. -/
theorem holds_numberedRows (items : List α) (number : Nat → Nat) (value : α → Nat) :
    Holds ((items.zipIdx.map fun (a, i) => numberedRow (number i) (value a)).flatMap words)
      (items.map value) := by
  have hvalues : items.map value = items.zipIdx.map fun entry => value entry.1 := by
    conv_lhs => rw [← List.zipIdx_map_fst 0 items, List.map_map]
    rfl
  rw [hvalues, List.flatMap_map]
  refine Holds.map fun (a, i) _ => ?_
  exact holds_numberedRow (number i) (value a)

theorem closes_numberedRows (items : List α) (number : Nat → Nat) (value : α → Nat) :
    ∀ text ∈ items.zipIdx.map fun (a, i) => numberedRow (number i) (value a), Closes text :=
  List.forall_mem_map.mpr fun _ _ => closes_row _

/-- Blanks in front of a text change nothing about its words. -/
theorem words_replicate_append (count : Nat) (text : String) :
    words (String.ofList (List.replicate count ' ') ++ text) = words text := by
  induction count with
  | zero => exact congrArg words (String.empty_append)
  | succ count ih =>
    have hfirst : String.ofList (List.replicate (count + 1) ' ') =
        " " ++ String.ofList (List.replicate count ' ') := by
      rw [List.replicate_succ, ← List.singleton_append, String.ofList_append]
    rw [hfirst, String.append_assoc, words_append_of_closes (by decide), ih,
      show words " " = [] by decide, List.nil_append]

/-- An aligned number has blanks in front. -/
theorem aligned_eq_append (n : Nat) : aligned n =
    String.ofList (List.replicate (3 - (Nat.toDigits 10 n).length) ' ') ++ toString n := by
  rw [Nat.toString_eq_ofList_toDigits, ← String.ofList_append]
  rfl

/-- An aligned number is the word of the number. -/
theorem words_aligned (n : Nat) : words (aligned n) = [toString n] := by
  rw [aligned_eq_append, words_replicate_append, words_of_isWord (isWord_toString n)]

/-- A row of the display holds its cells. -/
theorem holds_displayRow (cells : List Nat) : Holds (words (displayRow cells)) cells := by
  have hwords : words (displayRow cells) = cells.flatMap fun cell => [toString cell] := by
    rw [displayRow, words_append_of_opens (by decide),
      words_intercalate (by decide) (by decide) (by decide), List.flatMap_map,
      show words ",\n" = [] by decide, List.append_nil]
    exact List.flatMap_congr fun cell _ => words_aligned cell
  have hholds : Holds (cells.flatMap fun cell => [toString cell]) (cells.map id) :=
    Holds.map fun cell _ => holds_toString cell
  rwa [List.map_id, ← hwords] at hholds

end Rows

/-- A table of numbers is read back. -/
theorem readNumbers_table {head type name : String} (hhead : words head = ["const", type, name])
    {rows : List String} (hclosed : ∀ row ∈ rows, Closes row) {values : List Nat}
    (h : Holds (rows.flatMap words) values) :
    readNumbers (table head rows) = some ⟨type, name, values⟩ := by
  have hread : readValues (rows.flatMap words ++ [finish]) = some values := by
    have hbody : (rows.flatMap words ++ [finish]).takeWhile (· ≠ finish) = rows.flatMap words := by
      rw [List.takeWhile_append_of_pos
        (fun word hword => decide_eq_true (ne_of_mem_of_not_mem hword h.unfinished))]
      simp
    rw [readValues, hbody, h.values]
  rw [readNumbers, words_table head hclosed, hhead]
  exact congrArg (Option.map _) hread

section Tables

/-- The table of offsets, where there are any, has the offsets of the boards. -/
theorem readNumbers_offsetTable {assembly : Assembly} (h : assembly.offsets ≠ []) :
    readNumbers (offsetTable assembly) =
      some ⟨"uint8_t", "InterconnectOffsetList[]", assembly.offsets⟩ := by
  have hrow : ∀ offset : Nat, Holds (words (row (hex offset ++ ","))) [id offset] := by
    intro offset
    rw [words_row, words_append_of_opens (by decide), words_of_isWord (isWord_hex offset)]
    exact holds_hex offset
  have hrows : Holds ((assembly.offsets.map fun offset => row (hex offset ++ ",")).flatMap words)
      assembly.offsets := by
    have hholds := Holds.map fun offset (_ : offset ∈ assembly.offsets) => hrow offset
    rwa [List.map_id, ← List.flatMap_map] at hholds
  rw [offsetTable, List.isEmpty_eq_false_iff.mpr h, if_neg Bool.false_ne_true]
  exact readNumbers_table (by decide) (List.forall_mem_map.mpr fun _ _ => closes_row _) hrows

/-- The table of rotations has the greatest parameters. -/
theorem readNumbers_rotationTable (assembly : Assembly) :
    readNumbers (rotationTable assembly) =
      some ⟨"uint8_t", "Rotation_MaxParameter[]", assembly.rotation.maxima.map (·.toNat)⟩ :=
  readNumbers_table (by decide) (closes_numberedRows _ id UInt8.toNat)
    (holds_numberedRows _ id UInt8.toNat)

variable (map : PixelMap)

/-- The table of pixels by scan code has the pixels. -/
theorem readNumbers_scanToPixel :
    readNumbers (scanToPixel map) =
      some ⟨"uint16_t", "Pixel_ScanCodeToPixel[]", map.scanToPixel⟩ := by
  have hrows := holds_numberedRows map.scanToPixel (· + 1) id
  rw [List.map_id] at hrows
  exact readNumbers_table (by decide) (closes_numberedRows _ (· + 1) id) hrows

/-- The table of cells by scan code has the cells. -/
theorem readNumbers_scanToDisplay :
    readNumbers (scanToDisplay map) =
      some ⟨"uint16_t", "Pixel_ScanCodeToDisplay[]", map.scanToDisplay⟩ := by
  have hrows := holds_numberedRows map.scanToDisplay (· + 1) id
  rw [List.map_id] at hrows
  exact readNumbers_table (by decide) (closes_numberedRows _ (· + 1) id) hrows

/-- The display has its cells row by row. -/
theorem readNumbers_displayTable :
    readNumbers (displayTable map) =
      some ⟨cellType map, "Pixel_DisplayMapping[]", map.display.flatten⟩ := by
  have hhead : words ("const " ++ cellType map ++ " Pixel_DisplayMapping[]") =
      ["const", cellType map, "Pixel_DisplayMapping[]"] := by
    rw [cellType]
    split <;> decide
  have hclosed : ∀ text ∈ map.display.map displayRow, Closes text :=
    List.forall_mem_map.mpr fun cells _ => Closes.append (by decide) _
  have hrows : Holds ((map.display.map displayRow).flatMap words) map.display.flatten := by
    rw [List.flatMap_map, ← List.flatMap_id]
    exact Holds.flatMap fun cells _ => holds_displayRow cells
  exact readNumbers_table hhead hclosed hrows

end Tables

end Keymap.Listing
