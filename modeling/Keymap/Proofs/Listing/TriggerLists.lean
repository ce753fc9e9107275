import Keymap.Proofs.InStep
import Keymap.Proofs.Listing.Declarations
import Keymap.Proofs.Listing.Names

/-!
# Reading trigger lists and their tables

A trigger list is written with its name, its length and its triggers, and a
table with the names of its lists. Both are declarations, so they are read back
wherever they stand in a listing.
-/

namespace Keymap.Listing

open Text

/-- A trigger list that was read: its length and its triggers are written apart. -/
structure ReadList where
  name : String
  count : Nat
  triggers : List Nat

/-- Read a trigger list from its words. -/
def readList : List String → Option ReadList
  | layer :: code :: _ :: _ :: _ :: count :: triggers => do
    return ⟨layer ++ "_tl_" ++ code, ← readNumber count, ← triggers.mapM readNumber⟩
  | _ => none

/-- Read the trigger lists of a listing. -/
def readLists (text : String) : List ReadList :=
  (declarations "Define_TL(" (words text)).filterMap readList

/-- A table of trigger lists that was read: what it declares and the names of its lists. -/
structure ReadMap where
  declarator : String
  rows : List String

/-- Read a table of trigger lists from its words. -/
def readMap : List String → Option ReadMap
  | declarator :: _ :: _ :: rows => some ⟨declarator, rows⟩
  | _ => none

/-- Read the tables of trigger lists of a listing. -/
def readMaps (text : String) : List ReadMap :=
  (declarations "nat_ptr_t" (words text)).filterMap readMap

/-- The trigger lists of a layer as they are to be read. -/
def listsOf (n : Nat) (lists : List (List Nat)) : List ReadList :=
  lists.zipIdx.map fun (triggers, k) => ⟨listName (tableName n) k, triggers.length, triggers⟩

/-- The table of the trigger lists of a layer as it is to be read. -/
def mapOf (n : Nat) (lists : List (List Nat)) : ReadMap :=
  ⟨"*" ++ tableName n ++ "_scanMap[]", (List.range lists.length).map (listName (tableName n))⟩

section Lists

/-- The words of a trigger list between the keyword and its end. -/
def listBody (n k : Nat) (triggers : List Nat) : List String :=
  tableName n :: hex k :: ")" :: "=" :: "\x7b" :: toString triggers.length :: triggers.map toString

private theorem words_triggerList (n k : Nat) (triggers : List Nat) :
    words (triggerList (tableName n) k triggers) =
      "Define_TL(" :: listBody n k triggers ++ [finish] := by
  have hitems : ∀ item ∈ toString triggers.length :: triggers.map toString, IsWord item := by
    rw [List.forall_mem_cons, List.forall_mem_map]
    exact ⟨isWord_toString _, fun trigger _ => isWord_toString trigger⟩
  have hhead : words ("Define_TL( " ++ tableName n ++ ", " ++ hex k ++ " )") =
      ["Define_TL(", tableName n, hex k, ")"] := by
    rw [words_append_of_opens (by decide), words_append_of_closes (Closes.append (by decide) _),
      words_append_of_opens (by decide), words_append_of_closes (by decide),
      words_of_isWord (isWord_tableName n), words_of_isWord (isWord_hex k)]
    rfl
  rw [triggerList, words_inlined _ hitems, hhead]
  rfl

/-- The declaration of a trigger list is read back. -/
private theorem readList_listBody (n k : Nat) (triggers : List Nat) :
    readList (listBody n k triggers) =
      some ⟨listName (tableName n) k, triggers.length, triggers⟩ := by
  have htriggers : (triggers.map toString).mapM readNumber = some triggers := by
    rw [mapM_map_eq_some fun trigger _ => readNumber_toString trigger, List.map_id']
  rw [listBody, readList, readNumber_toString, htriggers]
  rfl

/-- A word that is none of the parts of a trigger list does not stand in one. -/
private theorem not_mem_listBody {word : String} (hd : word.toList.head? ≠ some 'd')
    (hl : word.toList.head? ≠ some 'l') (hsigns : word ∉ [")", "=", "\x7b"])
    (hnumber : readNumber word = none) (hhex : readHex word = none)
    (n k : Nat) (triggers : List Nat) : word ∉ listBody n k triggers := by
  have hne : ∀ m : Nat, word ≠ toString m := by
    rintro m rfl
    rw [readNumber_toString] at hnumber
    cases hnumber
  have hcode : word ≠ hex k := by
    rintro rfl
    rw [readHex_hex] at hhex
    cases hhex
  have hlayer : word ≠ tableName n := by
    have happend := tableName_append_ne hd hl n ""
    rwa [String.append_empty] at happend
  have htriggers : word ∉ triggers.map toString := by
    intro hmem
    obtain ⟨m, _, rfl⟩ := List.mem_map.mp hmem
    exact hne m rfl
  simp only [List.mem_cons, List.not_mem_nil, or_false, not_or] at hsigns
  simp only [listBody, List.mem_cons, hlayer, hcode, hsigns, hne, htriggers, or_self,
    not_false_eq_true]

/-- The declarations of trigger lists are those of the lists one by one. -/
theorem declares_triggerLists (n : Nat) (lists : List (List Nat)) :
    Declares "Define_TL(" (words (triggerLists (tableName n) lists))
      (lists.zipIdx.map fun (triggers, k) => listBody n k triggers) := by
  rw [triggerLists, lines, words_intercalate (by decide) (by decide) (by decide),
    List.flatMap_map, List.map_eq_flatMap]
  refine Declares.flatMap fun (triggers, k) _ => ?_
  rw [words_triggerList]
  exact declares_declaration
    (not_mem_listBody (by decide) (by decide) (by decide) (by decide) (by decide) n k triggers)
    (not_mem_listBody (by decide) (by decide) (by decide) (by decide) (by decide) n k triggers)
    (by decide)

/-- The bodies of trigger lists are read as the lists. -/
theorem filterMap_readList (n : Nat) (lists : List (List Nat)) :
    (lists.zipIdx.map fun (triggers, k) => listBody n k triggers).filterMap readList =
      listsOf n lists := by
  rw [List.filterMap_map, listsOf, ← List.filterMap_eq_map]
  exact congrArg (List.filterMap · _) (funext fun (triggers, k) => readList_listBody n k triggers)

end Lists

section Maps

/-- The words of a table of trigger lists between the keyword and its end. -/
def mapBody (n : Nat) (lists : List (List Nat)) : List String :=
  ("*" ++ tableName n ++ "_scanMap[]") :: "=" :: "\x7b" ::
    (List.range lists.length).map (listName (tableName n))

/-- The words of a scan map are those of its declaration. -/
private theorem words_scanMap (n : Nat) (lists : List (List Nat)) :
    words (scanMap (tableName n) lists) =
      "const" :: ("nat_ptr_t" :: mapBody n lists ++ [finish]) := by
  have hrows : ∀ text ∈ (List.range lists.length).map fun i =>
      row (tableName n ++ "_tl_" ++ hex i ++ ","), Closes text := by
    rw [List.forall_mem_map]
    exact fun i _ => closes_row _
  have hrow : ∀ i, words (row (tableName n ++ "_tl_" ++ hex i ++ ",")) =
      [listName (tableName n) i] := by
    intro i
    rw [words_row, words_append_of_opens (by decide), show words "," = [] by decide,
      List.append_nil]
    exact words_of_isWord (isWord_listName n i)
  have hhead : words ("const nat_ptr_t *" ++ tableName n ++ "_scanMap[]") =
      ["const", "nat_ptr_t", "*" ++ tableName n ++ "_scanMap[]"] := by
    have hword : IsWord ("*" ++ tableName n ++ "_scanMap[]") :=
      (IsWord.append (by decide) (isWord_tableName n)).append (by decide)
    have hsplit : "const nat_ptr_t *" ++ tableName n ++ "_scanMap[]" =
        "const nat_ptr_t " ++ ("*" ++ tableName n ++ "_scanMap[]") := by
      rw [← String.append_assoc, ← String.append_assoc]
      rfl
    rw [hsplit, words_append_of_closes (by decide), words_of_isWord hword]
    rfl
  rw [scanMap, words_table _ hrows, hhead, List.flatMap_map, funext hrow, ← List.map_eq_flatMap]
  rfl

/-- A word that is none of the parts of a table does not stand in one. -/
private theorem not_mem_mapBody {word : String} (hd : word.toList.head? ≠ some 'd')
    (hl : word.toList.head? ≠ some 'l') (hsigns : word ∉ ["=", "\x7b"])
    (hstar : word.toList.head? ≠ some '*') (n : Nat) (lists : List (List Nat)) :
    word ∉ mapBody n lists := by
  have hdeclarator : word ≠ "*" ++ tableName n ++ "_scanMap[]" := by
    rintro rfl
    simp at hstar
  have hrows : word ∉ (List.range lists.length).map (listName (tableName n)) := by
    intro hmem
    obtain ⟨k, _, hk⟩ := List.mem_map.mp hmem
    rw [listName, String.append_assoc] at hk
    exact tableName_append_ne hd hl n _ hk.symm
  simp only [List.mem_cons, List.not_mem_nil, or_false, not_or] at hsigns
  simp only [mapBody, List.mem_cons, hdeclarator, hsigns, hrows, or_self, not_false_eq_true]

/-- A table of trigger lists is one declaration. -/
theorem declares_scanMap (n : Nat) (lists : List (List Nat)) :
    Declares "nat_ptr_t" (words (scanMap (tableName n) lists)) [mapBody n lists] := by
  rw [words_scanMap]
  have hconst : Declares "nat_ptr_t" ["const"] [] := declares_of_not_mem (by decide)
  exact hconst.append (declares_declaration
    (not_mem_mapBody (by decide) (by decide) (by decide) (by decide) n lists)
    (not_mem_mapBody (by decide) (by decide) (by decide) (by decide) n lists) (by decide))

end Maps

end Keymap.Listing
