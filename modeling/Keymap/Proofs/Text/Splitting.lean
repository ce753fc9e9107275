import Keymap.Proofs.Text.Words

/-!
# Splitting texts

A text is split at the places of a separator, which may have several characters.
Texts that are joined with a separator that none of them begins are the pieces of
the whole. The fields of a text are its pieces at commas without the blanks
around them, and its initializer is what stands between its braces.
-/

namespace Keymap.Text

/-- The pieces of a text between the places of a separator, found from left to
right; the characters to skip are the rest of the separator that was found last. -/
def pieces (separator : List Char) : (skip : Nat) → List Char → List (List Char)
  | _, [] => [[]]
  | skip + 1, _ :: rest => pieces separator skip rest
  | 0, c :: rest =>
    if separator.isPrefixOf (c :: rest) then [] :: pieces separator (separator.length - 1) rest
    else (pieces separator 0 rest).modifyHead (c :: ·)

/-- Split a text at a separator. -/
def splitText (separator text : String) : List String :=
  (pieces separator.toList 0 text.toList).map String.ofList

/-- The text without the blanks around it. -/
def trim (s : String) : String := trimEnd (String.ofList (s.toList.dropWhile isBlank))

/-- The fields of a text: what stands between commas, without the blanks around it. -/
def fields (text : String) : List String :=
  (text.toList.splitOn ',').map fun piece => trim (String.ofList piece)

/-- What stands between the last opening brace of a text and the closing brace behind it. -/
def initializer (text : String) : String :=
  let behind := (text.toList.reverse.takeWhile (· ≠ '\x7b')).reverse
  String.ofList (behind.takeWhile (· ≠ '\x7d'))

/-- The text has nothing but blanks. -/
def Blank (text : String) : Prop := ∀ c ∈ text.toList, isBlank c = true

instance (text : String) : Decidable (Blank text) :=
  decidable_of_iff (text.toList.all isBlank = true) List.all_eq_true

/-- The text has no braces. -/
def Unbraced (text : String) : Prop := '\x7b' ∉ text.toList ∧ '\x7d' ∉ text.toList

instance (text : String) : Decidable (Unbraced text) := inferInstanceAs (Decidable (_ ∧ _))

section Pieces

variable {separator : List Char} {c : Char}

/-- The rest of a separator is passed over. -/
theorem pieces_length_append (front rest : List Char) :
    pieces separator front.length (front ++ rest) = pieces separator 0 rest := by
  induction front with
  | nil => rfl
  | cons _ front ih => exact ih

/-- A text without the first character of the separator is one piece. -/
theorem pieces_eq_singleton {piece : List Char} (h : c ∉ piece) :
    pieces (c :: separator) 0 piece = [piece] := by
  induction piece with
  | nil => rfl
  | cons d piece ih =>
    rw [List.mem_cons, not_or] at h
    have hne : (c :: separator).isPrefixOf (d :: piece) = false := by
      simp [List.isPrefixOf_cons_cons, h.1]
    rw [pieces, hne, if_neg Bool.false_ne_true, ih h.2]
    rfl

/-- A piece ends at the separator. -/
theorem pieces_append {piece : List Char} (h : c ∉ piece) (rest : List Char) :
    pieces (c :: separator) 0 (piece ++ (c :: separator ++ rest)) =
      piece :: pieces (c :: separator) 0 rest := by
  induction piece with
  | nil =>
    have hfound : (c :: separator).isPrefixOf (c :: (separator ++ rest)) = true :=
      List.isPrefixOf_iff_prefix.mpr (List.prefix_append (c :: separator) rest)
    rw [List.nil_append, List.cons_append, pieces, if_pos hfound, List.length_cons,
      Nat.add_sub_cancel, pieces_length_append]
  | cons d piece ih =>
    rw [List.mem_cons, not_or] at h
    have hne : (c :: separator).isPrefixOf (d :: (piece ++ (c :: separator ++ rest))) = false := by
      simp [List.isPrefixOf_cons_cons, h.1]
    rw [List.cons_append, pieces, hne, if_neg Bool.false_ne_true, ih h.2]
    rfl

end Pieces

/-- Joined texts are split again where none of them has the first character of the separator. -/
theorem splitText_intercalate {separator : String} {c : Char}
    (hc : separator.toList.head? = some c) {texts : List String} (hne : texts ≠ [])
    (h : ∀ text ∈ texts, c ∉ text.toList) :
    splitText separator (String.intercalate separator texts) = texts := by
  obtain ⟨more, hmore⟩ := List.head?_eq_some_iff.mp hc
  rw [splitText, hmore]
  induction texts with
  | nil => exact absurd rfl hne
  | cons text rest ih =>
    rw [List.forall_mem_cons] at h
    cases rest with
    | nil =>
      rw [String.intercalate_singleton, pieces_eq_singleton h.1, List.map_singleton,
        String.ofList_toList]
    | cons next rest =>
      rw [String.intercalate_cons_cons, String.toList_append, String.toList_append,
        List.append_assoc, hmore, pieces_append h.1, List.map_cons, String.ofList_toList,
        ih (List.cons_ne_nil next rest) h.2]

/-- Joined texts have only the characters of the texts and the separator. -/
theorem not_mem_intercalate {separator : String} {c : Char} (hc : c ∉ separator.toList)
    {texts : List String} (h : ∀ text ∈ texts, c ∉ text.toList) :
    c ∉ (String.intercalate separator texts).toList := by
  induction texts with
  | nil => simp
  | cons text rest ih =>
    rw [List.forall_mem_cons] at h
    cases rest with
    | nil => simpa using h.1
    | cons next rest =>
      rw [String.intercalate_cons_cons, String.toList_append, String.toList_append,
        List.mem_append, List.mem_append]
      exact fun hmem => hmem.elim (fun hfront => hfront.elim h.1 hc) (ih h.2)

example : splitText ", " "1, 2 | 4,0x10, 0" = ["1", "2 | 4,0x10", "0"] := by decide +kernel

section Fields

/-- Texts with a comma between them have the fields of both. -/
theorem fields_append (first second : String) :
    fields (first ++ "," ++ second) = fields first ++ fields second := by
  rw [fields, String.toList_append, String.toList_append, List.append_assoc,
    show ",".toList ++ second.toList = ',' :: second.toList from rfl,
    List.splitOn_append_cons_self, List.map_append, fields, fields]

/-- The blanks before a word are dropped, and nothing of the word. -/
private theorem dropWhile_isBlank {blanks word : List Char}
    (hblanks : ∀ c ∈ blanks, isBlank c = true) (hne : word ≠ [])
    (hword : ∀ c ∈ word, isBlank c = false) (rest : List Char) :
    (blanks ++ (word ++ rest)).dropWhile isBlank = word ++ rest := by
  rw [List.dropWhile_append_of_pos hblanks]
  obtain ⟨c, more, rfl⟩ := List.exists_cons_of_ne_nil hne
  exact List.dropWhile_cons_of_neg (Bool.not_eq_true _ ▸ hword c (List.mem_cons_self ..))

/-- The blanks around a word are left out. -/
theorem trim_append {before word after : String} (hword : IsWord word) (hbefore : Blank before)
    (hafter : Blank after) : trim (before ++ word ++ after) = word := by
  have hne : word.toList ≠ [] := fun he => hword.1 (String.toList_inj.mp he)
  have hsolid : ∀ c ∈ word.toList, isBlank c = false := fun c hc =>
    (Bool.or_eq_false_iff.mp (hword.2 c hc)).1
  have hend := @dropWhile_isBlank after.toList.reverse word.toList.reverse
    (fun c hc => hafter c (List.mem_reverse.mp hc)) (mt List.reverse_eq_nil_iff.mp hne)
    (fun c hc => hsolid c (List.mem_reverse.mp hc)) []
  rw [List.append_nil, ← List.reverse_append] at hend
  rw [trim, trimEnd, String.toList_append, String.toList_append, List.append_assoc,
    dropWhile_isBlank hbefore hne hsolid, String.toList_ofList, hend, List.reverse_reverse,
    String.ofList_toList]

/-- The field of a word between blanks is the word. -/
theorem fields_eq_singleton {before word after : String} (hword : IsWord word)
    (hbefore : Blank before) (hafter : Blank after) :
    fields (before ++ word ++ after) = [word] := by
  have hblank : ∀ c, isBlank c = true → c ≠ ',' := by
    rintro _ hc rfl
    exact absurd hc (by decide)
  have hsolid : ∀ c ∈ word.toList, c ≠ ',' := by
    rintro _ hc rfl
    exact absurd (hword.2 _ hc) (by decide)
  have hcomma : ',' ∉ (before ++ word ++ after).toList := by
    intro hc
    rw [String.toList_append, String.toList_append, List.mem_append, List.mem_append] at hc
    rcases hc with (hc | hc) | hc
    · exact hblank _ (hbefore _ hc) rfl
    · exact hsolid _ hc rfl
    · exact hblank _ (hafter _ hc) rfl
  rw [fields, List.splitOn_eq_singleton hcomma, List.map_singleton, String.ofList_toList,
    trim_append hword hbefore hafter]

/-- Blanks in front of a text change nothing about its fields. -/
theorem fields_blank_append {blanks : String} (h : Blank blanks) (text : String) :
    fields (blanks ++ text) = fields text := by
  have htrim : ∀ (c : Char) (piece : List Char), isBlank c = true →
      trim (String.ofList (c :: piece)) = trim (String.ofList piece) := by
    intro c piece hc
    rw [trim, trim, String.toList_ofList, String.toList_ofList, List.dropWhile_cons_of_pos hc]
  have hgeneral : ∀ front : List Char, (∀ c ∈ front, isBlank c = true) →
      ((front ++ text.toList).splitOn ',').map (fun piece => trim (String.ofList piece)) =
        (text.toList.splitOn ',').map fun piece => trim (String.ofList piece) := by
    intro front
    induction front with
    | nil => exact fun _ => rfl
    | cons c front ih =>
      intro hfront
      rw [List.forall_mem_cons] at hfront
      have hcomma : c ≠ ',' := by
        rintro rfl
        exact absurd hfront.1 (by decide)
      rw [← ih hfront.2, List.cons_append, List.splitOn, List.splitOnP_cons_eq_if_modifyHead,
        if_neg (by simpa using hcomma), ← List.splitOn]
      cases (front ++ text.toList).splitOn ',' with
      | nil => rfl
      | cons piece pieces =>
        rw [List.modifyHead_cons, List.map_cons, List.map_cons, htrim c piece hfront.1]
  rw [fields, String.toList_append, hgeneral blanks.toList h, fields]

/-- The fields of texts with commas between them are those of the texts. -/
theorem fields_intercalate {texts : List String} (hne : texts ≠ []) :
    fields (String.intercalate "," texts) = texts.flatMap fields := by
  induction texts with
  | nil => exact absurd rfl hne
  | cons text rest ih =>
    cases rest with
    | nil => simp
    | cons next rest =>
      rw [String.intercalate_cons_cons, List.flatMap_cons, fields_append,
        ih (List.cons_ne_nil next rest)]

end Fields

section Braces

theorem Unbraced.append {first second : String} (h : Unbraced first) (h' : Unbraced second) :
    Unbraced (first ++ second) := by
  rw [Unbraced, String.toList_append, List.mem_append, List.mem_append, not_or, not_or]
  exact ⟨⟨h.1, h'.1⟩, h.2, h'.2⟩

theorem Unbraced.join {texts : List String} (h : ∀ text ∈ texts, Unbraced text) :
    Unbraced (String.join texts) := by
  induction texts with
  | nil => decide
  | cons text rest ih =>
    rw [List.forall_mem_cons] at h
    rw [String.join_cons]
    exact h.1.append (ih h.2)

/-- Texts without braces have none with a separator between them that has none. -/
theorem Unbraced.intercalate {separator : String} (hseparator : Unbraced separator)
    {texts : List String} (h : ∀ text ∈ texts, Unbraced text) :
    Unbraced (String.intercalate separator texts) :=
  ⟨not_mem_intercalate hseparator.1 fun text htext => (h text htext).1,
    not_mem_intercalate hseparator.2 fun text htext => (h text htext).2⟩

/-- What stands between the braces of a declaration is read back, whatever its head is. -/
theorem initializer_append (head : String) {body : String} (h : Unbraced body) :
    initializer (head ++ "\x7b" ++ body ++ "\x7d;") = body := by
  have hopen : ∀ c ∈ "\x7d;".toList.reverse ++ body.toList.reverse,
      decide (c ≠ '\x7b') = true := by
    intro c hc
    rw [List.mem_append, List.mem_reverse, List.mem_reverse] at hc
    refine decide_eq_true ?_
    rintro rfl
    exact hc.elim (by decide) h.1
  have hclose : ∀ c ∈ body.toList, decide (c ≠ '\x7d') = true :=
    fun c hc => decide_eq_true (ne_of_mem_of_not_mem hc h.2)
  have hreverse : (head ++ "\x7b" ++ body ++ "\x7d;").toList.reverse =
      ("\x7d;".toList.reverse ++ body.toList.reverse) ++ '\x7b' :: head.toList.reverse := by
    simp
  have hbehind : (("\x7d;".toList.reverse ++ body.toList.reverse) ++
      '\x7b' :: head.toList.reverse).takeWhile (· ≠ '\x7b') =
        "\x7d;".toList.reverse ++ body.toList.reverse := by
    rw [List.takeWhile_append_of_pos hopen]
    simp
  rw [initializer, hreverse, hbehind, ← List.reverse_append, List.reverse_reverse,
    List.takeWhile_append_of_pos hclose]
  simp

end Braces

end Keymap.Text
