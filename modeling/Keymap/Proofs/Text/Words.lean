import Keymap.Proofs.Text.Numerals
import Keymap.Text.Characters

/-!
# Words of a text

The words of a text are what stands between blanks and commas. Texts that meet
at a blank or comma have the words of both, so that the words of a listing are
those of its parts.
-/

namespace Keymap.Text

/-- A blank or comma separates words. -/
def isGap (c : Char) : Bool := isBlank c || decide (c = ',')

/-- The words of a text. -/
def words (text : String) : List String :=
  ((text.toList.splitOnP isGap).filter (!·.isEmpty)).map String.ofList

/-- The text is a word by itself. -/
def IsWord (text : String) : Prop := text ≠ "" ∧ ∀ c ∈ text.toList, isGap c = false

instance (text : String) : Decidable (IsWord text) :=
  decidable_of_iff (text ≠ "" ∧ text.toList.any isGap = false) <| by
    simp only [IsWord, List.any_eq_false, Bool.not_eq_true]

/-- The text begins with a gap. -/
def Opens (text : String) : Prop := text.toList.head?.any isGap = true

/-- The text ends with a gap. -/
def Closes (text : String) : Prop := text.toList.getLast?.any isGap = true

instance (text : String) : Decidable (Opens text) := inferInstanceAs (Decidable (_ = true))

instance (text : String) : Decidable (Closes text) := inferInstanceAs (Decidable (_ = true))

private theorem exists_gap_of_any {end? : Option Char} (h : end?.any isGap = true) :
    ∃ c, end? = some c ∧ isGap c = true := by
  cases end? with
  | none => simp at h
  | some c => exact ⟨c, rfl, h⟩

/-- A text that ends with a gap does so behind any other text. -/
theorem Closes.append {second : String} (h : Closes second) (first : String) :
    Closes (first ++ second) := by
  obtain ⟨c, hlast, hc⟩ := exists_gap_of_any h
  rw [Closes, String.toList_append, List.getLast?_append, hlast]
  exact hc

/-- A gap parts the words before it from those behind it. -/
private theorem words_ofList_append_cons (before after : List Char) {c : Char}
    (hc : isGap c = true) :
    words (String.ofList (before ++ c :: after)) =
      words (String.ofList before) ++ words (String.ofList after) := by
  simp only [words, String.toList_ofList, List.splitOnP_append_cons _ _ hc, List.filter_append,
    List.map_append]

@[simp]
theorem words_empty : words "" = [] := by decide

/-- A text that begins with a gap adds its words to those before it. -/
theorem words_append_of_opens {second : String} (h : Opens second) (first : String) :
    words (first ++ second) = words first ++ words second := by
  obtain ⟨c, hhead, hc⟩ := exists_gap_of_any h
  obtain ⟨after, hsecond⟩ := List.head?_eq_some_iff.mp hhead
  rw [← String.ofList_toList (s := second), hsecond,
    show c :: after = [] ++ c :: after from rfl, words_ofList_append_cons [] after hc]
  have hmeet := words_ofList_append_cons first.toList after hc
  rw [String.ofList_append, String.ofList_toList] at hmeet
  rw [List.nil_append, hmeet]
  rfl

/-- A text that ends with a gap adds its words to those behind it. -/
theorem words_append_of_closes {first : String} (h : Closes first) (second : String) :
    words (first ++ second) = words first ++ words second := by
  obtain ⟨c, hlast, hc⟩ := exists_gap_of_any h
  obtain ⟨before, hfirst⟩ := List.getLast?_eq_some_iff.mp hlast
  have hmeet := words_ofList_append_cons before second.toList hc
  have hend := words_ofList_append_cons before [] hc
  rw [List.append_cons, ← hfirst, String.ofList_append, String.ofList_toList,
    String.ofList_toList] at hmeet
  rw [← hfirst, String.ofList_toList, show words (String.ofList []) = [] from words_empty,
    List.append_nil] at hend
  rw [hmeet, hend]

/-- A word has itself as its only word. -/
theorem words_of_isWord {text : String} (h : IsWord text) : words text = [text] := by
  obtain ⟨hne, hsolid⟩ := h
  have hlist : text.toList.isEmpty = false := by
    rw [List.isEmpty_eq_false_iff]
    exact fun he => hne (String.toList_inj.mp he)
  rw [words, List.splitOnP_eq_singleton hsolid, List.filter_cons_of_pos (by rw [hlist]; rfl),
    List.filter_nil, List.map_singleton, String.ofList_toList]

/-- Words that are joined make a word. -/
theorem IsWord.append {first second : String} (h : IsWord first) (h' : IsWord second) :
    IsWord (first ++ second) := by
  refine ⟨fun he => h.1 (String.append_eq_empty_iff.mp he).1, ?_⟩
  intro c hc
  rw [String.toList_append, List.mem_append] at hc
  exact hc.elim (h.2 c) (h'.2 c)

/-- A number in base ten is a word. -/
theorem isWord_toString (n : Nat) : IsWord (toString n) := by
  refine ⟨fun he => ?_, forall_mem_toString (by decide) n⟩
  rw [Nat.toString_eq_ofList_toDigits] at he
  exact Nat.toDigits_ne_nil (String.ofList_eq_empty_iff.mp he)

/-- A number in base sixteen is a word. -/
theorem isWord_hex (n : Nat) : IsWord (hex n) :=
  ⟨fun he => List.cons_ne_nil _ _ (String.ofList_eq_empty_iff.mp he),
    forall_mem_hex (by decide) (by decide) n⟩

/-- The words of texts with gaps between them are those of the texts. -/
theorem words_intercalate {gap : String} (hopens : Opens gap) (hcloses : Closes gap)
    (hgap : words gap = []) (texts : List String) :
    words (String.intercalate gap texts) = texts.flatMap words := by
  induction texts with
  | nil => rfl
  | cons text rest ih =>
    cases rest with
    | nil => simp
    | cons next rest =>
      rw [String.intercalate_cons_cons, List.flatMap_cons, ← ih,
        words_append_of_closes (hcloses.append text), words_append_of_opens hopens, hgap,
        List.append_nil]

/-- The words of texts that end with gaps are those of the texts. -/
theorem words_join {texts : List String} (h : ∀ text ∈ texts, Closes text) :
    words (String.join texts) = texts.flatMap words := by
  induction texts with
  | nil => rfl
  | cons text rest ih =>
    rw [List.forall_mem_cons] at h
    rw [String.join_cons, List.flatMap_cons, ← ih h.2, words_append_of_closes h.1]

/-- Texts that end with gaps still do so behind one another. -/
theorem Closes.join {first : String} (h : Closes first) {texts : List String}
    (htexts : ∀ text ∈ texts, Closes text) : Closes (first ++ String.join texts) := by
  induction texts generalizing first with
  | nil => simpa using h
  | cons text rest ih =>
    rw [List.forall_mem_cons] at htexts
    rw [String.join_cons, ← String.append_assoc]
    exact ih (htexts.1.append first) htexts.2

/-- Words are their own words. -/
theorem flatMap_words {texts : List String} (h : ∀ text ∈ texts, IsWord text) :
    texts.flatMap words = texts := by
  induction texts with
  | nil => rfl
  | cons text rest ih =>
    rw [List.forall_mem_cons] at h
    rw [List.flatMap_cons, words_of_isWord h.1, ih h.2]
    rfl

end Keymap.Text
