import Keymap.Listing.Layout
import Keymap.Proofs.Text.Words

/-!
# Declarations in listings

A declaration in a listing is read from the words behind a keyword up to the
brace that ends it. What stands between two declarations is passed over, so that
the declarations of a listing are those of its parts.
-/

namespace Keymap.Listing

open Text

/-- The brace and semicolon with which a declaration ends. -/
def finish : String := "\x7d;"

/-- The declarations behind a keyword, each up to the word that ends it. -/
def declarations (keyword : String) : List String → List (List String)
  | [] => []
  | word :: rest =>
    if word = keyword then rest.takeWhile (· ≠ finish) :: declarations keyword rest
    else declarations keyword rest

/-- Words have some declarations, whatever follows them. -/
def Declares (keyword : String) (text : List String) (bodies : List (List String)) : Prop :=
  ∀ rest, declarations keyword (text ++ rest) = bodies ++ declarations keyword rest

section Reading

variable {keyword : String}

/-- The declarations of words are read with nothing behind them. -/
theorem Declares.declarations_eq {text : List String} {bodies : List (List String)}
    (h : Declares keyword text bodies) : declarations keyword text = bodies := by
  have hrest := h []
  rwa [List.append_nil, declarations, List.append_nil] at hrest

/-- Words one behind the other have their declarations one behind the other. -/
theorem Declares.append {first second : List String} {bodies bodies' : List (List String)}
    (h : Declares keyword first bodies) (h' : Declares keyword second bodies') :
    Declares keyword (first ++ second) (bodies ++ bodies') := by
  intro rest
  rw [List.append_assoc, h, h', List.append_assoc]

theorem Declares.flatMap {α : Type} {items : List α} {text : α → List String}
    {bodies : α → List (List String)}
    (h : ∀ item ∈ items, Declares keyword (text item) (bodies item)) :
    Declares keyword (items.flatMap text) (items.flatMap bodies) := by
  induction items with
  | nil => exact fun _ => rfl
  | cons item items ih =>
    rw [List.forall_mem_cons] at h
    exact h.1.append (ih h.2)

/-- Words without the keyword have no declarations. -/
theorem declares_of_not_mem {text : List String} (h : keyword ∉ text) :
    Declares keyword text [] := by
  intro rest
  induction text with
  | nil => rfl
  | cons word text ih =>
    rw [List.mem_cons, not_or] at h
    rw [List.cons_append, declarations, if_neg (Ne.symm h.1), ih h.2]

/-- A declaration is read up to the word that ends it. -/
theorem declares_declaration {body : List String} (hkeyword : keyword ∉ body)
    (hfinish : finish ∉ body) (hne : keyword ≠ finish) :
    Declares keyword (keyword :: body ++ [finish]) [body] := by
  intro rest
  have hskip : Declares keyword (body ++ [finish]) [] := by
    refine declares_of_not_mem fun hmem => ?_
    rcases List.mem_append.mp hmem with hmem | hmem
    · exact hkeyword hmem
    · exact hne (List.mem_singleton.mp hmem)
  have hbody : (body ++ [finish] ++ rest).takeWhile (· ≠ finish) = body := by
    rw [List.append_assoc, List.takeWhile_append_of_pos
      (fun word hword => decide_eq_true (ne_of_mem_of_not_mem hword hfinish))]
    simp
  rw [List.cons_append, List.cons_append, declarations, if_pos rfl, hbody, hskip]
  rfl

end Reading

/-- A declaration on one line has its tokens between braces. -/
theorem inlined_eq_append (head : String) (items : List String) :
    inlined head items =
      head ++ " = " ++ "\x7b" ++ (" " ++ tokens items ++ " ") ++ "\x7d;" := by
  rw [inlined, show " = \x7b " = " = " ++ "\x7b" ++ " " from rfl,
    show " \x7d;" = " " ++ "\x7d;" from rfl]
  simp only [String.append_assoc]

/-- A table has its rows between braces. -/
theorem table_eq_append (head : String) (rows : List String) :
    table head rows = head ++ " = " ++ "\x7b" ++ ("\n" ++ String.join rows) ++ "\x7d;" := by
  rw [table, braced, show " = " = " =" ++ " " from rfl,
    show " \x7b\n" = " " ++ "\x7b" ++ "\n" from rfl, show "\x7d;" = "\x7d" ++ ";" from rfl]
  simp only [String.append_assoc]

/-- The words of a declaration on one line. -/
theorem words_inlined (head : String) {items : List String} (h : ∀ item ∈ items, IsWord item) :
    words (inlined head items) = words head ++ ("=" :: "\x7b" :: items) ++ [finish] := by
  rw [inlined, tokens, words_append_of_opens (by decide),
    words_append_of_closes (Closes.append (by decide) _), words_append_of_opens (by decide),
    words_intercalate (by decide) (by decide) (by decide), flatMap_words h,
    show words " = \x7b " = ["=", "\x7b"] by decide, show words " \x7d;" = [finish] by decide]
  simp only [List.append_assoc, List.cons_append, List.nil_append]

/-- The words of a table whose rows end their lines. -/
theorem words_table (head : String) {rows : List String} (h : ∀ row ∈ rows, Closes row) :
    words (table head rows) =
      words head ++ ("=" :: "\x7b" :: rows.flatMap words) ++ [finish] := by
  have hopened : Closes (head ++ " =" ++ " \x7b\n") := Closes.append (by decide) _
  rw [table, braced, String.append_assoc, words_append_of_closes (hopened.join h),
    words_append_of_closes hopened, words_join h, words_append_of_opens (by decide),
    words_append_of_opens (by decide), show words " =" = ["="] by decide,
    show words " \x7b\n" = ["\x7b"] by decide, show words ("\x7d" ++ ";") = [finish] by decide]
  simp only [List.append_assoc, List.cons_append, List.nil_append]

/-- A row ends its line. -/
theorem closes_row (text : String) : Closes (row text) := Closes.append (by decide) _

@[simp]
theorem words_row (text : String) : words (row text) = words text := by
  rw [row, words_append_of_opens (by decide), words_append_of_closes (by decide),
    show words "\t" = [] by decide, show words "\n" = [] by decide, List.nil_append,
    List.append_nil]

end Keymap.Listing
