import Keymap.Document.JsonReader

/-!
# Quoted texts

A text in quotes is read back character by character: each is escaped on its own, and
reading the escape puts the character before what is read behind it.
-/

namespace Keymap.JsonReader

open Text (hexValue)

section Escapes

private theorem hexValue_hexDigit : ∀ d < 16, hexValue (Json.hexDigit d) = some d := by decide

/-- A character that is no surrogate is read from its number, whatever follows. -/
theorem readString_hex {a b c d : Char} {n : Nat} (hn : hexNumber a b c d = some n)
    (hplain : ¬ (0xD800 ≤ n ∧ n < 0xE000)) (read rest : List Char) :
    readString read ('\\' :: 'u' :: a :: b :: c :: d :: rest) =
      readString (Char.ofNat n :: read) rest := by
  rw [readString.eq_def]
  split
  next h => cases h
  next h => cases h
  -- a second escape may follow, but it is not looked at
  next h =>
    cases h
    simp only [hn, if_neg hplain]
  next h =>
    cases h
    simp only [hn, if_neg hplain]
  next _ hnever h =>
    cases h
    exact (hnever a b c d rest rfl rfl).elim
  next _ hnever h =>
    cases h
    exact (hnever 'u' _ rfl rfl).elim

/-- A character that needs no escape stands for itself. -/
theorem readString_plain {c : Char} (hquote : c ≠ '"') (hslash : c ≠ '\\')
    (hcontrol : ¬ c.toNat < 32) (read rest : List Char) :
    readString read (c :: rest) = readString (c :: read) rest := by
  rw [readString.eq_def]
  split
  next h => cases h
  next h =>
    cases h
    exact absurd rfl hquote
  next h =>
    cases h
    exact absurd rfl hslash
  next h =>
    cases h
    exact absurd rfl hslash
  next h =>
    cases h
    exact absurd rfl hslash
  next h =>
    cases h
    rw [if_neg (not_or.mpr ⟨hslash, hcontrol⟩)]

/-- A control character is escaped by its number. -/
theorem hexNumber_control {n : Nat} (h : n < 32) :
    hexNumber '0' '0' (Json.hexDigit (n / 16)) (Json.hexDigit (n % 16)) = some n := by
  have hzero : hexValue '0' = some 0 := rfl
  have hhigh := hexValue_hexDigit (n / 16) (by omega)
  have hlow := hexValue_hexDigit (n % 16) (by omega)
  have hsum : ((0 * 16 + 0) * 16 + n / 16) * 16 + n % 16 = n := by omega
  rw [hexNumber, hzero, hhigh, hlow]
  exact congrArg some hsum

/-- A character is read back from its escape. -/
theorem readString_escape (c : Char) (read rest : List Char) :
    readString read (Json.escape c ++ rest) = readString (c :: read) rest := by
  rw [Json.escape]
  split
  next h => cases h; rfl
  next hquote =>
    split
    next h => cases h; rfl
    next hslash =>
      split
      next h => cases h; rfl
      split
      next h => cases h; rfl
      split
      next h => cases h; rfl
      split
      next h => cases h; rfl
      split
      next h => cases h; rfl
      split
      next h =>
        have hplain : ¬ (0xD800 ≤ c.toNat ∧ c.toNat < 0xE000) := by omega
        have hread := readString_hex (hexNumber_control h) hplain read rest
        rw [Char.ofNat_toNat] at hread
        exact hread
      next hcontrol => exact readString_plain hquote hslash hcontrol read rest

end Escapes

/-- A text in quotes is read back, with what follows it. -/
theorem readString_flatMap_escape (read cs rest : List Char) :
    readString read (cs.flatMap Json.escape ++ '"' :: rest) =
      some (String.ofList (read.reverse ++ cs), rest) := by
  induction cs generalizing read with
  | nil =>
    rw [List.append_nil]
    rfl
  | cons c cs ih =>
    rw [List.flatMap_cons, List.append_assoc, readString_escape, ih, List.reverse_cons,
      List.append_assoc]
    rfl

/-- A text is read back behind its opening quote. -/
theorem exists_quote (s : String) (rest : List Char) :
    ∃ inner, (Json.quote s).toList ++ rest = '"' :: inner ∧
      readString [] inner = some (s, rest) := by
  refine ⟨s.toList.flatMap Json.escape ++ '"' :: rest, ?_, ?_⟩
  · rw [Json.quote, String.toList_ofList, List.append_assoc]
    rfl
  · rw [readString_flatMap_escape, List.reverse_nil, List.nil_append, String.ofList_toList]

end Keymap.JsonReader
