import Keymap.Text.Numerals

/-!
# Reading numerals

The digits of a number are read back as the number, in base ten as well as in
base sixteen with capital letters and zeros before them.
-/

namespace Keymap.Text

/-- Read a number in base ten. -/
def readNumber (word : String) : Option Nat := naturalInBase? 10 word.toList

/-- Read a number in base sixteen behind `0x`. -/
def readHex (word : String) : Option Nat :=
  match word.toList with
  | '0' :: 'x' :: digits => naturalInBase? 16 digits
  | _ => none

private theorem hexValue_digitChar : ∀ d < 16, hexValue (Nat.digitChar d) = some d ∧
    hexValue (Nat.digitChar d).toUpper = some d := by
  decide

/-- Every digit of a number is that of a value below the base. -/
theorem exists_of_mem_toDigits {base n : Nat} {c : Char} (hb : 1 < base)
    (h : c ∈ Nat.toDigits base n) : ∃ d < base, c = Nat.digitChar d := by
  induction n using Nat.base_induction base hb with
  | single n hn =>
    rw [Nat.toDigits_of_lt_base hn, List.mem_singleton] at h
    exact ⟨n, hn, h⟩
  | digit n d hd hn ih =>
    rw [← Nat.toDigits_append_toDigits hb hn hd, List.mem_append,
      Nat.toDigits_of_lt_base hd, List.mem_singleton] at h
    rcases h with h | h
    · exact ih h
    · exact ⟨d, hd, h⟩

/-- What holds of the digits in base ten holds of every character of a number. -/
theorem forall_mem_toString {p : Char → Prop} (h : ∀ d < 10, p (Nat.digitChar d)) (n : Nat) :
    ∀ c ∈ (toString n).toList, p c := by
  intro c hc
  rw [Nat.toString_eq_ofList_toDigits, String.toList_ofList] at hc
  obtain ⟨d, hd, rfl⟩ := exists_of_mem_toDigits (by decide) hc
  exact h d hd

/-- What holds of `x` and the digits in base sixteen holds of every character of a
number in that base. -/
theorem forall_mem_hex {p : Char → Prop} (hx : p 'x')
    (h : ∀ d < 16, p (Nat.digitChar d).toUpper) (n : Nat) : ∀ c ∈ (hex n).toList, p c := by
  have hzero : p '0' := h 0 (by decide)
  intro c hc
  rw [hex, String.toList_ofList] at hc
  simp only [List.mem_cons, hexDigits, List.mem_append, List.mem_map] at hc
  rcases hc with rfl | rfl | hc | ⟨d, hd, rfl⟩
  · exact hzero
  · exact hx
  · rw [List.eq_of_mem_replicate hc]
    exact hzero
  · obtain ⟨value, hvalue, rfl⟩ := exists_of_mem_toDigits (by decide) hd
    exact h value hvalue

/-- Digits that are written in a way that keeps their values are read in any base. -/
private theorem naturalInBase?_map {base : Nat} (hb : 1 < base) {write : Char → Char}
    (hwrite : ∀ d < base, valueInBase base (write (Nat.digitChar d)) = some d) (zeros n : Nat) :
    naturalInBase? base
      (List.replicate zeros (write '0') ++ (Nat.toDigits base n).map write) = some n := by
  have hzeros : ∀ zeros : Nat, (List.replicate zeros (write '0')).foldlM (fun value c => do
      let digit ← valueInBase base c
      return base * value + digit) 0 = some 0 := by
    intro zeros
    induction zeros with
    | zero => rfl
    | succ zeros ih =>
      rw [List.replicate_succ, List.foldlM_cons, show '0' = Nat.digitChar 0 from rfl,
        hwrite 0 (by omega)]
      exact ih
  have hdigits : ((Nat.toDigits base n).map write).foldlM (fun value c => do
      let digit ← valueInBase base c
      return base * value + digit) 0 = some n := by
    induction n using Nat.base_induction base hb with
    | single n hn =>
      rw [Nat.toDigits_of_lt_base hn, List.map_singleton, List.foldlM_cons, hwrite n hn]
      simp
    | digit n d hd hn ih =>
      rw [← Nat.toDigits_append_toDigits hb hn hd, Nat.toDigits_of_lt_base hd, List.map_append,
        List.foldlM_append, ih, List.map_singleton]
      simp [hwrite d hd]
  have hne : (List.replicate zeros (write '0') ++ (Nat.toDigits base n).map write).isEmpty =
      false := by
    simp [Nat.toDigits_ne_nil]
  rw [naturalInBase?, hne, if_neg Bool.false_ne_true, List.foldlM_append, hzeros]
  exact hdigits

/-- A number in base ten is read back. -/
theorem readNumber_toString (n : Nat) : readNumber (toString n) = some n := by
  have hwrite : ∀ d < 10, valueInBase 10 (Nat.digitChar d) = some d := by
    intro d hd
    rw [valueInBase, (hexValue_digitChar d (by omega)).1, Option.bind_some, if_pos hd]
  have h := @naturalInBase?_map 10 (by decide) id hwrite 0 n
  rw [List.map_id] at h
  rw [readNumber, Nat.toString_eq_ofList_toDigits, String.toList_ofList]
  exact h

/-- A number in base sixteen is read back. -/
theorem readHex_hex (n : Nat) : readHex (hex n) = some n := by
  have hwrite : ∀ d < 16, valueInBase 16 (Nat.digitChar d).toUpper = some d := by
    intro d hd
    rw [valueInBase, (hexValue_digitChar d hd).2, Option.bind_some, if_pos hd]
  rw [readHex, hex, String.toList_ofList]
  exact naturalInBase?_map (by decide) hwrite _ n

/-- Different numbers are written differently in base ten. -/
theorem toString_injective {n m : Nat} (h : toString n = toString m) : n = m := by
  have hread := readNumber_toString n
  rw [h, readNumber_toString] at hread
  exact (Option.some.inj hread).symm

/-- Different numbers are written differently in base sixteen. -/
theorem hex_injective {n m : Nat} (h : hex n = hex m) : n = m := by
  have hread := readHex_hex n
  rw [h, readHex_hex] at hread
  exact (Option.some.inj hread).symm

/-- The digits at the end of a text, the last one first. -/
def endDigits (text : String) : List Char := text.toList.reverse.takeWhile Char.isDigit

/-- Behind anything but a digit exactly the digits of a number end the text. -/
theorem endDigits_append_toString {stem : String} {c : Char}
    (hstem : stem.toList.getLast? = some c) (hc : c.isDigit = false) (n : Nat) :
    endDigits (stem ++ toString n) = (toString n).toList.reverse := by
  have hdigits : ∀ d ∈ (toString n).toList.reverse, d.isDigit = true := fun d hd =>
    forall_mem_toString (p := fun d => d.isDigit = true) (by decide) n d (List.mem_reverse.mp hd)
  obtain ⟨front, hfront⟩ := List.getLast?_eq_some_iff.mp hstem
  rw [endDigits, String.toList_append, List.reverse_append, List.takeWhile_append_of_pos hdigits,
    hfront, List.reverse_append, List.reverse_singleton, List.singleton_append,
    List.takeWhile_cons_of_neg (by rw [hc]; exact Bool.false_ne_true), List.append_nil]

/-- A text that ends in no digit and a number behind it are told apart. -/
theorem append_toString_injective {stem stem' : String} {c c' : Char}
    (hstem : stem.toList.getLast? = some c) (hc : c.isDigit = false)
    (hstem' : stem'.toList.getLast? = some c') (hc' : c'.isDigit = false) {n m : Nat}
    (h : stem ++ toString n = stem' ++ toString m) : stem = stem' ∧ n = m := by
  have hends : (toString n).toList.reverse = (toString m).toList.reverse := by
    rw [← endDigits_append_toString hstem hc, h, endDigits_append_toString hstem' hc']
  have hnumber : toString n = toString m :=
    String.toList_inj.mp (List.reverse_inj.mp hends)
  rw [hnumber] at h
  exact ⟨(String.append_left_inj _).mp h, toString_injective hnumber⟩

end Keymap.Text
