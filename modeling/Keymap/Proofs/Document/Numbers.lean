import Keymap.Document.JsonReader
import Keymap.Proofs.Text.Numerals
import Mathlib.Data.List.Basic
import Mathlib.Data.List.TakeWhile

/-!
# Numbers in JSON texts

An integer that fits a word is read back from its own text. What follows a number in a
text does not change how the number is read, provided that it cannot belong to it.
-/

namespace Keymap.JsonReader

open Text (naturalOf)

variable {rest : List Char}

/-- What can follow a value in a text that is written line by line. -/
def Ends (rest : List Char) : Prop := ∀ c ∈ rest.head?, c = ',' ∨ c = '\n'

theorem ends_nil : Ends [] := fun c hc => by cases hc

section Digits

/-- What can follow a number does not begin with a digit. -/
theorem Ends.not_digit (hends : Ends rest) : ∀ c ∈ rest.head?, c.isDigit = false := by
  intro c hc
  rcases hends c hc with rfl | rfl <;> rfl

/-- The digits of a number are the same with what can follow it. -/
theorem takeWhile_digits_append (hends : Ends rest) (cs : List Char) :
    (cs ++ rest).takeWhile Char.isDigit = cs.takeWhile Char.isDigit := by
  induction cs with
  | nil =>
    cases rest with
    | nil => rfl
    | cons c rest =>
      rw [List.nil_append, List.takeWhile_cons, hends.not_digit c rfl]
      rfl
  | cons c cs ih =>
    rw [List.cons_append, List.takeWhile_cons, List.takeWhile_cons, ih]

theorem dropWhile_digits_append (hends : Ends rest) (cs : List Char) :
    (cs ++ rest).dropWhile Char.isDigit = cs.dropWhile Char.isDigit ++ rest := by
  induction cs with
  | nil =>
    cases rest with
    | nil => rfl
    | cons c rest =>
      rw [List.nil_append, List.dropWhile_cons, hends.not_digit c rfl]
      rfl
  | cons c cs ih =>
    rw [List.cons_append, List.dropWhile_cons, List.dropWhile_cons, ih]
    split <;> rfl

end Digits

section Exponents

/-- The exponent behind its sign, with what follows it. -/
def unsignedExponent (negative : Bool) (cs : List Char) : Option (Int × List Char) :=
  let digits := cs.takeWhile Char.isDigit
  if digits.isEmpty then none
  else
    let power : Int := naturalOf digits
    some (if negative then -power else power, cs.dropWhile Char.isDigit)

/-- An exponent may begin with a sign. -/
theorem readExponent_cons (c : Char) (cs : List Char) :
    readExponent (c :: cs) =
      if c = '-' then unsignedExponent true cs
      else if c = '+' then unsignedExponent false cs
      else unsignedExponent false (c :: cs) := by
  by_cases hminus : c = '-'
  · subst hminus
    rfl
  · by_cases hplus : c = '+'
    · subst hplus
      rfl
    · rw [if_neg hminus, if_neg hplus, readExponent]
      · rfl
      · rintro rest ⟨⟩
        exact hminus rfl
      · rintro rest ⟨⟩
        exact hplus rfl

/-- The digits of an exponent are read in front of what can follow. -/
theorem unsignedExponent_append (hends : Ends rest) {negative : Bool} {cs : List Char}
    {power : Int} (h : unsignedExponent negative cs = some (power, [])) :
    unsignedExponent negative (cs ++ rest) = some (power, rest) := by
  rw [unsignedExponent] at h ⊢
  rw [takeWhile_digits_append hends, dropWhile_digits_append hends]
  dsimp only at h ⊢
  split at h
  next => cases h
  next hdigits =>
    obtain ⟨rfl, hnil⟩ := Prod.mk.inj (Option.some.inj h)
    rw [if_neg hdigits, hnil, List.nil_append]

/-- An exponent is read in front of what can follow. -/
theorem readExponent_append (hends : Ends rest) {cs : List Char} {power : Int}
    (h : readExponent cs = some (power, [])) : readExponent (cs ++ rest) = some (power, rest) := by
  cases cs with
  | nil => cases h
  | cons c cs =>
    rw [readExponent_cons] at h
    rw [List.cons_append, readExponent_cons]
    split at h
    next hminus => rw [if_pos hminus, unsignedExponent_append hends h]
    next hminus =>
      rw [if_neg hminus]
      split at h
      next hplus => rw [if_pos hplus, unsignedExponent_append hends h]
      next hplus => rw [if_neg hplus, ← List.cons_append, unsignedExponent_append hends h]

/-- A power begins with the letter of exponents. -/
theorem readPower_cons (c : Char) (cs : List Char) :
    readPower (c :: cs) = if c = 'e' ∨ c = 'E' then readExponent cs else some (0, c :: cs) := by
  by_cases hsmall : c = 'e'
  · subst hsmall
    rfl
  · by_cases hlarge : c = 'E'
    · subst hlarge
      rfl
    · rw [if_neg (not_or.mpr ⟨hsmall, hlarge⟩), readPower]
      · rintro rest ⟨⟩
        exact hsmall rfl
      · rintro rest ⟨⟩
        exact hlarge rfl

/-- Nothing that can follow a number is a power. -/
theorem Ends.readPower (hends : Ends rest) : readPower rest = some (0, rest) := by
  cases rest with
  | nil => rfl
  | cons c rest =>
    have hc : ¬ (c = 'e' ∨ c = 'E') := by
      rcases hends c rfl with rfl | rfl <;> decide
    rw [readPower_cons, if_neg hc]

/-- A power is read in front of what can follow. -/
theorem readPower_append (hends : Ends rest) {cs : List Char} {power : Int}
    (h : JsonReader.readPower cs = some (power, [])) :
    JsonReader.readPower (cs ++ rest) = some (power, rest) := by
  cases cs with
  | nil =>
    cases h
    exact hends.readPower
  | cons c cs =>
    rw [readPower_cons] at h
    rw [List.cons_append, readPower_cons]
    split at h
    next hletter => rw [if_pos hletter, readExponent_append hends h]
    next => cases h

end Exponents

section Locality

/-- A number with an exponent is read alike where something follows. -/
private theorem exponential_append (hends : Ends rest) {signed : Binary64 → Number}
    {whole digits cs : List Char} {n : Number}
    (h : (do
      let (power, behind) ← readPower cs
      let x ← fractionOf whole digits power
      return (signed x, behind)) = some (n, [])) :
    (do
      let (power, behind) ← readPower (cs ++ rest)
      let x ← fractionOf whole digits power
      return (signed x, behind)) = some (n, rest) := by
  obtain ⟨⟨power, behind⟩, hpower, h⟩ := Option.bind_eq_some_iff.mp h
  obtain ⟨x, hx, h⟩ := Option.bind_eq_some_iff.mp h
  cases h
  refine Option.bind_eq_some_iff.mpr ⟨(power, rest), readPower_append hends hpower, ?_⟩
  exact Option.bind_eq_some_iff.mpr ⟨x, hx, rfl⟩

/-- A number without its sign is read in front of what can follow. -/
theorem readUnsigned_append (hends : Ends rest) {negative : Bool} {cs : List Char} {n : Number}
    (h : readUnsigned negative cs = some (n, [])) :
    readUnsigned negative (cs ++ rest) = some (n, rest) := by
  rw [readUnsigned] at h ⊢
  rw [takeWhile_digits_append hends, dropWhile_digits_append hends]
  generalize cs.takeWhile Char.isDigit = whole at h ⊢
  generalize cs.dropWhile Char.isDigit = behind at h ⊢
  dsimp only at h ⊢
  split at h
  next => cases h
  next hwhole =>
    rw [if_neg hwhole]
    split at h
    next digits =>
      rw [List.cons_append]
      change (if ((digits ++ rest).takeWhile Char.isDigit).isEmpty = true then none else _) = _
      rw [takeWhile_digits_append hends, dropWhile_digits_append hends]
      split at h
      next => cases h
      next hdigits =>
        rw [if_neg hdigits]
        exact exponential_append hends h
    next => exact exponential_append hends h
    next => exact exponential_append hends h
    next hpoint hsmall hlarge =>
      -- neither a point nor an exponent can follow a number
      obtain ⟨m, hm, hn⟩ := Option.map_eq_some_iff.mp h
      cases hn
      rw [List.nil_append]
      split
      next => rcases hends _ rfl with hc | hc <;> cases hc
      next => rcases hends _ rfl with hc | hc <;> cases hc
      next => rcases hends _ rfl with hc | hc <;> cases hc
      next => exact Option.map_eq_some_iff.mpr ⟨n, hm, rfl⟩

theorem readNumber_cons (c : Char) (cs : List Char) :
    readNumber (c :: cs) =
      if c = '-' then readUnsigned true cs else readUnsigned false (c :: cs) := by
  by_cases hminus : c = '-'
  · subst hminus
    rfl
  · rw [if_neg hminus, readNumber]
    rintro rest ⟨⟩
    exact hminus rfl

/-- A number is read alike where something follows that cannot belong to it. -/
theorem readNumber_append (hends : Ends rest) {cs : List Char} {n : Number}
    (h : readNumber cs = some (n, [])) : readNumber (cs ++ rest) = some (n, rest) := by
  cases cs with
  | nil => cases h
  | cons c cs =>
    rw [readNumber_cons] at h
    rw [List.cons_append, readNumber_cons]
    split at h
    next hminus => rw [if_pos hminus, readUnsigned_append hends h]
    next hminus => rw [if_neg hminus, ← List.cons_append, readUnsigned_append hends h]

/-- What reads as a number begins with a digit or a minus, and so with nothing with which any
other part of a text begins. -/
theorem exists_head_of_readNumber {cs : List Char} {result : Number × List Char}
    (h : readNumber cs = some result) :
    ∃ c rest, cs = c :: rest ∧ isBlank c = false ∧ c ∉ ['n', 't', 'f', '"', '[', ']', '\x7b'] := by
  cases cs with
  | nil => cases h
  | cons c cs =>
    refine ⟨c, cs, rfl, ?_⟩
    rw [readNumber_cons] at h
    split at h
    next hminus =>
      rw [hminus]
      decide
    next =>
      have hdigit : c.isDigit = true := by
        by_contra hother
        rw [readUnsigned, List.takeWhile_cons_of_neg hother] at h
        cases h
      constructor
      · rw [← Bool.not_eq_true, isBlank]
        simp only [Bool.or_eq_true, decide_eq_true_eq]
        rintro (((rfl | rfl) | rfl) | rfl) <;> cases hdigit
      · intro hmem
        simp only [List.mem_cons, List.not_mem_nil, or_false] at hmem
        rcases hmem with rfl | rfl | rfl | rfl | rfl | rfl | rfl <;> cases hdigit

end Locality

section Integers

/-- The decimal digits of a number have its value. -/
theorem naturalOf_toDigits (n : Nat) : naturalOf (Nat.toDigits 10 n) = n := by
  have h := @Nat.ofDigitChars_ten_toDigits n
  rw [Nat.ofDigitChars_eq_foldl] at h
  exact h

theorem all_isDigit_toDigits (n : Nat) : ∀ c ∈ Nat.toDigits 10 n, c.isDigit = true :=
  fun _ hc => Nat.isDigit_of_mem_toDigits (by decide) (by decide) hc

/-- The first digit of a number is not a zero. -/
theorem head?_toDigits_ne_zero {n : Nat} (h : 0 < n) : (Nat.toDigits 10 n).head? ≠ some '0' := by
  induction n using Nat.base_induction 10 (by decide) with
  | single n hn =>
    rw [Nat.toDigits_of_lt_base hn, List.head?_cons, ne_eq, Option.some.injEq]
    have hdigits : ∀ d < 10, 0 < d → Nat.digitChar d ≠ '0' := by decide
    exact hdigits n hn h
  | digit n d hd hn ih =>
    rw [← Nat.toDigits_append_toDigits (by decide) hn hd,
      List.head?_append_of_ne_nil _ Nat.toDigits_ne_nil]
    exact ih hn

/-- No digit is superfluous. -/
theorem toDigits_not_padded (n : Nat) :
    ¬ ((Nat.toDigits 10 n).head? = some '0' ∧ 1 < (Nat.toDigits 10 n).length) := by
  rintro ⟨hhead, hlength⟩
  rcases Nat.eq_zero_or_pos n with rfl | hn
  · exact absurd hlength (by decide)
  · exact head?_toDigits_ne_zero hn hhead

/-- The decimal digits of a number are read as a whole number. -/
theorem readUnsigned_toDigits (negative : Bool) (n : Nat) :
    readUnsigned negative (Nat.toDigits 10 n) =
      (wholeNumber negative (Nat.toDigits 10 n)).map (·, []) := by
  have hdigits := all_isDigit_toDigits n
  have hwhole : ¬ ((Nat.toDigits 10 n).isEmpty = true ∨
      (Nat.toDigits 10 n).head? = some '0' ∧ 1 < (Nat.toDigits 10 n).length) := by
    rw [not_or, List.isEmpty_iff]
    exact ⟨Nat.toDigits_ne_nil, toDigits_not_padded n⟩
  rw [readUnsigned, List.takeWhile_eq_self_iff.mpr hdigits, List.dropWhile_eq_nil_iff.mpr hdigits]
  dsimp only
  rw [if_neg hwhole]

/-- An integer that fits a word is read back from its own text. -/
theorem readNumber_toString {n : Int} (hlow : -2 ^ 63 ≤ n) (hhigh : n < 2 ^ 64) :
    readNumber (toString n).toList = some (.integer n, []) := by
  cases n with
  | ofNat n =>
    have htext : (toString (Int.ofNat n)).toList = Nat.toDigits 10 n := by
      have hrepr : toString (Int.ofNat n) = toString n := rfl
      rw [hrepr, Nat.toString_eq_ofList_toDigits, String.toList_ofList]
    have hfits : n < 2 ^ 64 := by
      have hcast : (n : Int) < 2 ^ 64 := hhigh
      omega
    have hread := readUnsigned_toDigits false n
    rw [wholeNumber, naturalOf_toDigits] at hread
    simp only [hfits, if_true] at hread
    obtain ⟨c, cs, hcs⟩ := List.exists_cons_of_ne_nil (@Nat.toDigits_ne_nil n 10)
    have hc : c ≠ '-' := by
      rintro rfl
      have hdigit := all_isDigit_toDigits n '-' (hcs ▸ List.mem_cons_self ..)
      exact absurd hdigit (by decide)
    rw [hcs] at hread
    rw [htext, hcs, readNumber_cons, if_neg hc, hread]
    rfl
  | negSucc n =>
    have htext : (toString (Int.negSucc n)).toList = '-' :: Nat.toDigits 10 (n + 1) := by
      have hrepr : toString (Int.negSucc n) = "-" ++ toString (n + 1) := rfl
      have hsign : "-".toList = ['-'] := rfl
      rw [hrepr, Nat.toString_eq_ofList_toDigits, String.toList_append, hsign, String.toList_ofList]
      rfl
    have hfits : n + 1 < 2 ^ 64 := by omega
    have hword : ¬ (n + 1 = 0 ∨ 2 ^ 63 < n + 1) := by omega
    rw [htext, readNumber_cons, if_pos rfl, readUnsigned_toDigits, wholeNumber, naturalOf_toDigits]
    simp only [hfits, hword, if_true, if_false]
    rfl

end Integers

end Keymap.JsonReader
