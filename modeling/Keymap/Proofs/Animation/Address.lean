import Keymap.Proofs.Guide.Calls

/-!
# Valid addresses

An address is encoded exactly when its coordinates are valid, and then in four
bytes behind a mode that does not end the frame. A fraction between zero and
one never stands for a negative place, so that only its upper bound matters.
-/

namespace Keymap

namespace Binary64

theorem isNegative_ofFields_false {magnitude : Nat} (h : magnitude < 2 ^ 63) :
    (ofFields false magnitude).isNegative = false := by
  have hbits : (ofFields false magnitude).bits.toNat = magnitude := by
    simp only [ofFields, Bool.false_eq_true, if_false, Nat.add_zero, UInt64.toNat_ofNat']
    exact Nat.mod_eq_of_lt (by omega)
  rw [isNegative, hbits]
  exact decide_eq_false (by omega)

/-- A quotient without a sign is not negative. -/
theorem isNegative_ofQuotient_false (num den : Nat) :
    (ofQuotient false num den).isNegative = false := by
  rw [ofQuotient]
  split
  · exact isNegative_ofFields_false (by decide)
  · simp only
    split
    · exact isNegative_ofFields_false (by decide)
    next h =>
      refine isNegative_ofFields_false ?_
      omega

/-- The magnitude of either zero is zero. -/
theorem numerator_eq_zero {x : Binary64} (h : x.isZero = true) : x.numerator = 0 := by
  have hbits : x.bits.toNat % 2 ^ 63 = 0 := of_decide_eq_true h
  have hexponent : x.exponentField = 0 := by
    rw [exponentField]
    omega
  have hfraction : x.fraction = 0 := by
    rw [fraction]
    omega
  rw [numerator, significand, if_pos hexponent, hfraction, Nat.zero_mul]

/-- The product with a zero is a zero of some sign. -/
theorem mul_eq_ofFields_zero {x y : Binary64} (h : y.isZero = true) :
    ∃ negative, x.mul y = ofFields negative 0 := by
  refine ⟨x.isNegative != y.isNegative, ?_⟩
  rw [mul, numerator_eq_zero h, Nat.mul_zero, ofQuotient, if_pos rfl]

/-- Either zero is rounded to zero. -/
theorem roundHalfUp_eq_zero {x : Binary64} (h : x.isZero = true) : x.roundHalfUp = 0 := by
  have hpos : 0 < x.denominator := Nat.two_pow_pos _
  rw [roundHalfUp, numerator_eq_zero h]
  exact Nat.div_eq_of_lt (by omega)

end Binary64

namespace Animation

open Config (Address Coordinate)

/-- The place that a fraction between zero and one stands for is not negative. -/
theorem share_nonneg {span : Nat} {f : Binary64} (h : f.inUnitInterval = true) :
    0 ≤ share span f := by
  simp only [Binary64.inUnitInterval, Bool.and_eq_true, Bool.or_eq_true, Bool.not_eq_true'] at h
  obtain ⟨⟨hfinite, _⟩, hsign⟩ := h
  have hspan : (Binary64.ofNat span).isNegative = false := Binary64.isNegative_ofQuotient_false ..
  rw [share, hfinite]
  split
  · exact Int.le_refl 0
  · rcases hsign with hzero | hpositive
    · obtain ⟨negative, hproduct⟩ := Binary64.mul_eq_ofFields_zero (x := Binary64.ofNat span) hzero
      have hround : (Binary64.ofFields negative 0).roundHalfUp = 0 :=
        Binary64.roundHalfUp_eq_zero (by cases negative <;> decide)
      have hproductFinite : (Binary64.ofFields negative 0).isFinite = true := by
        cases negative <;> decide
      simp only [hproduct, hround, hproductFinite]
      rw [if_pos trivial, if_pos ⟨trivial, by decide⟩]
      split <;> exact Int.le_refl 0
    · have hproduct : ((Binary64.ofNat span).mul f).isNegative = false := by
        rw [Binary64.mul, hspan, hpositive]
        exact Binary64.isNegative_ofQuotient_false ..
      simp only [if_true, hproduct, hpositive, Bool.false_eq_true, if_false]
      split <;> omega

/-- A coordinate has a place exactly when it is valid. -/
theorem exists_resolve_iff {symbol : String} {extent : Nat} {coordinate : Coordinate} :
    (∃ place, resolve symbol extent coordinate = .ok place) ↔ coordinate.Valid extent := by
  cases coordinate with
  | absolute value => simp [resolve, Coordinate.Valid]
  | fraction f =>
    simp only [resolve, Coordinate.Valid]
    split
    next h => exact iff_of_true ⟨_, rfl⟩ ⟨h.1, h.2.2⟩
    next h =>
      refine iff_of_false (by simp) fun hvalid => h ⟨hvalid.1, share_nonneg hvalid.1, hvalid.2⟩

/-- An address is encoded exactly when it is valid. -/
theorem exists_encodeAddress_iff {symbol : String} {extent : Extent} {address : Address} :
    (∃ result, encodeAddress symbol extent address = .ok result) ↔ address.Valid extent := by
  have hplace : ∀ (size : Nat) (coordinate : Coordinate),
      coordinate.Valid size ↔ ∃ place, resolve symbol size coordinate = .ok place :=
    fun _ _ => exists_resolve_iff.symm
  cases address with
  | rect column row =>
    simp only [Address.Valid, hplace, encodeAddress, bind_eq_ok_iff]
    constructor
    · rintro ⟨_, column', hcolumn, row', hrow, _⟩
      exact ⟨⟨column', hcolumn⟩, row', hrow⟩
    · rintro ⟨⟨column', hcolumn⟩, row', hrow⟩
      exact ⟨_, column', hcolumn, row', hrow, rfl⟩
  | columnFill _ secondary | rowFill _ secondary =>
    simp only [Address.Valid, hplace, encodeAddress, bind_eq_ok_iff]
    exact ⟨fun ⟨_, place, h, _⟩ => ⟨place, h⟩, fun ⟨place, h⟩ => ⟨_, place, h, rfl⟩⟩
  | index | scanCode | relativeIndex | relativeRect | relativeColumnFill | relativeRowFill =>
    exact iff_of_true ⟨_, rfl⟩ trivial

theorem length_pairBytes (first second : Int) : (pairBytes first second).length = 4 := by
  rw [pairBytes, List.length_append, Guide.length_lowBytes, Guide.length_lowBytes]

/-- The mode of an address does not end the frame, and four bytes follow it. -/
theorem encodeAddress_shape {symbol : String} {extent : Extent} {address : Address}
    {mode : AddressMode} {bytes : List UInt8}
    (h : encodeAddress symbol extent address = .ok (mode, bytes)) :
    mode ≠ .stop ∧ bytes.length = 4 := by
  cases address with
  | rect column row =>
    simp only [encodeAddress, bind_eq_ok_iff] at h
    obtain ⟨_, _, _, _, he⟩ := h
    cases he
    exact ⟨by decide, length_pairBytes ..⟩
  | columnFill | rowFill =>
    simp only [encodeAddress, bind_eq_ok_iff] at h
    obtain ⟨_, _, he⟩ := h
    cases he
    exact ⟨by decide, length_pairBytes ..⟩
  | index | scanCode | relativeIndex =>
    cases h
    exact ⟨by decide, Guide.length_lowBytes ..⟩
  | relativeRect | relativeColumnFill | relativeRowFill =>
    cases h
    exact ⟨by decide, length_pairBytes ..⟩

end Animation

end Keymap
