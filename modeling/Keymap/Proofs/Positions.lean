import Keymap.Proofs.Acceptance
import Keymap.Proofs.Gapless

/-!
# Positions of keys

The table of key positions has no gaps: a scan code for which no position is declared has
all coordinates zero. Of several positions that are declared for one scan code the last
one is in the table, and no check says that the others are not. So every declared position
is in the table exactly if no two different ones are for one scan code.
-/

namespace Keymap

namespace Config.Position

/-- An entry for a scan code is the last position that is declared for it; without a
declaration all its coordinates are zero. -/
structure EntryOf (positions : List Position) (n : Nat) (entry : Position) : Prop where
  scanCode : entry.scanCode.toNat = n
  last : ∀ before p after, positions = before ++ p :: after → p.scanCode.toNat = n →
    (∀ q ∈ after, q.scanCode.toNat ≠ n) → entry = p
  zero : (∀ p ∈ positions, p.scanCode.toNat ≠ n) → entry = .origin entry.scanCode

end Config.Position

namespace KeyPositions

open Config (Position)

variable {positions : List Position} {max scanCode : UInt16} {p : Position}

/-- The last declaration for a scan code is the one behind which there is no other. -/
theorem lastFor_eq_some_iff :
    lastFor positions scanCode = some p ↔ ∃ before after, positions = before ++ p :: after ∧
      p.scanCode = scanCode ∧ ∀ q ∈ after, q.scanCode ≠ scanCode := by
  rw [lastFor, List.getLast?_eq_some_iff]
  constructor
  · rintro ⟨earlier, hfilter⟩
    obtain ⟨before, rest, rfl, -, hrest⟩ := List.filter_eq_append_iff.mp hfilter
    obtain ⟨between, after, rfl, -, hp, hafter⟩ := List.filter_eq_cons_iff.mp hrest
    refine ⟨before ++ between, after, (List.append_assoc ..).symm, of_decide_eq_true hp, ?_⟩
    intro q hq he
    exact List.filter_eq_nil_iff.mp hafter q hq (decide_eq_true he)
  · rintro ⟨before, after, rfl, hp, hafter⟩
    have hnone : (after.filter fun q => decide (q.scanCode = scanCode)) = [] := by
      rw [List.filter_eq_nil_iff]
      intro q hq
      rw [decide_eq_true_iff]
      exact hafter q hq
    refine ⟨before.filter fun q => decide (q.scanCode = scanCode), ?_⟩
    rw [List.filter_append, List.filter_cons_of_pos (by rw [hp]; exact decide_eq_true rfl), hnone]

theorem lastFor_eq_none_iff :
    lastFor positions scanCode = none ↔ ∀ p ∈ positions, p.scanCode ≠ scanCode := by
  rw [lastFor, List.getLast?_eq_none_iff, List.filter_eq_nil_iff]
  simp only [decide_eq_true_iff, ne_eq]

/-- No position in range is left out. -/
theorem inRange_eq_self
    (h : ∀ p ∈ positions, 1 ≤ p.scanCode.toNat ∧ p.scanCode.toNat ≤ max.toNat) :
    inRange positions max = positions := by
  rw [inRange, List.filter_eq_self]
  intro p hp
  obtain ⟨hone, hmax⟩ := h p hp
  rw [Bool.and_eq_true]
  exact ⟨decide_eq_true (UInt16.le_iff_toNat_le.mpr hone),
    decide_eq_true (UInt16.le_iff_toNat_le.mpr hmax)⟩

/-- The last declaration for a scan code, or the origin, is the entry for it. -/
theorem entryOf_lastFor (scanCode : UInt16) :
    Position.EntryOf positions scanCode.toNat
      ((lastFor positions scanCode).getD (.origin scanCode)) := by
  have hne : ∀ {list : List Position}, (∀ q ∈ list, q.scanCode.toNat ≠ scanCode.toNat) →
      ∀ q ∈ list, q.scanCode ≠ scanCode := fun h q hq he => h q hq (congrArg UInt16.toNat he)
  constructor
  · cases hlast : lastFor positions scanCode with
    | none => rfl
    | some p =>
      obtain ⟨_, _, _, hp, _⟩ := lastFor_eq_some_iff.mp hlast
      exact congrArg UInt16.toNat hp
  · intro before p after he hp hafter
    have hcode : p.scanCode = scanCode := UInt16.toNat_inj.mp hp
    rw [lastFor_eq_some_iff.mpr ⟨before, after, he, hcode, hne hafter⟩, Option.getD_some]
  · intro hnone
    rw [lastFor_eq_none_iff.mpr (hne hnone)]
    rfl

section Table

variable (h : ∀ p ∈ positions, 1 ≤ p.scanCode.toNat ∧ p.scanCode.toNat ≤ max.toNat)
include h

/-- The table of positions in range has no gaps. -/
theorem gapless_build :
    Gapless (positions.map (·.scanCode.toNat)) (Position.EntryOf positions)
      (build positions max).entries := by
  rw [build, inRange_eq_self h]
  refine gapless_map_range fun i hi => ?_
  have hmax : i + 1 ≤ max.toNat := by
    refine Nat.le_trans hi (PixelMap.greatest_le ?_)
    rw [List.forall_mem_map]
    exact fun p hp => (h p hp).2
  have hlt : i + 1 < UInt16.size := Nat.lt_of_le_of_lt hmax max.toNat_lt
  have hentry := @entryOf_lastFor positions (UInt16.ofNat (i + 1))
  rwa [UInt16.toNat_ofNat_of_lt' hlt] at hentry

/-- All positions in range are in the table exactly if no two different ones are for one
scan code. -/
theorem getElem?_build_iff :
    (∀ p ∈ positions, (build positions max).entries[p.scanCode.toNat - 1]? = some p) ↔
      ∀ p ∈ positions, ∀ q ∈ positions, p.scanCode = q.scanCode → p = q := by
  constructor
  · intro htable p hp q hq he
    have hentry := htable p hp
    rw [he, htable q hq] at hentry
    exact (Option.some.inj hentry).symm
  · intro hdistinct p hp
    obtain ⟨entry, hget, hentry⟩ :=
      (gapless_build h).exists_entry (List.mem_map_of_mem hp) (h p hp).1
    have hsome : lastFor positions p.scanCode ≠ none := by
      rw [Ne, lastFor_eq_none_iff]
      exact fun hnone => hnone p hp rfl
    obtain ⟨q, hq⟩ := Option.ne_none_iff_exists'.mp hsome
    obtain ⟨before, after, he, hcode, hafter⟩ := lastFor_eq_some_iff.mp hq
    have hmem : q ∈ positions := he ▸ List.mem_append_right _ (List.mem_cons_self ..)
    have hlast : entry = q := by
      refine hentry.last before q after he (congrArg UInt16.toNat hcode) ?_
      intro r hr hsame
      exact hafter r hr (UInt16.toNat_inj.mp hsame)
    rw [hdistinct p hp q hmem hcode.symm, ← hlast, hentry.scanCode]
    exact hget

end Table

end KeyPositions

namespace Config

/-- The table of positions of a configuration without errors has no gaps, and it has all
positions that are declared exactly if no two different ones are for one scan code. -/
theorem positions_tabulated {config : Config} (h : config.check.hasErrors = false) :
    Gapless (config.positions.map (·.scanCode.toNat)) (Position.EntryOf config.positions)
        (Assembly.build config).positions.entries ∧
      ((∀ p ∈ config.positions,
          (Assembly.build config).positions.entries[p.scanCode.toNat - 1]? = some p) ↔
        ∀ p ∈ config.positions, ∀ q ∈ config.positions, p.scanCode = q.scanCode → p = q) := by
  have hrange := (WellFormed.of_check h).positions
  exact ⟨KeyPositions.gapless_build hrange, KeyPositions.getElem?_build_iff hrange⟩

/-- A key one millimetre from the left. -/
def near (scanCode : UInt16) : Position :=
  { Position.origin scanCode with x := ⟨0x3ff0000000000000⟩ }

/-- A key two millimetres from the left. -/
def far (scanCode : UInt16) : Position :=
  { Position.origin scanCode with x := ⟨0x4000000000000000⟩ }

/-- Positions of keys in no order, two of them for the scan code four. -/
def stacked : Config :=
  { sample with positions := [near 4, far 2, far 4, near 1] }

/-- The scan code four has the later of its two positions and the scan code three the origin,
so the first position for four is missing. -/
theorem positions_tabulated_stacked :
    stacked.check.hasErrors = false ∧
      Gapless [4, 2, 4, 1] (Position.EntryOf stacked.positions)
        (Assembly.build stacked).positions.entries ∧
      (Assembly.build stacked).positions.entries = [near 1, far 2, .origin 3, far 4] ∧
      ¬∀ p ∈ stacked.positions,
        (Assembly.build stacked).positions.entries[p.scanCode.toNat - 1]? = some p := by
  have hcheck : stacked.check.hasErrors = false := by decide +kernel
  obtain ⟨hgapless, hall⟩ := positions_tabulated hcheck
  refine ⟨hcheck, hgapless, by decide +kernel, ?_⟩
  rw [hall]
  intro hdistinct
  have he := hdistinct (near 4) (by decide +kernel) (far 4) (by decide +kernel) rfl
  exact absurd he (by decide)

/-- A configuration that is not found fault with declares a position that is not in the
table, because a later one is for the same scan code. -/
theorem position_overwritten :
    stacked.check = .empty ∧ ∃ p ∈ stacked.positions,
      p ∉ (Assembly.build stacked).positions.entries := by
  refine ⟨by decide +kernel, near 4, by decide +kernel, ?_⟩
  have hentries : (Assembly.build stacked).positions.entries =
      [near 1, far 2, .origin 3, far 4] := by decide +kernel
  rw [hentries]
  decide

end Config

end Keymap
