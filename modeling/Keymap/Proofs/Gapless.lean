import Keymap.PixelMap
import Mathlib.Tactic.Common

/-!
# Tables without gaps

Pixels, scan codes, key positions and frames are numbered from one, and the firmware finds
what belongs to a number at the place before it. So their tables have an entry for every
number up to the greatest one in use, whether something is declared for it or not.
-/

namespace Keymap

namespace PixelMap

theorem le_greatest {numbers : List Nat} {n : Nat} (h : n ∈ numbers) : n ≤ greatest numbers := by
  have hgeneral : ∀ (numbers : List Nat) (start : Nat),
      start ≤ numbers.foldl Nat.max start ∧
        ∀ n ∈ numbers, n ≤ numbers.foldl Nat.max start := by
    intro numbers
    induction numbers with
    | nil => exact fun start => ⟨Nat.le_refl start, fun _ h => absurd h List.not_mem_nil⟩
    | cons first rest ih =>
      intro start
      obtain ⟨hstart, hrest⟩ := ih (Nat.max start first)
      refine ⟨Nat.le_trans (Nat.le_max_left ..) hstart, List.forall_mem_cons.mpr ⟨?_, hrest⟩⟩
      exact Nat.le_trans (Nat.le_max_right ..) hstart
  exact (hgeneral numbers 0).2 n h

/-- The greatest of some numbers is one of them, unless it is zero. -/
theorem greatest_mem (numbers : List Nat) : greatest numbers = 0 ∨ greatest numbers ∈ numbers := by
  have hgeneral : ∀ (numbers : List Nat) (start : Nat),
      numbers.foldl Nat.max start = start ∨ numbers.foldl Nat.max start ∈ numbers := by
    intro numbers
    induction numbers with
    | nil => exact fun _ => Or.inl rfl
    | cons first rest ih =>
      intro start
      rw [List.foldl_cons, List.mem_cons]
      rcases ih (Nat.max start first) with he | hmem
      · rw [he]
        rcases Nat.le_total start first with hle | hle
        · exact Or.inr (Or.inl (Nat.max_eq_right hle))
        · exact Or.inl (Nat.max_eq_left hle)
      · exact Or.inr (Or.inr hmem)
  exact hgeneral numbers 0

/-- The greatest number is within a bound on all of them. -/
theorem greatest_le {numbers : List Nat} {bound : Nat} (h : ∀ n ∈ numbers, n ≤ bound) :
    greatest numbers ≤ bound := by
  rcases greatest_mem numbers with hzero | hmem
  · rw [hzero]
    exact Nat.zero_le bound
  · exact h _ hmem

/-- The greatest number turns only on which numbers there are. -/
theorem greatest_congr {numbers others : List Nat} (h : ∀ n, n ∈ numbers ↔ n ∈ others) :
    greatest numbers = greatest others := by
  apply Nat.le_antisymm
  · exact greatest_le fun n hn => le_greatest ((h n).mp hn)
  · exact greatest_le fun n hn => le_greatest ((h n).mpr hn)

end PixelMap

open PixelMap (greatest le_greatest greatest_mem)

variable {numbers : List Nat} {entry : Nat → α → Prop} {table : List α}

/-- A table has one entry for every number from one up to the greatest of those in use,
and no others; each entry is as its number asks. -/
structure Gapless (numbers : List Nat) (entry : Nat → α → Prop) (table : List α) : Prop where
  reaches : ∀ n ∈ numbers, n ≤ table.length
  ends : table = [] ∨ table.length ∈ numbers
  entry : ∀ i a, table[i]? = some a → entry (i + 1) a

/-- The entries for the numbers up to the greatest one are a table without gaps. -/
theorem gapless_map_range {value : Nat → α}
    (h : ∀ i, i < greatest numbers → entry (i + 1) (value i)) :
    Gapless numbers entry ((List.range (greatest numbers)).map value) where
  reaches n hn := by
    rw [List.length_map, List.length_range]
    exact le_greatest hn
  ends := by
    rw [List.length_map, List.length_range, List.map_eq_nil_iff, List.range_eq_nil]
    exact greatest_mem numbers
  entry i a ha := by
    obtain ⟨j, hj, rfl⟩ := Option.map_eq_some_iff.mp (List.getElem?_map .. ▸ ha)
    obtain ⟨hlt, rfl⟩ := List.getElem?_eq_some_iff.mp hj
    rw [List.length_range] at hlt
    rw [List.getElem_range]
    exact h i hlt

namespace Gapless

variable (h : Gapless numbers entry table)
include h

/-- Every number in use has its entry, at the place before the number. -/
theorem exists_entry {n : Nat} (hn : n ∈ numbers) (hpos : 1 ≤ n) :
    ∃ a, table[n - 1]? = some a ∧ entry n a := by
  have hle := h.reaches n hn
  have hlt : n - 1 < table.length := by omega
  refine ⟨table[n - 1], List.getElem?_eq_getElem hlt, ?_⟩
  have hentry := h.entry (n - 1) _ (List.getElem?_eq_getElem hlt)
  rwa [Nat.sub_add_cancel hpos] at hentry

/-- Where an entry has its number, the numbers of a table are those from one on. -/
theorem map_number {number : α → Nat} (hnumber : ∀ n a, entry n a → number a = n) :
    table.map number = List.range' 1 table.length := by
  refine List.ext_getElem? fun i => ?_
  rw [List.getElem?_map]
  by_cases hi : i < table.length
  · rw [List.getElem?_range' hi, List.getElem?_eq_getElem hi, Option.map_some,
      hnumber (i + 1) _ (h.entry i _ (List.getElem?_eq_getElem hi)), Nat.one_mul, Nat.add_comm]
  · rw [List.getElem?_eq_none (Nat.not_lt.mp hi),
      List.getElem?_eq_none (by rw [List.length_range']; exact Nat.not_lt.mp hi)]
    rfl

end Gapless

end Keymap
