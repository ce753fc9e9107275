import Keymap.LayerTables
import Keymap.Proofs.Distinct

/-!
# Reading trigger lists

What is filed in a map is what was inserted into it. The maps that arise by
insertion are ordered: their scan codes ascend, and every scan code has a
non-empty ascending list. In an ordered map the list of a scan code holds what
is filed under it, and the relative lists of the span, read from its first scan
code on, hold the same for all scan codes.
-/

namespace Keymap.ScanMap

/-- A trigger is filed under a scan code. -/
def Files (map : ScanMap) (scanCode trigger : Nat) : Prop :=
  ∃ triggers, (scanCode, triggers) ∈ map.lists ∧ trigger ∈ triggers

/-- The scan codes ascend, and so do the triggers of each, of which there is at least one. -/
structure Ordered (map : ScanMap) : Prop where
  scanCodes : map.lists.Pairwise fun a b => a.1 < b.1
  lists : ∀ entry ∈ map.lists, entry.2.Pairwise (· < ·) ∧ entry.2 ≠ []

/-- A trigger is in a list with one inserted exactly if it is this one or was there before. -/
theorem mem_insertIndex {trigger t : Nat} {triggers : List Nat} :
    t ∈ insertIndex trigger triggers ↔ t = trigger ∨ t ∈ triggers := by
  induction triggers with
  | nil => simp [insertIndex]
  | cons first rest ih =>
    rw [insertIndex]
    split
    next => exact List.mem_cons
    next =>
      split
      next he =>
        subst he
        simp
      next => rw [List.mem_cons, ih, List.mem_cons, or_left_comm]

/-- Inserting an index keeps a list ascending. -/
theorem pairwise_insertIndex {trigger : Nat} {triggers : List Nat}
    (h : triggers.Pairwise (· < ·)) : (insertIndex trigger triggers).Pairwise (· < ·) := by
  induction triggers with
  | nil => simp [insertIndex]
  | cons first rest ih =>
    rw [List.pairwise_cons] at h
    rw [insertIndex]
    split
    next hlt =>
      rw [List.pairwise_cons, List.pairwise_cons]
      refine ⟨fun t ht => ?_, h⟩
      rcases List.mem_cons.mp ht with rfl | ht
      · exact hlt
      · exact Nat.lt_trans hlt (h.1 t ht)
    next hlt =>
      split
      next => exact List.pairwise_cons.mpr h
      next hne =>
        refine List.pairwise_cons.mpr ⟨fun t ht => ?_, ih h.2⟩
        rcases mem_insertIndex.mp ht with rfl | ht
        · omega
        · exact h.1 t ht

private theorem insertIndex_ne_nil (trigger : Nat) (triggers : List Nat) :
    insertIndex trigger triggers ≠ [] :=
  List.ne_nil_of_mem (mem_insertIndex.mpr (Or.inl rfl))

/-- Inserting files exactly one trigger more. -/
theorem files_insert {map : ScanMap} {scanCode trigger s t : Nat} :
    (map.insert scanCode trigger).Files s t ↔ (s = scanCode ∧ t = trigger) ∨ map.Files s t := by
  obtain ⟨lists⟩ := map
  simp only [Files, insert]
  induction lists with
  | nil => simp [insertList]
  | cons entry rest ih =>
    obtain ⟨code, triggers⟩ := entry
    have hcons : ∀ (head : Nat × List Nat) (tail : List (Nat × List Nat)),
        (∃ ts, (s, ts) ∈ head :: tail ∧ t ∈ ts) ↔
          (s = head.1 ∧ t ∈ head.2) ∨ ∃ ts, (s, ts) ∈ tail ∧ t ∈ ts := by
      intro head tail
      simp only [List.mem_cons, or_and_right, exists_or, Prod.ext_iff]
      simp
    rw [insertList]
    split
    next => rw [hcons, List.mem_singleton]
    next =>
      split
      next he =>
        subst he
        rw [hcons, hcons, mem_insertIndex]
        tauto
      next =>
        rw [hcons, hcons, ih]
        tauto

/-- The scan codes after an insertion are those before and the new one. -/
private theorem mem_insertList {scanCode trigger : Nat} {lists : List (Nat × List Nat)}
    {entry : Nat × List Nat} (h : entry ∈ insertList scanCode trigger lists) :
    entry.1 = scanCode ∨ ∃ old ∈ lists, old.1 = entry.1 := by
  induction lists with
  | nil =>
    rw [insertList, List.mem_singleton] at h
    exact Or.inl (h ▸ rfl)
  | cons head rest ih =>
    obtain ⟨code, triggers⟩ := head
    rw [insertList] at h
    split at h
    next =>
      rcases List.mem_cons.mp h with rfl | h
      · exact Or.inl rfl
      · exact Or.inr ⟨entry, h, rfl⟩
    next =>
      split at h
      next he =>
        rcases List.mem_cons.mp h with rfl | h
        · exact Or.inl he.symm
        · exact Or.inr ⟨entry, List.mem_cons_of_mem _ h, rfl⟩
      next =>
        rcases List.mem_cons.mp h with rfl | h
        · exact Or.inr ⟨_, List.mem_cons_self .., rfl⟩
        · rcases ih h with he | ⟨old, hold, he⟩
          · exact Or.inl he
          · exact Or.inr ⟨old, List.mem_cons_of_mem _ hold, he⟩

theorem ordered_empty : Ordered .empty := ⟨List.Pairwise.nil, fun _ h => absurd h List.not_mem_nil⟩

/-- Insertion keeps a map ordered. -/
theorem Ordered.insert {map : ScanMap} (h : map.Ordered) (scanCode trigger : Nat) :
    (map.insert scanCode trigger).Ordered := by
  obtain ⟨lists⟩ := map
  obtain ⟨hcodes, hlists⟩ := h
  simp only at hcodes hlists
  induction lists with
  | nil => exact ⟨by simp [ScanMap.insert, insertList], by simp [ScanMap.insert, insertList]⟩
  | cons entry rest ih =>
    obtain ⟨code, triggers⟩ := entry
    rw [List.pairwise_cons] at hcodes
    rw [List.forall_mem_cons] at hlists
    obtain ⟨ihcodes, ihlists⟩ := ih hcodes.2 hlists.2
    simp only [ScanMap.insert] at ihcodes ihlists
    have hall : ∀ entry ∈ (code, triggers) :: rest, entry.2.Pairwise (· < ·) ∧ entry.2 ≠ [] :=
      List.forall_mem_cons.mpr hlists
    rw [ScanMap.insert, insertList]
    split
    next hlt =>
      refine ⟨List.pairwise_cons.mpr ⟨fun e he => ?_, List.pairwise_cons.mpr hcodes⟩,
        List.forall_mem_cons.mpr ⟨by simp, hall⟩⟩
      rcases List.mem_cons.mp he with rfl | he
      · exact hlt
      · exact Nat.lt_trans hlt (hcodes.1 e he)
    next hlt =>
      split
      next =>
        exact ⟨List.pairwise_cons.mpr hcodes, List.forall_mem_cons.mpr
          ⟨⟨pairwise_insertIndex hlists.1.1, insertIndex_ne_nil _ _⟩, hlists.2⟩⟩
      next hne =>
        refine ⟨List.pairwise_cons.mpr ⟨fun e he => ?_, ihcodes⟩,
          List.forall_mem_cons.mpr ⟨hlists.1, ihlists⟩⟩
        rcases mem_insertList he with he | ⟨old, hold, he⟩
        · simp only [he]
          omega
        · exact he ▸ hcodes.1 old hold

/-- Where scan codes ascend, a list is found exactly under the scan code it stands with. -/
private theorem lookup_eq_some_iff {lists : List (Nat × List Nat)}
    (h : lists.Pairwise fun a b => a.1 < b.1) {scanCode : Nat} {triggers : List Nat} :
    lists.lookup scanCode = some triggers ↔ (scanCode, triggers) ∈ lists :=
  lookup_eq_some_iff_mem (List.pairwise_map.mpr (h.imp Nat.ne_of_lt))

section Reading

variable {map : ScanMap} (h : map.Ordered)
include h

/-- The list of a scan code holds what is filed under it. -/
theorem mem_get_iff {scanCode trigger : Nat} :
    trigger ∈ map.get scanCode ↔ map.Files scanCode trigger := by
  simp only [get, Files, ← lookup_eq_some_iff h.scanCodes]
  cases map.lists.lookup scanCode <;> simp

/-- The list of a scan code ascends. -/
theorem pairwise_get (scanCode : Nat) : (map.get scanCode).Pairwise (· < ·) := by
  rw [get]
  cases hl : map.lists.lookup scanCode with
  | none => exact List.Pairwise.nil
  | some triggers =>
    exact (h.lists _ ((lookup_eq_some_iff h.scanCodes).mp hl)).1

/-- The entries are the scan codes under which something is filed, with their lists. -/
theorem mem_lists_iff {scanCode : Nat} {triggers : List Nat} :
    (scanCode, triggers) ∈ map.lists ↔ triggers ≠ [] ∧ map.get scanCode = triggers := by
  rw [← lookup_eq_some_iff h.scanCodes, get]
  constructor
  · intro hl
    refine ⟨(h.lists _ ((lookup_eq_some_iff h.scanCodes).mp hl)).2, ?_⟩
    rw [hl, Option.getD_some]
  · rintro ⟨hne, rfl⟩
    cases hl : map.lists.lookup scanCode with
    | none =>
      rw [hl] at hne
      exact absurd rfl hne
    | some triggers => rfl

/-- Ordered maps in which the same is filed are equal. -/
theorem Ordered.eq_of_files {other : ScanMap} (ho : other.Ordered)
    (hfiles : ∀ scanCode trigger, map.Files scanCode trigger ↔ other.Files scanCode trigger) :
    map = other := by
  have hasymm : ∀ a b : Nat, a < b → b < a → a = b := fun a b hab hba =>
    absurd hab (Nat.lt_asymm hba)
  have hget : ∀ scanCode, map.get scanCode = other.get scanCode := by
    intro scanCode
    have hascends := pairwise_get h scanCode
    have hascends' := pairwise_get ho scanCode
    have hperm : (map.get scanCode).Perm (other.get scanCode) := by
      rw [List.perm_ext_iff_of_nodup (hascends.imp Nat.ne_of_lt) (hascends'.imp Nat.ne_of_lt)]
      intro trigger
      rw [mem_get_iff h, mem_get_iff ho, hfiles]
    exact hperm.eq_of_pairwise (fun a b _ _ => hasymm a b) hascends hascends'
  have hnodup : ∀ {lists : List (Nat × List Nat)}, (lists.Pairwise fun a b => a.1 < b.1) →
      lists.Nodup := fun hl => hl.imp fun hlt he => Nat.ne_of_lt hlt (congrArg Prod.fst he)
  have hperm : map.lists.Perm other.lists := by
    rw [List.perm_ext_iff_of_nodup (hnodup h.scanCodes) (hnodup ho.scanCodes)]
    rintro ⟨scanCode, triggers⟩
    rw [mem_lists_iff h, mem_lists_iff ho, hget]
  have hlists : map.lists = other.lists := by
    refine hperm.eq_of_pairwise (fun a b _ _ hab hba => ?_) h.scanCodes ho.scanCodes
    exact absurd hab (Nat.lt_asymm hba)
  cases map
  cases other
  exact congrArg ScanMap.mk hlists

/-- The scan code of an entry lies between the first one and the last one. -/
private theorem between {scanCode trigger first last : Nat} (hf : map.first? = some first)
    (hl : map.last? = some last) (hfiles : map.Files scanCode trigger) :
    first ≤ scanCode ∧ scanCode ≤ last := by
  obtain ⟨triggers, hmem, _⟩ := hfiles
  obtain ⟨i, hi, he⟩ := List.mem_iff_getElem.mp hmem
  have hle : ∀ j k (hj : j < map.lists.length) (hk : k < map.lists.length), j ≤ k →
      map.lists[j].1 ≤ map.lists[k].1 := by
    intro j k hj hk hjk
    rcases Nat.lt_or_eq_of_le hjk with hlt | rfl
    · exact Nat.le_of_lt (List.pairwise_iff_getElem.mp h.scanCodes j k hj hk hlt)
    · exact Nat.le_refl _
  rw [first?, List.head?_eq_getElem?, List.getElem?_eq_getElem (by omega), Option.map_some,
    Option.some.injEq] at hf
  rw [last?, List.getLast?_eq_getElem?, List.getElem?_eq_getElem (by omega), Option.map_some,
    Option.some.injEq] at hl
  have hfirst := hle 0 i (by omega) hi (by omega)
  have hlast := hle i (map.lists.length - 1) hi (by omega) (by omega)
  rw [he] at hfirst hlast
  simp only at hfirst hlast
  omega

end Reading

/-- The dense lists are those of the scan codes from the start on. -/
theorem getElem?_dense (map : ScanMap) (start stop k : Nat) :
    (map.dense start stop)[k]? = if start + k ≤ stop then some (map.get (start + k)) else none := by
  rw [dense, List.getElem?_map]
  by_cases hk : k < stop + 1 - start
  · rw [List.getElem?_range' hk, Nat.one_mul, Option.map_some, if_pos (by omega)]
  · rw [List.getElem?_eq_none (by rw [List.length_range']; omega), if_neg (by omega),
      Option.map_none]

@[simp]
theorem length_dense (map : ScanMap) (start stop : Nat) :
    (map.dense start stop).length = stop + 1 - start := by
  rw [dense, List.length_map, List.length_range']

/-- The dense lists are those of scan codes. -/
theorem exists_get_of_mem_dense {map : ScanMap} {start stop : Nat} {triggers : List Nat}
    (h : triggers ∈ map.dense start stop) : ∃ scanCode, map.get scanCode = triggers := by
  obtain ⟨scanCode, _, hget⟩ := List.mem_map.mp h
  exact ⟨scanCode, hget⟩

/-- The lists of the span are those of scan codes, or empty. -/
theorem exists_get_of_mem_span {map : ScanMap} {triggers : List Nat} (h : triggers ∈ map.span.2) :
    triggers = [] ∨ ∃ scanCode, map.get scanCode = triggers := by
  rw [span] at h
  split at h
  · exact Or.inr (exists_get_of_mem_dense h)
  · exact Or.inl (List.mem_singleton.mp h)

/-- The list that the span has for a scan code, counted from the first scan code of the span. -/
def spanned (map : ScanMap) (scanCode : Nat) : List Nat :=
  let (first, lists) := map.span
  if first ≤ scanCode ∧ scanCode < first + lists.length then lists[scanCode - first]?.getD []
  else []

/-- Without lists, nothing is filed under any scan code. -/
private theorem lists_eq_nil_of_first? {map : ScanMap} (h : map.first? = none) :
    map.lists = [] := by
  rw [first?, Option.map_eq_none_iff, List.head?_eq_none_iff] at h
  exact h

/-- The span of an ordered map has the list of every scan code. -/
theorem spanned_eq_get {map : ScanMap} (h : map.Ordered) (scanCode : Nat) :
    map.spanned scanCode = map.get scanCode := by
  have hnil : ∀ {triggers : List Nat}, (∀ t, t ∉ triggers) → triggers = [] :=
    List.eq_nil_iff_forall_not_mem.mpr
  rw [spanned, span]
  cases hf : map.first? with
  | none =>
    have hlists := lists_eq_nil_of_first? hf
    have hget : map.get scanCode = [] := by rw [get, hlists]; rfl
    rw [hget]
    by_cases hs : scanCode = 0 <;> simp [hs]
  | some first =>
    cases hl : map.last? with
    | none =>
      rw [last?, Option.map_eq_none_iff, List.getLast?_eq_none_iff] at hl
      simp [first?, hl] at hf
    | some last =>
      simp only [length_dense, getElem?_dense]
      by_cases hs : first ≤ scanCode ∧ scanCode ≤ last
      · rw [if_pos (by omega), if_pos (by omega), Option.getD_some,
          show first + (scanCode - first) = scanCode by omega]
      · rw [if_neg (by omega)]
        refine (hnil fun t ht => hs ?_).symm
        exact between h hf hl ((mem_get_iff h).mp ht)

end Keymap.ScanMap
