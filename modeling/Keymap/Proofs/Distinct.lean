import Keymap.Distinct
import Mathlib.Data.List.Nodup

/-!
# Look-ups by distinct keys

Where keys are distinct, looking one up finds the value that stands with it, in
whatever order the values are. The index of a name among distinct names is the
place where it stands.
-/

namespace Keymap

section Entries

variable [BEq κ] [LawfulBEq κ] {entries others : List (κ × α)}

/-- Where keys are distinct, exactly the values that stand with a key are found under it. -/
theorem lookup_eq_some_iff_mem (h : (entries.map (·.1)).Nodup) {wanted : κ} {a : α} :
    entries.lookup wanted = some a ↔ (wanted, a) ∈ entries := by
  rw [List.lookup_eq_some_iff]
  constructor
  · rintro ⟨before, after, rfl, _⟩
    exact List.mem_append_right _ (List.mem_cons_self ..)
  · intro hmem
    obtain ⟨before, after, rfl⟩ := List.append_of_mem hmem
    refine ⟨before, after, rfl, fun entry hentry => bne_iff_ne.mpr fun he => ?_⟩
    rw [List.map_append, List.nodup_append] at h
    exact h.2.2 entry.1 (List.mem_map_of_mem hentry) wanted (List.mem_cons_self ..) he.symm

/-- Where keys are distinct, the value under a key is found in every order. -/
theorem lookup_perm (hp : entries.Perm others) (h : (entries.map (·.1)).Nodup) (wanted : κ) :
    entries.lookup wanted = others.lookup wanted := by
  have hothers : (others.map (·.1)).Nodup := (hp.map _).nodup_iff.mp h
  ext a
  rw [lookup_eq_some_iff_mem h, lookup_eq_some_iff_mem hothers, hp.mem_iff]

end Entries

section Places

variable [DecidableEq κ] {key : α → κ}

/-- Where a key has one value at most, exactly the value with a key is found. -/
theorem find?_eq_some_iff_mem {values : List α} {wanted : κ} {a : α}
    (h : ∀ a ∈ values, ∀ b ∈ values, key a = key b → a = b) :
    (values.find? fun a => decide (key a = wanted)) = some a ↔ a ∈ values ∧ key a = wanted := by
  constructor
  · intro hf
    have hk := List.find?_some hf
    exact ⟨List.mem_of_find?_eq_some hf, of_decide_eq_true hk⟩
  · rintro ⟨ha, rfl⟩
    cases hf : values.find? fun b => decide (key b = key a) with
    | none => exact absurd (decide_eq_true rfl) (List.find?_eq_none.mp hf a ha)
    | some b =>
      have hk := List.find?_some hf
      exact congrArg some (h b (List.mem_of_find?_eq_some hf) a ha (of_decide_eq_true hk))

/-- Where a key has one value at most, the value with a key is found in every order. -/
theorem find?_perm {values others : List α} (hp : values.Perm others) (wanted : κ)
    (h : ∀ a ∈ values, ∀ b ∈ values, key a = key b → a = b) :
    (values.find? fun a => decide (key a = wanted)) =
      others.find? fun a => decide (key a = wanted) := by
  have hothers : ∀ a ∈ others, ∀ b ∈ others, key a = key b → a = b := fun a ha b hb =>
    h a (hp.mem_iff.mpr ha) b (hp.mem_iff.mpr hb)
  ext a
  rw [find?_eq_some_iff_mem h, find?_eq_some_iff_mem hothers, hp.mem_iff]

/-- The place of a name is the same in every list that begins with the names. -/
theorem idxOf?_mono {names others : List κ} (h : names <+: others) {name : κ} {i : Nat}
    (hi : names.idxOf? name = some i) : others.idxOf? name = some i := by
  obtain ⟨more, rfl⟩ := h
  rw [List.idxOf?] at hi ⊢
  rw [List.findIdx?_append, hi, Option.some_or]

/-- A name that is known has the same place in every list that begins with the names. -/
theorem idxOf?_eq_of_mem {names others : List κ} (h : names <+: others) {name : κ}
    (hmem : name ∈ names) : others.idxOf? name = names.idxOf? name := by
  obtain ⟨i, hi⟩ := Option.isSome_iff_exists.mp (List.isSome_idxOf?.mpr hmem)
  rw [hi, idxOf?_mono h hi]

/-- Where names are distinct, the index of a name is the place where it stands. -/
theorem idxOf?_eq_some_iff_getElem? {names : List κ} (h : names.Nodup)
    {name : κ} {i : Nat} : names.idxOf? name = some i ↔ names[i]? = some name := by
  rw [List.idxOf?_eq_some_iff]
  constructor
  · rintro ⟨hi, he, _⟩
    rw [List.getElem?_eq_getElem hi]
    exact congrArg some he
  · intro hget
    obtain ⟨hi, he⟩ := List.getElem?_eq_some_iff.mp hget
    refine ⟨hi, he, fun j hj hjn => ?_⟩
    have hjl : j < names.length := by omega
    have hji : names[j] = names[i] := Eq.trans hjn he.symm
    have hne : j = i := (List.Nodup.getElem_inj_iff h).mp hji
    omega

/-- Names are distinct exactly if each of them is found where it stands. -/
theorem nodup_iff_idxOf? {names : List κ} :
    names.Nodup ↔ ∀ (i : Nat) (name : κ), names[i]? = some name → names.idxOf? name = some i := by
  constructor
  · exact fun h i name hname => (idxOf?_eq_some_iff_getElem? h).mpr hname
  · intro h
    rw [List.nodup_iff_getElem?_ne_getElem?]
    intro i j hij hj he
    have hname := List.getElem?_eq_getElem hj
    have hi := h i _ (he.trans hname)
    rw [h j _ hname] at hi
    exact Nat.ne_of_gt hij (Option.some.inj hi)

end Places

end Keymap
