/-!
# First occurrences

Several declarations may have one key. The first of them counts, and the later
ones are repeats. Keys that were seen before count as occurrences too. A list
without repeated keys is its own list of first occurrences, and the value with a
key is found in it where it stands.
-/

namespace Keymap

/-- The values whose key occurs for the first time, in their order. -/
def firstsBy [DecidableEq κ] (key : α → κ) : (seen : List κ) → List α → List α
  | _, [] => []
  | seen, a :: rest =>
    if key a ∈ seen then firstsBy key seen rest else a :: firstsBy key (key a :: seen) rest

/-- The values whose key occurred before, in their order. -/
def repeatsBy [DecidableEq κ] (key : α → κ) : (seen : List κ) → List α → List α
  | _, [] => []
  | seen, a :: rest =>
    if key a ∈ seen then a :: repeatsBy key seen rest else repeatsBy key (key a :: seen) rest

/-- The first value with a key, with its place in the list; `index` values stand before the list. -/
def locateBy [DecidableEq κ] (key : α → κ) (wanted : κ) : (index : Nat) → List α → Option (Nat × α)
  | _, [] => none
  | index, a :: rest =>
    if key a = wanted then some (index, a) else locateBy key wanted (index + 1) rest

section Fresh

variable {key : α → κ}

/-- The keys of the values are distinct, and none was seen before. -/
def Fresh (key : α → κ) (seen : List κ) (values : List α) : Prop :=
  (values.map key).Nodup ∧ ∀ a ∈ values, key a ∉ seen

@[simp]
theorem fresh_empty (seen : List κ) : Fresh key seen [] :=
  ⟨List.nodup_nil, fun _ h => absurd h List.not_mem_nil⟩

@[simp]
theorem fresh_nil_iff {values : List α} : Fresh key [] values ↔ (values.map key).Nodup :=
  ⟨And.left, fun h => ⟨h, fun _ _ => List.not_mem_nil⟩⟩

/-- The keys from a value on are fresh if its key is and the later ones are fresh after it. -/
theorem fresh_cons_iff {seen : List κ} {a : α} {rest : List α} :
    Fresh key seen (a :: rest) ↔ key a ∉ seen ∧ Fresh key (key a :: seen) rest := by
  rw [Fresh, Fresh, List.map_cons, List.nodup_cons, List.forall_mem_cons]
  constructor
  · rintro ⟨⟨ha, hn⟩, hseen, hs⟩
    refine ⟨hseen, hn, fun b hb h => ?_⟩
    rcases List.mem_cons.mp h with he | h
    · exact ha (he ▸ List.mem_map_of_mem hb)
    · exact hs b hb h
  · rintro ⟨hseen, hn, hs⟩
    refine ⟨⟨fun h => ?_, hn⟩, hseen, fun b hb h => hs b hb (List.mem_cons_of_mem _ h)⟩
    obtain ⟨b, hb, he⟩ := List.mem_map.mp h
    exact hs b hb (he ▸ List.mem_cons_self ..)

end Fresh

section FirstOccurrences

variable [DecidableEq κ] {key : α → κ}

/-- Nothing is left out of a list whose keys are fresh. -/
theorem firstsBy_eq_self {seen : List κ} {values : List α} (h : Fresh key seen values) :
    firstsBy key seen values = values := by
  induction values generalizing seen with
  | nil => rfl
  | cons a rest ih =>
    obtain ⟨hseen, hrest⟩ := fresh_cons_iff.mp h
    rw [firstsBy, if_neg hseen, ih hrest]

/-- Without keys that were seen before, distinct keys are all first occurrences. -/
theorem firstsBy_nil_eq_self {values : List α} (h : (values.map key).Nodup) :
    firstsBy key [] values = values :=
  firstsBy_eq_self (fresh_nil_iff.mpr h)

/-- The keys of first occurrences are those of the list that were not seen before. -/
theorem mem_map_firstsBy {seen : List κ} {values : List α} {k : κ} :
    k ∈ (firstsBy key seen values).map key ↔ k ∈ values.map key ∧ k ∉ seen := by
  induction values generalizing seen with
  | nil => simp [firstsBy]
  | cons a rest ih =>
    rw [firstsBy]
    split
    next hmem =>
      rw [ih, List.map_cons, List.mem_cons]
      constructor
      · exact fun h => ⟨Or.inr h.1, h.2⟩
      · rintro ⟨rfl | h, hk⟩
        · exact absurd hmem hk
        · exact ⟨h, hk⟩
    next hmem =>
      rw [List.map_cons, List.mem_cons, ih, List.map_cons, List.mem_cons, List.mem_cons]
      by_cases he : k = key a
      · simp [he, hmem]
      · simp [he]

/-- First occurrences have distinct keys. -/
theorem nodup_map_firstsBy (seen : List κ) (values : List α) :
    ((firstsBy key seen values).map key).Nodup := by
  induction values generalizing seen with
  | nil => exact List.nodup_nil
  | cons a rest ih =>
    rw [firstsBy]
    split
    · exact ih seen
    · rw [List.map_cons, List.nodup_cons]
      refine ⟨fun hmem => ?_, ih _⟩
      exact (mem_map_firstsBy.mp hmem).2 (List.mem_cons_self ..)

/-- Only the keys that were seen matter, not their order. -/
theorem firstsBy_congr {seen others : List κ} (h : ∀ k, k ∈ seen ↔ k ∈ others) {values : List α} :
    firstsBy key seen values = firstsBy key others values := by
  induction values generalizing seen others with
  | nil => rfl
  | cons a rest ih =>
    have hcons : ∀ k, k ∈ key a :: seen ↔ k ∈ key a :: others := fun k => by
      rw [List.mem_cons, List.mem_cons, h]
    rw [firstsBy, firstsBy, ih h, ih hcons]
    simp only [h (key a)]

/-- The first occurrences of more values come behind those of the values before,
whose keys then count as seen. -/
theorem firstsBy_append (seen : List κ) (values more : List α) :
    firstsBy key seen (values ++ more) =
      firstsBy key seen values ++ firstsBy key (values.map key ++ seen) more := by
  induction values generalizing seen with
  | nil => rfl
  | cons a rest ih =>
    rw [List.cons_append, firstsBy, firstsBy, List.map_cons, List.cons_append]
    split
    next hmem =>
      have hseen : ∀ k, k ∈ key a :: (rest.map key ++ seen) ↔ k ∈ rest.map key ++ seen := by
        intro k
        rw [List.mem_cons, or_iff_right_of_imp]
        rintro rfl
        exact List.mem_append_right _ hmem
      rw [ih, firstsBy_congr hseen]
    next hmem =>
      have hseen : ∀ k, k ∈ key a :: (rest.map key ++ seen) ↔ k ∈ rest.map key ++ key a :: seen :=
        fun k => by simp only [List.mem_cons, List.mem_append, or_left_comm]
      rw [ih, List.cons_append, firstsBy_congr hseen]

/-- More values behind a list keep its first occurrences. -/
theorem prefix_firstsBy_append (seen : List κ) (values more : List α) :
    firstsBy key seen values <+: firstsBy key seen (values ++ more) := by
  rw [firstsBy_append]
  exact List.prefix_append _ _

/-- A value at the end is a first occurrence if its key is new. -/
theorem firstsBy_append_singleton {seen : List κ} {values : List α} {a : α} :
    firstsBy key seen (values ++ [a]) =
      firstsBy key seen values ++ if key a ∈ seen ∨ key a ∈ values.map key then [] else [a] := by
  have hseen : key a ∈ values.map key ++ seen ↔ key a ∈ seen ∨ key a ∈ values.map key := by
    rw [List.mem_append, or_comm]
  rw [firstsBy_append, firstsBy]
  simp only [hseen, firstsBy]

/-- The keys of first occurrences are the first occurrences of the keys. -/
theorem map_firstsBy (seen : List κ) (values : List α) :
    (firstsBy key seen values).map key = firstsBy id seen (values.map key) := by
  induction values generalizing seen with
  | nil => rfl
  | cons a rest ih =>
    rw [List.map_cons, firstsBy, firstsBy, id, ← ih, ← ih]
    split <;> rfl

/-- A first occurrence is the first value that has its key. -/
theorem find?_of_mem_firstsBy {seen : List κ} {values : List α} {a : α}
    (h : a ∈ firstsBy key seen values) :
    (values.find? fun b => decide (key b = key a)) = some a := by
  induction values generalizing seen with
  | nil => exact absurd h List.not_mem_nil
  | cons b rest ih =>
    have hnew := (mem_map_firstsBy.mp (List.mem_map_of_mem (f := key) h)).2
    rw [firstsBy] at h
    split at h
    next hb =>
      have hne : key b ≠ key a := fun he => hnew (he ▸ hb)
      rw [List.find?_cons_of_neg (by simpa using hne), ih h]
    next hb =>
      rcases List.mem_cons.mp h with rfl | h
      · exact List.find?_cons_of_pos (decide_eq_true rfl)
      · have hlater := (mem_map_firstsBy.mp (List.mem_map_of_mem (f := key) h)).2
        have hne : key b ≠ key a := fun he => hlater (he ▸ List.mem_cons_self ..)
        rw [List.find?_cons_of_neg (by simpa using hne), ih h]

/-- There are no first occurrences only where there are no values. -/
theorem firstsBy_nil_eq_nil_iff {values : List α} : firstsBy key [] values = [] ↔ values = [] := by
  cases values with
  | nil => simp [firstsBy]
  | cons a rest => simp [firstsBy]

/-- No value is a repeat exactly when the keys are fresh. -/
theorem repeatsBy_eq_nil_iff {seen : List κ} {values : List α} :
    repeatsBy key seen values = [] ↔ Fresh key seen values := by
  induction values generalizing seen with
  | nil => simp [repeatsBy]
  | cons a rest ih =>
    rw [repeatsBy, fresh_cons_iff]
    split
    next hmem => simp [hmem]
    next hmem => rw [ih, and_iff_right hmem]

end FirstOccurrences

/-- Two places of a list with distinct keys whose values have one key are one place. -/
theorem eq_of_nodup_map {key : α → κ} {values : List α}
    (h : (values.map key).Nodup) {i j : Nat} {a b : α}
    (ha : values[i]? = some a) (hb : values[j]? = some b) (he : key a = key b) :
    i = j ∧ a = b := by
  have hi : i < (values.map key).length := by
    rw [List.length_map]
    exact (List.getElem?_eq_some_iff.mp ha).1
  have hij : i = j := by
    apply (List.getElem?_inj hi h).mp
    rw [List.getElem?_map, List.getElem?_map, ha, hb, Option.map_some, Option.map_some, he]
  subst hij
  exact ⟨rfl, Option.some.inj (ha.symm.trans hb)⟩

section Places

variable [DecidableEq κ] {key : α → κ}

/-- The value that is found has the key and stands at the place that is given. -/
theorem getElem?_of_locateBy {wanted : κ} {index i : Nat} {a : α} {values : List α}
    (h : locateBy key wanted index values = some (i, a)) :
    index ≤ i ∧ values[i - index]? = some a ∧ key a = wanted := by
  induction values generalizing index with
  | nil => simp [locateBy] at h
  | cons b rest ih =>
    rw [locateBy] at h
    split at h
    next hb =>
      obtain ⟨rfl, rfl⟩ : index = i ∧ b = a := by simpa using h
      simp [hb]
    next =>
      obtain ⟨hle, hget, hk⟩ := ih h
      refine ⟨by omega, ?_, hk⟩
      rw [show i - index = (i - (index + 1)) + 1 by omega, List.getElem?_cons_succ]
      exact hget

/-- A key is found exactly where some value has it. -/
theorem locateBy_eq_none_iff {wanted : κ} {index : Nat} {values : List α} :
    locateBy key wanted index values = none ↔ wanted ∉ values.map key := by
  induction values generalizing index with
  | nil => simp [locateBy]
  | cons b rest ih =>
    rw [locateBy]
    split
    next hb => simp [hb]
    next hb =>
      rw [ih, List.map_cons, List.mem_cons, not_or]
      exact ⟨fun h => ⟨Ne.symm hb, h⟩, And.right⟩

/-- Where keys are distinct, exactly the value with a key is found. -/
theorem locateBy_eq_some_iff {values : List α} (h : (values.map key).Nodup) {wanted : κ}
    {i : Nat} {a : α} :
    locateBy key wanted 0 values = some (i, a) ↔ values[i]? = some a ∧ key a = wanted := by
  constructor
  · intro hl
    obtain ⟨_, hget, hk⟩ := getElem?_of_locateBy hl
    exact ⟨hget, hk⟩
  · rintro ⟨hget, rfl⟩
    cases hl : locateBy key (key a) 0 values with
    | none =>
      have hmem := List.mem_map_of_mem (f := key) (List.mem_of_getElem? hget)
      exact absurd hmem (locateBy_eq_none_iff.mp hl)
    | some found =>
      obtain ⟨_, hget', hk⟩ := getElem?_of_locateBy hl
      obtain ⟨hi, ha⟩ := eq_of_nodup_map h hget' hget hk
      exact congrArg some (Prod.ext hi ha)

/-- Among first occurrences, the value with a key is the first of all values with the key. -/
theorem exists_locateBy_firstsBy_iff {values : List α} {wanted : κ} {a : α} :
    (∃ i, locateBy key wanted 0 (firstsBy key [] values) = some (i, a)) ↔
      (values.find? fun b => decide (key b = wanted)) = some a := by
  simp only [locateBy_eq_some_iff (nodup_map_firstsBy [] values)]
  constructor
  · rintro ⟨i, hget, rfl⟩
    exact find?_of_mem_firstsBy (List.mem_of_getElem? hget)
  · intro hfind
    have hk := List.find?_some hfind
    obtain rfl : key a = wanted := of_decide_eq_true hk
    have hmem : key a ∈ (firstsBy key [] values).map key :=
      mem_map_firstsBy.mpr
        ⟨List.mem_map_of_mem (List.mem_of_find?_eq_some hfind), List.not_mem_nil⟩
    obtain ⟨b, hb, he⟩ := List.mem_map.mp hmem
    have hfirst := find?_of_mem_firstsBy hb
    rw [he] at hfirst
    obtain rfl := Option.some.inj (hfind.symm.trans hfirst)
    obtain ⟨i, hget⟩ := List.getElem?_of_mem hb
    exact ⟨i, hget, rfl⟩

/-- What is found in a list is found at the same place in every list that begins with it. -/
theorem locateBy_mono {wanted : κ} {index i : Nat} {a : α} {values others : List α}
    (h : values <+: others) (hl : locateBy key wanted index values = some (i, a)) :
    locateBy key wanted index others = some (i, a) := by
  obtain ⟨more, rfl⟩ := h
  induction values generalizing index with
  | nil => cases hl
  | cons b rest ih =>
    rw [List.cons_append, locateBy]
    rw [locateBy] at hl
    split
    next hb => rwa [if_pos hb] at hl
    next hb => exact ih (by rwa [if_neg hb] at hl)

end Places

end Keymap
