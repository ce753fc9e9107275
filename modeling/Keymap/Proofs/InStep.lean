import Mathlib.Data.List.Forall2

/-!
# Lists in step and computations over lists

Lists are in step if their elements are related one by one. Lists that are made of
others element by element are in step where the others are. A computation that is
put together of others has a result exactly when the others have, and its result is
made of theirs.
-/

namespace Keymap

section Steps

/-- Lists have equal values at equal places exactly when they are in step. -/
theorem map_eq_map_iff_forall₂ {f : α → γ} {g : β → γ} {as : List α} {bs : List β} :
    as.map f = bs.map g ↔ List.Forall₂ (fun a b => f a = g b) as bs := by
  rw [← List.forall₂_eq_eq_eq, List.forall₂_map_left_iff, List.forall₂_map_right_iff]

/-- Where the values of two lists stand for those of two others one by one, what
relates the ones relates the others. -/
theorem forall₂_of_forall₂ {p : α → β → Prop} {q : α → α → Prop} {r : β → β → Prop}
    (hr : ∀ a a' b b', p a b → p a' b' → q a a' → r b b') {as as' : List α} {bs bs' : List β}
    (h : List.Forall₂ p as bs) (h' : List.Forall₂ p as' bs') (hq : List.Forall₂ q as as') :
    List.Forall₂ r bs bs' := by
  induction hq generalizing bs bs' with
  | nil =>
    cases h
    cases h'
    exact List.Forall₂.nil
  | cons ha _ ih =>
    cases h with
    | cons hp hrest =>
      cases h' with
      | cons hp' hrest' => exact List.Forall₂.cons (hr _ _ _ _ hp hp' ha) (ih hrest hrest')

/-- Lists that are in step with one list are related through its values. -/
theorem forall₂_comp {p : α → β → Prop} {q : β → γ → Prop} {as : List α} {bs : List β}
    {cs : List γ} (h : List.Forall₂ p as bs) (h' : List.Forall₂ q bs cs) :
    List.Forall₂ (fun a c => ∃ b, p a b ∧ q b c) as cs := by
  induction h generalizing cs with
  | nil =>
    cases h'
    exact List.Forall₂.nil
  | cons hp _ ih =>
    cases h' with
    | cons hq hrest => exact List.Forall₂.cons ⟨_, hp, hq⟩ (ih hrest)

theorem forall₂_flip {p : α → β → Prop} {as : List (List α)} {bs : List (List β)}
    (h : List.Forall₂ (List.Forall₂ p) as bs) : List.Forall₂ (List.Forall₂ (flip p)) bs as :=
  (h.imp fun _ _ => List.Forall₂.flip).flip

/-- Lists that are made of parts in step are in step. -/
theorem forall₂_flatMap {r : β → γ → Prop} {items : List α} {first : α → List β}
    {second : α → List γ} (h : ∀ item ∈ items, List.Forall₂ r (first item) (second item)) :
    List.Forall₂ r (items.flatMap first) (items.flatMap second) := by
  rw [List.flatMap_def, List.flatMap_def]
  refine List.rel_flatten ?_
  rw [List.forall₂_map_left_iff, List.forall₂_map_right_iff]
  exact List.forall₂_same.mpr h

/-- What holds of every value that has a partner holds of all values of a list in step. -/
theorem forall_mem_of_forall₂ {p : α → Prop} {r : α → β → Prop} {as : List α} {bs : List β}
    (hp : ∀ a b, r a b → p a) (h : List.Forall₂ r as bs) : ∀ a ∈ as, p a :=
  ((List.forall₂_and_left as bs).mp (h.imp fun a b hab => ⟨hp a b hab, hab⟩)).1

/-- What is known of the values of a list helps to relate them to their partners. -/
theorem forall₂_of_forall_mem {p : α → Prop} {r q : α → β → Prop} {as : List α} {bs : List β}
    (hp : ∀ a ∈ as, p a) (h : List.Forall₂ r as bs) (hq : ∀ a b, p a → r a b → q a b) :
    List.Forall₂ q as bs :=
  ((List.forall₂_and_left as bs).mpr ⟨hp, h⟩).imp fun a b hab => hq a b hab.1 hab.2

/-- The results are in step with those values that have one. -/
theorem forall₂_filter_isSome (f : α → Option β) (as : List α) :
    List.Forall₂ (fun a b => f a = some b) (as.filter fun a => (f a).isSome) (as.filterMap f) := by
  induction as with
  | nil => exact List.Forall₂.nil
  | cons a rest ih =>
    cases ha : f a with
    | none =>
      rw [List.filterMap_cons_none ha, List.filter_cons_of_neg (by simp [ha])]
      exact ih
    | some b =>
      rw [List.filterMap_cons_some ha, List.filter_cons_of_pos (by simp [ha])]
      exact List.Forall₂.cons ha ih

/-- Where every value has a result, the results are in step with the values. -/
theorem forall₂_filterMap {f : α → Option β} {as : List α} (h : ∀ a ∈ as, ∃ b, f a = some b) :
    List.Forall₂ (fun a b => f a = some b) as (as.filterMap f) := by
  have hall : (as.filter fun a => (f a).isSome) = as :=
    List.filter_eq_self.mpr fun a ha => Option.isSome_iff_exists.mpr (h a ha)
  have hsome := forall₂_filter_isSome f as
  rwa [hall] at hsome

/-- Values that are read one by one are read together. -/
theorem mapM_eq_some_of_forall₂ {read : α → Option γ} {value : β → γ} {as : List α}
    {bs : List β} (h : List.Forall₂ (fun a b => read a = some (value b)) as bs) :
    as.mapM read = some (bs.map value) := by
  induction h with
  | nil => rfl
  | cons hread _ ih =>
    rw [List.mapM_cons, hread, ih]
    rfl

/-- Values that are read back one by one from what is written are read back together. -/
theorem mapM_map_eq_some {read : β → Option γ} {write : α → β} {value : α → γ} {as : List α}
    (h : ∀ a ∈ as, read (write a) = some (value a)) :
    (as.map write).mapM read = some (as.map value) := by
  refine mapM_eq_some_of_forall₂ ?_
  rw [List.forall₂_map_left_iff]
  exact List.forall₂_same.mpr h

end Steps

section Computations

/-- A computation followed by another has a result exactly when both have. -/
theorem bind_eq_ok_iff {first : Except ε α} {next : α → Except ε β} {b : β} :
    first >>= next = .ok b ↔ ∃ a, first = .ok a ∧ next a = .ok b := by
  cases first <;> simp [bind, Except.bind]

/-- Where it is known when a function has a result and which one, it is also
known when it has results for all values of a list. -/
theorem mapM_eq_ok_iff {compile : α → Except ε β} {p : α → Prop} {result : α → β}
    (h : ∀ a b, compile a = .ok b ↔ p a ∧ b = result a) {values : List α} {results : List β} :
    values.mapM compile = .ok results ↔ (∀ a ∈ values, p a) ∧ results = values.map result := by
  induction values generalizing results with
  | nil => simp [pure, Except.pure, eq_comm]
  | cons a rest ih =>
    rw [List.mapM_cons, List.forall_mem_cons, List.map_cons]
    simp only [bind_eq_ok_iff, h, ih]
    constructor
    · rintro ⟨b, ⟨ha, rfl⟩, _, ⟨hrest, rfl⟩, hr⟩
      exact ⟨⟨ha, hrest⟩, (Except.ok.inj hr).symm⟩
    · rintro ⟨⟨ha, hrest⟩, rfl⟩
      exact ⟨result a, ⟨ha, rfl⟩, rest.map result, ⟨hrest, rfl⟩, rfl⟩

/-- What every step of a fold keeps holds of its result. -/
theorem invariant_of_foldlM_eq_ok {step : β → α → Except ε β} {p : β → Prop}
    (hstep : ∀ b a b', p b → step b a = .ok b' → p b') {values : List α} {start result : β}
    (hstart : p start) (h : values.foldlM step start = .ok result) : p result := by
  induction values generalizing start with
  | nil =>
    cases h
    exact hstart
  | cons a rest ih =>
    rw [List.foldlM_cons] at h
    obtain ⟨next, hnext, h⟩ := bind_eq_ok_iff.mp h
    exact ih (hstep start a next hstart hnext) h

end Computations

end Keymap
