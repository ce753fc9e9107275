import Keymap.Document.Json
import Keymap.Proofs.Distinct
import Mathlib.Data.List.Induction

/-!
# Paths in JSON values

A path leads through the members of objects and the items of arrays. Where no two
members have one key, an object with ascending keys has exactly the members that it
is made of.
-/

namespace Keymap.Json

/-- A step of a path. -/
inductive Step where
  | key (name : String)
  | index (i : Nat)

/-- What stands behind a step. -/
def part? : Step → Json → Option Json
  | .key name, .object members => members.lookup name
  | .index i, .array items => items[i]?
  | _, _ => none

/-- What stands at the end of a path. -/
def get? (value : Json) : List Step → Option Json
  | [] => some value
  | step :: rest => (part? step value).bind (get? · rest)

/-- A path of one step leads to what stands behind the step. -/
theorem get?_singleton (value : Json) (step : Step) : value.get? [step] = part? step value :=
  Option.bind_fun_some _

private theorem lookup_cons (key wanted : String) (value : Json) (rest : List (String × Json)) :
    ((key, value) :: rest).lookup wanted =
      if wanted = key then some value else rest.lookup wanted := by
  rw [List.lookup_cons]
  split
  next h => rw [if_pos (eq_of_beq h)]
  next h => rw [if_neg (ne_of_beq_false h)]

/-- A member that is inserted is found under its key; the others are where they were. -/
theorem lookup_insertMember (key wanted : String) (value : Json) (members : List (String × Json)) :
    (insertMember key value members).lookup wanted =
      if wanted = key then some value else members.lookup wanted := by
  induction members with
  | nil => rw [insertMember, lookup_cons]
  | cons first rest ih =>
    obtain ⟨k, v⟩ := first
    rw [insertMember, lookup_cons]
    split
    next => rw [lookup_cons, lookup_cons]
    next =>
      split
      next hk =>
        rw [lookup_cons, ← hk]
        split <;> rfl
      next hk =>
        rw [lookup_cons, ih]
        split
        next h => rw [if_neg fun he => hk (he.symm.trans h)]
        next => rfl

section Objects

variable {members : List (String × Json)}

/-- Where keys are distinct, an object has exactly the members that it is made of. -/
theorem part?_sortedObject_iff (h : (members.map (·.1)).Nodup) {key : String} {value : Json} :
    (sortedObject members).part? (.key key) = some value ↔ (key, value) ∈ members := by
  simp only [sortedObject, part?]
  induction members using List.reverseRecOn with
  | nil => simp
  | append_singleton members last ih =>
    obtain ⟨k, v⟩ := last
    rw [List.map_append, List.nodup_append] at h
    have hnew : ∀ other, (k, other) ∉ members := fun other hmem =>
      h.2.2 k (List.mem_map_of_mem hmem) k (List.mem_cons_self ..) rfl
    rw [List.foldl_append, List.foldl_cons, List.foldl_nil, lookup_insertMember, List.mem_append,
      List.mem_singleton, Prod.mk.injEq]
    split
    next hk =>
      subst hk
      simp [hnew, eq_comm]
    next hk => simp [ih h.1, hk]

/-- Where keys are distinct, the members are found as in the list that they stand in. -/
theorem part?_sortedObject (h : (members.map (·.1)).Nodup) (key : String) :
    (sortedObject members).part? (.key key) = members.lookup key := by
  ext value
  rw [part?_sortedObject_iff h, lookup_eq_some_iff_mem h]

/-- Where every value has a key of its own, an object of the members of some values has
exactly these members. -/
theorem part?_sortedObject_filterMap_iff {values : List α} {member : α → Option (String × Json)}
    {name : α → String} (hname : ∀ a m, member a = some m → m.1 = name a)
    (h : (values.map name).Nodup) {key : String} {value : Json} :
    (sortedObject (values.filterMap member)).part? (.key key) = some value ↔
      ∃ a ∈ values, member a = some (key, value) := by
  have hdistinct : ((values.filterMap member).map (·.1)).Nodup := by
    rw [List.Nodup, List.pairwise_map, List.pairwise_filterMap]
    refine (List.pairwise_map.mp h).imp fun hne m hm m' hm' => ?_
    rwa [hname _ m hm, hname _ m' hm']
  rw [part?_sortedObject_iff hdistinct, List.mem_filterMap]

end Objects

end Keymap.Json
