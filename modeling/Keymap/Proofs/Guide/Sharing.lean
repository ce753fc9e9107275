import Keymap.Assembly.Triggers
import Keymap.Proofs.Distinct

/-!
# Shared guides

While the triggers are compiled one after another, the guides have distinct
bytes, they are numbered in the order of their first use, and the users of a
guide are the triggers that have its number. A guide once there keeps its number
and bytes, so that in the end every trigger has the guide with its own bytes.
-/

namespace Keymap

open Config (Trigger)

/-- The bytes of a shared guide. -/
def SharedGuide.stream (guide : SharedGuide) : List UInt8 := Guide.triggerBytes guide.combos

/-- What holds of the guides and the rows of the triggers that were compiled. -/
structure Sharing (guides : List SharedGuide) (rows : List TriggerRow) : Prop where
  distinct : (guides.map (·.stream)).Nodup
  /-- The guides in the order of their first use are numbered from zero. -/
  firstUse : firstsBy id [] (rows.map (·.guide)) = List.range guides.length
  users : ∀ g guide, guides[g]? = some guide →
    guide.users = (rows.filter fun row => decide (row.guide = g)).map (·.name)

/-- The row of a trigger has its name and result, and the guide with its bytes. -/
structure TriggerRow.RowOf (scope : Assembly.TriggerScope) (results : List String)
    (guides : List SharedGuide) (trigger : Trigger) (row : TriggerRow) : Prop where
  name : row.name = trigger.name
  result : row.result = results.idxOf? trigger.result
  resultName : row.resultName = trigger.result
  guide : (guides.map (·.stream))[row.guide]? =
    some (Guide.triggerBytes (scope.combos trigger))

namespace Assembly

/-- A guide is found exactly where its bytes are those of a guide. -/
theorem sharedIndex?_eq_some {guides : List SharedGuide} {combos : Guide.TriggerCombos} {i : Nat}
    (h : sharedIndex? guides combos = some i) :
    (guides.map (·.stream))[i]? = some (Guide.triggerBytes combos) := by
  obtain ⟨hi, he, _⟩ := List.findIdx?_eq_some_iff_getElem.mp h
  rw [List.getElem?_map, List.getElem?_eq_getElem hi, Option.map_some]
  exact congrArg some (of_decide_eq_true he)

/-- Where no guide is found, none has these bytes. -/
theorem sharedIndex?_eq_none {guides : List SharedGuide} {combos : Guide.TriggerCombos}
    (h : sharedIndex? guides combos = none) :
    Guide.triggerBytes combos ∉ guides.map (·.stream) := by
  intro hmem
  obtain ⟨guide, hguide, he⟩ := List.mem_map.mp hmem
  have hnone := List.findIdx?_eq_none_iff.mp h guide hguide
  exact absurd he (of_decide_eq_false hnone)

private theorem map_stream_modify (guides : List SharedGuide) (i : Nat) (name : String) :
    (guides.modify i fun guide => { guide with users := guide.users ++ [name] }).map (·.stream) =
      guides.map (·.stream) := by
  apply List.ext_getElem?
  intro j
  rw [List.getElem?_map, List.getElem?_map, List.getElem?_modify]
  cases guides[j]? with
  | none => rfl
  | some guide => by_cases h : i = j <;> simp [h, SharedGuide.stream]

section Share

variable {guides : List SharedGuide} {name : String} {combos : Guide.TriggerCombos}

/-- Sharing keeps the bytes of all guides. -/
theorem prefix_streams_share :
    guides.map (·.stream) <+: (share guides name combos).1.map (·.stream) := by
  rw [share]
  split
  next i _ =>
    simp only [map_stream_modify, List.prefix_refl]
  next =>
    rw [List.map_append]
    exact List.prefix_append _ _

/-- The guide that a trigger gets has the bytes of the trigger. -/
theorem getElem?_streams_share :
    ((share guides name combos).1.map (·.stream))[(share guides name combos).2]? =
      some (Guide.triggerBytes combos) := by
  rw [share]
  split
  next i hi =>
    rw [map_stream_modify]
    exact sharedIndex?_eq_some hi
  next => simp [SharedGuide.stream]

/-- The combos of a guide are those of a guide before, or those that were shared. -/
theorem combos_of_mem_share {guide : SharedGuide} (h : guide ∈ (share guides name combos).1) :
    (∃ old ∈ guides, guide.combos = old.combos) ∨ guide.combos = combos := by
  rw [share] at h
  split at h
  next i _ =>
    obtain ⟨j, hj⟩ := List.getElem?_of_mem h
    rw [List.getElem?_modify] at hj
    obtain ⟨old, hold, rfl⟩ := Option.map_eq_some_iff.mp hj
    refine Or.inl ⟨old, List.mem_of_getElem? hold, ?_⟩
    split <;> rfl
  next =>
    rcases List.mem_append.mp h with hmem | hmem
    · exact Or.inl ⟨guide, hmem, rfl⟩
    · exact Or.inr (List.mem_singleton.mp hmem ▸ rfl)

end Share

end Assembly

namespace Sharing

variable {guides : List SharedGuide} {rows : List TriggerRow}

theorem nil : Sharing [] [] where
  distinct := List.nodup_nil
  firstUse := rfl
  users := fun _ _ h => by simp at h

/-- Exactly the numbers of guides are in use. -/
theorem mem_map_guide_iff (h : Sharing guides rows) {g : Nat} :
    g ∈ rows.map (·.guide) ↔ g < guides.length := by
  rw [← List.mem_range, ← h.firstUse]
  have hfirst := @mem_map_firstsBy _ _ _ id [] (rows.map (·.guide)) g
  simp only [List.map_id, List.not_mem_nil, not_false_eq_true, and_true] at hfirst
  exact hfirst.symm

/-- A trigger more keeps all guides in order. -/
theorem share (h : Sharing guides rows) (name : String) (combos : Guide.TriggerCombos)
    (result : Option Nat) (resultName : String) :
    Sharing (Assembly.share guides name combos).1
      (rows ++ [⟨name, (Assembly.share guides name combos).2, result, resultName⟩]) := by
  have hfirst := @firstsBy_append_singleton _ _ _ id [] (rows.map (·.guide))
  simp only [id_eq, List.map_id, List.not_mem_nil, false_or, h.mem_map_guide_iff,
    h.firstUse] at hfirst
  rw [Assembly.share]
  split
  next i hi =>
    have hlt : i < guides.length := by
      have hget := Assembly.sharedIndex?_eq_some hi
      rw [← List.length_map (·.stream)]
      exact (List.getElem?_eq_some_iff.mp hget).1
    refine ⟨?_, ?_, fun g guide hguide => ?_⟩
    · rw [Assembly.map_stream_modify]
      exact h.distinct
    · rw [List.map_append, List.map_singleton, hfirst, if_pos hlt, List.append_nil,
        List.length_modify]
    · rw [List.getElem?_modify] at hguide
      obtain ⟨old, hold, rfl⟩ := Option.map_eq_some_iff.mp hguide
      rw [List.filter_append, List.map_append, ← h.users g old hold]
      by_cases hg : i = g <;> simp [hg]
  next hnone =>
    refine ⟨?_, ?_, fun g guide hguide => ?_⟩
    · rw [List.map_append, List.map_singleton]
      refine List.nodup_append.mpr ⟨h.distinct, List.nodup_singleton _, ?_⟩
      rintro stream hstream _ hnew rfl
      obtain rfl := List.mem_singleton.mp hnew
      exact Assembly.sharedIndex?_eq_none hnone hstream
    · rw [List.map_append, List.map_singleton, hfirst, if_neg (Nat.lt_irrefl _),
        List.length_append, List.length_singleton, List.range_succ]
    · rw [List.filter_append, List.map_append]
      rcases Nat.lt_trichotomy g guides.length with hlt | rfl | hgt
      · rw [List.getElem?_append_left hlt] at hguide
        rw [h.users g guide hguide]
        simp [Nat.ne_of_gt hlt]
      · rw [List.getElem?_append_right (Nat.le_refl _), Nat.sub_self,
          List.getElem?_cons_zero] at hguide
        obtain rfl := Option.some.inj hguide
        have hunused : rows.filter (fun row => decide (row.guide = guides.length)) = [] := by
          refine List.filter_eq_nil_iff.mpr fun row hrow he => ?_
          have hmem := h.mem_map_guide_iff.mp (List.mem_map_of_mem hrow)
          have heq : row.guide = guides.length := of_decide_eq_true he
          omega
        simp [hunused]
      · rw [List.getElem?_eq_none (by rw [List.length_append, List.length_singleton]; omega)]
          at hguide
        cases hguide

end Sharing

namespace Assembly

variable {scope : TriggerScope} {results : List String}

/-- Compiling further triggers keeps the bytes of all guides. -/
theorem prefix_streams_shareAll {guides : List SharedGuide} {triggers : List Trigger} :
    guides.map (·.stream) <+: (shareAll scope results guides triggers).1.map (·.stream) := by
  induction triggers generalizing guides with
  | nil => exact List.prefix_refl _
  | cons trigger rest ih => exact prefix_streams_share.trans ih

/-- The combos of a guide are those of a guide before, or those of a trigger. -/
theorem combos_of_mem_shareAll {guides : List SharedGuide} {triggers : List Trigger}
    {guide : SharedGuide} (h : guide ∈ (shareAll scope results guides triggers).1) :
    (∃ old ∈ guides, guide.combos = old.combos) ∨
      ∃ trigger ∈ triggers, guide.combos = scope.combos trigger := by
  induction triggers generalizing guides with
  | nil => exact Or.inl ⟨guide, h, rfl⟩
  | cons trigger rest ih =>
    rcases ih h with ⟨shared, hshared, he⟩ | ⟨other, hother, he⟩
    · rcases combos_of_mem_share hshared with ⟨old, hold, ho⟩ | ho
      · exact Or.inl ⟨old, hold, he.trans ho⟩
      · exact Or.inr ⟨trigger, List.mem_cons_self .., he.trans ho⟩
    · exact Or.inr ⟨other, List.mem_cons_of_mem _ hother, he⟩

/-- Every trigger has its row, with the guide that has its bytes. -/
theorem rows_shareAll {guides : List SharedGuide} {triggers : List Trigger} :
    List.Forall₂ (TriggerRow.RowOf scope results (shareAll scope results guides triggers).1)
      triggers (shareAll scope results guides triggers).2 := by
  induction triggers generalizing guides with
  | nil => exact List.Forall₂.nil
  | cons trigger rest ih =>
    refine List.Forall₂.cons ⟨rfl, rfl, rfl, ?_⟩ ih
    -- the guide keeps its bytes while the rest is compiled
    have hget := @getElem?_streams_share guides trigger.name (scope.combos trigger)
    have hlt := (List.getElem?_eq_some_iff.mp hget).1
    exact (List.prefix_iff_getElem?.mp prefix_streams_shareAll _ hlt).trans
      ((List.getElem?_eq_getElem hlt).symm.trans hget)

/-- Compiling further triggers keeps all guides in order. -/
theorem sharing_shareAll {guides : List SharedGuide} {rows : List TriggerRow}
    {triggers : List Trigger} (h : Sharing guides rows) :
    Sharing (shareAll scope results guides triggers).1
      (rows ++ (shareAll scope results guides triggers).2) := by
  induction triggers generalizing guides rows with
  | nil => rwa [shareAll, List.append_nil]
  | cons trigger rest ih =>
    have hnext := ih (h.share trigger.name (scope.combos trigger)
      (results.idxOf? trigger.result) trigger.result)
    rwa [List.append_assoc] at hnext

end Assembly

end Keymap
