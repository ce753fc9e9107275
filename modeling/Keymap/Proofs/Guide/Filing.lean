import Keymap.Proofs.Acceptance.Layers
import Keymap.Proofs.Guide.Merging
import Keymap.Proofs.Symbols

/-!
# Guides and the lists of layers

The condition of an element and the list in which a layer files its trigger are
worked out apart from each other. The type and uid byte of the condition, counted
from the first type of the kind of the element, make up the number of that list.
-/

namespace Keymap

open Config (Layer Trigger TriggerElement)
open Guide (Condition)

namespace Guide.Condition

/-- The uid that a type and a uid byte stand for, over all banks from a first type on. -/
def uidFrom (first : Nat) (condition : Condition) : Nat :=
  256 * (condition.type.toNat - first) + condition.uid.toNat

/-- The condition of a uid stands for it. -/
theorem InBank.uidFrom_eq {first banks uid : Nat} {condition : Condition}
    (h : condition.InBank first banks uid) : condition.uidFrom first = uid := by
  rw [uidFrom, h.type, h.uid]
  omega

end Guide.Condition

namespace Assembly

namespace TriggerScope

variable {scope : TriggerScope} {symbol : String} {element : TriggerElement} {condition : Condition}

/-- The condition of an element has the number of the element's list as its uid;
only analog keys have a condition and no list. -/
theorem inBank_of_condition (h : scope.condition symbol element = .ok condition) :
    ∃ uid banks, condition.InBank element.kind.firstType banks uid ∧
      scope.listUid element = if element.kind = .analog then none else some uid := by
  cases element with
  | switch scanCode board state =>
    rw [TriggerScope.condition] at h
    split at h
    next offset hoffset =>
      refine ⟨_, _, ((encoded_banked_eq_ok_iff (by decide)).mp h).1, ?_⟩
      rw [listUid, hoffset]
      rfl
    next => cases h
  | indicator code state => exact ⟨_, _, ((encoded_banked_eq_ok_iff (by decide)).mp h).1, rfl⟩
  | layer n mode state =>
    rw [TriggerScope.condition] at h
    split at h
    next hn =>
      refine ⟨_, _, ((encoded_banked_eq_ok_iff (by decide)).mp h).1, ?_⟩
      rw [listUid, if_pos hn]
      rfl
    next => cases h
  | animation name event =>
    rw [TriggerScope.condition] at h
    split at h
    next index hindex =>
      refine ⟨_, _, ((encoded_banked_eq_ok_iff (by decide)).mp h).1, ?_⟩
      rw [listUid, hindex]
      rfl
    next => cases h
  | analog code threshold => exact ⟨_, _, ((encoded_banked_eq_ok_iff (by decide)).mp h).1, rfl⟩
  | generic code uid param =>
    have hcode := code.toNat_lt
    exact ⟨_, _, ((encoded_banked_eq_ok_iff (by omega)).mp h).1, rfl⟩

/-- The list of a compiled element is the uid of its condition. -/
theorem listUid_of_condition (h : scope.condition symbol element = .ok condition) :
    element.kind.firstType ≤ condition.type.toNat ∧
      scope.listUid element =
        if element.kind = .analog then none
        else some (condition.uidFrom element.kind.firstType) := by
  obtain ⟨uid, banks, hbank, hlist⟩ := inBank_of_condition h
  rw [hbank.uidFrom_eq]
  exact ⟨hbank.type ▸ Nat.le_add_right _ _, hlist⟩

end TriggerScope

/-- The trigger under a name is the first declaration with the name, at the index
to which the name resolves. -/
theorem locateBy_distinctTriggers_iff (config : Config) {name : String} {index : Nat}
    {trigger : Trigger} :
    locateBy (·.name) name 0 config.distinctTriggers = some (index, trigger) ↔
      (build config).symbols.resolve .trigger name = some index ∧
        config.trigger? name = some trigger := by
  have hnodup : (config.distinctTriggers.map (·.name)).Nodup := nodup_map_firstsBy [] _
  rw [locateBy_eq_some_iff hnodup, resolve_build_eq_some_iff, name?_trigger_build]
  have hfirst : ∀ t, config.distinctTriggers[index]? = some t →
      config.trigger? t.name = some t := fun t ht =>
    find?_of_mem_firstsBy (List.mem_of_getElem? ht)
  constructor
  · rintro ⟨hget, rfl⟩
    exact ⟨⟨trigger, hget, rfl⟩, hfirst trigger hget⟩
  · rintro ⟨⟨t, hget, rfl⟩, htrigger⟩
    obtain rfl := Option.some.inj ((hfirst t hget).symm.trans htrigger)
    exact ⟨hget, rfl⟩

/-- A layer files a trigger under exactly the lists of its elements. -/
theorem mem_get_layerRow_iff (config : Config) (layer : Layer) {uid index : Nat} :
    index ∈ (layerRow (triggerScope config) config.distinctTriggers layer).map.get uid ↔
      ∃ name ∈ layer.triggers, ∃ trigger,
        (build config).symbols.resolve .trigger name = some index ∧
        config.trigger? name = some trigger ∧
        ∃ element ∈ trigger.sequence.flatten,
          (triggerScope config).listUid element = some uid := by
  rw [ScanMap.mem_get_iff (ordered_layerRow _ _ _), files_layerRow]
  simp only [bound, List.mem_filterMap, locateBy_distinctTriggers_iff, elements]
  constructor
  · rintro ⟨trigger, ⟨name, hname, hindex, htrigger⟩, helement⟩
    exact ⟨name, hname, trigger, hindex, htrigger, helement⟩
  · rintro ⟨name, hname, trigger, hindex, htrigger, helement⟩
    exact ⟨trigger, ⟨name, hname, hindex, htrigger⟩, helement⟩

end Assembly

namespace Config

/-- The row of a layer files the triggers that the layer binds where their
conditions say. -/
structure Layer.FilesCompiled (config : Config) (layer : Layer) (row : LayerRow) : Prop where
  name : row.name = layer.name
  /-- A compiled element files its trigger under the uid of its condition, unless it
  is an analog key. -/
  filed : ∀ name ∈ layer.triggers, ∀ index trigger,
    (Assembly.build config).symbols.resolve .trigger name = some index →
    config.trigger? name = some trigger →
    ∀ element ∈ trigger.sequence.flatten, ∀ condition,
      (Assembly.triggerScope config).condition trigger.name element = .ok condition →
      element.kind ≠ .analog →
      index ∈ row.map.get (condition.uidFrom element.kind.firstType)
  /-- What is filed comes from an element that is no analog key and, if it is
  compiled, has the number of the list as its uid. -/
  only : ∀ uid index, index ∈ row.map.get uid → ∃ name ∈ layer.triggers, ∃ trigger,
    (Assembly.build config).symbols.resolve .trigger name = some index ∧
    config.trigger? name = some trigger ∧
    ∃ element ∈ trigger.sequence.flatten, element.kind ≠ .analog ∧
      (Assembly.triggerScope config).listUid element = some uid ∧
      ∀ condition,
        (Assembly.triggerScope config).condition trigger.name element = .ok condition →
        condition.uidFrom element.kind.firstType = uid

/-- The guide of a row has one record for every element of a trigger, in the order
of the elements, with the bytes of the element's condition. -/
structure Trigger.RecordedIn (config : Config) (trigger : Trigger) (row : TriggerRow) : Prop where
  name : row.name = trigger.name
  records : ∃ guide, (Assembly.build config).guides[row.guide]? = some guide ∧
    List.Forall₂ (List.Forall₂ fun element record => ∃ condition,
      (Assembly.triggerScope config).condition trigger.name element = .ok condition ∧
        condition.triple = record.triple) trigger.sequence guide.combos

/-- An element with a list is no analog key. -/
theorem TriggerElement.kind_ne_analog {config : Config} {element : TriggerElement} {uid : Nat}
    (h : (Assembly.triggerScope config).listUid element = some uid) : element.kind ≠ .analog := by
  cases element with
  | analog => cases h
  | _ => exact fun hkind => nomatch hkind

/-- A layer files the triggers that it binds where their conditions say. -/
theorem filesCompiled_layerRow (config : Config) (layer : Layer) :
    layer.FilesCompiled config
      (Assembly.layerRow (Assembly.triggerScope config) config.distinctTriggers layer) where
  name := rfl
  filed name hname index trigger hindex htrigger element helement condition hcondition hkind := by
    have hlist := (Assembly.TriggerScope.listUid_of_condition hcondition).2
    rw [if_neg hkind] at hlist
    exact (Assembly.mem_get_layerRow_iff config layer).mpr
      ⟨name, hname, trigger, hindex, htrigger, element, helement, hlist⟩
  only uid index hmem := by
    obtain ⟨name, hname, trigger, hindex, htrigger, element, helement, hlist⟩ :=
      (Assembly.mem_get_layerRow_iff config layer).mp hmem
    have hkind := TriggerElement.kind_ne_analog hlist
    refine ⟨name, hname, trigger, hindex, htrigger, element, helement, hkind, hlist,
      fun condition hcondition => ?_⟩
    have hcompiled := (Assembly.TriggerScope.listUid_of_condition hcondition).2
    rw [if_neg hkind, hlist] at hcompiled
    exact (Option.some.inj hcompiled).symm

/-- The guide of a decoded trigger has the records of its elements. -/
theorem Trigger.DecodedFrom.recordedIn {config : Config} (hd : config.DistinctNames)
    {trigger : Trigger} {row : TriggerRow} (h : trigger.DecodedFrom config row) :
    trigger.RecordedIn config row := by
  obtain ⟨guide, hguide, htriples⟩ := h.guide
  have hrecords := forall₂_comp h.compiled (Guide.triples_eq_iff_forall₂.mp htriples.symm)
  refine ⟨h.name, guide, hguide, hrecords.imp fun step records ⟨conditions, hstep, heq⟩ => ?_⟩
  refine (forall₂_comp hstep heq).imp fun element record ⟨condition, hencoded, htriple⟩ => ?_
  exact ⟨condition, (Assembly.TriggerScope.condition_eq_ok_iff hd).mpr hencoded, htriple⟩

/-- The condition of an element and the list of the element have one uid, whatever the
configuration: an analog key has no list, and any other compiled element has the list
with the uid that the type and uid byte of its condition stand for, counted from the
first type of its kind. Every layer files the triggers that it binds accordingly. Where
the report has no errors, every declared element has a condition, and the guide of a
trigger has one record for each of its elements. -/
theorem listed_where_compiled (config : Config) :
    (∀ symbol element condition,
      (Assembly.triggerScope config).condition symbol element = .ok condition →
      element.kind.firstType ≤ condition.type.toNat ∧
        (Assembly.triggerScope config).listUid element =
          if element.kind = .analog then none
          else some (condition.uidFrom element.kind.firstType)) ∧
    List.Forall₂ (fun layer row => layer.FilesCompiled config row)
      config.layers (Assembly.build config).layers ∧
    (config.check.hasErrors = false →
      List.Forall₂ (fun trigger row => trigger.RecordedIn config row)
        config.triggers (Assembly.build config).triggers) := by
  refine ⟨fun _ _ _ => Assembly.TriggerScope.listUid_of_condition, ?_, fun h => ?_⟩
  · rw [config.build_layers, List.forall₂_map_right_iff]
    exact List.forall₂_same.mpr fun layer _ => filesCompiled_layerRow config layer
  · have hw := WellFormed.of_check h
    have hd := hw.distinctNames
    exact forall₂_of_forall_mem (fun _ => id) (rows_build hd) fun _ _ htrigger hrow =>
      (decodedFrom_of_rowOf hw htrigger hrow).recordedIn hd

/-- The key that is held is listed under its scan code, the analog value beside it nowhere. -/
theorem listed_where_compiled_sample :
    (Assembly.triggerScope sample).condition "S5" (.switch 5 0 .hold) =
        .ok ⟨0, .schedule .hold, 5⟩ ∧
      (Assembly.triggerScope sample).listUid (.switch 5 0 .hold) = some 5 ∧
      (Assembly.triggerScope sample).listUid (.analog 7 9) = none ∧
      sample.check.hasErrors = false ∧
      List.Forall₂ (fun trigger row => trigger.RecordedIn sample row)
        sample.triggers (Assembly.build sample).triggers := by
  have h := listed_where_compiled sample
  have hswitch : (Assembly.triggerScope sample).condition "S5" (.switch 5 0 .hold) =
      .ok ⟨0, .schedule .hold, 5⟩ := rfl
  have hanalog : (Assembly.triggerScope sample).condition "S5" (.analog 7 9) =
      .ok ⟨5, .raw 9, 7⟩ := rfl
  exact ⟨hswitch, (h.1 _ _ _ hswitch).2, (h.1 _ _ _ hanalog).2, check_sample,
    h.2.2 check_sample⟩

end Config

end Keymap
