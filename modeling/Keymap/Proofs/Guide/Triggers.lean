import Keymap.Proofs.Acceptance
import Keymap.Proofs.Guide.Reading

/-!
# Guides of triggers

A guide is read back as triples of a type, a state and a uid, one for every
declared element. Since reading loses nothing, guides with equal bytes have
equal triples, so that triggers share a guide exactly when they are compiled to
equal triples.
-/

namespace Keymap

open Config (Trigger TriggerElement)
open Guide (Condition TriggerCombos)

namespace Guide

/-- Read the type, state and uid of a condition. -/
def conditionReader : Reader (UInt8 × UInt8 × UInt8) where
  read
    | type :: state :: uid :: rest => some ((type, state, uid), rest)
    | _ => none
  shorter bytes triple rest h := by
    split at h
    · cases h
      simp only [List.length_cons]
      omega
    · cases h

/-- The bytes of a condition as a triple. -/
def Condition.triple (condition : Condition) : UInt8 × UInt8 × UInt8 :=
  (condition.type, condition.state.byte, condition.uid)

/-- The combos of a trigger as triples. -/
def triples (combos : TriggerCombos) : List (List (UInt8 × UInt8 × UInt8)) :=
  combos.map (·.map Condition.triple)

/-- Well-shaped combos are read back as triples. -/
theorem readCombos_triggerBytes {combos : TriggerCombos} (h : Assembly.Shaped combos)
    (rest : List UInt8) :
    conditionReader.readCombos (triggerBytes combos ++ rest) = some (triples combos, rest) :=
  conditionReader.readCombos_flatMap Condition.bytes Condition.triple
    (fun _ _ _ _ _ => rfl) h.2 rest

/-- The bytes of combos depend on the triples alone. -/
theorem triggerBytes_eq_of_triples_eq {combos others : TriggerCombos}
    (h : triples combos = triples others) : triggerBytes combos = triggerBytes others := by
  have hbytes : ∀ combos : TriggerCombos, triggerBytes combos =
      ((triples combos).flatMap fun combo =>
        countByte combo.length :: combo.flatMap fun t => [t.1, t.2.1, t.2.2]) ++ [0] := by
    intro combos
    simp only [triggerBytes, triples, List.flatMap_map, List.length_map]
    rfl
  rw [hbytes, hbytes, h]

/-- Well-shaped combos have equal bytes exactly when they have equal triples. -/
theorem triggerBytes_eq_iff {combos others : TriggerCombos} (h : Assembly.Shaped combos)
    (ho : Assembly.Shaped others) :
    triggerBytes combos = triggerBytes others ↔ triples combos = triples others := by
  refine ⟨fun he => ?_, triggerBytes_eq_of_triples_eq⟩
  have hread := readCombos_triggerBytes h []
  rw [he, readCombos_triggerBytes ho] at hread
  exact (congrArg Prod.fst (Option.some.inj hread)).symm

end Guide

section Compiled

variable {config : Config}

/-- Every element of a valid trigger has the condition that stands for it. -/
theorem forall₂_combos (hd : config.DistinctNames) {trigger : Trigger}
    (ht : trigger.Valid config) :
    List.Forall₂ (List.Forall₂ fun element condition => element.EncodedAs config condition)
      trigger.sequence ((Assembly.triggerScope config).combos trigger) := by
  rw [Assembly.TriggerScope.combos, List.forall₂_map_right_iff]
  refine List.forall₂_same.mpr fun step hstep =>
    Assembly.forall₂_filterMap_toOption fun element he => ?_
  obtain ⟨condition, hc⟩ :=
    TriggerElement.exists_encodedAs_iff.mpr (ht.elements step hstep element he)
  exact ⟨condition, (Assembly.TriggerScope.condition_eq_ok_iff hd).mpr hc, hc⟩

/-- The combos of a valid trigger are well shaped. -/
theorem shaped_combos (hd : config.DistinctNames) {trigger : Trigger}
    (ht : trigger.Valid config) : Assembly.Shaped ((Assembly.triggerScope config).combos trigger) :=
  ht.shaped.of_forall₂ (forall₂_combos hd ht)

/-- The guides of a well-formed configuration are in order with the rows of the triggers. -/
theorem sharing_build (hd : config.DistinctNames) :
    Sharing (Assembly.build config).guides (Assembly.build config).triggers := by
  have hsharing := @Assembly.sharing_shareAll (Assembly.triggerScope config)
    (config.results.map (·.name)) [] [] config.triggers Sharing.nil
  rwa [← build_shareAll hd, List.nil_append] at hsharing

/-- Every guide has the well-shaped combos of some trigger. -/
theorem shaped_guide (h : config.WellFormed) {guide : SharedGuide}
    (hguide : guide ∈ (Assembly.build config).guides) : Assembly.Shaped guide.combos := by
  have hbuild := build_shareAll h.distinctNames
  have hmem : guide ∈ (Assembly.shareAll (Assembly.triggerScope config)
      (config.results.map (·.name)) [] config.triggers).1 := hbuild ▸ hguide
  rcases Assembly.combos_of_mem_shareAll hmem with ⟨old, hold, _⟩ | ⟨trigger, htrigger, he⟩
  · exact absurd hold List.not_mem_nil
  · rw [he]
    exact shaped_combos h.distinctNames (h.triggers trigger htrigger)

/-- The rows at the places of the triggers are theirs. -/
theorem rowOf_of_getElem? (hd : config.DistinctNames) {i : Nat} {trigger : Trigger}
    {row : TriggerRow} (ht : config.triggers[i]? = some trigger)
    (hr : (Assembly.build config).triggers[i]? = some row) :
    row.RowOf (Assembly.triggerScope config) (config.results.map (·.name))
      (Assembly.build config).guides trigger := by
  obtain ⟨hi, rfl⟩ := List.getElem?_eq_some_iff.mp ht
  obtain ⟨hi', rfl⟩ := List.getElem?_eq_some_iff.mp hr
  exact (List.forall₂_iff_get.mp (rows_build hd)).2 i hi hi'

/-- Two triggers have one guide exactly when they are compiled to equal triples. -/
theorem guide_eq_iff_triples_eq (h : config.WellFormed) {i j : Nat} {trigger other : Trigger}
    {row otherRow : TriggerRow} (ht : config.triggers[i]? = some trigger)
    (ho : config.triggers[j]? = some other)
    (hr : (Assembly.build config).triggers[i]? = some row)
    (hor : (Assembly.build config).triggers[j]? = some otherRow) :
    row.guide = otherRow.guide ↔
      Guide.triples ((Assembly.triggerScope config).combos trigger) =
        Guide.triples ((Assembly.triggerScope config).combos other) := by
  have hd := h.distinctNames
  have hguide := (rowOf_of_getElem? hd ht hr).guide
  have hguide' := (rowOf_of_getElem? hd ho hor).guide
  have hlt := (List.getElem?_eq_some_iff.mp hguide).1
  have hshaped := shaped_combos hd (h.triggers trigger (List.mem_of_getElem? ht))
  have hshaped' := shaped_combos hd (h.triggers other (List.mem_of_getElem? ho))
  rw [← Guide.triggerBytes_eq_iff hshaped hshaped',
    ← List.getElem?_inj hlt (sharing_build hd).distinct, hguide, hguide', Option.some.injEq]

end Compiled

namespace Config

/-- A trigger is compiled to one condition for each of its elements, and the
guide of its row has the triples of these. -/
structure Trigger.DecodedFrom (config : Config) (trigger : Trigger) (row : TriggerRow) : Prop where
  name : row.name = trigger.name
  compiled :
    List.Forall₂ (List.Forall₂ fun element condition => element.EncodedAs config condition)
      trigger.sequence ((Assembly.triggerScope config).combos trigger)
  guide : ∃ guide, (Assembly.build config).guides[row.guide]? = some guide ∧
    Guide.triples guide.combos = Guide.triples ((Assembly.triggerScope config).combos trigger)

/-- The row of a trigger decodes to its elements. -/
theorem decodedFrom_of_rowOf {config : Config} (h : config.WellFormed) {trigger : Trigger}
    (htrigger : trigger ∈ config.triggers) {row : TriggerRow}
    (hrow : row.RowOf (Assembly.triggerScope config) (config.results.map (·.name))
      (Assembly.build config).guides trigger) : trigger.DecodedFrom config row := by
  have ht := h.triggers trigger htrigger
  obtain ⟨guide, hguide, hstream⟩ := Option.map_eq_some_iff.mp
    (List.getElem?_map.symm.trans hrow.guide)
  refine ⟨hrow.name, forall₂_combos h.distinctNames ht, guide, hguide, ?_⟩
  exact (Guide.triggerBytes_eq_iff (shaped_guide h (List.mem_of_getElem? hguide))
    (shaped_combos h.distinctNames ht)).mp hstream

/-- Where the report has no errors, every guide is read back as the triples of
the triggers that have it, triggers have one guide exactly when they are
compiled to equal triples, and the guides are in order with the rows. -/
theorem triggerGuides_decode_and_share {config : Config} (h : config.check.hasErrors = false) :
    (∀ guide ∈ (Assembly.build config).guides, ∀ rest,
      Guide.conditionReader.readCombos (Guide.triggerBytes guide.combos ++ rest) =
        some (Guide.triples guide.combos, rest)) ∧
    List.Forall₂ (fun trigger row => trigger.DecodedFrom config row)
      config.triggers (Assembly.build config).triggers ∧
    (∀ (i j : Nat) (trigger other : Trigger) (row otherRow : TriggerRow),
      config.triggers[i]? = some trigger → config.triggers[j]? = some other →
      (Assembly.build config).triggers[i]? = some row →
      (Assembly.build config).triggers[j]? = some otherRow →
      (row.guide = otherRow.guide ↔
        Guide.triples ((Assembly.triggerScope config).combos trigger) =
          Guide.triples ((Assembly.triggerScope config).combos other))) ∧
    Sharing (Assembly.build config).guides (Assembly.build config).triggers := by
  have hw := WellFormed.of_check h
  have hd := hw.distinctNames
  have hsharing := sharing_build hd
  refine ⟨fun guide hguide => Guide.readCombos_triggerBytes (shaped_guide hw hguide), ?_, ?_,
    hsharing⟩
  · refine List.forall₂_iff_get.mpr ⟨(rows_build hd).length_eq, fun i hi hi' => ?_⟩
    exact decodedFrom_of_rowOf hw (List.getElem_mem hi)
      ((List.forall₂_iff_get.mp (rows_build hd)).2 i hi hi')
  · intro i j trigger other row otherRow ht ho hr hor
    exact guide_eq_iff_triples_eq hw ht ho hr hor

/-- The sample has four triggers and three guides: two of its triggers wait for one key. -/
theorem triggerGuides_decode_and_share_sample :
    sample.check.hasErrors = false ∧
      List.Forall₂ (fun trigger row => trigger.DecodedFrom sample row)
        sample.triggers (Assembly.build sample).triggers ∧
      Sharing (Assembly.build sample).guides (Assembly.build sample).triggers :=
  have h := triggerGuides_decode_and_share check_sample
  ⟨check_sample, h.2.1, h.2.2.2⟩

end Config

end Keymap
