import Keymap.Proofs.Guide.Merging
import Keymap.Proofs.ScanCodeRange

/-!
# Elements that are rejected

There are two reasons for which an element of a trigger has no condition. What it refers to
is not declared; then it has no list either. Or its uid does not fit the banks of its kind;
then only an analog key has no list, and any other element files its trigger under the uid
that was rejected. The uid of such an element is found fault with a second time if it is
beyond the greatest scan code and a layer binds the trigger.
-/

namespace Keymap

open Config (Layer Trigger TriggerElement)

/-- The banks of a kind, each of which holds 256 uids. -/
def Config.TriggerKind.banks : TriggerKind → Nat
  | switch | layer | animation | analog => 4
  | indicator | generic _ => 1

/-- The finding on a uid that does not fit the banks of the kind of an element. -/
def Config.TriggerElement.misfit (element : TriggerElement) (symbol : String) (uid : Nat) :
    Finding :=
  .error .triggerEncoding symbol (.range (.triggerUid symbol uid element.kind.banks))

namespace Assembly

namespace TriggerScope

variable {scope : TriggerScope} {symbol : String} {element : TriggerElement} {finding : Finding}

/-- A uid without a condition lies behind all banks, and the finding says which uid it is. -/
theorem eq_of_encoded_banked_eq_error {first : UInt8} {banks uid : Nat} {state : Guide.State}
    (h : encoded symbol state (Guide.banked first banks symbol uid) = .error finding) :
    256 * banks ≤ uid ∧
      finding = .error .triggerEncoding symbol (.range (.triggerUid symbol uid banks)) := by
  rw [Guide.banked] at h
  split at h
  next => cases h
  next hbank =>
    refine ⟨by omega, ?_⟩
    cases h
    rfl

/-- An element without a condition has no list, or it has the list of a uid that does not fit
the banks of its kind, unless it is an analog key. -/
theorem listUid_of_rejected (h : scope.condition symbol element = .error finding) :
    finding.check ≠ .triggerEncoding ∧ scope.listUid element = none ∨
      ∃ uid, 256 * element.kind.banks ≤ uid ∧ finding = element.misfit symbol uid ∧
        scope.listUid element = if element.kind = .analog then none else some uid := by
  have hunresolved : ∀ {check : Check} {fault : Fault}, check ≠ .triggerEncoding →
      (Except.error (Finding.error check symbol fault) : Except Finding Guide.Condition) =
        .error finding → finding.check ≠ .triggerEncoding := by
    intro check fault hcheck he
    cases he
    exact hcheck
  cases element with
  | switch scanCode board state =>
    rw [condition] at h
    split at h
    next offset hoffset =>
      obtain ⟨hle, hfinding⟩ := eq_of_encoded_banked_eq_error h
      refine Or.inr ⟨_, hle, hfinding, ?_⟩
      rw [listUid, hoffset]
      rfl
    next hoffset =>
      refine Or.inl ⟨hunresolved (by decide) h, ?_⟩
      rw [listUid, hoffset, Option.map_none]
  | indicator code state =>
    obtain ⟨hle, hfinding⟩ := eq_of_encoded_banked_eq_error h
    exact Or.inr ⟨_, hle, hfinding, rfl⟩
  | layer n mode state =>
    rw [condition] at h
    split at h
    next hn =>
      obtain ⟨hle, hfinding⟩ := eq_of_encoded_banked_eq_error h
      refine Or.inr ⟨_, hle, hfinding, ?_⟩
      rw [listUid, if_pos hn]
      rfl
    next hn =>
      refine Or.inl ⟨hunresolved (by decide) h, ?_⟩
      rw [listUid, if_neg hn]
  | animation name event =>
    rw [condition] at h
    split at h
    next index hindex =>
      obtain ⟨hle, hfinding⟩ := eq_of_encoded_banked_eq_error h
      refine Or.inr ⟨_, hle, hfinding, ?_⟩
      rw [listUid, hindex]
      rfl
    next hindex =>
      refine Or.inl ⟨hunresolved (by decide) h, ?_⟩
      rw [listUid, hindex]
  | analog code threshold =>
    obtain ⟨hle, hfinding⟩ := eq_of_encoded_banked_eq_error h
    exact Or.inr ⟨_, hle, hfinding, rfl⟩
  | generic code uid param =>
    obtain ⟨hle, hfinding⟩ := eq_of_encoded_banked_eq_error h
    exact Or.inr ⟨_, hle, hfinding, rfl⟩

/-- What keeps an element from having a condition is found on its trigger. -/
theorem mem_findings_of_rejected {trigger : Trigger} (helement : element ∈ trigger.sequence.flatten)
    (h : scope.condition trigger.name element = .error finding) :
    finding ∈ scope.findings trigger := by
  obtain ⟨combo, hcombo, hmem⟩ := List.mem_flatten.mp helement
  obtain ⟨step, hstep⟩ := List.getElem?_of_mem hcombo
  rw [findings, sequenceFindings]
  refine List.mem_append_right _ (List.mem_flatMap.mpr ⟨(combo, step), ?_, ?_⟩)
  · exact List.mem_zipIdx_iff_getElem?.mpr hstep
  · refine List.mem_append_right _ (List.mem_filterMap.mpr ⟨element, hmem, ?_⟩)
    exact errorOf_eq_some_iff.mpr h

end TriggerScope

end Assembly

namespace Config

variable {config : Config} {index : Nat} {trigger : Trigger} {element : TriggerElement}
  {finding : Finding}

/-- What was found while the tables were built is in the report. -/
theorem mem_check_of_rejected (htrigger : config.counted.triggers[index]? = some trigger)
    (helement : element ∈ trigger.sequence.flatten)
    (h : (Assembly.triggerScope config).condition trigger.name element = .error finding) :
    finding ∈ config.check.findings := by
  have hfindings := Assembly.TriggerScope.mem_findings_of_rejected helement h
  have hcounted : trigger ∈ config.distinctTriggers := List.mem_of_getElem? htrigger
  have hrecorded : finding ∈ (Assembly.build config).recorded := by
    rw [config.build_recorded]
    simp only [List.mem_append]
    exact Or.inl (Or.inl (Or.inr (List.mem_flatMap.mpr ⟨trigger, hcounted, hfindings⟩)))
  exact List.mem_append_left _ hrecorded

/-- Exactly the elements that do not fit their banks, and are no analog keys, are filed though
they are rejected. -/
theorem filedUnder_of_rejected {symbol : String} {uid : Nat}
    (h : (Assembly.triggerScope config).condition symbol element = .error finding) :
    element.FiledUnder config.counted uid ↔
      element.kind ≠ .analog ∧ 256 * element.kind.banks ≤ uid ∧
        finding = element.misfit symbol uid := by
  rw [← config.listUid_eq_some_iff_counted]
  rcases Assembly.TriggerScope.listUid_of_rejected h with
    ⟨hcheck, hlist⟩ | ⟨misfitUid, hle, rfl, hlist⟩
  · rw [hlist]
    refine iff_of_false (by simp) ?_
    rintro ⟨_, _, rfl⟩
    exact hcheck rfl
  · rw [hlist]
    by_cases hkind : element.kind = .analog
    · simp [hkind]
    · rw [if_neg hkind, Option.some.injEq]
      constructor
      · rintro rfl
        exact ⟨hkind, hle, rfl⟩
      · rintro ⟨_, _, he⟩
        simp only [TriggerElement.misfit, Finding.error, Finding.mk.injEq, Fault.range.injEq,
          RangeFault.triggerUid.injEq, true_and, and_true] at he
        exact he

/-- A layer fires a trigger that counts through the lists of its elements if it binds it. -/
theorem fires_iff_filedUnder (htrigger : config.counted.triggers[index]? = some trigger)
    {layer : Layer} {uid : Nat} :
    config.counted.Fires layer uid index ↔ trigger.name ∈ layer.triggers ∧
      ∃ other ∈ trigger.sequence.flatten, other.FiledUnder config.counted uid := by
  constructor
  · rintro ⟨found, hfound, hname, hother⟩
    obtain rfl := Option.some.inj (htrigger.symm.trans hfound)
    exact ⟨hname, hother⟩
  · rintro ⟨hname, hother⟩
    exact ⟨trigger, htrigger, hname, hother⟩

/-- The finding on the range of a trigger and a number is in the report if some layer fires
the trigger through the list with the number, and it is beyond the greatest scan code. -/
theorem mem_check_scanCodeRange_iff (htrigger : config.counted.triggers[index]? = some trigger)
    {uid : Nat} :
    .error .scanCodeRange trigger.name
        (.range (.scanCode trigger.name uid config.maxScanCode.toNat)) ∈ config.check.findings ↔
      config.maxScanCode.toNat < uid ∧
        ∃ layer ∈ config.layers, config.counted.Fires layer uid index := by
  have hname := config.name?_trigger_eq_some_iff.mpr ⟨trigger, htrigger, rfl⟩
  have hreports : config.ReportsBeyond (index, uid) (.error .scanCodeRange trigger.name
      (.range (.scanCode trigger.name uid config.maxScanCode.toNat))) := ⟨_, hname, rfl⟩
  have hcheck : ∀ f : Finding, f.check = .scanCodeRange →
      (f ∈ config.check.findings ↔ f ∈ config.check.byCheck .scanCodeRange) := by
    intro f hf
    rw [Report.byCheck, List.mem_filter, and_iff_left (decide_eq_true hf)]
  rw [hcheck _ rfl, ← config.mem_beyond_iff]
  exact (List.rel_mem config.biUnique_reportsBeyond hreports config.forall₂_reportsBeyond).symm

/-- An element of a trigger that counts is rejected with a finding in the report. It is skipped
in all layers if what it refers to is not declared or if it is an analog key. Otherwise its
uid does not fit the banks of its kind, and the layers that bind the trigger file it under
this uid: they file a trigger under the numbers of all its elements that have one, whether or
not the elements are rejected. So there is a finding on the range of the trigger and a number
exactly if the number is beyond the greatest scan code, a layer binds the trigger and some
element of it has the number, be it rejected or not. -/
theorem filed_though_rejected (htrigger : config.counted.triggers[index]? = some trigger)
    (helement : element ∈ trigger.sequence.flatten)
    (hrejected : (Assembly.triggerScope config).condition trigger.name element = .error finding) :
    finding ∈ config.check.findings ∧
    (∀ uid, element.FiledUnder config.counted uid ↔
      element.kind ≠ .analog ∧ 256 * element.kind.banks ≤ uid ∧
        finding = element.misfit trigger.name uid) ∧
    List.Forall₂ (fun layer row => ∀ uid, row.map.Files uid index ↔
        trigger.name ∈ layer.triggers ∧
          ∃ other ∈ trigger.sequence.flatten, other.FiledUnder config.counted uid)
      config.layers (Assembly.build config).layers ∧
    ∀ uid, .error .scanCodeRange trigger.name
        (.range (.scanCode trigger.name uid config.maxScanCode.toNat)) ∈ config.check.findings ↔
      config.maxScanCode.toNat < uid ∧
        (∃ layer ∈ config.layers, trigger.name ∈ layer.triggers) ∧
        ∃ other ∈ trigger.sequence.flatten, other.FiledUnder config.counted uid := by
  refine ⟨mem_check_of_rejected htrigger helement hrejected,
    fun uid => filedUnder_of_rejected hrejected, ?_, fun uid => ?_⟩
  · rw [config.build_layers, List.forall₂_map_right_iff]
    refine List.forall₂_same.mpr fun layer _ uid => ?_
    rw [files_layerRow_iff_counted, fires_iff_filedUnder htrigger]
  · rw [mem_check_scanCodeRange_iff htrigger]
    simp only [fires_iff_filedUnder htrigger]
    constructor
    · rintro ⟨hlt, layer, hlayer, hname, hother⟩
      exact ⟨hlt, ⟨layer, hlayer, hname⟩, hother⟩
    · rintro ⟨hlt, ⟨layer, hlayer, hname⟩, hother⟩
      exact ⟨hlt, layer, hlayer, hname, hother⟩

/-- A trigger that waits for a key on a board that is not there, and for an indicator with a
number that no indicator has. -/
def astray : Config :=
  { sample with
    triggers := [⟨"caps", [[.switch 5 9 .press, .indicator 300 .press]], "AB"⟩]
    layers := [⟨"default", [], ["caps"]⟩, ⟨"function", [], []⟩] }

/-- Of two elements that are rejected the key on no board is not filed, and the indicator is,
under a number beyond the greatest scan code. -/
theorem filed_though_rejected_astray :
    astray.counted.triggers[0]? =
        some ⟨"caps", [[.switch 5 9 .press, .indicator 300 .press]], "AB"⟩ ∧
      (Assembly.triggerScope astray).condition "caps" (.switch 5 9 .press) =
        .error (.error .interconnect "caps" (.range (.board "caps" 9 0))) ∧
      (Assembly.triggerScope astray).condition "caps" (.indicator 300 .press) =
        .error (.error .triggerEncoding "caps" (.range (.triggerUid "caps" 300 1))) ∧
      (∀ uid, ¬TriggerElement.FiledUnder astray.counted uid (.switch 5 9 .press)) ∧
      TriggerElement.FiledUnder astray.counted 300 (.indicator 300 .press) ∧
      .error .scanCodeRange "caps" (.range (.scanCode "caps" 300 8)) ∈ astray.check.findings := by
  have htrigger : astray.counted.triggers[0]? =
      some ⟨"caps", [[.switch 5 9 .press, .indicator 300 .press]], "AB"⟩ := rfl
  have hswitch : (Assembly.triggerScope astray).condition "caps" (.switch 5 9 .press) =
      .error (.error .interconnect "caps" (.range (.board "caps" 9 0))) := rfl
  have hindicator : (Assembly.triggerScope astray).condition "caps" (.indicator 300 .press) =
      .error (.error .triggerEncoding "caps" (.range (.triggerUid "caps" 300 1))) := rfl
  have hmem : TriggerElement.indicator 300 .press ∈
      [[TriggerElement.switch 5 9 .press, .indicator 300 .press]].flatten :=
    List.mem_cons_of_mem _ (List.mem_cons_self ..)
  obtain ⟨_, hskipped, _⟩ := filed_though_rejected htrigger (List.mem_cons_self ..) hswitch
  obtain ⟨_, hfiled, _, hrange⟩ := filed_though_rejected htrigger hmem hindicator
  have hlist : TriggerElement.FiledUnder astray.counted 300 (.indicator 300 .press) :=
    (hfiled 300).mpr ⟨by decide, by decide, rfl⟩
  refine ⟨htrigger, hswitch, hindicator, fun uid huid => ?_, hlist, ?_⟩
  · obtain ⟨_, _, he⟩ := (hskipped uid).mp huid
    cases he
  · exact (hrange 300).mpr
      ⟨by decide, ⟨_, List.mem_cons_self .., List.mem_cons_self ..⟩, _, hmem, hlist⟩

/-- An indicator that is rejected files its trigger, and it is found fault with twice. -/
def blinking : Config :=
  { sample with
    triggers := [⟨"caps", [[.indicator 300 .press]], "AB"⟩]
    layers := [⟨"default", [], ["caps"]⟩, ⟨"function", [], []⟩] }

/-- Such an indicator alone has both findings, one from each pass, and its trigger is filed. -/
theorem rejected_reported_twice :
    ∃ finding, (Assembly.triggerScope blinking).condition "caps" (.indicator 300 .press) =
        .error finding ∧
      (Assembly.build blinking).layers.map (·.map.lists) = [[(300, [0])], []] ∧
      blinking.check.findings =
        [finding, .error .scanCodeRange "caps" (.range (.scanCode "caps" 300 8))] := by
  refine ⟨.error .triggerEncoding "caps" (.range (.triggerUid "caps" 300 1)), rfl, ?_, ?_⟩
  · decide
  · decide +kernel

end Config

end Keymap
