import Keymap.Assembly.Combo
import Mathlib.Data.List.Forall2

/-!
# Findings without errors

A list of findings is clean if none of them has error severity. The findings of
a pass are clean exactly when those of each of its parts are, so that a check
over a list of declarations says something about every declaration. A sequence
of combos is well shaped if it has combos and each has as many elements as a
byte can count.
-/

namespace Keymap

/-- No finding has error severity. -/
def Clean (findings : List Finding) : Prop := ∀ finding ∈ findings, finding.isError = false

@[simp]
theorem Finding.isError_error (check : Check) (symbol : String) (fault : Fault) :
    (Finding.error check symbol fault).isError = true := rfl

@[simp]
theorem Finding.isError_warning (check : Check) (symbol : String) (fault : Fault) :
    (Finding.warning check symbol fault).isError = false := rfl

/-- A report has no errors exactly when its findings are clean. -/
theorem Report.hasErrors_eq_false_iff (report : Report) :
    report.hasErrors = false ↔ Clean report.findings := by
  simp [Report.hasErrors, Clean]

namespace Clean

@[simp]
theorem nil : Clean [] := fun _ h => absurd h List.not_mem_nil

/-- Findings are clean exactly if the first one is no error and the others are clean. -/
@[simp]
theorem cons_iff {finding : Finding} {rest : List Finding} :
    Clean (finding :: rest) ↔ finding.isError = false ∧ Clean rest :=
  List.forall_mem_cons

@[simp]
theorem append_iff {first second : List Finding} :
    Clean (first ++ second) ↔ Clean first ∧ Clean second :=
  List.forall_mem_append

/-- Findings on every value of a list are clean exactly when those on each value are. -/
@[simp]
theorem flatMap_iff {values : List α} {findings : α → List Finding} :
    Clean (values.flatMap findings) ↔ ∀ a ∈ values, Clean (findings a) := by
  simp only [Clean, List.mem_flatMap]
  exact ⟨fun h a ha f hf => h f ⟨a, ha, hf⟩, fun h f ⟨a, ha, hf⟩ => h a ha f hf⟩

/-- Findings on values that do not turn on the places of the values are clean
exactly when those on each value are. -/
theorem zipIdx_flatMap_iff {values : List α} {findings : α × Nat → List Finding} {p : α → Prop}
    (h : ∀ a i, Clean (findings (a, i)) ↔ p a) :
    Clean (values.zipIdx.flatMap findings) ↔ ∀ a ∈ values, p a := by
  rw [flatMap_iff]
  constructor
  · intro hc a ha
    obtain ⟨i, hi⟩ := List.getElem?_of_mem ha
    exact (h a i).mp (hc (a, i) (List.mem_zipIdx_iff_getElem?.mpr hi))
  · rintro hp ⟨a, i⟩ hentry
    exact (h a i).mpr (hp a (List.fst_mem_of_mem_zipIdx hentry))

/-- One error for every value of a list is clean only if there is no value. -/
theorem map_error_iff {values : List α} {check : Check} {symbol : α → String} {fault : α → Fault} :
    Clean (values.map fun a => .error check (symbol a) (fault a)) ↔ values = [] := by
  cases values <;> simp

/-- An error under a condition is clean only if the condition fails. -/
theorem ite_error_iff {p : Prop} [Decidable p] {check : Check} {symbol : String} {fault : Fault} :
    Clean (if p then [.error check symbol fault] else []) ↔ ¬p := by
  split <;> simp [*]

/-- An error unless a condition holds is clean only if it holds. -/
theorem ite_not_error_iff {p : Prop} [Decidable p] {check : Check} {symbol : String}
    {fault : Fault} : Clean (if p then [] else [.error check symbol fault]) ↔ p := by
  split <;> simp [*]

/-- Errors are clean only if there are none. -/
theorem eq_nil_iff {findings : List Finding} (h : ∀ f ∈ findings, f.isError = true) :
    findings = [] ↔ Clean findings := by
  constructor
  · rintro rfl
    exact Clean.nil
  · intro hclean
    refine List.eq_nil_iff_forall_not_mem.mpr fun f hf => ?_
    have herror := h f hf
    rw [hclean f hf] at herror
    cases herror

end Clean

namespace Assembly

/-- A computation has the value that it ends with. -/
theorem toOption_eq_some_iff {result : Except ε α} {a : α} :
    result.toOption = some a ↔ result = .ok a := by
  cases result <;> simp [Except.toOption]

/-- A computation has the error that it fails with. -/
theorem errorOf_eq_some_iff {result : Except ε α} {e : ε} :
    errorOf result = some e ↔ result = .error e := by
  cases result <;> simp [errorOf]

/-- What is found on a value that is compiled is an error. -/
def FailsWithErrors (compile : α → Except Finding β) : Prop :=
  ∀ a finding, compile a = .error finding → finding.isError = true

/-- Where failures are errors, the findings of a compilation are clean exactly
when every value is compiled. -/
theorem clean_filterMap_errorOf_iff {compile : α → Except Finding β}
    (h : FailsWithErrors compile) {values : List α} :
    Clean (values.filterMap fun a => errorOf (compile a)) ↔
      ∀ a ∈ values, ∃ b, compile a = .ok b := by
  constructor
  · intro hc a ha
    cases he : compile a with
    | ok b => exact ⟨b, rfl⟩
    | error finding =>
      have hf := hc finding (List.mem_filterMap.mpr ⟨a, ha, by rw [he]; rfl⟩)
      exact absurd hf (by simp [h a finding he])
  · intro hall finding hf
    obtain ⟨a, ha, he⟩ := List.mem_filterMap.mp hf
    obtain ⟨b, hb⟩ := hall a ha
    rw [hb] at he
    exact absurd he (by simp [errorOf])

/-- Where its failure is an error, a computation has no errors exactly when it has a result. -/
theorem clean_toList_errorOf_iff {result : Except Finding β}
    (h : ∀ finding, result = .error finding → finding.isError = true) :
    Clean (errorOf result).toList ↔ ∃ b, result = .ok b := by
  cases result with
  | ok b => simp [errorOf]
  | error finding => simp [errorOf, h finding rfl]

/-- Where every value is compiled, what is compiled are its results, one for each. -/
theorem forall₂_filterMap_toOption {compile : α → Except ε β} {p : α → β → Prop}
    {values : List α} (h : ∀ a ∈ values, ∃ b, compile a = .ok b ∧ p a b) :
    List.Forall₂ p values (values.filterMap fun a => (compile a).toOption) := by
  induction values with
  | nil => exact List.Forall₂.nil
  | cons a rest ih =>
    rw [List.forall_mem_cons] at h
    obtain ⟨⟨b, hb, hp⟩, hrest⟩ := h
    simp only [List.filterMap_cons, toOption_eq_some_iff.mpr hb]
    exact List.Forall₂.cons hp (ih hrest)

/-- A sequence has combos, and each has at least one element and no more than a byte counts. -/
def Shaped (steps : List (List α)) : Prop :=
  steps ≠ [] ∧ ∀ combo ∈ steps, 1 ≤ combo.length ∧ combo.length ≤ 255

/-- What has one value for each of a well-shaped sequence is well shaped. -/
theorem Shaped.of_forall₂ {p : α → β → Prop} {steps : List (List α)} {combos : List (List β)}
    (hs : Shaped steps) (h : List.Forall₂ (List.Forall₂ p) steps combos) : Shaped combos := by
  obtain ⟨hne, hsize⟩ := hs
  have hlength := h.length_eq
  refine ⟨?_, fun combo hcombo => ?_⟩
  · rintro rfl
    exact hne (List.length_eq_zero_iff.mp hlength)
  · obtain ⟨i, hi, rfl⟩ := List.mem_iff_getElem.mp hcombo
    have hi' : i < steps.length := by omega
    have hcount : steps[i].length = combos[i].length :=
      ((List.forall₂_iff_get.mp h).2 i hi' hi).length_eq
    rw [← hcount]
    exact hsize _ (List.getElem_mem hi')

/-- The size of a combo is found fault with exactly when it is out of range. -/
theorem clean_comboFindings_iff {symbol : String} {step count : Nat} :
    Clean (comboFindings symbol step count) ↔ 1 ≤ count ∧ count ≤ 255 := by
  have hmax : maxCombo = 255 := rfl
  simp only [comboFindings, emptyFinding, oversizeFinding, Clean.append_iff, Clean.ite_error_iff]
  omega

/-- The findings on a sequence are clean exactly when it is well shaped and
those on the elements of every combo are clean. -/
theorem clean_sequenceFindings_iff {symbol : String} {inner : List α → List Finding}
    {steps : List (List α)} :
    Clean (sequenceFindings symbol inner steps) ↔
      Shaped steps ∧ ∀ combo ∈ steps, Clean (inner combo) := by
  have hcombo : ∀ combo step, Clean (comboFindings symbol step combo.length ++ inner combo) ↔
      (1 ≤ combo.length ∧ combo.length ≤ 255) ∧ Clean (inner combo) := by
    intro combo step
    rw [Clean.append_iff, clean_comboFindings_iff]
  rw [sequenceFindings, emptyFinding, Clean.append_iff, Clean.ite_error_iff, List.isEmpty_iff,
    Clean.zipIdx_flatMap_iff hcombo]
  constructor
  · rintro ⟨hne, h⟩
    exact ⟨⟨hne, fun combo hc => (h combo hc).1⟩, fun combo hc => (h combo hc).2⟩
  · rintro ⟨⟨hne, hsize⟩, hinner⟩
    exact ⟨hne, fun combo hc => ⟨hsize combo hc, hinner combo hc⟩⟩

end Assembly

end Keymap
