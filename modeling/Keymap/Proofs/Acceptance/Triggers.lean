import Keymap.Proofs.Acceptance.Names

/-!
# Accepted triggers

For every kind of element it is said exactly when it has a condition and which
one: its uid is below 256 for every bank of its class, the type counts the bank
from the first type of the class, and the uid byte is the place in the bank.
From this follows when the findings on a trigger are clean.
-/

namespace Keymap

open Config (Trigger TriggerElement)
open Guide (Condition)

/-- The condition is that of a uid in a class of types with so many banks. -/
structure Guide.Condition.InBank (first banks uid : Nat) (condition : Condition) : Prop where
  bank : uid < 256 * banks
  type : condition.type.toNat = first + uid / 256
  uid : condition.uid.toNat = uid % 256

/-- The condition stands for the element: its class and bank, its place in the
bank, and the state that it waits for. -/
def Config.TriggerElement.EncodedAs (config : Config) (condition : Condition) :
    TriggerElement → Prop
  | .switch scanCode board state =>
    ∃ offset, config.BoardAt board.toNat offset ∧
      condition.InBank 0x00 4 (scanCode.toNat + offset) ∧ condition.state = .schedule state
  | .indicator code state => condition.InBank 0x04 1 code.toNat ∧ condition.state = .schedule state
  | .layer n mode state =>
    n.toNat < config.layers.length ∧
      condition.InBank 0x09 4 n.toNat ∧ condition.state = .layer state mode
  | .animation name event =>
    ∃ index, (config.animations.map (·.name))[index]? = some name ∧
      condition.InBank 0x0D 4 index ∧ condition.state = .animation event
  | .analog code threshold => condition.InBank 0x05 4 code.toNat ∧ condition.state = .raw threshold
  | .generic code uid param =>
    condition.InBank code.toNat 1 uid.toNat ∧ condition.state = .raw param

/-- The offset of a board is the one at which its scan codes begin. -/
theorem boardOffset_eq_some_iff {config : Config} {board offset : Nat} :
    boardOffset config.offsets board = some offset ↔ config.BoardAt board offset := by
  rw [boardOffset, Config.BoardAt]
  cases ho : config.offsets[board]? with
  | some declared =>
    have hne : config.offsets ≠ [] := List.ne_nil_of_mem (List.mem_of_getElem? ho)
    simp [hne]
  | none =>
    by_cases h : board = 0 ∧ config.offsets = []
    · simp [h, eq_comm]
    · simp only [List.isEmpty_iff, h, if_false, reduceCtorEq, false_or, false_iff]
      exact fun ⟨hnil, hzero, _⟩ => h ⟨hzero, hnil⟩

namespace Assembly.TriggerScope

variable {symbol : String}

/-- A uid has a condition exactly when it lies in a bank of its class. -/
theorem encoded_banked_eq_ok_iff {first : UInt8} {banks uid : Nat} {state : Guide.State}
    (hfirst : first.toNat + banks ≤ 256) {condition : Condition} :
    encoded symbol state (Guide.banked first banks symbol uid) = .ok condition ↔
      condition.InBank first.toNat banks uid ∧ condition.state = state := by
  have hbank : uid / 256 < banks ↔ uid < 256 * banks := by omega
  rw [Guide.banked]
  by_cases h : uid / 256 < banks
  · have htype : (UInt8.ofNat (min (first.toNat + uid / 256) 255)).toNat =
        first.toNat + uid / 256 := by
      rw [UInt8.toNat_ofNat']
      omega
    have huid : (UInt8.ofNat (uid % 256)).toNat = uid % 256 := by
      rw [UInt8.toNat_ofNat']
      omega
    simp only [if_pos h, encoded, Except.ok.injEq]
    constructor
    · rintro rfl
      exact ⟨⟨hbank.mp h, htype, huid⟩, rfl⟩
    · obtain ⟨type, state', low⟩ := condition
      rintro ⟨⟨_, ht, hu⟩, hs⟩
      simp only at ht hu hs
      rw [hs, UInt8.toNat_inj.mp (htype.trans ht.symm), UInt8.toNat_inj.mp (huid.trans hu.symm)]
  · simp only [if_neg h, encoded, reduceCtorEq, false_iff]
    exact fun ⟨hin, _⟩ => h (hbank.mpr hin.bank)

/-- An element has a condition exactly when one stands for it, and it has that one. -/
theorem condition_eq_ok_iff {config : Config} (hd : config.DistinctNames)
    {element : TriggerElement} {condition : Condition} :
    (triggerScope config).condition symbol element = .ok condition ↔
      element.EncodedAs config condition := by
  cases element with
  | switch scanCode board state =>
    have hoffsets : (triggerScope config).offsets = config.offsets := rfl
    rw [TriggerScope.condition, hoffsets, TriggerElement.EncodedAs]
    simp only [← boardOffset_eq_some_iff]
    cases boardOffset config.offsets board.toNat with
    | some offset =>
      simp only [Option.some.injEq, exists_eq_left']
      exact encoded_banked_eq_ok_iff (by decide)
    | none => simp
  | indicator code state => exact encoded_banked_eq_ok_iff (by decide)
  | layer n mode state =>
    have hcount : (triggerScope config).layerCount = config.layers.length := rfl
    rw [TriggerScope.condition, hcount, TriggerElement.EncodedAs]
    split
    next h => rw [encoded_banked_eq_ok_iff (by decide), and_iff_right h]; rfl
    next h => simp [h]
  | animation name event =>
    have hanimations : (triggerScope config).animations = config.animations.map (·.name) := by
      rw [triggerScope, hd.distinctAnimations]
    rw [TriggerScope.condition, hanimations, TriggerElement.EncodedAs]
    simp only [← idxOf?_eq_some_iff_getElem? hd.animations]
    cases (config.animations.map (·.name)).idxOf? name with
    | some index =>
      simp only [Option.some.injEq, exists_eq_left']
      exact encoded_banked_eq_ok_iff (by decide)
    | none => simp
  | analog code threshold => exact encoded_banked_eq_ok_iff (by decide)
  | generic code uid param =>
    have hcode := code.toNat_lt
    exact encoded_banked_eq_ok_iff (by omega)

/-- What keeps an element of a trigger from having a condition is an error. -/
theorem failsWithErrors_condition (scope : TriggerScope) (symbol : String) :
    FailsWithErrors (scope.condition symbol) := by
  have hencoded : ∀ state type finding, encoded symbol state type = .error finding →
      finding.isError = true := by
    intro state type finding h
    cases type with
    | ok type => simp [encoded] at h
    | error fault =>
      cases h
      rfl
  intro element finding h
  cases element with
  | switch scanCode board state =>
    rw [TriggerScope.condition] at h
    split at h
    · exact hencoded _ _ _ h
    · cases h
      rfl
  | indicator code state => exact hencoded _ _ _ h
  | layer n mode state =>
    rw [TriggerScope.condition] at h
    split at h
    · exact hencoded _ _ _ h
    · cases h
      rfl
  | animation name event =>
    rw [TriggerScope.condition] at h
    split at h
    · exact hencoded _ _ _ h
    · cases h
      rfl
  | analog code threshold => exact hencoded _ _ _ h
  | generic code uid param => exact hencoded _ _ _ h

end Assembly.TriggerScope

/-- Every uid of the banks of a class has a condition with any state. -/
theorem Guide.Condition.exists_inBank_iff {first banks uid : Nat} (hfirst : first + banks ≤ 256)
    {state : Guide.State} :
    (∃ condition : Condition, condition.InBank first banks uid ∧ condition.state = state) ↔
      uid < 256 * banks := by
  constructor
  · exact fun ⟨_, h, _⟩ => h.bank
  · intro h
    refine ⟨⟨UInt8.ofNat (first + uid / 256), state, UInt8.ofNat uid⟩, ⟨h, ?_, ?_⟩, rfl⟩
    · rw [UInt8.toNat_ofNat']
      exact Nat.mod_eq_of_lt (by omega)
    · rw [UInt8.toNat_ofNat']

/-- An element has a condition exactly when it is valid. -/
theorem Config.TriggerElement.exists_encodedAs_iff {config : Config} {element : TriggerElement} :
    (∃ condition, element.EncodedAs config condition) ↔ element.Valid config := by
  have hswap : ∀ {p : Nat → Prop} {q : Nat → Condition → Prop},
      (∃ condition, ∃ n, p n ∧ q n condition) ↔ ∃ n, p n ∧ ∃ condition, q n condition := by
    intro p q
    exact ⟨fun ⟨c, n, hp, hq⟩ => ⟨n, hp, c, hq⟩, fun ⟨n, hp, c, hq⟩ => ⟨c, n, hp, hq⟩⟩
  cases element with
  | switch scanCode board state =>
    simp only [EncodedAs, Valid, hswap]
    exact exists_congr fun _ => and_congr_right fun _ =>
      Guide.Condition.exists_inBank_iff (by decide)
  | indicator code state => exact Guide.Condition.exists_inBank_iff (by decide)
  | layer n mode state =>
    simp only [EncodedAs, Valid, exists_and_left]
    exact and_congr_right fun _ => Guide.Condition.exists_inBank_iff (by decide)
  | animation name event =>
    simp only [EncodedAs, Valid, hswap]
    exact exists_congr fun _ => and_congr_right fun _ =>
      Guide.Condition.exists_inBank_iff (by decide)
  | analog code threshold => exact Guide.Condition.exists_inBank_iff (by decide)
  | generic code uid param =>
    have hcode := code.toNat_lt
    exact Guide.Condition.exists_inBank_iff (by omega)

namespace Assembly.TriggerScope

/-- The findings on a trigger are clean exactly when it is well shaped and its
elements are valid. -/
theorem clean_findings_iff {config : Config} (hd : config.DistinctNames) {trigger : Trigger} :
    Clean ((triggerScope config).findings trigger) ↔
      Shaped trigger.sequence ∧
        ∀ step ∈ trigger.sequence, ∀ element ∈ step, element.Valid config := by
  rw [findings, clean_sequenceFindings_iff]
  simp only [clean_filterMap_errorOf_iff (failsWithErrors_condition _ _),
    condition_eq_ok_iff hd, TriggerElement.exists_encodedAs_iff]

/-- The list of an element is that under which it is filed. -/
theorem listUid_eq_some_iff {config : Config} (hd : config.DistinctNames)
    {element : TriggerElement} {uid : Nat} :
    (triggerScope config).listUid element = some uid ↔ element.FiledUnder config uid := by
  cases element with
  | switch scanCode board state =>
    have hoffsets : (triggerScope config).offsets = config.offsets := rfl
    simp only [listUid, hoffsets, TriggerElement.FiledUnder, Option.map_eq_some_iff,
      boardOffset_eq_some_iff]
    exact exists_congr fun _ => and_congr_right fun _ => eq_comm
  | indicator code state => simp [listUid, TriggerElement.FiledUnder, eq_comm]
  | layer n mode state =>
    have hcount : (triggerScope config).layerCount = config.layers.length := rfl
    rw [listUid, hcount, TriggerElement.FiledUnder]
    split
    next h => simp [h, eq_comm]
    next h => simp [h]
  | animation name event =>
    have hanimations : (triggerScope config).animations = config.animations.map (·.name) := by
      rw [triggerScope, hd.distinctAnimations]
    rw [listUid, hanimations, TriggerElement.FiledUnder, idxOf?_eq_some_iff_getElem? hd.animations]
  | analog code threshold => simp [listUid, TriggerElement.FiledUnder]
  | generic code genericUid param => simp [listUid, TriggerElement.FiledUnder, eq_comm]

end Assembly.TriggerScope

end Keymap
