import Keymap.Listing.Names
import Keymap.Proofs.InStep
import Keymap.Proofs.Text.Splitting

/-!
# Values of tokens

The names in the listings stand for constants of the firmware. A token is such a
name, a number, or several of these that are joined by a bitwise or. Every token
that is written for a byte has the value of the byte.
-/

namespace Keymap.Listing

open Config (Schedule LayerMode ChangeOp)
open Animation (AddressMode)
open Text

/-- The constants of the firmware. -/
def constants : List (String × Nat) :=
  [("TriggerType_Switch1", 0x00), ("TriggerType_Switch2", 0x01), ("TriggerType_Switch3", 0x02),
   ("TriggerType_Switch4", 0x03), ("TriggerType_LED1", 0x04), ("TriggerType_Analog1", 0x05),
   ("TriggerType_Analog2", 0x06), ("TriggerType_Analog3", 0x07), ("TriggerType_Analog4", 0x08),
   ("TriggerType_Layer1", 0x09), ("TriggerType_Layer2", 0x0A), ("TriggerType_Layer3", 0x0B),
   ("TriggerType_Layer4", 0x0C), ("TriggerType_Animation1", 0x0D),
   ("TriggerType_Animation2", 0x0E), ("TriggerType_Animation3", 0x0F),
   ("TriggerType_Animation4", 0x10), ("TriggerType_Sleep1", 0x11), ("TriggerType_Resume1", 0x12),
   ("TriggerType_Inactive1", 0x13), ("TriggerType_Active1", 0x14),
   ("TriggerType_Rotation1", 0x15), ("TriggerType_Debug", 0xFF),
   ("ScheduleType_O", 0), ("ScheduleType_P", 1), ("ScheduleType_H", 2), ("ScheduleType_R", 3),
   ("ScheduleType_UP", 4), ("ScheduleType_UR", 5), ("ScheduleType_Done", 6),
   ("ScheduleType_Repeat", 7), ("ScheduleType_Shift", 0x10), ("ScheduleType_Latch", 0x20),
   ("ScheduleType_Lock", 0x40),
   ("PixelAddressType_End", 0), ("PixelAddressType_Index", 1), ("PixelAddressType_Rect", 2),
   ("PixelAddressType_ColumnFill", 3), ("PixelAddressType_RowFill", 4),
   ("PixelAddressType_ScanCode", 5), ("PixelAddressType_RelativeIndex", 6),
   ("PixelAddressType_RelativeRect", 7), ("PixelAddressType_RelativeColumnFill", 8),
   ("PixelAddressType_RelativeRowFill", 9),
   ("PixelChange_Set", 0), ("PixelChange_Add", 1), ("PixelChange_Subtract", 2),
   ("PixelChange_NoOp", 3), ("PixelChange_InterpolateLinear", 4),
   ("PixelChange_InterpolateEaseIn", 5), ("PixelChange_InterpolateEaseOut", 6)]

/-- The value of a name or numeral. -/
def operand? (text : String) : Option Nat :=
  constants.lookup text <|> readHex text <|> readNumber text

/-- The value of a token: the bitwise or of its operands. -/
def evaluate (token : String) : Option Nat :=
  ((splitText " | " token).mapM operand?).map (·.foldl (· ||| ·) 0)

/-- A name or numeral is a word without braces, and it has the value of a byte. -/
structure Operand (text : String) (b : UInt8) : Prop where
  word : IsWord text
  unbraced : Unbraced text
  value : operand? text = some b.toNat

instance (text : String) (b : UInt8) : Decidable (Operand text b) :=
  decidable_of_iff
    (IsWord text ∧ Unbraced text ∧ operand? text = some b.toNat)
    ⟨fun ⟨word, unbraced, value⟩ => ⟨word, unbraced, value⟩,
      fun ⟨word, unbraced, value⟩ => ⟨word, unbraced, value⟩⟩

/-- A token without commas has the value of a byte. -/
structure Denotes (token : String) (b : UInt8) : Prop where
  undivided : ',' ∉ token.toList
  value : evaluate token = some b.toNat

section Operands

/-- No constant has the form of a numeral. -/
private theorem constants_not_numerals :
    ∀ entry ∈ constants, readHex entry.1 = none ∧ readNumber entry.1 = none := by
  decide +kernel

private theorem lookup_constants_eq_none {text : String} {n : Nat}
    (h : readHex text = some n ∨ readNumber text = some n) : constants.lookup text = none := by
  rw [List.lookup_eq_none_iff]
  intro entry hentry
  have hnone := constants_not_numerals entry hentry
  have hne : text ≠ entry.1 := by
    rintro rfl
    rw [hnone.1, hnone.2] at h
    simp at h
  simpa using hne

/-- A number in base sixteen has its value. -/
theorem operand?_hex (n : Nat) : operand? (hex n) = some n := by
  rw [operand?, lookup_constants_eq_none (Or.inl (readHex_hex n)), readHex_hex]
  rfl

/-- A number in base ten has its value. -/
theorem operand?_toString (n : Nat) : operand? (toString n) = some n := by
  have hhex : readHex (toString n) = none := by
    rw [readHex]
    split
    next digits htext =>
      have hx := forall_mem_toString (p := (· ≠ 'x')) (by decide) n 'x'
      rw [htext] at hx
      simp at hx
    next => rfl
  rw [operand?, lookup_constants_eq_none (Or.inr (readNumber_toString n)), hhex,
    readNumber_toString]
  rfl

/-- A byte in base sixteen has its value. -/
theorem operand_byte (b : UInt8) : Operand (byte b) b where
  word := isWord_hex _
  unbraced := by
    have hsolid := forall_mem_hex (p := fun c => c ≠ '\x7b' ∧ c ≠ '\x7d') (by decide) (by decide)
      b.toNat
    exact ⟨fun hc => (hsolid _ hc).1 rfl, fun hc => (hsolid _ hc).2 rfl⟩
  value := operand?_hex _

/-- A byte in base ten has its value. -/
theorem operand_toString (b : UInt8) : Operand (toString b.toNat) b where
  word := isWord_toString _
  unbraced := by
    have hsolid := forall_mem_toString (p := fun c => c ≠ '\x7b' ∧ c ≠ '\x7d') (by decide) b.toNat
    exact ⟨fun hc => (hsolid _ hc).1 rfl, fun hc => (hsolid _ hc).2 rfl⟩
  value := operand?_toString _

end Operands

section Names

/-- The names of the classes have the types in their order. -/
private theorem operand_typeClasses : ∀ family ∈ typeClasses, ∀ bank < family.banks,
    Operand ("TriggerType_" ++ family.word ++ toString (bank + 1))
      (UInt8.ofNat (family.first.toNat + bank)) := by
  decide +kernel

/-- A type with a bank in a class is the first type of the class and its bank. -/
private theorem type_of_bank? {family : TypeClass} {type : UInt8} {bank : Nat}
    (h : family.bank? type = some bank) :
    bank < family.banks ∧ UInt8.ofNat (family.first.toNat + bank) = type := by
  rw [TypeClass.bank?] at h
  split at h
  next hrange =>
    obtain rfl := Option.some.inj h
    have hle : family.first.toNat ≤ type.toNat := UInt8.le_iff_toNat_le.mp hrange.1
    refine ⟨by omega, ?_⟩
    rw [Nat.add_sub_cancel' hle, UInt8.ofNat_toNat]
  next => cases h

/-- The name of a trigger type has its value. -/
theorem operand_typeName (type : UInt8) : Operand (typeName type) type := by
  rw [typeName]
  split
  next hdebug =>
    subst hdebug
    decide +kernel
  next =>
    cases hname : typeClasses.findSome? (·.name? type) with
    | none => exact operand_byte type
    | some name =>
      obtain ⟨family, hfamily, hname⟩ := List.exists_of_findSome?_eq_some hname
      obtain ⟨bank, hbank, rfl⟩ := Option.map_eq_some_iff.mp hname
      obtain ⟨hlt, htype⟩ := type_of_bank? hbank
      have h := operand_typeClasses family hfamily bank hlt
      rwa [htype] at h

/-- The name of a schedule state has its value. -/
theorem operand_scheduleName (state : Schedule) :
    Operand (scheduleName state) (Guide.scheduleByte state) := by
  cases state <;> decide +kernel

/-- The name of a layer mode has the value of its flag. -/
theorem operand_modeName (mode : LayerMode) : Operand (modeName mode) (Guide.modeFlag mode) := by
  cases mode <;> decide +kernel

/-- The name of an address mode has its value. -/
theorem operand_addressName (mode : AddressMode) : Operand (addressName mode) mode.byte := by
  cases mode <;> decide +kernel

/-- The name of a change has its value. -/
theorem operand_changeName (op : ChangeOp) : Operand (changeName op) (Animation.opByte op) := by
  cases op <;> decide +kernel

end Names

section Tokens

/-- Operands that are joined have the bitwise or of their values. -/
theorem denotes_intercalate {flags : List String} {values : List UInt8} (hne : flags ≠ [])
    (h : List.Forall₂ Operand flags values) :
    Denotes (String.intercalate " | " flags) (values.foldl (· ||| ·) 0) := by
  have hwords : ∀ flag ∈ flags, IsWord flag := forall_mem_of_forall₂ (fun _ _ flag => flag.word) h
  have hblank : ∀ flag ∈ flags, ' ' ∉ flag.toList := fun flag hflag hc =>
    absurd ((hwords flag hflag).2 _ hc) (by decide)
  have hcomma : ∀ flag ∈ flags, ',' ∉ flag.toList := fun flag hflag hc =>
    absurd ((hwords flag hflag).2 _ hc) (by decide)
  have hvalues : flags.mapM operand? = some (values.map (·.toNat)) :=
    mapM_eq_some_of_forall₂ (h.imp fun _ _ flag => flag.value)
  have hor : values.foldl (fun n b => n ||| b.toNat) (0 : UInt8).toNat =
      (values.foldl (· ||| ·) 0).toNat :=
    List.foldl_hom UInt8.toNat fun a b => (UInt8.toNat_or a b).symm
  refine ⟨not_mem_intercalate (by decide) hcomma, ?_⟩
  rw [evaluate, splitText_intercalate rfl hne hblank, hvalues, Option.map_some, List.foldl_map]
  exact congrArg some hor

/-- An operand is a token. -/
theorem Operand.denotes {text : String} {b : UInt8} (h : Operand text b) : Denotes text b := by
  have hone := denotes_intercalate (List.cons_ne_nil text []) (.cons h .nil)
  rwa [String.intercalate_singleton, List.foldl_cons, List.foldl_nil, UInt8.zero_or] at hone

/-- Two flags that are joined have the bitwise or of their values. -/
private theorem denotes_pair {first second : String} {a b : UInt8} (ha : Operand first a)
    (hb : Operand second b) : Denotes (String.intercalate " | " [first, second]) (a ||| b) := by
  have hpair := denotes_intercalate (List.cons_ne_nil first [second]) (.cons ha (.cons hb .nil))
  rwa [List.foldl_cons, List.foldl_cons, List.foldl_nil, UInt8.zero_or] at hpair

/-- The text of a state has the value of its byte. -/
theorem denotes_stateText (state : Guide.State) : Denotes (stateText state) state.byte := by
  rw [stateText]
  cases state with
  | schedule s =>
    rw [stateFlags, String.intercalate_singleton]
    exact (operand_scheduleName s).denotes
  | layer s mode =>
    cases mode with
    | none =>
      rw [stateFlags, String.intercalate_singleton, Guide.State.byte, Guide.modeFlag, UInt8.or_zero]
      exact (operand_scheduleName s).denotes
    | some mode => exact denotes_pair (operand_scheduleName s) (operand_modeName mode)
  | animation event =>
    have hdone : Operand "ScheduleType_Done" Guide.doneByte := by decide +kernel
    have hrepeat : Operand "ScheduleType_Repeat" Guide.repeatByte := by decide +kernel
    cases event with
    | done => exact hdone.denotes
    | «repeat» => exact hrepeat.denotes
    | doneOrRepeat => exact denotes_pair hrepeat hdone
  | raw b =>
    rw [stateFlags, String.intercalate_singleton]
    exact (operand_byte b).denotes

end Tokens

end Keymap.Listing
