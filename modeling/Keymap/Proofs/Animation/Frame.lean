import Keymap.Animation.Frame
import Keymap.Validation

/-!
# Reading frames

A frame is read record by record up to a mode that ends it. Zeros may stand in
addresses and payloads, so that the end of a frame is told from them only by the
places at which the modes stand: a record takes four bytes for its address, and
its change says how wide its payload is. A frame whose addresses and payloads
have these widths is read back, and it ends nowhere else.
-/

namespace Keymap.Animation

open Config (ChangeOp FrameFormat)

/-- Four bytes follow every mode that does not end a frame. -/
theorem AddressMode.addressLength_of_ne_stop {mode : AddressMode} (h : mode ≠ .stop) :
    mode.addressLength = 4 := by
  cases mode with
  | stop => exact absurd rfl h
  | _ => rfl

/-- A frame is terminated exactly when no record ends it and every address is as
long as its mode says; walking over such records leads to the last byte. -/
theorem Frame.isTerminated_iff {frame : Frame} :
    frame.isTerminated = true ↔
      ∀ r ∈ frame.records, r.mode ≠ .stop ∧ r.address.length = r.mode.addressLength := by
  simp only [isTerminated, Bool.and_eq_true, List.all_eq_true, decide_eq_true_iff]
  refine ⟨fun h => h.1.1, fun h => ⟨⟨h, ?_⟩, ?_⟩⟩
  · rw [bytes, List.length_append, List.length_singleton, List.length_flatMap]
    refine congrArg (fun lengths : List Nat => lengths.sum + 1) (List.map_congr_left fun r hr => ?_)
    simp only [FrameRecord.bytes, FrameRecord.walked, List.cons_append, List.length_cons,
      List.length_append, (h r hr).2]
    omega
  · rw [bytes, List.getLast?_append, List.getLast?_singleton, Option.some_or]

section Reading

/-- The mode with a byte. -/
def modeOf? (byte : UInt8) : Option AddressMode :=
  AddressMode.all.find? fun mode => decide (mode.byte = byte)

/-- The change with a byte. -/
def changeOf? (byte : UInt8) : Option ChangeOp :=
  (ChangeOp.names.map (·.2)).find? fun op => decide (opByte op = byte)

theorem modeOf?_eq_some_iff {byte : UInt8} {mode : AddressMode} :
    modeOf? byte = some mode ↔ mode.byte = byte := by
  constructor
  · exact fun h => of_decide_eq_true (List.find?_some h :)
  · rintro rfl
    cases mode <;> rfl

theorem changeOf?_eq_some_iff {byte : UInt8} {op : ChangeOp} :
    changeOf? byte = some op ↔ opByte op = byte := by
  constructor
  · exact fun h => of_decide_eq_true (List.find?_some h :)
  · rintro rfl
    cases op <;> rfl

/-- The payload bytes of a change by its byte: those of a pixel up to three, and
of an interpolation from four on. -/
def payloadBytes (format : FrameFormat) (op : UInt8) : Nat :=
  if op ≤ 3 then format.pixelBytes.toNat else format.interpolationBytes.toNat

/-- The byte of a change tells how wide its payload must be. -/
theorem payloadBytes_opByte (format : FrameFormat) (op : ChangeOp) :
    payloadBytes format (opByte op) = Validation.payloadWidth format op := by
  cases op <;> rfl

/-- Take so many bytes, if there are as many. -/
def takeBytes (count : Nat) (bytes : List UInt8) : Option (List UInt8 × List UInt8) :=
  if count ≤ bytes.length then some (bytes.take count, bytes.drop count) else none

/-- What is taken stands before what is left. -/
theorem takeBytes_eq_some_iff {count : Nat} {bytes part rest : List UInt8} :
    takeBytes count bytes = some (part, rest) ↔ part.length = count ∧ bytes = part ++ rest := by
  rw [takeBytes]
  constructor
  · intro h
    split at h
    next hle =>
      cases h
      exact ⟨List.length_take_of_le hle, (List.take_append_drop count bytes).symm⟩
    next => cases h
  · rintro ⟨rfl, rfl⟩
    rw [if_pos (by rw [List.length_append]; omega), List.take_left, List.drop_left]

variable {format : FrameFormat}

/-- Read a record: a mode, four bytes of address, a change, and its payload. -/
def readRecord (format : FrameFormat) : List UInt8 → Option (FrameRecord × List UInt8)
  | [] => none
  | mode :: bytes => do
    let mode ← modeOf? mode
    match ← takeBytes 4 bytes with
    | (_, []) => none
    | (address, op :: bytes) =>
      let change ← changeOf? op
      let (payload, bytes) ← takeBytes (payloadBytes format op) bytes
      return (⟨mode, address, change, payload⟩, bytes)

/-- The address and payload of a record have the widths that a reader takes for them. -/
structure FrameRecord.Fits (format : FrameFormat) (r : FrameRecord) : Prop where
  address : r.address.length = 4
  payload : r.payload.length = Validation.payloadWidth format r.op

/-- Exactly the bytes of records with the right widths are read as records. -/
theorem readRecord_eq_some_iff {bytes rest : List UInt8} {r : FrameRecord} :
    readRecord format bytes = some (r, rest) ↔ r.Fits format ∧ bytes = r.bytes ++ rest := by
  constructor
  · intro h
    cases bytes with
    | nil => cases h
    | cons mode bytes =>
      simp only [readRecord, Option.bind_eq_bind, Option.bind_eq_some_iff, Prod.exists] at h
      obtain ⟨mode, hmode, address, after, haddress, h⟩ := h
      obtain ⟨hlength, rfl⟩ := takeBytes_eq_some_iff.mp haddress
      obtain rfl := modeOf?_eq_some_iff.mp hmode
      cases after with
      | nil => cases h
      | cons op after =>
        simp only [Option.bind_eq_some_iff, Prod.exists] at h
        obtain ⟨change, hchange, payload, after, hpayload, he⟩ := h
        obtain rfl := changeOf?_eq_some_iff.mp hchange
        rw [payloadBytes_opByte] at hpayload
        obtain ⟨hwidth, rfl⟩ := takeBytes_eq_some_iff.mp hpayload
        cases he
        exact ⟨⟨hlength, hwidth⟩, by simp [FrameRecord.bytes]⟩
  · rintro ⟨hfits, rfl⟩
    obtain ⟨haddress, hpayload⟩ := hfits
    rw [← payloadBytes_opByte] at hpayload
    simp only [FrameRecord.bytes, List.cons_append, List.append_assoc, readRecord,
      modeOf?_eq_some_iff.mpr rfl, takeBytes_eq_some_iff.mpr ⟨haddress, rfl⟩,
      changeOf?_eq_some_iff.mpr rfl, takeBytes_eq_some_iff.mpr ⟨hpayload, rfl⟩,
      Option.bind_eq_bind, Option.bind_some]
    rfl

/-- Every record takes at least its mode from what is read. -/
theorem length_lt_of_readRecord {bytes rest : List UInt8} {r : FrameRecord}
    (h : readRecord format bytes = some (r, rest)) : rest.length < bytes.length := by
  obtain ⟨_, rfl⟩ := readRecord_eq_some_iff.mp h
  simp only [FrameRecord.bytes, List.cons_append, List.length_cons, List.length_append]
  omega

/-- Read records up to a mode that ends the frame. -/
def readFrame (format : FrameFormat) (bytes : List UInt8) :
    Option (List FrameRecord × List UInt8) :=
  match bytes with
  | [] => none
  | mode :: after =>
    if mode = AddressMode.stop.byte then some ([], after)
    else
      match _h : readRecord format (mode :: after) with
      | none => none
      | some (r, rest) => (readFrame format rest).map fun (records, rest) => (r :: records, rest)
termination_by bytes.length
decreasing_by exact length_lt_of_readRecord _h

/-- What does not end a frame is a record and the rest of the frame. -/
theorem readFrame_of_readRecord {mode : UInt8} {after rest : List UInt8} {r : FrameRecord}
    (hne : mode ≠ AddressMode.stop.byte)
    (h : readRecord format (mode :: after) = some (r, rest)) :
    readFrame format (mode :: after) =
      (readFrame format rest).map fun (records, rest) => (r :: records, rest) := by
  rw [readFrame, if_neg hne]
  split
  next hnone =>
    rw [h] at hnone
    cases hnone
  next hsome =>
    rw [h] at hsome
    cases hsome
    rfl

/-- Only the mode that ends a frame has its byte. -/
theorem byte_eq_stop_iff {mode : AddressMode} :
    mode.byte = AddressMode.stop.byte ↔ mode = .stop := by
  cases mode <;> decide

/-- Records that do not end a frame and have the right widths are read up to the
end behind them. -/
theorem readFrame_flatMap {records : List FrameRecord}
    (h : ∀ r ∈ records, r.mode ≠ .stop ∧ r.Fits format) (rest : List UInt8) :
    readFrame format (records.flatMap FrameRecord.bytes ++ AddressMode.stop.byte :: rest) =
      some (records, rest) := by
  induction records with
  | nil => rw [List.flatMap_nil, List.nil_append, readFrame, if_pos rfl]
  | cons r records ih =>
    rw [List.forall_mem_cons] at h
    obtain ⟨⟨hmode, hfits⟩, hrest⟩ := h
    have hread : readRecord format (r.bytes ++ (records.flatMap FrameRecord.bytes ++
        AddressMode.stop.byte :: rest)) = some (r, _) := readRecord_eq_some_iff.mpr ⟨hfits, rfl⟩
    have hframe := readFrame_of_readRecord (mt byte_eq_stop_iff.mp hmode) hread
    rw [ih hrest] at hframe
    rwa [List.flatMap_cons, List.append_assoc]

/-- What is read as a frame are such records with an end behind them. -/
theorem eq_of_readFrame {bytes rest : List UInt8} {records : List FrameRecord}
    (h : readFrame format bytes = some (records, rest)) :
    (∀ r ∈ records, r.mode ≠ .stop ∧ r.Fits format) ∧
      bytes = records.flatMap FrameRecord.bytes ++ AddressMode.stop.byte :: rest := by
  induction bytes using readFrame.induct format generalizing records with
  | case1 =>
    rw [readFrame] at h
    cases h
  | case2 after =>
    rw [readFrame, if_pos rfl] at h
    cases h
    exact ⟨fun _ hr => absurd hr List.not_mem_nil, rfl⟩
  | case3 mode after hmode hnone =>
    rw [readFrame, if_neg hmode] at h
    split at h
    next => cases h
    next hsome =>
      rw [hnone] at hsome
      cases hsome
  | case4 mode after hmode r following hread ih =>
    rw [readFrame_of_readRecord hmode hread] at h
    obtain ⟨⟨later, left⟩, hlater, he⟩ := Option.map_eq_some_iff.mp h
    cases he
    obtain ⟨hfits, hbytes⟩ := readRecord_eq_some_iff.mp hread
    obtain ⟨hall, hfollowing⟩ := ih hlater
    have hbyte : mode = r.mode.byte := (List.cons.inj hbytes).1
    refine ⟨List.forall_mem_cons.mpr ⟨⟨?_, hfits⟩, hall⟩, ?_⟩
    · exact mt byte_eq_stop_iff.mpr (hbyte ▸ hmode)
    · rw [hbytes, hfollowing, List.flatMap_cons, List.append_assoc]

/-- Exactly the bytes of records that do not end a frame and have the right
widths, with an end behind them, are read as a frame. -/
theorem readFrame_eq_some_iff {bytes rest : List UInt8} {records : List FrameRecord} :
    readFrame format bytes = some (records, rest) ↔
      (∀ r ∈ records, r.mode ≠ .stop ∧ r.Fits format) ∧
        bytes = records.flatMap FrameRecord.bytes ++ AddressMode.stop.byte :: rest := by
  refine ⟨eq_of_readFrame, ?_⟩
  rintro ⟨h, rfl⟩
  exact readFrame_flatMap h rest

end Reading

section Frames

variable {format : FrameFormat} {frame : Frame} (h : frame.isTerminated = true)
  (hpayload : ∀ r ∈ frame.records, r.payload.length = Validation.payloadWidth format r.op)
include h hpayload

/-- A terminated frame whose payloads have the right widths is read back, and what
follows it is left over. -/
theorem Frame.readFrame_bytes (rest : List UInt8) :
    readFrame format (frame.bytes ++ rest) = some (frame.records, rest) := by
  refine readFrame_eq_some_iff.mpr ⟨fun r hr => ?_, by simp [bytes]⟩
  obtain ⟨hmode, haddress⟩ := isTerminated_iff.mp h r hr
  exact ⟨hmode, haddress.trans (AddressMode.addressLength_of_ne_stop hmode), hpayload r hr⟩

/-- Such a frame ends nowhere but at its last byte. -/
theorem Frame.readFrame_eq_none {front back : List UInt8} (he : frame.bytes = front ++ back)
    (hne : back ≠ []) : readFrame format front = none := by
  cases hread : readFrame format front with
  | none => rfl
  | some result =>
    obtain ⟨records, rest⟩ := result
    obtain ⟨hall, hfront⟩ := eq_of_readFrame hread
    have hwhole := Frame.readFrame_bytes h hpayload []
    have hlonger : readFrame format (frame.bytes ++ []) = some (records, rest ++ back) := by
      refine readFrame_eq_some_iff.mpr ⟨hall, ?_⟩
      rw [List.append_nil, he, hfront, List.append_assoc, List.cons_append]
    rw [hwhole] at hlonger
    have hrest := (Prod.mk.inj (Option.some.inj hlonger)).2
    exact absurd (List.append_eq_nil_iff.mp hrest.symm).2 hne

end Frames

end Keymap.Animation
