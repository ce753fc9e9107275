import Keymap.Proofs.Animation.Address
import Keymap.Proofs.Animation.Frame
import Keymap.Proofs.Pixels.Tables

/-!
# Acceptance of animations

The findings on an animation, and those on its finished frames, are clean
exactly when the animation is valid. A record whose address is not valid is
left out of its frame, so that its payload is never looked at; where all
addresses are valid the finished frames have every record, and every frame ends
where its records end.
-/

namespace Keymap.Animation

open Config (PixelRecord)

section Records

variable {symbol : String} {extent : Extent}

/-- A record is encoded exactly when its address is valid. -/
theorem exists_encodeRecord_iff {record : PixelRecord} :
    (∃ r, encodeRecord symbol extent record = .ok r) ↔ record.address.Valid extent := by
  rw [← @exists_encodeAddress_iff symbol]
  constructor
  · rintro ⟨r, hr⟩
    obtain ⟨address, haddress, _⟩ := bind_eq_ok_iff.mp hr
    exact ⟨address, haddress⟩
  · rintro ⟨⟨mode, address⟩, haddress⟩
    exact ⟨_, bind_eq_ok_iff.mpr ⟨_, haddress, rfl⟩⟩

/-- An encoded record keeps its change and payload, and its address is as long
as a mode that does not end the frame says. -/
theorem encodeRecord_shape {record : PixelRecord} {r : FrameRecord}
    (h : encodeRecord symbol extent record = .ok r) :
    (r.mode ≠ .stop ∧ r.address.length = r.mode.addressLength) ∧
      r.op = record.op ∧ r.payload = record.payload := by
  obtain ⟨⟨mode, address⟩, haddress, hr⟩ := bind_eq_ok_iff.mp h
  obtain rfl := Except.ok.inj hr
  obtain ⟨hmode, hlength⟩ := encodeAddress_shape haddress
  refine ⟨⟨hmode, hlength.trans ?_⟩, rfl, rfl⟩
  cases mode with
  | stop => exact absurd rfl hmode
  | _ => rfl

/-- The findings on records are clean exactly when all addresses are valid. -/
theorem clean_recordFindings_iff {records : List PixelRecord} :
    Clean (recordFindings symbol extent records) ↔
      ∀ record ∈ records, record.address.Valid extent := by
  simp only [← @exists_encodeRecord_iff symbol]
  constructor
  · intro h record hrecord
    cases he : encodeRecord symbol extent record with
    | ok r => exact ⟨r, rfl⟩
    | error fault =>
      have hmem : Finding.error .frameFormat symbol (.range fault) ∈
          recordFindings symbol extent records :=
        List.mem_filterMap.mpr ⟨record, hrecord, by rw [he]⟩
      exact absurd (h _ hmem) (by simp)
  · intro h finding hfinding
    obtain ⟨record, hrecord, he⟩ := List.mem_filterMap.mp hfinding
    obtain ⟨r, hr⟩ := h record hrecord
    rw [hr] at he
    cases he

/-- The records of a finished frame are the declared ones that can be encoded. -/
theorem mem_encodeRecords_iff {records : List PixelRecord} {r : FrameRecord} :
    r ∈ encodeRecords symbol extent records ↔
      ∃ record ∈ records, encodeRecord symbol extent record = .ok r := by
  simp only [encodeRecords, List.mem_filterMap, Assembly.toOption_eq_some_iff]

end Records

section Frames

variable {extent : Extent} {animation : Config.Animation}

/-- The findings on frames are clean exactly when their numbers are in range and
fresh and all addresses are valid. -/
theorem clean_findingsFrom_iff {name : String} {seen : List UInt32} {frames : List Config.Frame} :
    Clean (findingsFrom extent name seen frames) ↔
      (∀ frame ∈ frames, 1 ≤ frame.index.toNat ∧ frame.index.toNat ≤ 65535) ∧
        Fresh (·.index) seen frames ∧
        ∀ frame ∈ frames, ∀ record ∈ frame.records, record.address.Valid extent := by
  induction frames generalizing seen with
  | nil => simp [findingsFrom]
  | cons frame rest ih =>
    have hmax : maxFrame = 65535 := rfl
    rw [findingsFrom, List.forall_mem_cons, List.forall_mem_cons, fresh_cons_iff]
    split
    next hzero =>
      simp only [Clean.cons_iff, Finding.isError_error, Bool.true_eq_false, false_and, false_iff]
      rintro ⟨⟨hrange, _⟩, _⟩
      omega
    next hzero =>
      split
      next hbeyond =>
        simp only [Clean.cons_iff, Finding.isError_error, Bool.true_eq_false, false_and, false_iff]
        rintro ⟨⟨hrange, _⟩, _⟩
        omega
      next hbeyond =>
        split
        next hmem => simp [hmem]
        next hmem =>
          have hrange : 1 ≤ frame.index.toNat ∧ frame.index.toNat ≤ 65535 := by omega
          rw [Clean.append_iff, ih, clean_recordFindings_iff, and_iff_right hrange,
            and_iff_right hmem]
          tauto

theorem hasNumber_iff {frame : Config.Frame} :
    hasNumber frame = true ↔ 1 ≤ frame.index.toNat ∧ frame.index.toNat ≤ 65535 := by
  rw [hasNumber, Bool.and_eq_true, decide_eq_true_iff, decide_eq_true_iff]
  rfl

/-- Where the numbers are in range and distinct, every frame counts. -/
theorem kept_eq_self
    (h : ∀ frame ∈ animation.frames, 1 ≤ frame.index.toNat ∧ frame.index.toNat ≤ 65535)
    (hn : (animation.frames.map (·.index)).Nodup) : kept animation = animation.frames := by
  have hnumbers : animation.frames.filter hasNumber = animation.frames :=
    List.filter_eq_self.mpr fun frame hframe => hasNumber_iff.mpr (h frame hframe)
  rw [kept, hnumbers, firstsBy_nil_eq_self hn]

/-- Where every frame counts, the finished frames that have records are those
that were declared. -/
theorem mem_framesOf_iff (h : kept animation = animation.frames)
    (hn : (animation.frames.map (·.index)).Nodup) {frame : Frame} (hne : frame.records ≠ []) :
    frame ∈ framesOf extent animation ↔ 1 ≤ frame.number ∧
      ∃ declared ∈ animation.frames, declared.index.toNat = frame.number ∧
        frame.records =
          encodeRecords (frameSymbol animation.name frame.number) extent declared.records := by
  have hfind : ∀ number declared,
      (animation.frames.find? fun f => decide (f.index.toNat = number)) = some declared ↔
        declared ∈ animation.frames ∧ declared.index.toNat = number := fun _ _ =>
    find?_eq_some_iff_mem fun _ hf _ hg he =>
      List.inj_on_of_nodup_map hn hf hg (UInt32.toNat_inj.mp he)
  rw [framesOf, h, List.mem_map]
  constructor
  · rintro ⟨i, _, hframe⟩
    dsimp only at hframe
    split at hframe
    next declared hdeclared =>
      obtain ⟨hmem, hnumber⟩ := (hfind _ _).mp hdeclared
      subst hframe
      exact ⟨Nat.le_add_left .., declared, hmem, hnumber, rfl⟩
    next =>
      subst hframe
      exact absurd rfl hne
  · rintro ⟨hpos, declared, hmem, hnumber, hrecords⟩
    have hlast : declared.index.toNat ≤
        PixelMap.greatest (animation.frames.map (·.index.toNat)) :=
      PixelMap.le_greatest (List.mem_map_of_mem hmem)
    have hsucc : frame.number - 1 + 1 = frame.number := by omega
    refine ⟨frame.number - 1, List.mem_range.mpr (by omega), ?_⟩
    dsimp only
    rw [hsucc, (hfind _ _).mpr ⟨hmem, hnumber⟩]
    exact congrArg (Frame.mk frame.number) hrecords.symm

/-- Where every frame counts, the records of finished frames are encoded declared ones. -/
theorem declared_of_mem_framesOf (h : kept animation = animation.frames)
    (hn : (animation.frames.map (·.index)).Nodup) {frame : Frame}
    (hframe : frame ∈ framesOf extent animation) {r : FrameRecord} (hr : r ∈ frame.records) :
    ∃ declared ∈ animation.frames, ∃ record ∈ declared.records, ∃ symbol,
      encodeRecord symbol extent record = .ok r := by
  obtain ⟨_, declared, hdeclared, _, he⟩ :=
    (mem_framesOf_iff h hn (List.ne_nil_of_mem hr)).mp hframe
  rw [he] at hr
  obtain ⟨record, hrecord, henc⟩ := mem_encodeRecords_iff.mp hr
  exact ⟨declared, hdeclared, record, hrecord, _, henc⟩

end Frames

/-- The findings on a finished frame are clean exactly when every record is as
its mode says and has as many payload bytes as its change takes. -/
theorem clean_frameFindings_iff {format : Config.FrameFormat} {name : String} {frame : Frame} :
    Clean (Validation.frameFindings format name frame) ↔
      (∀ r ∈ frame.records, r.mode ≠ .stop ∧ r.address.length = r.mode.addressLength) ∧
        ∀ r ∈ frame.records, r.payload.length = Validation.payloadWidth format r.op := by
  simp only [Validation.frameFindings, Clean.append_iff, Clean.ite_not_error_iff,
    Clean.flatMap_iff, Frame.isTerminated_iff]

/-- The findings on an animation and its finished frames are clean exactly when it is valid. -/
theorem clean_animation_iff {config : Config} {animation : Config.Animation} :
    Clean (findings config.extent animation) ∧
        Clean ((compile config.extent animation).frames.flatMap
          (Validation.frameFindings config.frameFormat animation.name)) ↔
      animation.Valid config := by
  rw [findings, clean_findingsFrom_iff, fresh_nil_iff, Clean.flatMap_iff]
  simp only [clean_frameFindings_iff]
  constructor
  · rintro ⟨⟨hnumbers, hn, haddresses⟩, hframes⟩
    have hkept := kept_eq_self hnumbers hn
    refine ⟨hnumbers, hn, fun frame hframe record hrecord => ?_⟩
    have haddress := haddresses frame hframe record hrecord
    refine ⟨haddress, ?_⟩
    obtain ⟨r, hr⟩ := (@exists_encodeRecord_iff
      (frameSymbol animation.name frame.index.toNat) config.extent record).mpr haddress
    have hmem := mem_encodeRecords_iff.mpr ⟨record, hrecord, hr⟩
    have hframe' : (⟨frame.index.toNat, encodeRecords (frameSymbol animation.name
        frame.index.toNat) config.extent frame.records⟩ : Frame) ∈
          framesOf config.extent animation :=
      (mem_framesOf_iff hkept hn (List.ne_nil_of_mem hmem)).mpr
        ⟨(hnumbers frame hframe).1, frame, hframe, rfl, rfl⟩
    obtain ⟨_, hop, hpayload⟩ := encodeRecord_shape hr
    rw [← hop, ← hpayload]
    exact (hframes _ hframe').2 r hmem
  · intro h
    have hkept := kept_eq_self h.numbers h.distinct
    refine ⟨⟨h.numbers, h.distinct,
      fun frame hf record hr => (h.records frame hf record hr).address⟩,
      fun frame hframe => ?_⟩
    constructor
    · intro r hr
      obtain ⟨_, _, _, _, _, henc⟩ := declared_of_mem_framesOf hkept h.distinct hframe hr
      exact (encodeRecord_shape henc).1
    · intro r hr
      obtain ⟨declared, hdeclared, record, hrecord, _, henc⟩ :=
        declared_of_mem_framesOf hkept h.distinct hframe hr
      obtain ⟨_, hop, hpayload⟩ := encodeRecord_shape henc
      rw [hop, hpayload]
      exact (h.records declared hdeclared record hrecord).payload

end Keymap.Animation
