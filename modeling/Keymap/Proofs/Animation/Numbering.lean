import Keymap.Proofs.Animation.Compiled
import Keymap.Proofs.Gapless
import Keymap.Proofs.InStep

/-!
# Numbering of frames

The frames of any animation are compiled to frames without gaps, however many of them are
found fault with: what counts for a number in range is the first declaration with it, and
of that the records that can be encoded. Whatever is left out is reported in the order of
declaration, each frame and each record once.
-/

namespace Keymap.Animation

open Assembly (errorOf)
open Config (PixelRecord)

variable {extent : Extent} {name symbol : String} {animation : Config.Animation}

/-- The address of a record can be encoded. -/
def encodes (symbol : String) (extent : Extent) (record : PixelRecord) : Bool :=
  (encodeAddress symbol extent record.address).isOk

/-- A frame has a number and those records of the first declared frame with that number
that can be encoded; without such a declaration it is empty. -/
structure Frame.FirstOf (extent : Extent) (animation : Config.Animation) (n : Nat)
    (frame : Frame) : Prop where
  number : frame.number = n
  first : ∀ before declared after, animation.frames = before ++ declared :: after →
    declared.index.toNat = n → (∀ earlier ∈ before, earlier.index.toNat ≠ n) →
    List.Forall₂ (FrameRecord.CompiledFrom (frameSymbol animation.name n) extent)
      (declared.records.filter (encodes (frameSymbol animation.name n) extent)) frame.records
  filled : (∀ declared ∈ animation.frames, declared.index.toNat ≠ n) → frame.records = []

/-- What is found on a frame behind others: that its number is zero, that it is beyond
the greatest one, that it was there before, or which of its records cannot be encoded. -/
inductive FindingsOn (extent : Extent) (name : String) (before : List Config.Frame)
    (frame : Config.Frame) : List Finding → Prop
  | zero (h : frame.index.toNat = 0) :
    FindingsOn extent name before frame
      [.error .indexContiguity (frameSymbol name frame.index.toNat)
        (.shape (.indexGap "animation frame" 1 0))]
  | beyond (h : 65535 < frame.index.toNat) :
    FindingsOn extent name before frame
      [.error .frameFormat (frameSymbol name frame.index.toNat)
        (.range (.frameIndex name frame.index.toNat 65535))]
  | repeated (hrange : 1 ≤ frame.index.toNat ∧ frame.index.toNat ≤ 65535)
    (h : ∃ earlier ∈ before, earlier.index = frame.index) :
    FindingsOn extent name before frame
      [.error .duplicates (frameSymbol name frame.index.toNat)
        (.shape (.duplicate "animation frame" (frameSymbol name frame.index.toNat)))]
  | kept (hrange : 1 ≤ frame.index.toNat ∧ frame.index.toNat ≤ 65535)
    (h : ∀ earlier ∈ before, earlier.index ≠ frame.index) {found : List Finding}
    (hrecords : List.Forall₂ (fun record finding => ∃ fault,
        encodeAddress (frameSymbol name frame.index.toNat) extent record.address = .error fault ∧
        finding = .error .frameFormat (frameSymbol name frame.index.toNat) (.range fault))
      (frame.records.filter fun record =>
        !encodes (frameSymbol name frame.index.toNat) extent record) found) :
    FindingsOn extent name before frame found

/-- The findings on frames behind others stand in the order of the frames. -/
inductive Reported (extent : Extent) (name : String) :
    (before frames : List Config.Frame) → List Finding → Prop
  | nil {before : List Config.Frame} : Reported extent name before [] []
  | cons {before rest : List Config.Frame} {frame : Config.Frame} {found later : List Finding}
    (h : FindingsOn extent name before frame found)
    (hrest : Reported extent name (before ++ [frame]) rest later) :
    Reported extent name before (frame :: rest) (found ++ later)

section Records

/-- The records that can be encoded are compiled one by one, in their order. -/
theorem forall₂_encodeRecords_filter (records : List PixelRecord) :
    List.Forall₂ (FrameRecord.CompiledFrom symbol extent)
      (records.filter (encodes symbol extent)) (encodeRecords symbol extent records) := by
  have hencodes : ∀ record,
      (encodeRecord symbol extent record).toOption.isSome = encodes symbol extent record := by
    intro record
    rw [encodes, encodeRecord]
    cases encodeAddress symbol extent record.address <;> rfl
  have hstep := forall₂_filter_isSome
    (fun record => (encodeRecord symbol extent record).toOption) records
  simp only [hencodes] at hstep
  refine hstep.imp fun record r hr => ?_
  obtain ⟨⟨mode, address⟩, haddress, he⟩ :=
    bind_eq_ok_iff.mp (Assembly.toOption_eq_some_iff.mp hr)
  obtain rfl := Except.ok.inj he
  exact ⟨haddress, rfl, rfl⟩

/-- The records that cannot be encoded are found fault with one by one, in their order. -/
theorem forall₂_recordFindings (records : List PixelRecord) :
    List.Forall₂ (fun record finding => ∃ fault,
        encodeAddress symbol extent record.address = .error fault ∧
        finding = .error .frameFormat symbol (.range fault))
      (records.filter fun record => !encodes symbol extent record)
      (recordFindings symbol extent records) := by
  have hfaults : recordFindings symbol extent records =
      (records.filterMap fun record => errorOf (encodeAddress symbol extent record.address)).map
        fun fault => .error .frameFormat symbol (.range fault) := by
    rw [recordFindings, List.map_filterMap]
    refine List.filterMap_congr fun record _ => ?_
    rw [encodeRecord]
    cases encodeAddress symbol extent record.address <;> rfl
  have hfails : ∀ record : PixelRecord,
      (errorOf (encodeAddress symbol extent record.address)).isSome =
        !encodes symbol extent record := by
    intro record
    rw [encodes]
    cases encodeAddress symbol extent record.address <;> rfl
  have hstep := forall₂_filter_isSome
    (fun record : PixelRecord => errorOf (encodeAddress symbol extent record.address)) records
  simp only [hfails] at hstep
  rw [hfaults, List.forall₂_map_right_iff]
  exact hstep.imp fun record fault hfault => ⟨fault, Assembly.errorOf_eq_some_iff.mp hfault, rfl⟩

end Records

section Frames

/-- The frames that count have the numbers that are declared in range. -/
theorem mem_map_kept_iff {n : Nat} :
    n ∈ (kept animation).map (·.index.toNat) ↔
      n ∈ (animation.frames.map (·.index.toNat)).filter fun n => decide (1 ≤ n ∧ n ≤ 65535) := by
  have hindices : ∀ index, index ∈ (kept animation).map (·.index) ↔
      index ∈ (animation.frames.filter hasNumber).map (·.index) := by
    intro index
    rw [kept, mem_map_firstsBy, and_iff_left List.not_mem_nil]
  have hmap : ∀ frames : List Config.Frame,
      frames.map (·.index.toNat) = (frames.map (·.index)).map (·.toNat) := by
    intro frames
    rw [List.map_map]
    rfl
  rw [hmap, List.mem_map]
  simp only [hindices, List.mem_map, List.mem_filter, hasNumber_iff, decide_eq_true_iff]
  constructor
  · rintro ⟨_, ⟨frame, ⟨hframe, hrange⟩, rfl⟩, rfl⟩
    exact ⟨⟨frame, hframe, rfl⟩, hrange⟩
  · rintro ⟨⟨frame, hframe, rfl⟩, hrange⟩
    exact ⟨_, ⟨frame, ⟨hframe, hrange⟩, rfl⟩, rfl⟩

/-- For a number in range, the frame that counts is the first one declared. -/
theorem find?_kept {n : Nat} (hone : 1 ≤ n) (hmax : n ≤ 65535) :
    ((kept animation).find? fun frame => decide (frame.index.toNat = n)) =
      animation.frames.find? fun frame => decide (frame.index.toNat = n) := by
  cases hkept : (kept animation).find? fun frame => decide (frame.index.toNat = n) with
  | none =>
    rw [List.find?_eq_none] at hkept
    refine (List.find?_eq_none.mpr fun declared hdeclared he => ?_).symm
    have hn := of_decide_eq_true he
    have hmem : n ∈ (kept animation).map (·.index.toNat) :=
      mem_map_kept_iff.mpr (List.mem_filter.mpr
        ⟨List.mem_map.mpr ⟨declared, hdeclared, hn⟩, decide_eq_true ⟨hone, hmax⟩⟩)
    obtain ⟨frame, hframe, hnumber⟩ := List.mem_map.mp hmem
    exact hkept frame hframe (decide_eq_true hnumber)
  | some frame =>
    have hn : frame.index.toNat = n := of_decide_eq_true (List.find?_some hkept :)
    have hfirst := find?_of_mem_firstsBy (List.mem_of_find?_eq_some hkept)
    rw [List.find?_filter] at hfirst
    rw [← hfirst]
    -- a frame with the number of one that counts is in range
    refine congrArg (List.find? · animation.frames) (funext fun declared => ?_)
    rw [decide_eq_decide, hasNumber_iff, decide_eq_true_iff]
    constructor
    · rintro ⟨_, he⟩
      rw [he, hn]
    · intro he
      exact ⟨he ▸ ⟨hone, hmax⟩, UInt32.toNat_inj.mp (he.trans hn.symm)⟩

/-- The compiled frames have no gaps. -/
theorem gapless_framesOf :
    Gapless ((animation.frames.map (·.index.toNat)).filter fun n => decide (1 ≤ n ∧ n ≤ 65535))
      (Frame.FirstOf extent animation) (framesOf extent animation) := by
  rw [framesOf, PixelMap.greatest_congr fun n => mem_map_kept_iff]
  refine gapless_map_range fun i hi => ?_
  have hmax : i + 1 ≤ 65535 := by
    refine Nat.le_trans hi (PixelMap.greatest_le fun number hnumber => ?_)
    exact (of_decide_eq_true (List.mem_filter.mp hnumber).2).2
  dsimp only
  rw [find?_kept (Nat.le_add_left 1 i) hmax]
  cases hfind : animation.frames.find? fun frame => decide (frame.index.toNat = i + 1) with
  | none =>
    refine ⟨rfl, fun before declared after he hn _ => ?_, fun _ => rfl⟩
    have hmem : declared ∈ animation.frames :=
      he ▸ List.mem_append_right _ (List.mem_cons_self ..)
    exact absurd (decide_eq_true hn) (List.find?_eq_none.mp hfind declared hmem)
  | some frame =>
    refine ⟨rfl, fun before declared after he hn hbefore => ?_, fun hnone => ?_⟩
    · have hfirst : (animation.frames.find? fun frame => decide (frame.index.toNat = i + 1)) =
          some declared := by
        refine List.find?_eq_some_iff_append.mpr ⟨decide_eq_true hn, before, after, he, ?_⟩
        intro earlier hearlier
        rw [decide_eq_false (hbefore earlier hearlier)]
        rfl
      obtain rfl := Option.some.inj (hfind.symm.trans hfirst)
      exact forall₂_encodeRecords_filter frame.records
    · have hn : frame.index.toNat = i + 1 := of_decide_eq_true (List.find?_some hfind :)
      exact absurd hn (hnone frame (List.mem_of_find?_eq_some hfind))

end Frames

section Findings

/-- The numbers that were seen are those of the frames before that are in range. -/
def Seen (before : List Config.Frame) (seen : List UInt32) : Prop :=
  ∀ index, index ∈ seen ↔ ∃ earlier ∈ before, hasNumber earlier = true ∧ earlier.index = index

variable {seen : List UInt32} {before : List Config.Frame} {frame : Config.Frame}

/-- A frame that does not count changes nothing about what was seen. -/
theorem Seen.skip (h : Seen before seen) (hskip : hasNumber frame = true → frame.index ∈ seen) :
    Seen (before ++ [frame]) seen := by
  intro index
  simp only [List.mem_append, List.mem_singleton, or_and_right, exists_or, exists_eq_left,
    ← h index]
  constructor
  · exact Or.inl
  · rintro (hmem | ⟨hnumber, rfl⟩)
    · exact hmem
    · exact hskip hnumber

/-- A frame in range is seen from then on. -/
theorem Seen.keep (h : Seen before seen) (hnumber : hasNumber frame = true) :
    Seen (before ++ [frame]) (frame.index :: seen) := by
  intro index
  simp only [List.mem_append, List.mem_singleton, or_and_right, exists_or, exists_eq_left,
    ← h index, hnumber, true_and]
  rw [List.mem_cons, or_comm, eq_comm]

/-- Behind frames whose numbers were seen, there are findings on each frame in turn. -/
theorem reported_findingsFrom {frames : List Config.Frame} (h : Seen before seen) :
    Reported extent name before frames (findingsFrom extent name seen frames) := by
  induction frames generalizing seen before with
  | nil => exact .nil
  | cons frame rest ih =>
    rw [findingsFrom]
    split
    next hzero =>
      refine .cons (.zero hzero) (ih (h.skip fun hnumber => ?_))
      have hrange := hasNumber_iff.mp hnumber
      omega
    next hzero =>
      split
      next hbeyond =>
        refine .cons (.beyond hbeyond) (ih (h.skip fun hnumber => ?_))
        have hrange := hasNumber_iff.mp hnumber
        exact absurd hrange.2 (Nat.not_le.mpr hbeyond)
      next hbeyond =>
        have hrange : 1 ≤ frame.index.toNat ∧ frame.index.toNat ≤ 65535 :=
          ⟨Nat.one_le_iff_ne_zero.mpr hzero, Nat.not_lt.mp hbeyond⟩
        split
        next hmem =>
          obtain ⟨earlier, hearlier, _, he⟩ := (h frame.index).mp hmem
          exact .cons (.repeated hrange ⟨earlier, hearlier, he⟩) (ih (h.skip fun _ => hmem))
        next hnew =>
          have hfirst : ∀ earlier ∈ before, earlier.index ≠ frame.index := by
            intro earlier hearlier he
            exact hnew ((h _).mpr ⟨earlier, hearlier, hasNumber_iff.mpr (he ▸ hrange), he⟩)
          refine .cons (.kept hrange hfirst (forall₂_recordFindings frame.records)) (ih ?_)
          exact h.keep (hasNumber_iff.mpr hrange)

end Findings

/-- An animation is compiled to frames without gaps, of which each has the records of the
first declaration for its number that can be encoded. Behind what is in a report there
comes one finding for every frame out of range or there before, and one for every record
of the others that cannot be encoded, in the order of declaration. -/
theorem compiled_and_reported (extent : Extent) (animation : Config.Animation)
    (report : Report) :
    (compile extent animation).name = animation.name ∧
      Gapless ((animation.frames.map (·.index.toNat)).filter fun n => decide (1 ≤ n ∧ n ≤ 65535))
        (Frame.FirstOf extent animation) (compile extent animation).frames ∧
      ∃ found, Reported extent animation.name [] animation.frames found ∧
        (report.append (findings extent animation)).findings = report.findings ++ found := by
  refine ⟨rfl, gapless_framesOf, findings extent animation, ?_, rfl⟩
  have hnone : Seen [] [] := fun index => by simp
  exact reported_findingsFrom hnone

end Keymap.Animation
