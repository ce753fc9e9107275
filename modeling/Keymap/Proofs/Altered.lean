import Keymap.Proofs.Acceptance
import Keymap.Proofs.Animation.Frame
import Keymap.Proofs.Checks

/-!
# Tables that were altered

The checks look at tables and do not ask where these come from. So they hold for tables that
no configuration has, such as calls of capabilities that are not there or frames with records
that end them: whatever stands in a table, there is one finding for each of its faults.
-/

namespace Keymap

open Animation (Frame FrameRecord)
open Guide (Call)

/-- The findings stand for the faulty ones of some items: one for each of them, in their
order, and none for the others. -/
inductive OneFor (Faulty : α → Prop) (Reports : α → Finding → Prop) :
    List α → List Finding → Prop
  | nil : OneFor Faulty Reports [] []
  | faulty {a items f found} : Faulty a → Reports a f → OneFor Faulty Reports items found →
      OneFor Faulty Reports (a :: items) (f :: found)
  | sound {a items found} : ¬Faulty a → OneFor Faulty Reports items found →
      OneFor Faulty Reports (a :: items) found

namespace OneFor

variable {Faulty : α → Prop} {Reports : α → Finding → Prop}

/-- What holds of every finding on some item holds of all findings. -/
theorem forall_mem {p : Finding → Prop} (hp : ∀ a f, Reports a f → p f) {items : List α}
    {found : List Finding} (h : OneFor Faulty Reports items found) : ∀ f ∈ found, p f := by
  induction h with
  | nil => exact fun _ hf => absurd hf List.not_mem_nil
  | faulty _ hreports _ ih => exact List.forall_mem_cons.mpr ⟨hp _ _ hreports, ih⟩
  | sound _ _ ih => exact ih

/-- Items one behind the other have their findings one behind the other. -/
theorem append {items others : List α} {found more : List Finding}
    (h : OneFor Faulty Reports items found) (h' : OneFor Faulty Reports others more) :
    OneFor Faulty Reports (items ++ others) (found ++ more) := by
  induction h with
  | nil => exact h'
  | faulty ha hreports _ ih => exact ih.faulty ha hreports
  | sound ha _ ih => exact ih.sound ha

theorem cons {a : α} {items : List α} {found more : List Finding}
    (h : OneFor Faulty Reports [a] found) (h' : OneFor Faulty Reports items more) :
    OneFor Faulty Reports (a :: items) (found ++ more) :=
  h.append h'

theorem flatMap {values : List β} {items : β → List α} {found : β → List Finding}
    (h : ∀ b ∈ values, OneFor Faulty Reports (items b) (found b)) :
    OneFor Faulty Reports (values.flatMap items) (values.flatMap found) := by
  induction values with
  | nil => exact .nil
  | cons b rest ih =>
    rw [List.forall_mem_cons] at h
    exact h.1.append (ih h.2)

/-- Every value is one item. -/
theorem map {values : List β} {item : β → α} {found : β → List Finding}
    (h : ∀ b ∈ values, OneFor Faulty Reports [item b] (found b)) :
    OneFor Faulty Reports (values.map item) (values.flatMap found) := by
  rw [List.map_eq_flatMap]
  exact flatMap h

/-- An item with one finding if it is faulty. -/
theorem ite {a : α} {p : Prop} [Decidable p] {f : Finding} (hp : Faulty a ↔ p)
    (hf : p → Reports a f) : OneFor Faulty Reports [a] (if p then [f] else []) := by
  split
  next h => exact .faulty (hp.mpr h) (hf h) .nil
  next h => exact .sound (mt hp.mp h) .nil

/-- An item with one finding if it is not sound. -/
theorem ite_nil {a : α} {p : Prop} [Decidable p] {f : Finding} (hp : Faulty a ↔ ¬p)
    (hf : ¬p → Reports a f) : OneFor Faulty Reports [a] (if p then [] else [f]) := by
  rw [← ite_not]
  exact ite hp hf

end OneFor

/-- The finding says what is wrong with a call of a result. -/
inductive ReportsCall (capabilities : List Config.Capability) : String × Call → Finding → Prop
  | unknown {result call} (h : capabilities.length ≤ call.capability.toNat) :
    ReportsCall capabilities (result, call)
      (.error .capabilityArguments result
        (.reference (.symbol "capability index" (toString call.capability.toNat))))
  | bytes {result call capability}
    (h : capabilities[call.capability.toNat]? = some capability)
    (hne : call.args.length ≠ capability.argBytes) :
    ReportsCall capabilities (result, call)
      (.error .capabilityArguments result
        (.shape (.argumentWidth result capability.name capability.argBytes call.args.length)))

/-- A record of the frame ends it, or has an address that is not four bytes long. -/
def Animation.Frame.IsBroken (frame : Frame) : Prop :=
  ∃ r ∈ frame.records, r.mode = .stop ∨ r.address.length ≠ 4

/-- A frame is terminated exactly when it is not broken: addresses whose lengths make up for
each other do not make it so. -/
theorem Animation.Frame.isBroken_iff {frame : Frame} :
    frame.IsBroken ↔ ¬frame.isTerminated = true := by
  rw [isTerminated_iff, not_forall₂]
  simp only [IsBroken, exists_prop, not_and_or, not_not]
  refine exists_congr fun r => and_congr_right fun _ => ?_
  -- a record that ends the frame breaks it whatever its address
  by_cases hmode : r.mode = .stop
  · simp [hmode]
  · rw [AddressMode.addressLength_of_ne_stop hmode]

namespace Assembly

/-- An assembly without the calls of results, the records of frames, the table from scan
codes to pixels, and the offsets of boards. -/
def skeleton (assembly : Assembly) : Assembly :=
  { assembly with
    offsets := []
    results := assembly.results.map fun result => { result with combos := [] }
    pixels := assembly.pixels.map fun map => { map with scanToPixel := [] }
    animations := assembly.animations.map fun animation =>
      { animation with frames := animation.frames.map fun frame => { frame with records := [] } } }

variable (assembly : Assembly)

/-- The calls with the names of their results, in the order of the tables. -/
def calls : List (String × Call) :=
  assembly.results.flatMap fun result =>
    result.combos.flatten.map fun call => (result.name, call)

/-- The frames with their symbols, in the order of the tables. -/
def frames : List (String × Frame) :=
  assembly.animations.flatMap fun animation =>
    animation.frames.map fun frame => (Animation.frameSymbol animation.name frame.number, frame)

/-- The records with the symbols of their frames, in the order of the tables. -/
def records : List (String × FrameRecord) :=
  assembly.frames.flatMap fun (symbol, frame) => frame.records.map fun record => (symbol, record)

/-- Findings say what is wrong with the tables of an assembly: there is exactly one for each
fault of its calls, its frames and their records, its scan codes and its offsets. -/
structure Judged (found : Report) : Prop where
  calls : OneFor (fun (_, call) => ¬call.Sized assembly.capabilities)
    (ReportsCall assembly.capabilities) assembly.calls (found.byCheck .capabilityArguments)
  terminations : OneFor (fun (_, frame) => frame.IsBroken)
    (fun (symbol, _) f => f = .error .frameTermination symbol (.shape (.frameTermination symbol)))
    assembly.frames (found.byCheck .frameTermination)
  payloads : OneFor
    (fun (_, record) => record.payload.length ≠
      Animation.payloadBytes assembly.frameFormat (Animation.opByte record.op))
    (fun (symbol, record) f => f = .error .frameFormat symbol (.shape (.payload symbol
      (Animation.payloadBytes assembly.frameFormat (Animation.opByte record.op))
      record.payload.length)))
    assembly.records (found.byCheck .frameFormat)
  /-- The other findings of this check are on the scan codes that pixels declare. -/
  scanned : ∀ map, assembly.pixels = some map →
    OneFor (fun (pixel, _) => map.totalPixels < pixel)
      (fun (pixel, code) f => f = .error .scanCodePixels ("S" ++ toString code)
        (.reference (.pixel ("S" ++ toString code) pixel)))
      (map.scanToPixel.zipIdx 1)
      ((found.byCheck .scanCodePixels).filter fun f => decide (f.fault.category = .reference))
  offsets : ∃ beyond descending, found.byCheck .interconnect = beyond ++ descending ∧
    OneFor (fun (offset, _) => assembly.config.maxScanCode.toNat < offset)
      (fun (offset, board) f => f = .error .interconnect "InterconnectOffsetList"
        (.range (.interconnectOffset board offset assembly.config.maxScanCode.toNat)))
      assembly.offsets.zipIdx beyond ∧
    OneFor (fun ((previous, offset), _) => offset < previous)
      (fun ((previous, offset), board) f => f = .error .interconnect "InterconnectOffsetList"
        (.shape (.interconnectOrder board offset previous)))
      ((assembly.offsets.zip assembly.offsets.tail).zipIdx 1) descending

end Assembly

namespace Validation

/-- What is found on a call says what is wrong with it. -/
theorem reportsCall_of_callFinding {capabilities : List Config.Capability} {result : String}
    {call : Call} {finding : Finding} (h : callFinding capabilities result call = some finding) :
    ReportsCall capabilities (result, call) finding := by
  rw [callFinding] at h
  split at h
  next hnone =>
    obtain rfl := Option.some.inj h
    exact .unknown (List.getElem?_eq_none_iff.mp hnone)
  next capability hsome =>
    split at h
    next => cases h
    next hne =>
      obtain rfl := Option.some.inj h
      exact .bytes hsome hne

/-- Every call has one finding if it is not sized by the table. -/
theorem oneFor_capabilityArguments {assembly : Assembly}
    (h : assembly.capabilities.length ≤ 256) :
    OneFor (fun (_, call) => ¬call.Sized assembly.capabilities)
      (ReportsCall assembly.capabilities) assembly.calls (capabilityArguments assembly) := by
  have hmax : maxCapabilities = 256 := rfl
  rw [capabilityArguments, if_neg (by omega)]
  refine .flatMap fun result _ => ?_
  rw [List.filterMap_eq_flatMap_toList]
  refine .map fun call _ => ?_
  cases hcall : callFinding assembly.capabilities result.name call with
  | none =>
    have hsized := callFinding_eq_none_iff.mp hcall
    exact .sound (not_not_intro hsized) .nil
  | some finding =>
    have hnot := mt callFinding_eq_none_iff.mpr (hcall ▸ Option.some_ne_none finding)
    exact .faulty hnot (reportsCall_of_callFinding hcall) .nil

/-- The findings on the end of a frame and those on its payloads are of two checks. -/
theorem filter_frameFindings (format : Config.FrameFormat) (name : String) (frame : Frame)
    (check : Check) :
    (frameFindings format name frame).filter (fun f => decide (f.check = check)) =
      let symbol := Animation.frameSymbol name frame.number
      match check with
      | .frameTermination =>
        if frame.isTerminated then []
        else [.error .frameTermination symbol (.shape (.frameTermination symbol))]
      | .frameFormat =>
        frame.records.flatMap fun record =>
          let expected := payloadWidth format record.op
          if record.payload.length = expected then []
          else
            [.error .frameFormat symbol (.shape (.payload symbol expected record.payload.length))]
      | _ => [] := by
  have hend : ∀ symbol, OfChecks [.frameTermination] (if frame.isTerminated then []
      else [.error .frameTermination symbol (.shape (.frameTermination symbol))]) :=
    fun _ => .ite .nil (by simp)
  have hpayloads : ∀ symbol, OfChecks [.frameFormat] (frame.records.flatMap fun record =>
      if record.payload.length = payloadWidth format record.op then []
      else [.error .frameFormat symbol (.shape (.payload symbol (payloadWidth format record.op)
        record.payload.length))]) :=
    fun _ => .flatMap fun _ _ => .ite .nil (by simp)
  rw [frameFindings, List.filter_append, (hend _).filter_singleton,
    (hpayloads _).filter_singleton]
  cases check <;> simp

/-- Every frame has one finding on its end if it is broken. -/
theorem oneFor_frameTermination (assembly : Assembly) :
    OneFor (fun (_, frame) => frame.IsBroken)
      (fun (symbol, _) f =>
        f = .error .frameTermination symbol (.shape (.frameTermination symbol)))
      assembly.frames
      ((frames assembly).filter fun f => decide (f.check = .frameTermination)) := by
  rw [frames, List.filter_flatMap]
  refine .flatMap fun animation _ => ?_
  rw [List.filter_flatMap]
  refine .map fun frame _ => ?_
  rw [filter_frameFindings]
  exact .ite_nil Frame.isBroken_iff fun _ => rfl

/-- Every record has one finding if its payload is not as wide as its change needs. -/
theorem oneFor_frameFormat (assembly : Assembly) :
    OneFor
      (fun (_, record) => record.payload.length ≠
        Animation.payloadBytes assembly.frameFormat (Animation.opByte record.op))
      (fun (symbol, record) f => f = .error .frameFormat symbol (.shape (.payload symbol
        (Animation.payloadBytes assembly.frameFormat (Animation.opByte record.op))
        record.payload.length)))
      assembly.records
      ((frames assembly).filter fun f => decide (f.check = .frameFormat)) := by
  rw [frames, List.filter_flatMap, Assembly.records, Assembly.frames, List.flatMap_assoc]
  refine .flatMap fun animation _ => ?_
  rw [List.filter_flatMap, List.flatMap_map]
  refine .flatMap fun frame _ => ?_
  rw [filter_frameFindings]
  refine .map fun record _ => ?_
  simp only [Animation.payloadBytes_opByte]
  exact .ite_nil Iff.rfl fun _ => rfl

/-- Every entry of the scan code table has one finding if it is beyond the pixel table. -/
theorem oneFor_scannedPixels (map : PixelMap) :
    OneFor (fun (pixel, _) => map.totalPixels < pixel)
      (fun (pixel, code) f => f = .error .scanCodePixels ("S" ++ toString code)
        (.reference (.pixel ("S" ++ toString code) pixel)))
      (map.scanToPixel.zipIdx 1) (scannedPixels map) := by
  rw [List.zipIdx_succ]
  exact .map fun entry _ => .ite Iff.rfl fun _ => rfl

/-- Every offset has one finding if it is beyond the greatest scan code. -/
theorem oneFor_offsetsBeyond (max board : Nat) (offsets : List Nat) :
    OneFor (fun (offset, _) => max < offset)
      (fun (offset, board) f => f = .error .interconnect "InterconnectOffsetList"
        (.range (.interconnectOffset board offset max)))
      (offsets.zipIdx board) (offsetsBeyond max board offsets) := by
  induction offsets generalizing board with
  | nil => exact .nil
  | cons offset rest ih =>
    rw [List.zipIdx_cons, offsetsBeyond]
    exact .cons (.ite Iff.rfl fun _ => rfl) (ih (board + 1))

/-- Every offset behind another one has one finding if it is below that one. -/
theorem oneFor_offsetsDescending (board : Nat) (offsets : List Nat) :
    OneFor (fun ((previous, offset), _) => offset < previous)
      (fun ((previous, offset), board) f => f = .error .interconnect "InterconnectOffsetList"
        (.shape (.interconnectOrder board offset previous)))
      ((offsets.zip offsets.tail).zipIdx (board + 1)) (offsetsDescending board offsets) := by
  induction offsets generalizing board with
  | nil => exact .nil
  | cons previous rest ih =>
    cases rest with
    | nil => exact .nil
    | cons offset rest =>
      rw [offsetsDescending, List.tail_cons, List.zip_cons_cons, List.zipIdx_cons]
      exact .cons (.ite Iff.rfl fun _ => rfl) (ih (board + 1))

/-- What is found on the scan codes that pixels declare is never that a pixel is missing. -/
theorem category_ne_of_mem_pixelScanCodes {max : Nat} {owners : List (Nat × Nat)}
    {pixels : List Config.Pixel} :
    ∀ f ∈ pixelScanCodes max owners pixels, f.fault.category ≠ .reference := by
  have hrange : ∀ (code : Nat) (symbol : String) (fault : RangeFault),
      ∀ f ∈ (if max < code then [Finding.error .scanCodePixels symbol (.range fault)] else []),
        f.fault.category ≠ .reference := by
    intro code symbol fault f hf
    split at hf
    · obtain rfl := List.mem_singleton.mp hf
      exact Category.noConfusion
    · exact absurd hf List.not_mem_nil
  induction pixels generalizing owners with
  | nil => exact fun _ h => absurd h List.not_mem_nil
  | cons pixel rest ih =>
    unfold pixelScanCodes
    split
    · exact ih
    · dsimp only
      split
      · rw [List.forall_mem_append, List.forall_mem_cons]
        exact ⟨hrange _ _ _, Category.noConfusion, ih⟩
      · rw [List.forall_mem_append]
        exact ⟨hrange _ _ _, ih⟩

/-- Among the findings on scan codes and pixels, those that say that a pixel is missing are
on the scan code table. -/
theorem filter_scanCodePixels {assembly : Assembly} {declared : Config.PixelSection}
    {map : PixelMap} (hdeclared : assembly.config.pixels = some declared)
    (hmap : assembly.pixels = some map) :
    ((findings assembly).filter fun f => decide (f.check = .scanCodePixels)).filter
        (fun f => decide (f.fault.category = .reference)) = scannedPixels map := by
  have hdeclaredCodes : (pixelScanCodes assembly.config.maxScanCode.toNat []
      declared.pixels).filter (fun f => decide (f.fault.category = .reference)) = [] := by
    rw [List.filter_eq_nil_iff]
    intro f hf he
    exact category_ne_of_mem_pixelScanCodes f hf (of_decide_eq_true he)
  have hscanned : (scannedPixels map).filter
      (fun f => decide (f.fault.category = .reference)) = scannedPixels map := by
    have hmissing : ∀ f ∈ scannedPixels map, f.fault.category = .reference :=
      (oneFor_scannedPixels map).forall_mem fun _ _ hf => hf ▸ rfl
    rw [List.filter_eq_self]
    exact fun f hf => decide_eq_true (hmissing f hf)
  rw [filter_findings, filter_pixels hdeclared hmap, List.filter_append, hdeclaredCodes,
    hscanned, List.nil_append]

end Validation

namespace Assembly

/-- Without more capabilities than a byte has values, the findings of the checks have one
finding for each fault of the tables. -/
theorem judged_findings {assembly : Assembly} (h : assembly.capabilities.length ≤ 256)
    (hpixels : assembly.pixels.isSome = assembly.config.pixels.isSome) :
    assembly.Judged ⟨Validation.findings assembly⟩ where
  calls := by
    rw [Report.byCheck, Validation.filter_findings]
    exact Validation.oneFor_capabilityArguments h
  terminations := by
    rw [Report.byCheck, Validation.filter_findings]
    exact Validation.oneFor_frameTermination assembly
  payloads := by
    rw [Report.byCheck, Validation.filter_findings]
    exact Validation.oneFor_frameFormat assembly
  scanned := by
    intro map hmap
    -- the pass looks at the table only where the section is declared
    rw [hmap, Option.isSome_some] at hpixels
    obtain ⟨declared, hdeclared⟩ := Option.isSome_iff_exists.mp hpixels.symm
    rw [Report.byCheck, Validation.filter_scanCodePixels hdeclared hmap]
    exact Validation.oneFor_scannedPixels map
  offsets := by
    refine ⟨_, _, ?_, Validation.oneFor_offsetsBeyond _ 0 _,
      Validation.oneFor_offsetsDescending 0 _⟩
    rw [Report.byCheck, Validation.filter_findings]
    rfl

end Assembly

namespace Config

open Assembly (build)

/-- For every configuration with no more capabilities than a byte has values, and whatever
stands in place of the calls, the records, the scan code table and the offsets of its
tables: what is reported are the findings that were recorded while the tables were built,
and then, among others, exactly one finding for each fault of what stands there. -/
theorem judged_of_skeleton_eq (config : Config) (hcount : config.distinctCapabilities.length ≤ 256)
    {assembly : Assembly} (h : assembly.skeleton = (build config).skeleton) :
    ∃ found : Report,
      assembly.validate = (Report.mk (build config).recorded).append found.findings ∧
        assembly.Judged found := by
  have hconfig : assembly.config = config := congrArg Assembly.config h
  have hcapabilities : assembly.capabilities = config.distinctCapabilities :=
    congrArg Assembly.capabilities h
  have hrecorded : assembly.recorded = (build config).recorded :=
    (congrArg Assembly.recorded h :)
  have hpixels : assembly.pixels.isSome = config.pixels.isSome := by
    have hsome := congrArg (fun a : Assembly => a.pixels.isSome) h
    simp only [Assembly.skeleton, Option.isSome_map, Assembly.isSome_pixels_build] at hsome
    exact hsome
  refine ⟨⟨Validation.findings assembly⟩, ?_, Assembly.judged_findings ?_ ?_⟩
  · rw [Assembly.validate, hrecorded, Report.append]
  · rw [hcapabilities]
    exact hcount
  · rw [hconfig]
    exact hpixels

/-- A keyboard with an animation and one light. -/
def lamp : Config :=
  { animated with
    pixels := some
      { buffers := [⟨3, 8, none, "lights"⟩]
        pixels := [⟨1, [0, 1, 2], some 2⟩]
        display := [[1]]
        ledBufferStruct := none
        frameFormat := {} } }

/-- Its tables with offsets that descend from beyond the greatest scan code, calls of a
capability that is not there, addresses whose lengths make up for each other, and a key with
a light that is not there. -/
def tampered : Assembly :=
  { build lamp with
    offsets := [9, 3]
    results := (build lamp).results.map fun row => { row with combos := [[⟨2, []⟩, ⟨0, [4]⟩]] }
    pixels := (build lamp).pixels.map fun map => { map with scanToPixel := [1, 2] }
    animations := (build lamp).animations.map fun animation =>
      { animation with
        frames := animation.frames.map fun frame =>
          { frame with
            records := [⟨.index, [1, 2, 3], .set, [0]⟩, ⟨.rect, [1, 2, 3, 4, 5], .set, []⟩] } } }

/-- The first of the altered offsets is beyond the greatest scan code, and the second is below
the first: the interconnect has one finding for each fault, in this order. -/
theorem judged_tampered :
    lamp.distinctCapabilities.length ≤ 256 ∧ tampered.skeleton = (build lamp).skeleton ∧
      ∃ found : Report,
        tampered.validate = (Report.mk (build lamp).recorded).append found.findings ∧
          tampered.Judged found ∧
          found.byCheck .interconnect =
            [.error .interconnect "InterconnectOffsetList" (.range (.interconnectOffset 0 9 8)),
             .error .interconnect "InterconnectOffsetList"
               (.shape (.interconnectOrder 1 3 9))] := by
  have hcount : lamp.distinctCapabilities.length ≤ 256 := by decide
  have hskeleton : tampered.skeleton = (build lamp).skeleton := by
    simp [Assembly.skeleton, tampered, Function.comp_def]
  obtain ⟨found, happend, hjudged⟩ := judged_of_skeleton_eq lamp hcount hskeleton
  refine ⟨hcount, hskeleton, found, happend, hjudged, ?_⟩
  obtain ⟨beyond, descending, he, hbeyond, hdescending⟩ := hjudged.offsets
  have hbeyond : OneFor _ _ [(9, 0), (3, 1)] beyond := hbeyond
  have hdescending : OneFor _ _ [((9, 3), 1)] descending := hdescending
  rw [he]
  cases hbeyond with
  | sound hin => exact absurd (by decide) hin
  | faulty _ hfirst hrest =>
    cases hrest with
    | faulty hout => exact absurd hout (by decide)
    | sound _ hnone =>
      cases hnone
      cases hdescending with
      | sound hin => exact absurd (by decide) hin
      | faulty _ hsecond hnone =>
        cases hnone
        rw [hfirst, hsecond]
        rfl

end Config

end Keymap
