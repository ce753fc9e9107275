import Keymap.Proofs.Acceptance.Names

/-!
# Which findings are of which check

Every pass makes findings of a few checks only. So the findings of one check are
found in the report by looking at the passes that make them.
-/

namespace Keymap

/-- All findings are of checks in a list. -/
def OfChecks (checks : List Check) (findings : List Finding) : Prop :=
  ∀ finding ∈ findings, finding.check ∈ checks

/-- An error is of the check that it is made for. -/
@[simp]
theorem Finding.check_error (check : Check) (symbol : String) (fault : Fault) :
    (Finding.error check symbol fault).check = check := rfl

@[simp]
theorem Finding.check_warning (check : Check) (symbol : String) (fault : Fault) :
    (Finding.warning check symbol fault).check = check := rfl

namespace OfChecks

variable {checks : List Check}

@[simp]
theorem nil : OfChecks checks [] := fun _ h => absurd h List.not_mem_nil

@[simp]
theorem cons_iff {finding : Finding} {rest : List Finding} :
    OfChecks checks (finding :: rest) ↔ finding.check ∈ checks ∧ OfChecks checks rest :=
  List.forall_mem_cons

@[simp]
theorem append_iff {first second : List Finding} :
    OfChecks checks (first ++ second) ↔ OfChecks checks first ∧ OfChecks checks second :=
  List.forall_mem_append

/-- Findings on values are of some checks if those on each value are. -/
theorem flatMap {values : List α} {findings : α → List Finding}
    (h : ∀ a ∈ values, OfChecks checks (findings a)) :
    OfChecks checks (values.flatMap findings) := by
  intro f hf
  obtain ⟨a, ha, hf⟩ := List.mem_flatMap.mp hf
  exact h a ha f hf

theorem map {values : List α} {finding : α → Finding} (h : ∀ a, (finding a).check ∈ checks) :
    OfChecks checks (values.map finding) :=
  List.forall_mem_map.mpr fun a _ => h a

/-- Findings that only some values have are of some checks if each finding is. -/
theorem filterMap {values : List α} {finding? : α → Option Finding}
    (h : ∀ a f, finding? a = some f → f.check ∈ checks) :
    OfChecks checks (values.filterMap finding?) := by
  intro f hf
  obtain ⟨a, _, hf⟩ := List.mem_filterMap.mp hf
  exact h a f hf

/-- Whichever of two lists is taken, its findings are of the checks of both. -/
theorem ite {p : Prop} [Decidable p] {first second : List Finding} (h : OfChecks checks first)
    (h' : OfChecks checks second) : OfChecks checks (if p then first else second) := by
  split
  · exact h
  · exact h'

/-- Findings of some checks are of more checks too. -/
theorem mono {more : List Check} {findings : List Finding} (h : OfChecks checks findings)
    (hsub : checks ⊆ more) : OfChecks more findings :=
  fun f hf => hsub (h f hf)

/-- Findings of other checks are not among those of a check. -/
theorem filter_eq_nil {findings : List Finding} (h : OfChecks checks findings) {check : Check}
    (hcheck : check ∉ checks) : findings.filter (fun f => decide (f.check = check)) = [] := by
  rw [List.filter_eq_nil_iff]
  intro f hf he
  obtain rfl : f.check = check := of_decide_eq_true he
  exact hcheck (h f hf)

/-- Findings of one check are all of a check or none of them is. -/
theorem filter_singleton {own : Check} {findings : List Finding} (h : OfChecks [own] findings)
    (check : Check) :
    findings.filter (fun f => decide (f.check = check)) = if own = check then findings else [] := by
  split
  next he =>
    rw [List.filter_eq_self]
    intro f hf
    exact decide_eq_true ((List.mem_singleton.mp (h f hf)).trans he)
  next hne =>
    refine h.filter_eq_nil fun hmem => ?_
    exact hne (List.mem_singleton.mp hmem).symm

end OfChecks

namespace Assembly

open Config (ResultElement TriggerElement)

/-- The error of a computation is a finding of one of some checks. -/
def FailsWith (checks : List Check) (result : Except Finding α) : Prop :=
  ∀ finding, result = .error finding → finding.check ∈ checks

section Failures

variable {checks : List Check}

@[simp]
theorem failsWith_ok {a : α} : FailsWith checks (.ok a) := fun _ h => nomatch h

/-- A computation that fails does so with a finding of some check. -/
@[simp]
theorem failsWith_error {finding : Finding} :
    FailsWith checks (.error finding : Except Finding α) ↔ finding.check ∈ checks :=
  ⟨fun h => h finding rfl, fun h _ he => Except.error.inj he ▸ h⟩

/-- The finding that is taken from a computation is of its checks. -/
theorem FailsWith.errorOf {result : Except Finding α} (h : FailsWith checks result)
    {finding : Finding} (hf : errorOf result = some finding) : finding.check ∈ checks := by
  cases result with
  | ok => cases hf
  | error f =>
    obtain rfl : f = finding := Option.some.inj hf
    exact h f rfl

end Failures

/-- The shape of a sequence is one check; the others are those of its elements. -/
theorem ofChecks_sequenceFindings {checks : List Check} {symbol : String}
    {inner : List α → List Finding} {steps : List (List α)}
    (h : ∀ combo ∈ steps, OfChecks checks (inner combo)) :
    OfChecks (.comboShape :: checks) (sequenceFindings symbol inner steps) := by
  have hshape : ∀ fault, OfChecks (.comboShape :: checks)
      [Finding.error .comboShape symbol fault] := by simp
  have hsize : ∀ step count, OfChecks (.comboShape :: checks) (comboFindings symbol step count) :=
    fun _ _ => OfChecks.append_iff.mpr ⟨.ite (hshape _) .nil, .ite (hshape _) .nil⟩
  rw [sequenceFindings, OfChecks.append_iff]
  refine ⟨.ite (hshape _) .nil, .flatMap ?_⟩
  rintro ⟨combo, step⟩ hentry
  have hcombo := h combo (List.fst_mem_of_mem_zipIdx hentry)
  exact OfChecks.append_iff.mpr ⟨hsize _ _, hcombo.mono (List.subset_cons_self ..)⟩

/-- Names are only found fault with as duplicates. -/
theorem ofChecks_nameFindings (config : Config) : OfChecks [.duplicates] (nameFindings config) := by
  have hrepeat : ∀ kind names, OfChecks [.duplicates] (repeatFindings kind names) := fun _ _ =>
    OfChecks.map fun _ => List.mem_cons_self ..
  simp only [nameFindings, OfChecks.append_iff, hrepeat, and_true]

/-- Settings are found fault with as duplicates or for what they refer to. -/
theorem ofChecks_settingsFindings {animations triggers taken : List String}
    {settings : List Config.AnimationSettings} :
    OfChecks [.duplicates, .animationReferences]
      (settingsFindings animations triggers taken settings) := by
  induction settings generalizing taken with
  | nil => exact .nil
  | cons first rest ih =>
    rw [settingsFindings]
    split
    · exact OfChecks.cons_iff.mpr ⟨List.mem_cons_self .., ih⟩
    · refine OfChecks.append_iff.mpr ⟨?_, ih⟩
      rw [settingsReferences, OfChecks.append_iff]
      refine ⟨OfChecks.ite .nil (by simp), ?_⟩
      split
      · exact .nil
      · exact OfChecks.ite .nil (by simp)

namespace ResultScope

/-- The checks of the elements of results. -/
def checks : List Check :=
  [.routing, .capabilityArguments, .layerBindings, .animationReferences]

variable {scope : ResultScope} {symbol : String}

/-- A call over a route fails with one of the checks on results. -/
theorem failsWith_routed {name : String} {value : Int} :
    FailsWith checks (scope.routed symbol name value) := by
  unfold routed
  repeat' split
  all_goals simp [checks]

/-- A call by the name of a capability fails with one of the checks on results. -/
theorem failsWith_called {name : String} {values : List Int64} :
    FailsWith checks (scope.called symbol name values) := by
  unfold called
  dsimp only
  repeat' split
  all_goals simp [checks]

/-- The spacer of a sequence fails with one of the checks on results. -/
theorem failsWith_spacer : FailsWith checks (scope.spacer symbol) := by
  unfold spacer
  split
  all_goals simp [checks]

/-- An element of a result fails with one of the checks on results, whatever it calls. -/
theorem failsWith_call (element : ResultElement) :
    FailsWith checks (scope.call symbol element) := by
  unfold call
  split
  · exact failsWith_called
  · exact failsWith_routed
  · exact failsWith_routed
  · exact failsWith_routed
  · split
    · exact failsWith_routed
    · simp [checks]
  · split
    · exact failsWith_routed
    · simp [checks]
  · exact failsWith_spacer

/-- The findings on a result are on the shape of its steps or on its elements. -/
theorem ofChecks_findings (result : Config.Result) :
    OfChecks (.comboShape :: checks) (scope.findings result) := by
  refine ofChecks_sequenceFindings fun combo _ => ?_
  rw [stepFindings, OfChecks.append_iff]
  refine ⟨OfChecks.filterMap fun element f hf => (failsWith_call element).errorOf hf,
    OfChecks.ite (fun f hf => ?_) .nil⟩
  exact failsWith_spacer.errorOf (Option.mem_toList.mp hf)

end ResultScope

namespace TriggerScope

/-- The checks of the elements of triggers. -/
def checks : List Check :=
  [.triggerEncoding, .interconnect, .layerBindings, .animationReferences]

variable {scope : TriggerScope} {symbol : String}

/-- An element of a trigger fails with one of the checks on triggers. -/
theorem failsWith_condition (element : TriggerElement) :
    FailsWith checks (scope.condition symbol element) := by
  have hencoded : ∀ state type, FailsWith checks (encoded symbol state type) := by
    intro state type
    unfold encoded
    split
    all_goals simp [checks]
  unfold condition
  split
  · split
    · exact hencoded _ _
    · simp [checks]
  · exact hencoded _ _
  · split
    · exact hencoded _ _
    · simp [checks]
  · split
    · exact hencoded _ _
    · simp [checks]
  · exact hencoded _ _
  · exact hencoded _ _

/-- The findings on a trigger are on the shape of its steps or on its elements. -/
theorem ofChecks_findings (trigger : Config.Trigger) :
    OfChecks (.comboShape :: checks) (scope.findings trigger) :=
  ofChecks_sequenceFindings fun _ _ =>
    OfChecks.filterMap fun element _ hf => (failsWith_condition element).errorOf hf

end TriggerScope

/-- Layers are only found fault with for the triggers that they bind. -/
theorem ofChecks_layerFindings (triggers : List Config.Trigger) (layer : Config.Layer) :
    OfChecks [.layerBindings] (layerFindings triggers layer) :=
  OfChecks.map fun _ => List.mem_cons_self ..

end Assembly

/-- Frames are found fault with for their numbers, their format or a repetition. -/
theorem Animation.ofChecks_findings {extent : Extent} {name : String} {seen : List UInt32}
    {frames : List Config.Frame} :
    OfChecks [.indexContiguity, .frameFormat, .duplicates]
      (findingsFrom extent name seen frames) := by
  induction frames generalizing seen with
  | nil => exact .nil
  | cons frame rest ih =>
    unfold findingsFrom
    dsimp only
    split
    · exact OfChecks.cons_iff.mpr ⟨by simp, ih⟩
    · split
      · exact OfChecks.cons_iff.mpr ⟨by simp, ih⟩
      · split
        · exact OfChecks.cons_iff.mpr ⟨by simp, ih⟩
        · refine OfChecks.append_iff.mpr ⟨OfChecks.filterMap fun record f hf => ?_, ih⟩
          split at hf
          · cases hf
          · obtain rfl := Option.some.inj hf
            simp

/-- The checks that are made while the tables are built. -/
def Assembly.recordedChecks : List Check :=
  [.duplicates, .animationReferences] ++ .comboShape :: ResultScope.checks ++
    TriggerScope.checks ++ [.indexContiguity, .frameFormat]

/-- What is found while the tables are made is of the checks of this pass alone. -/
theorem Assembly.ofChecks_recorded (config : Config) :
    OfChecks recordedChecks (build config).recorded := by
  rw [config.build_recorded]
  simp only [OfChecks.append_iff]
  refine ⟨⟨⟨⟨⟨?_, ?_⟩, ?_⟩, ?_⟩, ?_⟩, ?_⟩
  · exact (ofChecks_nameFindings config).mono (by decide)
  · exact ofChecks_settingsFindings.mono (by decide)
  · exact OfChecks.flatMap fun result _ => (ResultScope.ofChecks_findings result).mono (by decide)
  · exact OfChecks.flatMap fun trigger _ =>
      (TriggerScope.ofChecks_findings trigger).mono (by decide)
  · exact OfChecks.flatMap fun layer _ => (ofChecks_layerFindings _ layer).mono (by decide)
  · exact OfChecks.flatMap fun _ _ => Animation.ofChecks_findings.mono (by decide)

namespace Validation

/-- The greatest scan code has a check of its own. -/
theorem ofChecks_maxScanCode (config : Config) : OfChecks [.maxScanCode] (maxScanCode config) :=
  .ite (by simp) .nil

/-- The references of triggers to results have a check of their own. -/
theorem ofChecks_resultReferences (triggers : List TriggerRow) :
    OfChecks [.resultResolves] (resultReferences triggers) :=
  .map fun _ => List.mem_cons_self ..

/-- What is filed beyond the greatest scan code has a check of its own. -/
theorem ofChecks_scanCodeRange (assembly : Assembly) :
    OfChecks [.scanCodeRange] (scanCodeRange assembly) :=
  .map fun _ => List.mem_cons_self ..

/-- The arguments of compiled calls have a check of their own. -/
theorem ofChecks_capabilityArguments (assembly : Assembly) :
    OfChecks [.capabilityArguments] (capabilityArguments assembly) := by
  refine .ite (by simp) (.flatMap fun result _ => .filterMap fun call f hf => ?_)
  unfold callFinding at hf
  split at hf
  · obtain rfl := Option.some.inj hf
    simp
  · split at hf
    · cases hf
    · obtain rfl := Option.some.inj hf
      simp

/-- The size of the state word has a check of its own. -/
theorem ofChecks_stateWordSize (assembly : Assembly) :
    OfChecks [.stateWordSize] (stateWordSize assembly) := by
  unfold stateWordSize
  split
  · exact .nil
  · exact OfChecks.append_iff.mpr ⟨.ite (by simp) .nil, .ite (by simp) .nil⟩

/-- The offsets of boards have a check of their own. -/
theorem ofChecks_interconnect (assembly : Assembly) :
    OfChecks [.interconnect] (interconnect assembly) := by
  have hbeyond : ∀ max board offsets,
      OfChecks [.interconnect] (offsetsBeyond max board offsets) := by
    intro max board offsets
    induction offsets generalizing board with
    | nil => exact .nil
    | cons offset rest ih =>
      exact OfChecks.append_iff.mpr ⟨.ite (by simp) .nil, ih (board + 1)⟩
  have hdescending : ∀ board offsets,
      OfChecks [.interconnect] (offsetsDescending board offsets) := by
    intro board offsets
    fun_induction offsetsDescending board offsets with
    | case1 board previous offset rest ih =>
      exact OfChecks.append_iff.mpr ⟨.ite (by simp) .nil, ih⟩
    | case2 => exact .nil
  exact OfChecks.append_iff.mpr ⟨hbeyond _ _ _, hdescending _ _⟩

/-- The positions of keys have a check of their own. -/
theorem ofChecks_keyPositions (config : Config) :
    OfChecks [.keyPositions] (keyPositions config) :=
  .map fun _ => List.mem_cons_self ..

/-- The numbers of pixels are found fault with for their range or as duplicates. -/
theorem ofChecks_pixelIndices (config : Config) :
    OfChecks [.indexContiguity, .duplicates] (pixelIndices config) := by
  have hnumbers : ∀ seen pixels,
      OfChecks [.indexContiguity, .duplicates] (pixelNumbers seen pixels) := by
    intro seen pixels
    induction pixels generalizing seen with
    | nil => exact .nil
    | cons pixel rest ih =>
      unfold pixelNumbers
      split
      · exact OfChecks.cons_iff.mpr ⟨by simp, ih seen⟩
      · split
        · exact OfChecks.cons_iff.mpr ⟨by simp, ih seen⟩
        · exact ih _
  unfold pixelIndices
  split
  · exact hnumbers _ _
  · exact .nil

/-- The channels of pixels have a check of their own. -/
theorem ofChecks_channelFindings {map : PixelMap} {owners : List ChannelUse}
    {uses : List (Nat × Nat)} : OfChecks [.pixelChannels] (channelFindings map owners uses) := by
  induction uses generalizing owners with
  | nil => exact .nil
  | cons use rest ih =>
    unfold channelFindings
    split
    · exact OfChecks.cons_iff.mpr ⟨by simp, ih⟩
    · split
      · exact ih
      · exact OfChecks.append_iff.mpr ⟨.ite .nil (by simp), ih⟩

/-- The declared bases of buffers have a check of their own. -/
theorem ofChecks_bufferLayout (declared : Config.PixelSection) (map : PixelMap) :
    OfChecks [.bufferLayout] (bufferLayout declared map) := by
  refine .flatMap fun entry _ => ?_
  dsimp only
  split
  · exact .nil
  · exact .ite .nil (by simp)

/-- The scan codes of pixels are only found fault with as those of pixels. -/
theorem ofChecks_pixelScanCodes {max : Nat} {owners : List (Nat × Nat)}
    {pixels : List Config.Pixel} :
    OfChecks [.scanCodePixels] (pixelScanCodes max owners pixels) := by
  induction pixels generalizing owners with
  | nil => exact .nil
  | cons pixel rest ih =>
    unfold pixelScanCodes
    split
    · exact ih
    · dsimp only
      split
      · exact OfChecks.append_iff.mpr
          ⟨.ite (by simp) .nil, OfChecks.cons_iff.mpr ⟨by simp, ih⟩⟩
      · exact OfChecks.append_iff.mpr ⟨.ite (by simp) .nil, ih⟩

/-- The pixels on scan codes are only found fault with as such. -/
theorem ofChecks_scannedPixels (map : PixelMap) :
    OfChecks [.scanCodePixels] (scannedPixels map) :=
  .flatMap fun _ _ => .ite (by simp) .nil

/-- The display has a check of its own. -/
theorem ofChecks_displayMap (map : PixelMap) : OfChecks [.displayMap] (displayMap map) :=
  .flatMap fun _ _ => OfChecks.append_iff.mpr
    ⟨.ite .nil (by simp), .flatMap fun _ _ => .ite (by simp) .nil⟩

/-- Compiled frames are found fault with for their end or their payloads. -/
theorem ofChecks_frames (assembly : Assembly) :
    OfChecks [.frameTermination, .frameFormat] (frames assembly) :=
  .flatMap fun _ _ => .flatMap fun _ _ => OfChecks.append_iff.mpr
    ⟨.ite .nil (by simp), .flatMap fun _ _ => .ite .nil (by simp)⟩

/-- The tables of pixels are found fault with in four checks. -/
theorem ofChecks_pixels (assembly : Assembly) :
    OfChecks [.pixelChannels, .bufferLayout, .scanCodePixels, .displayMap] (pixels assembly) := by
  unfold pixels
  split
  next declared map _ _ =>
    simp only [OfChecks.append_iff]
    refine ⟨⟨⟨⟨?_, ?_⟩, ?_⟩, ?_⟩, ?_⟩
    · exact ofChecks_channelFindings.mono (by decide)
    · exact (ofChecks_bufferLayout declared map).mono (by decide)
    · exact ofChecks_pixelScanCodes.mono (by decide)
    · exact (ofChecks_scannedPixels map).mono (by decide)
    · exact (ofChecks_displayMap map).mono (by decide)
  next => exact .nil

/-- For every check, the pass that makes its findings, and no other one does. -/
theorem filter_findings (assembly : Assembly) (check : Check) :
    (findings assembly).filter (fun f => decide (f.check = check)) =
      match check with
      | .maxScanCode => maxScanCode assembly.config
      | .resultResolves => resultReferences assembly.triggers
      | .scanCodeRange => scanCodeRange assembly
      | .capabilityArguments => capabilityArguments assembly
      | .stateWordSize => stateWordSize assembly
      | .interconnect => interconnect assembly
      | .keyPositions => keyPositions assembly.config
      | .indexContiguity | .duplicates =>
        (pixelIndices assembly.config).filter fun f => decide (f.check = check)
      | .pixelChannels | .bufferLayout | .scanCodePixels | .displayMap =>
        (pixels assembly).filter fun f => decide (f.check = check)
      | .frameTermination | .frameFormat =>
        (frames assembly).filter fun f => decide (f.check = check)
      | .animationReferences | .routing | .layerBindings | .triggerEncoding | .comboShape =>
        [] := by
  have hindices : check ∉ [.indexContiguity, .duplicates] → _ :=
    (ofChecks_pixelIndices assembly.config).filter_eq_nil
  have hpixels : check ∉ [.pixelChannels, .bufferLayout, .scanCodePixels, .displayMap] → _ :=
    (ofChecks_pixels assembly).filter_eq_nil
  have hframes : check ∉ [.frameTermination, .frameFormat] → _ :=
    (ofChecks_frames assembly).filter_eq_nil
  simp only [findings, List.filter_append,
    (ofChecks_maxScanCode assembly.config).filter_singleton,
    (ofChecks_resultReferences assembly.triggers).filter_singleton,
    (ofChecks_scanCodeRange assembly).filter_singleton,
    (ofChecks_capabilityArguments assembly).filter_singleton,
    (ofChecks_stateWordSize assembly).filter_singleton,
    (ofChecks_interconnect assembly).filter_singleton,
    (ofChecks_keyPositions assembly.config).filter_singleton]
  cases check <;> simp [hindices, hpixels, hframes]

/-- With a pixel section, the findings of a pixel check are those of its passes. -/
theorem filter_pixels {assembly : Assembly} {declared : Config.PixelSection} {map : PixelMap}
    (hdeclared : assembly.config.pixels = some declared) (hmap : assembly.pixels = some map)
    (check : Check) :
    (pixels assembly).filter (fun f => decide (f.check = check)) =
      match check with
      | .pixelChannels => pixelChannels map
      | .bufferLayout => bufferLayout declared map
      | .scanCodePixels =>
        pixelScanCodes assembly.config.maxScanCode.toNat [] declared.pixels ++ scannedPixels map
      | .displayMap => displayMap map
      | _ => [] := by
  have hchannels : OfChecks [.pixelChannels] (pixelChannels map) := ofChecks_channelFindings
  simp only [pixels, hdeclared, hmap, List.filter_append, hchannels.filter_singleton,
    (ofChecks_bufferLayout declared map).filter_singleton,
    ofChecks_pixelScanCodes.filter_singleton, (ofChecks_scannedPixels map).filter_singleton,
    (ofChecks_displayMap map).filter_singleton]
  cases check <;> simp

end Validation

/-- The findings of a check that is not made while the tables are built are those of the
finished tables. -/
theorem Config.byCheck_eq_filter {config : Config} {check : Check}
    (h : check ∉ Assembly.recordedChecks) :
    config.check.byCheck check =
      (Validation.findings (Assembly.build config)).filter fun f => decide (f.check = check) := by
  rw [Report.byCheck, Config.check, Assembly.validate, List.filter_append,
    (Assembly.ofChecks_recorded config).filter_eq_nil h, List.nil_append]

/-- The findings on the channels of pixels are those of one pass, and there are none
without a pixel section. -/
theorem Config.byCheck_pixelChannels (config : Config) :
    config.check.byCheck .pixelChannels =
      match config.pixels with
      | some declared => Validation.pixelChannels (PixelMap.build declared)
      | none => [] := by
  rw [byCheck_eq_filter (by decide), Validation.filter_findings]
  cases hpixels : config.pixels with
  | none =>
    rw [Validation.pixels, Assembly.config_build, hpixels]
    rfl
  | some declared =>
    have hmap : (Assembly.build config).pixels = some (PixelMap.build declared) := by
      rw [Assembly.pixels_build, hpixels, Option.map_some]
    exact Validation.filter_pixels hpixels hmap .pixelChannels

end Keymap
