import Keymap.Listing.Animations
import Keymap.Listing.Guides
import Keymap.Proofs.Guide.Results
import Keymap.Proofs.Guide.Triggers
import Keymap.Proofs.Listing.Constants
import Keymap.Proofs.Listing.Declarations

/-!
# Listings and bytes

Guides and frames are written twice: as bytes, and token by token for the
compiler of the firmware. The tokens have the values of the bytes, one by one, as
long as a byte can count the elements of every combo.
-/

namespace Keymap.Listing

open Animation (Frame FrameRecord)
open Text

/-- Evaluate the text of a guide, whose tokens are joined by a comma and a blank. -/
def evaluateGuide (text : String) : Option (List Nat) := (splitText ", " text).mapM evaluate

/-- Evaluate the text of a frame field by field, from its last opening brace on. -/
def evaluateFrame (text : String) : Option (List Nat) := (fields (initializer text)).mapM evaluate

/-- The bytes of a list in base sixteen have their values. -/
theorem forall₂_operand_byte (bytes : List UInt8) :
    List.Forall₂ Operand (bytes.map byte) bytes := by
  rw [List.forall₂_map_left_iff]
  exact List.forall₂_same.mpr fun b _ => operand_byte b

section Guides

/-- A text of tokens has the values of its tokens. -/
theorem evaluateGuide_tokens {items : List String} {bytes : List UInt8} (hne : items ≠ [])
    (h : List.Forall₂ Denotes items bytes) :
    evaluateGuide (tokens items) = some (bytes.map (·.toNat)) := by
  have hcomma : ∀ item ∈ items, ',' ∉ item.toList :=
    forall_mem_of_forall₂ (fun _ _ token => token.undivided) h
  rw [evaluateGuide, tokens, splitText_intercalate rfl hne hcomma]
  exact mapM_eq_some_of_forall₂ (h.imp fun _ _ token => token.value)

/-- The tokens of a guide have the values of its bytes where a byte can count the combos. -/
theorem denotes_guideTokens {element : α → List String} {write : α → List UInt8}
    (helement : ∀ a, List.Forall₂ Denotes (element a) (write a)) {combos : List (List α)}
    (hsize : ∀ combo ∈ combos, combo.length ≤ 255) :
    List.Forall₂ Denotes (guideTokens element combos)
      ((combos.flatMap fun combo => Guide.countByte combo.length :: combo.flatMap write) ++
        [0]) := by
  refine List.rel_append (forall₂_flatMap fun combo hcombo => ?_)
    (.cons (operand_toString 0).denotes .nil)
  have hcount : Denotes (toString combo.length) (Guide.countByte combo.length) := by
    have h := (operand_toString (Guide.countByte combo.length)).denotes
    rwa [Guide.Reader.toNat_countByte (hsize combo hcombo)] at h
  exact .cons hcount (forall₂_flatMap fun a _ => helement a)

theorem guideTokens_ne_nil (element : α → List String) (combos : List (List α)) :
    guideTokens element combos ≠ [] :=
  List.append_ne_nil_of_right_ne_nil _ (List.cons_ne_nil _ _)

/-- The tokens of a condition have the values of its bytes. -/
theorem denotes_conditionTokens (condition : Guide.Condition) :
    List.Forall₂ Denotes (conditionTokens condition) condition.bytes :=
  .cons (operand_typeName _).denotes
    (.cons (denotes_stateText _) (.cons (operand_byte _).denotes .nil))

/-- The tokens of a call have the values of its bytes. -/
theorem denotes_callTokens (call : Guide.Call) :
    List.Forall₂ Denotes (callTokens call) call.bytes :=
  .cons (operand_toString _).denotes
    ((forall₂_operand_byte call.args).imp fun _ _ operand => operand.denotes)

/-- The text of a trigger guide has the values of its bytes. -/
theorem evaluateGuide_triggerTokens {combos : Guide.TriggerCombos}
    (hsize : ∀ combo ∈ combos, combo.length ≤ 255) :
    evaluateGuide (tokens (triggerTokens combos)) =
      some ((Guide.triggerBytes combos).map (·.toNat)) :=
  evaluateGuide_tokens (guideTokens_ne_nil _ _) (denotes_guideTokens denotes_conditionTokens hsize)

/-- The text of a result guide has the values of its bytes. -/
theorem evaluateGuide_resultTokens {combos : Guide.ResultCombos}
    (hsize : ∀ combo ∈ combos, combo.length ≤ 255) :
    evaluateGuide (tokens (resultTokens combos)) =
      some ((Guide.resultBytes combos).map (·.toNat)) :=
  evaluateGuide_tokens (guideTokens_ne_nil _ _) (denotes_guideTokens denotes_callTokens hsize)

end Guides

section Frames

/-- The tokens of a record have the values of its bytes. -/
theorem operand_recordTokens (record : FrameRecord) :
    List.Forall₂ Operand (recordTokens record) record.bytes :=
  .cons (operand_addressName _) (List.rel_append (forall₂_operand_byte record.address)
    (.cons (operand_changeName _) (forall₂_operand_byte record.payload)))

/-- Words that are joined as tokens are the fields of the text. -/
theorem fields_tokens {blanks : String} (hblanks : Blank blanks) {items : List String}
    (hne : items ≠ []) (hwords : ∀ item ∈ items, IsWord item) :
    fields (blanks ++ tokens items) = items := by
  induction items generalizing blanks with
  | nil => exact absurd rfl hne
  | cons item rest ih =>
    rw [List.forall_mem_cons] at hwords
    have hitem : fields (blanks ++ item) = [item] := by
      have h := @fields_eq_singleton blanks item "" hwords.1 hblanks (by decide)
      rwa [String.append_empty] at h
    cases rest with
    | nil => rwa [tokens, String.intercalate_singleton]
    | cons next rest =>
      have hrest := @ih " " (by decide) (List.cons_ne_nil next rest) hwords.2
      have hsplit : blanks ++ tokens (item :: next :: rest) =
          blanks ++ item ++ "," ++ (" " ++ tokens (next :: rest)) := by
        rw [← String.toList_inj]
        simp [tokens]
      rw [hsplit, fields_append, hitem, hrest]
      rfl

/-- The rows of a frame. -/
def frameRows (records : List FrameRecord) : List String :=
  (records.map fun record => row (tokens (recordTokens record) ++ ",")) ++
    [row (addressName .stop)]

/-- The tokens of a frame. -/
def frameTokens (records : List FrameRecord) : List String :=
  records.flatMap recordTokens ++ [addressName .stop]

/-- The fields of the rows of a frame are its tokens. -/
theorem fields_frameRows (records : List FrameRecord) :
    fields ("\n" ++ String.join (frameRows records)) = frameTokens records := by
  induction records with
  | nil => decide +kernel
  | cons record rest ih =>
    have hne : recordTokens record ≠ [] := List.cons_ne_nil _ _
    have hwords : ∀ item ∈ recordTokens record, IsWord item :=
      forall_mem_of_forall₂ (fun _ _ token => token.word) (operand_recordTokens record)
    have hsplit : "\n" ++ String.join (frameRows (record :: rest)) =
        "\n\t" ++ tokens (recordTokens record) ++ "," ++
          ("\n" ++ String.join (frameRows rest)) := by
      rw [frameRows, List.map_cons, List.cons_append, String.join_cons, row, frameRows,
        show "\n\t" = "\n" ++ "\t" from rfl]
      simp only [String.append_assoc]
    rw [hsplit, fields_append, ih, fields_tokens (by decide) hne hwords,
      frameTokens, frameTokens, List.flatMap_cons, List.append_assoc]

/-- The rows of a frame have no braces. -/
theorem unbraced_frameRows (records : List FrameRecord) :
    Unbraced ("\n" ++ String.join (frameRows records)) := by
  have hrow : ∀ {text : String}, Unbraced text → Unbraced (row text) := fun h =>
    (Unbraced.append (by decide) h).append (by decide)
  refine Unbraced.append (by decide) (Unbraced.join ?_)
  rw [frameRows, List.forall_mem_append, List.forall_mem_map, List.forall_mem_singleton]
  refine ⟨fun record _ => hrow ?_, hrow (operand_addressName .stop).unbraced⟩
  have hitems : ∀ item ∈ recordTokens record, Unbraced item :=
    forall_mem_of_forall₂ (fun _ _ token => token.unbraced) (operand_recordTokens record)
  exact (Unbraced.intercalate (by decide) hitems).append (by decide)

/-- The tokens of a frame have the values of its bytes. -/
theorem operand_frameTokens (frame : Frame) :
    List.Forall₂ Operand (frameTokens frame.records) frame.bytes :=
  List.rel_append (forall₂_flatMap fun record _ => operand_recordTokens record)
    (.cons (operand_addressName .stop) .nil)

/-- The fields of the text of a frame are its tokens, whatever the name of its animation is. -/
theorem fields_initializer_frameText (animation : String) (frame : Frame) :
    fields (initializer (frameText animation frame)) = frameTokens frame.records := by
  rw [frameText]
  split
  next hempty =>
    have hbody : Unbraced (" " ++ tokens [addressName .stop] ++ " ") := by decide +kernel
    rw [inlined_eq_append, initializer_append _ hbody, List.isEmpty_iff.mp hempty]
    decide +kernel
  next =>
    have hsplit : ∀ comment head, comment ++ table head (frameRows frame.records) =
        comment ++ head ++ " = " ++ "\x7b" ++ ("\n" ++ String.join (frameRows frame.records)) ++
          "\x7d;" := by
      intro comment head
      rw [table_eq_append]
      simp only [String.append_assoc]
    rw [← frameRows, hsplit, initializer_append _ (unbraced_frameRows _), fields_frameRows]

/-- The text of a frame has the values of its bytes. -/
theorem evaluateFrame_frameText (animation : String) (frame : Frame) :
    evaluateFrame (frameText animation frame) = some (frame.bytes.map (·.toNat)) := by
  rw [evaluateFrame, fields_initializer_frameText]
  exact mapM_eq_some_of_forall₂
    ((operand_frameTokens frame).imp fun _ _ operand => operand.denotes.value)

end Frames

end Keymap.Listing

namespace Keymap.Config

open Listing

/-- Where the report has no errors, the listed tokens of every guide and every frame
have the values of its bytes, and the guide of a trigger those of the conditions that
the trigger itself is compiled to, whichever trigger had the guide first. -/
theorem listings_evaluate_to_bytes {config : Config} (h : config.check.hasErrors = false) :
    (∀ guide ∈ (Assembly.build config).guides, evaluateGuide (tokens (triggerTokens guide.combos)) =
      some ((Guide.triggerBytes guide.combos).map (·.toNat))) ∧
    (∀ row ∈ (Assembly.build config).results, evaluateGuide (tokens (resultTokens row.combos)) =
      some ((Guide.resultBytes row.combos).map (·.toNat))) ∧
    List.Forall₂ (fun trigger row => row.name = trigger.name ∧
        ∃ guide, (Assembly.build config).guides[row.guide]? = some guide ∧
          evaluateGuide (tokens (triggerTokens guide.combos)) = some
            ((Guide.triggerBytes ((Assembly.triggerScope config).combos trigger)).map (·.toNat)))
      config.triggers (Assembly.build config).triggers ∧
    ∀ animation ∈ (Assembly.build config).animations, ∀ frame ∈ animation.frames,
      evaluateFrame (frameText animation.name frame) = some (frame.bytes.map (·.toNat)) := by
  have hw := WellFormed.of_check h
  have hguides : ∀ guide ∈ (Assembly.build config).guides,
      evaluateGuide (tokens (triggerTokens guide.combos)) =
        some ((Guide.triggerBytes guide.combos).map (·.toNat)) := fun guide hguide =>
    evaluateGuide_triggerTokens fun combo hcombo => ((shaped_guide hw hguide).2 combo hcombo).2
  refine ⟨hguides, ?_, ?_, fun animation _ frame _ => evaluateFrame_frameText animation.name frame⟩
  · rw [config.build_results, hw.distinctNames.distinctResults, List.forall_mem_map]
    intro result hresult
    have hsized := Assembly.ResultScope.sized_combos hw (hw.results result hresult)
    exact evaluateGuide_resultTokens fun combo hcombo => (hsized combo hcombo).1.2
  · refine (rows_build hw.distinctNames).imp fun trigger row hrow => ⟨hrow.name, ?_⟩
    obtain ⟨guide, hguide, hstream⟩ := Option.map_eq_some_iff.mp
      (List.getElem?_map.symm.trans hrow.guide)
    refine ⟨guide, hguide, ?_⟩
    rw [hguides guide (List.mem_of_getElem? hguide)]
    exact congrArg (fun bytes => some (bytes.map (·.toNat))) hstream

/-- The animated sample has one guide that two triggers share, and an animation of which the
first frame is a blank one. -/
theorem listings_evaluate_to_bytes_animated :
    animated.check.hasErrors = false ∧
      (∀ guide ∈ (Assembly.build animated).guides,
        evaluateGuide (tokens (triggerTokens guide.combos)) =
          some ((Guide.triggerBytes guide.combos).map (·.toNat))) ∧
      ∀ animation ∈ (Assembly.build animated).animations, ∀ frame ∈ animation.frames,
        evaluateFrame (frameText animation.name frame) = some (frame.bytes.map (·.toNat)) :=
  have h := listings_evaluate_to_bytes check_animated
  ⟨check_animated, h.1, h.2.2.2⟩

end Keymap.Config
