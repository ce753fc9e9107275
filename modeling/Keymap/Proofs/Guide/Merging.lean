import Keymap.Proofs.Guide.Triggers
import Keymap.Proofs.InStep

/-!
# What triggers with one guide wait for

A type, a state and a uid byte say for which uid an element waits if its kind is
known: the kind has a first type, the type says the bank from there on, and the
byte the place in the bank. The byte of a state says which state it is, with one
exception: the states of animations are numbers and no flags, so that the end or
repetition of an animation has the byte of the repetition alone. Triggers with
one guide wait for the same things up to this exception.
-/

namespace Keymap

open Config (Schedule LayerMode Trigger TriggerElement)
open Guide (Condition State)

namespace Guide

theorem scheduleByte_injective {state other : Schedule}
    (h : scheduleByte state = scheduleByte other) : state = other := by
  revert h
  cases state <;> cases other <;> decide

theorem modeFlag_injective {mode other : Option LayerMode} (h : modeFlag mode = modeFlag other) :
    mode = other := by
  revert h
  rcases mode with _ | _ | _ | _ <;> rcases other with _ | _ | _ | _ <;> decide

namespace State

/-- The states that include the repetition of an animation. -/
def repetitions : List State := [.animation .repeat, .animation .doneOrRepeat]

/-- Two states are equal, or both include the repetition of an animation. -/
def Alike (state other : State) : Prop :=
  state = other ∨ state ∈ repetitions ∧ other ∈ repetitions

instance (state other : State) : Decidable (state.Alike other) :=
  inferInstanceAs (Decidable (_ ∨ _))

/-- What a state is made of, counted from zero. -/
def form : State → Nat
  | schedule _ => 0
  | layer _ _ => 1
  | animation _ => 2
  | raw _ => 3

/-- The lower four bits of the byte of a layer are its schedule, the upper ones its mode. -/
theorem layer_byte_and (state : Schedule) (mode : Option LayerMode) :
    (State.layer state mode).byte &&& 0x0F = scheduleByte state ∧
      (State.layer state mode).byte &&& 0xF0 = modeFlag mode := by
  rcases mode with _ | _ | _ | _ <;> cases state <;> exact ⟨rfl, rfl⟩

/-- Alike states have one byte. -/
theorem Alike.byte_eq {state other : State} (h : state.Alike other) : state.byte = other.byte := by
  have hrepeat : ∀ state ∈ repetitions, state.byte = repeatByte := by decide
  rcases h with rfl | ⟨hs, ho⟩
  · rfl
  · exact (hrepeat state hs).trans (hrepeat other ho).symm

/-- Among the states of one form, exactly the alike ones have one byte. -/
theorem byte_eq_iff_alike {state other : State} (h : state.form = other.form) :
    state.byte = other.byte ↔ state.Alike other := by
  refine ⟨fun hbyte => ?_, Alike.byte_eq⟩
  cases state with
  | schedule s =>
    cases other with
    | schedule s' => exact Or.inl (congrArg schedule (scheduleByte_injective hbyte))
    | _ => cases h
  | layer s mode =>
    cases other with
    | layer s' mode' =>
      obtain ⟨hlow, hhigh⟩ := layer_byte_and s mode
      obtain ⟨hlow', hhigh'⟩ := layer_byte_and s' mode'
      rw [hbyte] at hlow hhigh
      obtain rfl := scheduleByte_injective (hlow.symm.trans hlow')
      obtain rfl := modeFlag_injective (hhigh.symm.trans hhigh')
      exact Or.inl rfl
    | _ => cases h
  | animation event =>
    cases other with
    | animation event' =>
      revert hbyte
      cases event <;> cases event' <;> decide
    | _ => cases h
  | raw byte =>
    cases other with
    | raw byte' => exact Or.inl (congrArg raw hbyte)
    | _ => cases h

end State

/-- In a class of types, a type and a uid byte belong to one uid. -/
theorem Condition.InBank.uid_eq {first banks banks' uid uid' : Nat} {condition other : Condition}
    (h : condition.InBank first banks uid) (h' : other.InBank first banks' uid')
    (htype : condition.type = other.type) (huid : condition.uid = other.uid) : uid = uid' := by
  have hbank : first + uid / 256 = first + uid' / 256 := by
    rw [← h.type, ← h'.type, htype]
  have hplace : uid % 256 = uid' % 256 := by
    rw [← h.uid, ← h'.uid, huid]
  omega

/-- One uid has one type and one uid byte in a class of types. -/
theorem Condition.InBank.type_uid_eq {first banks banks' uid : Nat} {condition other : Condition}
    (h : condition.InBank first banks uid) (h' : other.InBank first banks' uid) :
    condition.type = other.type ∧ condition.uid = other.uid :=
  ⟨UInt8.toNat_inj.mp (h.type.trans h'.type.symm), UInt8.toNat_inj.mp (h.uid.trans h'.uid.symm)⟩

end Guide

namespace Config

/-- The kinds of elements of triggers; those with a type code of their own differ by the code. -/
inductive TriggerKind where
  | switch
  | indicator
  | layer
  | animation
  | analog
  | generic (code : UInt8)
  deriving DecidableEq

namespace TriggerKind

/-- The first type of a kind. -/
def firstType : TriggerKind → Nat
  | switch => 0x00
  | indicator => 0x04
  | analog => 0x05
  | layer => 0x09
  | animation => 0x0D
  | generic code => code.toNat

/-- The form of the states for which the elements of a kind wait. -/
def stateForm : TriggerKind → Nat
  | switch | indicator => 0
  | layer => 1
  | animation => 2
  | analog | generic _ => 3

end TriggerKind

namespace TriggerElement

/-- The kind of an element. -/
def kind : TriggerElement → TriggerKind
  | switch _ _ _ => .switch
  | indicator _ _ => .indicator
  | layer _ _ _ => .layer
  | animation _ _ => .animation
  | analog _ _ => .analog
  | generic code _ _ => .generic code

/-- The state for which an element waits. -/
def state : TriggerElement → State
  | switch _ _ state => .schedule state
  | indicator _ state => .schedule state
  | layer _ mode state => .layer state mode
  | animation _ event => .animation event
  | analog _ threshold => .raw threshold
  | generic _ _ param => .raw param

/-- The uid for which an element waits, over all banks of its kind: a key counts
from the offset of its board, and an animation has its index. -/
def effectiveUid (config : Config) : TriggerElement → Option Nat
  | switch scanCode board _ =>
    (boardOffset config.offsets board.toNat).map fun offset => scanCode.toNat + offset
  | indicator code _ => some code.toNat
  | layer n _ _ => some n.toNat
  | animation name _ => (config.animations.map (·.name)).idxOf? name
  | analog code _ => some code.toNat
  | generic _ uid _ => some uid.toNat

/-- Two elements wait for one uid and for states that are alike. -/
structure WaitsLike (config : Config) (element other : TriggerElement) : Prop where
  uid : ∃ uid, element.effectiveUid config = some uid ∧ other.effectiveUid config = some uid
  state : element.state.Alike other.state

/-- The state of an element has the form that its kind asks for. -/
theorem form_state (element : TriggerElement) : element.state.form = element.kind.stateForm := by
  cases element <;> rfl

/-- The condition of an element has its effective uid, counted from the first
type of its kind, and its state. -/
theorem EncodedAs.inBank {config : Config} (hd : config.DistinctNames) {element : TriggerElement}
    {condition : Condition} (h : element.EncodedAs config condition) :
    ∃ uid banks, element.effectiveUid config = some uid ∧
      condition.InBank element.kind.firstType banks uid ∧ condition.state = element.state := by
  cases element with
  | switch scanCode board state =>
    obtain ⟨offset, hat, hbank, hstate⟩ := h
    refine ⟨_, _, ?_, hbank, hstate⟩
    rw [effectiveUid, boardOffset_eq_some_iff.mpr hat, Option.map_some]
  | indicator code state => exact ⟨_, _, rfl, h⟩
  | layer n mode state => exact ⟨_, _, rfl, h.2⟩
  | animation name event =>
    obtain ⟨index, hindex, hbank⟩ := h
    exact ⟨index, _, (idxOf?_eq_some_iff_getElem? hd.animations).mpr hindex, hbank⟩
  | analog code threshold => exact ⟨_, _, rfl, h⟩
  | generic code uid param => exact ⟨_, _, rfl, h⟩

/-- Elements of one kind have equal bytes exactly when they wait for one uid and
for alike states. -/
theorem EncodedAs.triple_eq_iff {config : Config} (hd : config.DistinctNames)
    {element other : TriggerElement} {condition condition' : Condition}
    (h : element.EncodedAs config condition) (h' : other.EncodedAs config condition')
    (hkind : element.kind = other.kind) :
    condition.triple = condition'.triple ↔ element.WaitsLike config other := by
  obtain ⟨uid, _, huid, hbank, hstate⟩ := h.inBank hd
  obtain ⟨uid', _, huid', hbank', hstate'⟩ := h'.inBank hd
  rw [hkind] at hbank
  have hform : element.state.form = other.state.form := by
    rw [form_state, form_state, hkind]
  rw [Condition.triple, Condition.triple, Prod.mk.injEq, Prod.mk.injEq, hstate, hstate',
    State.byte_eq_iff_alike hform]
  constructor
  · rintro ⟨htype, halike, hplace⟩
    obtain rfl := hbank.uid_eq hbank' htype hplace
    exact ⟨⟨uid, huid, huid'⟩, halike⟩
  · rintro ⟨⟨common, hc, hc'⟩, halike⟩
    obtain rfl := Option.some.inj (huid.symm.trans hc)
    obtain rfl := Option.some.inj (huid'.symm.trans hc')
    obtain ⟨htype, hplace⟩ := hbank.type_uid_eq hbank'
    exact ⟨htype, halike, hplace⟩

end TriggerElement

end Config

/-- Combos have equal triples exactly when they are of one shape and their
conditions have equal triples one by one. -/
theorem Guide.triples_eq_iff_forall₂ {combos others : Guide.TriggerCombos} :
    Guide.triples combos = Guide.triples others ↔
      List.Forall₂ (List.Forall₂ fun condition condition' => condition.triple = condition'.triple)
        combos others := by
  rw [Guide.triples, Guide.triples, map_eq_map_iff_forall₂]
  simp only [map_eq_map_iff_forall₂]

namespace Config

/-- Where the report has no errors, the sequences of triggers with one guide are of
one shape, and elements of one kind at one place of them wait for one uid and for
states that are alike. Triggers whose elements do so place by place have one guide. -/
theorem waitsLike_of_guide_eq {config : Config} (h : config.check.hasErrors = false)
    {i j : Nat} {trigger other : Trigger} {row otherRow : TriggerRow}
    (ht : config.triggers[i]? = some trigger) (ho : config.triggers[j]? = some other)
    (hr : (Assembly.build config).triggers[i]? = some row)
    (hor : (Assembly.build config).triggers[j]? = some otherRow) :
    (row.guide = otherRow.guide →
      List.Forall₂ (List.Forall₂ fun element element' =>
        element.kind = element'.kind → element.WaitsLike config element')
        trigger.sequence other.sequence) ∧
    (List.Forall₂ (List.Forall₂ fun element element' =>
        element.kind = element'.kind ∧ element.WaitsLike config element')
        trigger.sequence other.sequence → row.guide = otherRow.guide) := by
  have hw := WellFormed.of_check h
  have hd := hw.distinctNames
  have hcombos := forall₂_combos hd (hw.triggers trigger (List.mem_of_getElem? ht))
  have hcombos' := forall₂_combos hd (hw.triggers other (List.mem_of_getElem? ho))
  rw [guide_eq_iff_triples_eq hw ht ho hr hor, Guide.triples_eq_iff_forall₂]
  constructor
  · refine forall₂_of_forall₂ (fun _ _ _ _ => forall₂_of_forall₂ ?_)
      (forall₂_flip hcombos) (forall₂_flip hcombos')
    intro condition condition' element element' he he' htriple hkind
    exact (TriggerElement.EncodedAs.triple_eq_iff hd he he' hkind).mp htriple
  · refine forall₂_of_forall₂ (fun _ _ _ _ => forall₂_of_forall₂ ?_) hcombos hcombos'
    rintro element element' condition condition' he he' ⟨hkind, hlike⟩
    exact (he.triple_eq_iff hd he' hkind).mpr hlike

/-- The triggers of the animated sample have one guide, and they wait for the same animation
in states that are alike but not equal. -/
theorem waitsLike_of_guide_eq_animated :
    animated.check.hasErrors = false ∧
      (Assembly.build animated).triggers[0]? = some ⟨"again", 0, some 0, "AB"⟩ ∧
      (Assembly.build animated).triggers[1]? = some ⟨"either", 0, some 1, "Fn"⟩ ∧
      (TriggerElement.animation "fade" .repeat).WaitsLike animated
        (.animation "fade" .doneOrRepeat) := by
  have hrow : (Assembly.build animated).triggers[0]? = some ⟨"again", 0, some 0, "AB"⟩ := by rfl
  have hrow' : (Assembly.build animated).triggers[1]? = some ⟨"either", 0, some 1, "Fn"⟩ := by rfl
  have h := (waitsLike_of_guide_eq check_animated (i := 0) (j := 1) rfl rfl hrow hrow').1 rfl
  have hstep := (List.forall₂_cons.mp h).1
  exact ⟨check_animated, hrow, hrow', (List.forall₂_cons.mp hstep).1 rfl⟩

/-- Triggers may have one guide though one waits for the repetition of an animation
and the other for its end too. -/
theorem repeat_shares_guide_with_doneOrRepeat :
    animated.check.hasErrors = false ∧
      animated.triggers.map (·.sequence) =
        [[[.animation "fade" .repeat]], [[.animation "fade" .doneOrRepeat]]] ∧
      (Assembly.build animated).triggers.map (·.guide) = [0, 0] ∧
      AnimationEvent.repeat ≠ AnimationEvent.doneOrRepeat :=
  ⟨check_animated, rfl, by decide +kernel, by decide⟩

end Config

end Keymap
