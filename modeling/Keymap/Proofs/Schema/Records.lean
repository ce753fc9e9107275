import Keymap.Proofs.Schema.Codecs
import Keymap.Schema.Tagged

/-!
# Faithful records and tagged elements

A record is written with all its members, also those that could be missing, and no two of
them have the same name. Reading takes up one after the other, so that all slots are filled
at the end and no default is used. A tagged element is a record behind its tag.
-/

namespace Keymap

namespace Fields

variable {α : Type} {αs : List Type} {depth : Nat}

/-- The codec of every field writes its value. -/
def Writes : {αs : List Type} → Fields αs → Nat → Values αs → Prop
  | _, .nil, _, _ => True
  | _, .cons field rest, depth, (value, values) =>
    field.codec.Writes depth value ∧ rest.Writes depth values

/-- All values are known. -/
def full : {αs : List Type} → Fields αs → Values αs → Slots αs
  | _, .nil, _ => ()
  | _, .cons _ rest, (value, values) => (some value, rest.full values)

/-- A slot in front of others. -/
def slotBefore (slot : Option α) (slots : Slots αs) : Slots (α :: αs) := (slot, slots)

/-- Read an entry into its slot. -/
def take (fields : Fields αs) (known : List String) (slots : Slots αs) (entry : Node × Node) :
    Except SchemaError (Slots αs) := do
  fields.put known (← keyName known entry.1) entry.2 slots

/-- Fields of which all values are known have these values. -/
theorem finish_full (fields : Fields αs) (values : Values αs) :
    fields.finish (fields.full values) = .ok values := by
  induction fields with
  | nil => rfl
  | cons field rest ih =>
    obtain ⟨value, values⟩ := values
    change (rest.finish (rest.full values) >>= fun values => _) = _
    rw [ih]
    rfl

theorem name_mem_names (fields : Fields αs) (values : Values αs) :
    ∀ m ∈ fields.members values, m.1 ∈ fields.names := by
  induction fields with
  | nil => exact fun m hm => absurd hm List.not_mem_nil
  | cons field rest ih =>
    obtain ⟨value, values⟩ := values
    rw [members, names]
    refine List.forall_mem_cons.mpr ⟨List.mem_cons_self .., fun m hm => ?_⟩
    exact List.mem_cons_of_mem _ (ih values m hm)

/-- The slot of another field is left as it is. -/
theorem put_cons_of_ne {field : Field α} {name : String} (h : field.name ≠ name) (rest : Fields αs)
    (known : List String) (node : Node) (slot : Option α) (slots : Slots αs) :
    put known name node (.cons field rest) (slotBefore slot slots) =
      (rest.put known name node slots).map (slotBefore slot) := by
  refine (if_neg h).trans ?_
  cases rest.put known name node slots <;> rfl

/-- A value is read into the slot of its field. -/
theorem put_cons_self {field : Field α} {value : α} {node : Node}
    (h : field.codec.decode node = .ok value) (rest : Fields αs) (known : List String)
    (slots : Slots αs) :
    put known field.name node (.cons field rest) (slotBefore none slots) =
      .ok (slotBefore (some value) slots) := by
  refine (if_pos rfl).trans ?_
  change (field.codec.decode node >>= fun value => _) = _
  rw [h]
  rfl

/-- Members with other names leave the first slot as it is. -/
theorem foldlM_take_cons {field : Field α} {members : List (String × Json)}
    (h : ∀ m ∈ members, field.name ≠ m.1) (rest : Fields αs) (known : List String)
    (slot : Option α) (slots : Slots αs) :
    (Node.ofMembers members).foldlM (take (.cons field rest) known) (slotBefore slot slots) =
      ((Node.ofMembers members).foldlM (rest.take known) slots).map (slotBefore slot) := by
  induction members generalizing slots with
  | nil =>
    rw [Node.ofMembers]
    rfl
  | cons m members ih =>
    obtain ⟨key, value⟩ := m
    obtain ⟨hkey, hmembers⟩ := List.forall_mem_cons.mp h
    have htake : take (.cons field rest) known (slotBefore slot slots)
        (.scalar (.string key), Node.ofJson value) =
          (rest.put known key (Node.ofJson value) slots).map (slotBefore slot) :=
      put_cons_of_ne hkey rest known _ slot slots
    have htake' : rest.take known slots (.scalar (.string key), Node.ofJson value) =
        rest.put known key (Node.ofJson value) slots := rfl
    rw [Node.ofMembers, List.foldlM_cons, List.foldlM_cons, htake, htake']
    cases rest.put known key (Node.ofJson value) slots with
    | error e => rfl
    | ok next => exact ih hmembers next

/-- The members of a record fill all slots. -/
theorem foldlM_take_members (fields : Fields αs) (known : List String) {values : Values αs}
    (hnames : fields.names.Nodup) (h : fields.Writes depth values) :
    (Node.ofMembers (fields.members values)).foldlM (fields.take known) fields.emptySlots =
      .ok (fields.full values) := by
  induction fields with
  | nil =>
    rw [members, Node.ofMembers]
    rfl
  | cons field rest ih =>
    obtain ⟨value, values⟩ := values
    obtain ⟨hvalue, hvalues⟩ := h
    obtain ⟨hname, hrest⟩ := List.nodup_cons.mp hnames
    -- the first slot is filled by the first member, and no other one is meant for it
    have hothers : ∀ m ∈ rest.members values, field.name ≠ m.1 := fun m hm he =>
      hname (he ▸ name_mem_names rest values m hm)
    have hempty : emptySlots (.cons field rest) = slotBefore none rest.emptySlots := rfl
    have htake : take (.cons field rest) known (slotBefore none rest.emptySlots)
        (.scalar (.string field.name), Node.ofJson (field.codec.encode value)) =
          .ok (slotBefore (some value) rest.emptySlots) :=
      put_cons_self hvalue.faithful rest known _
    rw [members, Node.ofMembers, List.foldlM_cons, hempty, htake]
    refine (foldlM_take_cons hothers rest known (some value) rest.emptySlots).trans ?_
    rw [ih hrest hvalues]
    rfl

/-- The values of a record are read back from its members. -/
theorem ofEntries_members (fields : Fields αs) {values : Values αs} (hnames : fields.names.Nodup)
    (h : fields.Writes depth values) :
    fields.ofEntries (Node.ofMembers (fields.members values)) = .ok values := by
  have hfold := foldlM_take_members fields fields.names hnames h
  exact bind_eq_ok_iff.mpr ⟨fields.full values, hfold, fields.finish_full values⟩

/-- The members of a record fit if its values do. -/
theorem fits_members (fields : Fields αs) {values : Values αs} (h : fields.Writes depth values) :
    ∀ m ∈ fields.members values, m.2.Fits depth := by
  induction fields with
  | nil => exact fun m hm => absurd hm List.not_mem_nil
  | cons field rest ih =>
    obtain ⟨value, values⟩ := values
    rw [members]
    exact List.forall_mem_cons.mpr ⟨h.1.fits, ih h.2⟩

section Given

variable {fields : Fields αs} {known : List String}

/-- Every value is the default of its field, or its codec has read it from some node. -/
def Given : {αs : List Type} → Fields αs → Values αs → Prop
  | _, .nil, _ => True
  | _, .cons field rest, (value, values) =>
    (field.default = some value ∨ ∃ node, field.codec.decode node = .ok value) ∧ rest.Given values

/-- Every known value has been read from some node by the codec of its field. -/
def Known : {αs : List Type} → Fields αs → Slots αs → Prop
  | _, .nil, _ => True
  | _, .cons field rest, (slot, slots) =>
    (∀ value ∈ slot, ∃ node, field.codec.decode node = .ok value) ∧ rest.Known slots

theorem known_emptySlots (fields : Fields αs) : fields.Known fields.emptySlots := by
  induction fields with
  | nil => trivial
  | cons field rest ih => exact ⟨fun _ hvalue => (Option.not_mem_none _ hvalue).elim, ih⟩

/-- A value that is put into its slot has been read by the codec of its field. -/
theorem Known.put {name : String} {node : Node} {slots slots' : Slots αs}
    (h : fields.Known slots) (hput : Fields.put known name node fields slots = .ok slots') :
    fields.Known slots' := by
  induction fields with
  | nil => cases hput
  | cons field rest ih =>
    obtain ⟨slot, slots⟩ := slots
    obtain ⟨hslot, hslots⟩ := h
    by_cases hname : field.name = name
    · have hread := (if_pos hname).symm.trans hput
      cases slot with
      | some old => cases hread
      | none =>
        obtain ⟨value, hvalue, hslots'⟩ := bind_eq_ok_iff.mp hread
        cases hslots'
        refine ⟨fun other hother => ⟨node, ?_⟩, hslots⟩
        cases hother
        exact hvalue
    · obtain ⟨next, hnext, hslots'⟩ := bind_eq_ok_iff.mp ((if_neg hname).symm.trans hput)
      cases hslots'
      exact ⟨hslot, ih hslots hnext⟩

/-- Values that are known in the end, or by default, are given. -/
theorem Known.finish {slots : Slots αs} {values : Values αs} (h : fields.Known slots)
    (hfinish : Fields.finish fields slots = .ok values) : fields.Given values := by
  induction fields with
  | nil => trivial
  | cons field rest ih =>
    obtain ⟨slot, slots⟩ := slots
    obtain ⟨hslot, hslots⟩ := h
    obtain ⟨name, codec, default⟩ := field
    cases slot with
    | some value =>
      obtain ⟨values, hvalues, hresult⟩ := bind_eq_ok_iff.mp hfinish
      cases hresult
      exact ⟨Or.inr (hslot value rfl), ih hslots hvalues⟩
    | none =>
      cases default with
      | none => cases hfinish
      | some value =>
        obtain ⟨values, hvalues, hresult⟩ := bind_eq_ok_iff.mp hfinish
        cases hresult
        exact ⟨Or.inl rfl, ih hslots hvalues⟩

/-- The values that are read from a sequence are given. -/
theorem given_of_ofItems {short : Nat → SchemaError} {index : Nat} {items left : List Node}
    {values : Values αs} (h : fields.ofItems short index items = .ok (values, left)) :
    fields.Given values := by
  induction fields generalizing index items left with
  | nil => trivial
  | cons field rest ih =>
    obtain ⟨name, codec, default⟩ := field
    cases items with
    | nil =>
      cases default with
      | none => cases h
      | some value =>
        obtain ⟨⟨values, left⟩, hrest, hresult⟩ := bind_eq_ok_iff.mp h
        cases hresult
        exact ⟨Or.inl rfl, ih hrest⟩
    | cons item items =>
      obtain ⟨value, hvalue, h⟩ := bind_eq_ok_iff.mp h
      obtain ⟨⟨values, left⟩, hrest, hresult⟩ := bind_eq_ok_iff.mp h
      cases hresult
      exact ⟨Or.inr ⟨item, hvalue⟩, ih hrest⟩

/-- The values that are read from a mapping are given. -/
theorem given_of_ofEntries {entries : List (Node × Node)} {values : Values αs}
    (h : fields.ofEntries entries = .ok values) : fields.Given values := by
  obtain ⟨slots, hfold, hfinish⟩ := bind_eq_ok_iff.mp h
  refine Known.finish (invariant_of_foldlM_eq_ok ?_ fields.known_emptySlots hfold) hfinish
  intro slots entry slots' hknown hstep
  obtain ⟨name, _, hput⟩ := bind_eq_ok_iff.mp hstep
  exact hknown.put hput

end Given

end Fields

namespace Codec

variable {β : Type} {αs : List Type} {depth : Nat} {value : β}

/-- A record is written if its fields are, and their names are distinct. -/
theorem writes_record {name : String} {fields : Fields αs} {build : Values αs → β}
    {view : β → Values αs} (hnames : fields.names.Nodup) (hbuild : build (view value) = value)
    (h : fields.Writes depth (view value)) :
    (record name fields build view).Writes (depth + 1) value where
  faithful := by
    have hentries := fields.ofEntries_members hnames h
    rw [Faithful, record, Node.ofJson]
    change (fields.ofEntries (Node.ofMembers (fields.members (view value))) >>= fun values => _) = _
    rw [hentries]
    exact congrArg Except.ok hbuild
  fits := .object (fields.fits_members h)

/-- A record that is read is built of values that are given. -/
theorem given_of_record {name : String} {fields : Fields αs} {build : Values αs → β}
    {view : β → Values αs} {node : Node}
    (h : (record name fields build view).decode node = .ok value) :
    ∃ values, fields.Given values ∧ value = build values := by
  have hentries : (entriesOf (.record name) node >>= fun entries =>
      fields.ofEntries entries >>= fun values => pure (build values)) = .ok value →
        ∃ values, fields.Given values ∧ value = build values := by
    intro h
    obtain ⟨entries, _, h⟩ := bind_eq_ok_iff.mp h
    obtain ⟨values, hvalues, hvalue⟩ := bind_eq_ok_iff.mp h
    exact ⟨values, Fields.given_of_ofEntries hvalues, (Except.ok.inj hvalue).symm⟩
  cases node with
  | sequence items =>
    obtain ⟨⟨values, left⟩, hvalues, h⟩ := bind_eq_ok_iff.mp h
    dsimp only at h
    split at h
    next => exact ⟨values, Fields.given_of_ofItems hvalues, (Except.ok.inj h).symm⟩
    next => cases h
  | scalar | written | listed | mapping | variant | broken => exact hentries h

section Tagged

variable {type tag name : String} {forms : List (Form β)} {encode : β → Json} {fields : Fields αs}
  {values : Values αs} {build : Values αs → β} {label : String}

mutual

/-- What a JSON value is, is settled. -/
theorem settle_ofJson : ∀ json : Json, (Node.ofJson json).settle = some (Node.ofJson json)
  | .scalar value => by rw [Node.ofJson, Node.settle]
  | .array items => by rw [Node.ofJson, Node.settle, settleItems_ofItems items]; rfl
  | .object members => by rw [Node.ofJson, Node.settle, settleEntries_ofMembers members]; rfl

theorem settleItems_ofItems : ∀ items : List Json,
    Node.settleItems (Node.ofItems items) = some (Node.ofItems items)
  | [] => by rw [Node.ofItems, Node.settleItems]
  | item :: rest => by
    rw [Node.ofItems, Node.settleItems, settle_ofJson item, settleItems_ofItems rest]
    rfl

theorem settleEntries_ofMembers : ∀ members : List (String × Json),
    Node.settleEntries (Node.ofMembers members) = some (Node.ofMembers members)
  | [] => by rw [Node.ofMembers, Node.settleEntries]
  | (key, value) :: rest => by
    rw [Node.ofMembers, Node.settleEntries, Node.settle, settle_ofJson value,
      settleEntries_ofMembers rest]
    rfl

end

/-- Read an entry, which may be the tag. -/
def splitEntry (tag : String) (forms : List (Form β))
    (state : Option (Form β) × List (Node × Node)) (entry : Node × Node) :
    Except SchemaError (Option (Form β) × List (Node × Node)) := do
  let key ← settled entry.1
  if isTag tag key then
    if state.1.isSome then throw (.duplicateField tag)
    else return (some (← Form.ofTag forms entry.2), state.2)
  else return (state.1, state.2 ++ [(key, ← settled entry.2)])

/-- Members other than the tag are kept as they are. -/
theorem foldlM_splitEntry {members : List (String × Json)} (h : ∀ m ∈ members, tag ≠ m.1)
    (found : Option (Form β)) (others : List (Node × Node)) :
    (Node.ofMembers members).foldlM (splitEntry tag forms) (found, others) =
      .ok (found, others ++ Node.ofMembers members) := by
  induction members generalizing others with
  | nil =>
    rw [Node.ofMembers, List.append_nil]
    rfl
  | cons m members ih =>
    obtain ⟨key, value⟩ := m
    obtain ⟨hkey, hmembers⟩ := List.forall_mem_cons.mp h
    have hsettled : settled (Node.ofJson value) = .ok (Node.ofJson value) := by
      rw [settled, settle_ofJson]
    have hentry : splitEntry tag forms (found, others) (.scalar (.string key), Node.ofJson value) =
        .ok (found, others ++ [(.scalar (.string key), Node.ofJson value)]) := by
      have hname : isTag tag (.scalar (.string key)) = false := decide_eq_false (Ne.symm hkey)
      change (if isTag tag (.scalar (.string key)) then _ else
        settled (Node.ofJson value) >>= fun node => _) = _
      rw [hname, hsettled]
      rfl
    rw [Node.ofMembers, List.foldlM_cons, hentry]
    refine (ih hmembers _).trans ?_
    rw [List.append_assoc, List.singleton_append]

/-- The tag in front is found, and the other members are left. -/
theorem splitTag_members {form : Form β} (hform : Form.find forms name = .ok form)
    {members : List (String × Json)} (h : ∀ m ∈ members, tag ≠ m.1) :
    splitTag tag forms (Node.ofMembers ((tag, .string name) :: members)) =
      .ok (some form, Node.ofMembers members) := by
  have htag : splitEntry tag forms (none, []) (.scalar (.string tag), .scalar (.string name)) =
      .ok (some form, []) := by
    have hname : isTag tag (.scalar (.string tag)) = true := decide_eq_true rfl
    change (if isTag tag (.scalar (.string tag)) then
      Form.find forms name >>= fun form => _ else _) = _
    rw [hname, hform]
    rfl
  have hsplit : splitTag tag forms (Node.ofMembers ((tag, .string name) :: members)) =
      (Node.ofMembers ((tag, .string name) :: members)).foldlM (splitEntry tag forms) (none, []) :=
    rfl
  rw [hsplit, Node.ofMembers, Node.ofJson, List.foldlM_cons, htag]
  exact foldlM_splitEntry h (some form) []

/-- A form reads back its own members. -/
theorem ofFields_members (name type label : String) (hnames : fields.names.Nodup)
    (h : fields.Writes depth values) :
    (Form.ofFields name type label fields build).ofEntries
      (Node.ofMembers (fields.members values)) = .ok (build values) := by
  have hentries : (if fields.names.isEmpty then []
      else Node.ofMembers (fields.members values)) = Node.ofMembers (fields.members values) := by
    cases fields with
    | nil =>
      rw [Fields.members, Node.ofMembers]
      rfl
    | cons field rest => rfl
  change (fields.ofEntries (if fields.names.isEmpty then [] else _) >>= fun values => _) = _
  rw [hentries, fields.ofEntries_members hnames h]
  rfl

/-- A value of one of several forms is written with the name of its form, if the fields of the
form are. -/
theorem writes_tagged (hencode : encode value = fields.withTag tag name values)
    (hform : Form.find forms name = .ok (.ofFields name type label fields build))
    (hbuild : build values = value) (hnames : (tag :: fields.names).Nodup)
    (h : fields.Writes depth values) : (tagged type tag forms encode).Writes (depth + 1) value := by
  obtain ⟨htag, hfields⟩ := List.nodup_cons.mp hnames
  have hothers : ∀ m ∈ fields.members values, tag ≠ m.1 := fun m hm he =>
    htag (he ▸ fields.name_mem_names values m hm)
  constructor
  · change (tagged type tag forms encode).decode (Node.ofJson (encode value)) = .ok value
    rw [hencode, Fields.withTag, Node.ofJson]
    change (splitTag tag forms (Node.ofMembers ((tag, .string name) :: fields.members values)) >>=
      fun split => _) = _
    rw [splitTag_members hform hothers]
    exact (ofFields_members name type label hfields h).trans (congrArg Except.ok hbuild)
  · change (encode value).Fits (depth + 1)
    rw [hencode, Fields.withTag]
    exact .object (List.forall_mem_cons.mpr ⟨.string name, fields.fits_members h⟩)

end Tagged

end Codec

end Keymap
