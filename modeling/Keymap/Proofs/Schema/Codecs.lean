import Keymap.Proofs.Document.JsonText
import Keymap.Proofs.InStep
import Keymap.Schema.Codec
import Mathlib.Data.String.Basic

/-!
# Faithful codecs

What a codec writes for a value it reads back as the value, and what it writes can be read
from a text: its integers fit words, and it is not nested too deep. A codec made of others is
faithful to a value if these are faithful to the parts.
-/

namespace Keymap.Codec

variable {α : Type} {codec : Codec α} {depth : Nat}

/-- The codec reads back what it writes for the value, and this fits. -/
structure Writes (codec : Codec α) (depth : Nat) (value : α) : Prop where
  faithful : codec.Faithful value
  fits : (codec.encode value).Fits depth

section Scalars

/-- A number within its bounds is written, where the bounds fit words. -/
theorem writes_bounded {expected : Expected} {low high : Int} {ofInt : Int → α} {toInt : α → Int}
    {value : α} (hlow : low ≤ toInt value) (hhigh : toInt value ≤ high)
    (hback : ofInt (toInt value) = value) (hleast : -2 ^ 63 ≤ low) (hgreatest : high < 2 ^ 64) :
    (bounded expected low high ofInt toInt).Writes depth value where
  faithful := by
    rw [Faithful, bounded, Node.ofJson]
    change (if low ≤ toInt value ∧ toInt value ≤ high
      then Except.ok (ofInt (toInt value)) else _) = _
    rw [if_pos ⟨hlow, hhigh⟩, hback]
  fits := .int (by omega) (by omega)

/-- Every byte is written. -/
theorem writes_uint8 (value : UInt8) : uint8.Writes depth value := by
  have hlt := value.toNat_lt
  refine writes_bounded (by omega) (by omega) ?_ (by decide) (by decide)
  rw [Int.toNat_natCast, UInt8.ofNat_toNat]

theorem writes_uint16 (value : UInt16) : uint16.Writes depth value := by
  have hlt := value.toNat_lt
  refine writes_bounded (by omega) (by omega) ?_ (by decide) (by decide)
  rw [Int.toNat_natCast, UInt16.ofNat_toNat]

/-- Every number of 32 bits is written. -/
theorem writes_uint32 (value : UInt32) : uint32.Writes depth value := by
  have hlt := value.toNat_lt
  refine writes_bounded (by omega) (by omega) ?_ (by decide) (by decide)
  rw [Int.toNat_natCast, UInt32.ofNat_toNat]

theorem writes_int16 (value : Int16) : int16.Writes depth value :=
  writes_bounded value.le_toInt (Int.le_sub_one_of_lt value.toInt_lt) (Int16.ofInt_toInt value)
    (by decide) (by decide)

theorem writes_int32 (value : Int32) : int32.Writes depth value :=
  writes_bounded value.le_toInt (Int.le_sub_one_of_lt value.toInt_lt) (Int32.ofInt_toInt value)
    (by decide) (by decide)

/-- Every number of 64 bits with a sign is written. -/
theorem writes_int64 (value : Int64) : int64.Writes depth value :=
  writes_bounded value.le_toInt (Int.le_sub_one_of_lt value.toInt_lt) (Int64.ofInt_toInt value)
    (by decide) (by decide)

/-- Every fraction is written. -/
theorem writes_fraction (value : Binary64) : fraction.Writes depth value where
  faithful := by
    rw [Faithful, fraction, Node.ofJson]
  fits := .fraction value

/-- Every text is written. -/
theorem writes_string (value : String) : string.Writes depth value where
  faithful := by
    rw [Faithful, string, Node.ofJson]
  fits := .string value

theorem writes_bool (value : Bool) : bool.Writes depth value where
  faithful := by
    rw [Faithful, bool, Node.ofJson]
  fits := .bool value

end Scalars

section Names

variable [DecidableEq α] {names : List (String × α)} {value : α}

/-- A value is found under its own name. -/
theorem writes_named (h : lookupName names (nameOf names value) = .ok value) :
    (named names).Writes depth value where
  faithful := by
    rw [Faithful, named, Node.ofJson]
    exact h
  fits := .string _

/-- A value inside an element that is read as a whole first is written by its name too. -/
theorem writes_settledNamed (h : lookupName names (nameOf names value) = .ok value) :
    (settledNamed names).Writes depth value where
  faithful := by
    rw [Faithful, settledNamed, Node.ofJson]
    exact h
  fits := .string _

end Names

section Options

/-- What is written for a value that is not absent does not look like nothing. -/
theorem writes_option {value : Option α}
    (h : ∀ a ∈ value, codec.Writes depth a ∧ codec.encode a ≠ .null) :
    (option codec).Writes depth value := by
  cases value with
  | none =>
    refine ⟨?_, .null⟩
    rw [Faithful, option, Node.ofJson]
  | some a =>
    obtain ⟨⟨hfaithful, hfits⟩, hnull⟩ := h a rfl
    refine ⟨?_, hfits⟩
    change (option codec).decode (Node.ofJson (codec.encode a)) = .ok (some a)
    have hdecode : (option codec).decode (Node.ofJson (codec.encode a)) =
        (codec.decode (Node.ofJson (codec.encode a))).map some := by
      cases hjson : codec.encode a with
      | scalar leaf =>
        rw [Node.ofJson]
        cases leaf with
        | null => exact absurd hjson hnull
        | bool | number | string => rfl
      | array items =>
        rw [Node.ofJson]
        rfl
      | object members =>
        rw [Node.ofJson]
        rfl
    rw [hdecode, hfaithful]
    rfl

end Options

section Lists

/-- The nodes of items are made one by one. -/
theorem ofItems_eq_map (items : List Json) : Node.ofItems items = items.map Node.ofJson := by
  induction items with
  | nil => rw [Node.ofItems, List.map_nil]
  | cons item rest ih => rw [Node.ofItems, ih, List.map_cons]

/-- A list is written one level deeper than its members. -/
theorem writes_list {values : List α} (h : ∀ a ∈ values, codec.Writes depth a) :
    (list codec).Writes (depth + 1) values where
  faithful := by
    have hitems : ((values.map codec.encode).map Node.ofJson).mapM codec.decode = .ok values := by
      induction values with
      | nil => rfl
      | cons a rest ih =>
        have ha : codec.decode (Node.ofJson (codec.encode a)) = .ok a :=
          (h a (List.mem_cons_self ..)).faithful
        rw [List.map_cons, List.map_cons, List.mapM_cons, ha,
          ih fun b hb => h b (List.mem_cons_of_mem _ hb)]
        rfl
    rw [Faithful, list, Node.ofJson, ofItems_eq_map]
    exact hitems
  fits := by
    refine .array fun item hitem => ?_
    obtain ⟨a, ha, rfl⟩ := List.mem_map.mp hitem
    exact (h a ha).fits

end Lists

section Maps

variable {entries sorted : List (String × String)}

/-- The names ascend. -/
def Ascends (entries : List (String × α)) : Prop := entries.Pairwise fun a b => a.1 < b.1

instance (entries : List (String × α)) : Decidable (Ascends entries) :=
  inferInstanceAs (Decidable (List.Pairwise _ _))

/-- An entry is the one that is inserted, or it was there before. -/
theorem mem_insertEntry {key : String} {value : α} {entries : List (String × α)}
    {entry : String × α} (h : entry ∈ insertEntry key value entries) :
    entry = (key, value) ∨ entry ∈ entries := by
  induction entries with
  | nil => exact Or.inl (List.mem_singleton.mp h)
  | cons first rest ih =>
    rw [insertEntry] at h
    split at h
    next => exact List.mem_cons.mp h
    next =>
      split at h
      next => exact (List.mem_cons.mp h).imp_right (List.mem_cons_of_mem _)
      next =>
        rcases List.mem_cons.mp h with rfl | h
        · exact Or.inr (List.mem_cons_self ..)
        · exact (ih h).imp_right (List.mem_cons_of_mem _)

/-- Entries with one inserted at its place are still in order. -/
theorem Ascends.insertEntry {key : String} {value : α} {entries : List (String × α)}
    (h : Ascends entries) : Ascends (insertEntry key value entries) := by
  induction entries with
  | nil => exact List.pairwise_singleton ..
  | cons first rest ih =>
    obtain ⟨hfirst, hrest⟩ := List.pairwise_cons.mp h
    rw [Codec.insertEntry]
    split
    next hlt =>
      refine List.pairwise_cons.mpr ⟨List.forall_mem_cons.mpr ⟨hlt, ?_⟩, h⟩
      exact fun entry hentry => hlt.trans (hfirst entry hentry)
    next hge =>
      split
      next heq =>
        exact List.pairwise_cons.mpr ⟨fun entry hentry => heq ▸ hfirst entry hentry, hrest⟩
      next hne =>
        refine List.pairwise_cons.mpr ⟨fun entry hentry => ?_, ih hrest⟩
        rcases mem_insertEntry hentry with rfl | hentry
        · exact lt_of_le_of_ne (not_lt.mp hge) (Ne.symm hne)
        · exact hfirst entry hentry

/-- An entry with a greater name than all others is put behind them. -/
theorem insertEntry_eq_append {key : String} {value : α} {entries : List (String × α)}
    (h : ∀ entry ∈ entries, entry.1 < key) :
    insertEntry key value entries = entries ++ [(key, value)] := by
  induction entries with
  | nil => rfl
  | cons first rest ih =>
    obtain ⟨hfirst, hrest⟩ := List.forall_mem_cons.mp h
    rw [insertEntry, if_neg hfirst.asymm, if_neg hfirst.ne', ih hrest, List.cons_append]

/-- The nodes of members are made one by one. -/
theorem ofMembers_eq_map (members : List (String × Json)) :
    Node.ofMembers members = members.map fun m => (.scalar (.string m.1), Node.ofJson m.2) := by
  induction members with
  | nil => rw [Node.ofMembers, List.map_nil]
  | cons m rest ih =>
    obtain ⟨key, value⟩ := m
    rw [Node.ofMembers, ih, List.map_cons]

/-- The names of a text map ascend. -/
theorem ascends_of_textMap {node : Node} (h : textMap.decode node = .ok entries) :
    Ascends entries := by
  obtain ⟨found, _, hfold⟩ := bind_eq_ok_iff.mp h
  refine invariant_of_foldlM_eq_ok ?_ List.Pairwise.nil hfold
  intro sorted entry sorted' hsorted hstep
  obtain ⟨key, _, hstep⟩ := bind_eq_ok_iff.mp hstep
  obtain ⟨value, _, hstep⟩ := bind_eq_ok_iff.mp hstep
  cases hstep
  exact hsorted.insertEntry

/-- Entries whose names ascend are put one behind the other. -/
private theorem foldlM_insertEntry (h : Ascends (sorted ++ entries)) :
    (entries.map fun entry =>
      (Node.scalar (.string entry.1), Node.scalar (.string entry.2))).foldlM
        (fun sorted entry => do
          let key ← string.decode entry.1
          let value ← string.decode entry.2
          return insertEntry key value sorted) sorted = .ok (sorted ++ entries) := by
  -- the next name is greater than all that are sorted, so that these grow at the end
  induction entries generalizing sorted with
  | nil =>
    rw [List.append_nil]
    rfl
  | cons entry rest ih =>
    have hless : ∀ other ∈ sorted, other.1 < entry.1 := fun other hother =>
      (List.pairwise_append.mp h).2.2 other hother entry (List.mem_cons_self ..)
    rw [List.append_cons] at h ⊢
    rw [← ih h, ← insertEntry_eq_append hless]
    rfl

/-- Texts under keys are written if the keys are in order. -/
theorem writes_textMap (h : Ascends entries) : textMap.Writes (depth + 1) entries where
  faithful := by
    have hentries : Node.ofMembers (entries.map fun entry => (entry.1, .string entry.2)) =
        entries.map fun entry => (.scalar (.string entry.1), .scalar (.string entry.2)) := by
      rw [ofMembers_eq_map, List.map_map]
      refine List.map_congr_left fun entry _ => ?_
      change (_, Node.ofJson (.string entry.2)) = _
      rw [Node.ofJson]
    rw [Faithful, textMap, Node.ofJson, hentries]
    exact foldlM_insertEntry h
  fits := by
    refine .object fun m hm => ?_
    obtain ⟨entry, _, rfl⟩ := List.mem_map.mp hm
    exact .string _

end Maps

end Keymap.Codec
