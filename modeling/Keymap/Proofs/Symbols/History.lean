import Keymap.Proofs.Symbols

/-!
# Indices under any history

Names of all kinds are interned in any order, known names among new ones. At every
point of such a history the index numbers the names of each kind in the order of
their first calls. Names and indices belong to each other one to one, and no later
call takes back an index that an earlier one returned.
-/

namespace Keymap.SymbolIndex

/-- An index numbers the names that were interned by calls. -/
structure Numbers (index : SymbolIndex) (calls : List (SymbolKind × String)) : Prop where
  /-- The entries of a kind are counted from zero on. -/
  counted : ∀ kind, (index.entries kind).map (·.1) = List.range (index.size kind)
  /-- Exactly the interned names of a kind are listed, once each, in the order of their
  first calls. -/
  listed : ∀ kind, FirstOccurrences (called calls kind) ((index.entries kind).map (·.2))
  /-- An index stands for the name that is listed with it. -/
  entered : ∀ kind name i, index.name? kind i = some name ↔ (i, name) ∈ index.entries kind
  /-- Exactly the name with an index resolves to it. -/
  inverse : ∀ kind name i, index.resolve kind name = some i ↔ index.name? kind i = some name
  /-- Every call returned the index with which its name is listed in the end. -/
  returned : ∀ before later kind name, calls = before ++ (kind, name) :: later →
    (((after before).intern kind name).2, name) ∈ index.entries kind

/-- A further index has all names of an index under the same numbers, and differs from
it in one kind at most. -/
structure Keeps (index next : SymbolIndex) (kind : SymbolKind) : Prop where
  others : ∀ other, other ≠ kind → next.table other = index.table other
  resolve : ∀ other name i, index.resolve other name = some i → next.resolve other name = some i
  name : ∀ other name i, index.name? other i = some name → next.name? other i = some name

section Entries

variable (index : SymbolIndex) (kind : SymbolKind)

theorem map_fst_entries : (index.entries kind).map (·.1) = List.range (index.size kind) := by
  rw [entries, List.map_map, size, List.range_eq_range']
  exact List.zipIdx_map_snd 0 (index.names kind)

/-- The entries of a kind have its names in order. -/
theorem map_snd_entries : (index.entries kind).map (·.2) = index.names kind := by
  rw [entries, List.map_map]
  exact List.zipIdx_map_fst 0 (index.names kind)

variable {index kind}

/-- An index stands for the name that is listed with it. -/
theorem name?_eq_some_iff_mem {name : String} {i : Nat} :
    index.name? kind i = some name ↔ (i, name) ∈ index.entries kind := by
  rw [name?, ← List.mk_mem_zipIdx_iff_getElem?, entries, List.mem_map]
  constructor
  · exact fun h => ⟨(name, i), h, rfl⟩
  · rintro ⟨entry, hentry, he⟩
    cases he
    exact hentry

end Entries

/-- A name resolves to the index that interning it returned. -/
theorem resolve_intern (index : SymbolIndex) (kind : SymbolKind) (name : String) :
    (index.intern kind name).1.resolve kind name = some (index.intern kind name).2 := by
  rw [resolve, table_intern, if_pos rfl, intern, SymbolTable.intern]
  split
  next i hi => exact hi
  next => exact List.lookup_cons_self

section After

variable (calls : List (SymbolKind × String)) (kind : SymbolKind)

/-- Further names of a kind come behind those that it has. -/
theorem prefix_names_after (more : List (SymbolKind × String)) :
    (after calls).names kind <+: (after (calls ++ more)).names kind := by
  rw [names_after, names_after, called_append]
  exact prefix_firstsBy_append [] _ _

variable {calls kind}

/-- Further calls leave the index of a name as it is. -/
theorem resolve_after_append (more : List (SymbolKind × String)) {name : String} {i : Nat}
    (h : (after calls).resolve kind name = some i) :
    (after (calls ++ more)).resolve kind name = some i := by
  rw [resolve_after] at h ⊢
  exact idxOf?_mono (prefix_names_after calls kind more) h

/-- A name that was interned before changes nothing, neither its own table nor another. -/
theorem intern_after_of_mem {name : String} (h : (kind, name) ∈ calls) :
    ((after calls).intern kind name).1 = after calls := by
  have hnames := firstOccurrences_firstsBy (called calls kind)
  have hknown := (hnames.mem_iff name).mpr (mem_called_iff.mpr h)
  refine eq_of_tables fun other => ?_
  rw [table_intern]
  split
  next hkind =>
    rw [hkind, table_after, SymbolTable.intern_ofNames hnames.nodup, if_pos hknown, List.append_nil]
  next => rfl

/-- What a call returned is the index of its name after all further calls. -/
theorem resolve_returned (before later : List (SymbolKind × String)) (kind : SymbolKind)
    (name : String) :
    (after (before ++ (kind, name) :: later)).resolve kind name =
      some ((after before).intern kind name).2 := by
  have hcall := resolve_intern (after before) kind name
  rw [← after_append_singleton] at hcall
  rw [List.append_cons]
  exact resolve_after_append later hcall

end After

/-- One more call keeps what was entered before. -/
theorem keeps_intern_after (calls : List (SymbolKind × String)) (kind : SymbolKind)
    (name : String) : (after calls).Keeps ((after calls).intern kind name).1 kind where
  others other hother := by rw [table_intern, if_neg hother]
  resolve other known i h := by
    rw [← after_append_singleton]
    exact resolve_after_append _ h
  name other known i h := by
    rw [← after_append_singleton, ← resolve_after_eq_some_iff]
    exact resolve_after_append _ (resolve_after_eq_some_iff.mpr h)

/-- After any calls that began without names, the index numbers the names in the order
of the first calls. One more call changes nothing if its name is known, and otherwise
only adds to its own kind. -/
theorem numbered_after (calls : List (SymbolKind × String)) :
    (after calls).Numbers calls ∧
      ∀ kind name, (after calls).Keeps ((after calls).intern kind name).1 kind ∧
        ((kind, name) ∈ calls → ((after calls).intern kind name).1 = after calls) := by
  constructor
  · exact {
      counted := map_fst_entries _
      listed := fun kind => by
        rw [map_snd_entries]
        exact firstOccurrences_after calls kind
      entered := fun _ _ _ => name?_eq_some_iff_mem
      inverse := fun _ _ _ => resolve_after_eq_some_iff
      returned := by
        rintro before later kind name rfl
        rw [← name?_eq_some_iff_mem, ← resolve_after_eq_some_iff]
        exact resolve_returned before later kind name }
  · intro kind name
    exact ⟨keeps_intern_after calls kind name, intern_after_of_mem⟩

/-- A trigger and a result may have one name. -/
example :
    (after [(.trigger, "Ctrl"), (.result, "Ctrl"), (.trigger, "Fn"), (.trigger, "Ctrl")]).entries
      .trigger = [(0, "Ctrl"), (1, "Fn")] := by decide

end Keymap.SymbolIndex
