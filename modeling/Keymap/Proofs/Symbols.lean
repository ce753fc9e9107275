import Keymap.Assembly.Build
import Keymap.Proofs.Distinct
import Keymap.Proofs.Text.Numerals
import Mathlib.Data.List.Induction

/-!
# Interned names

Interning the declared names one by one keeps every name once, in the order of
the first declarations, and enters it with its place among them. So the names of a
table determine what they resolve to, whatever was interned for the other kinds in
between. The names of a configuration are interned kind by kind.
-/

namespace Keymap

/-- The names are the declared ones, each of them once, in the order of their first
places among the declared names. -/
structure FirstOccurrences (declared names : List String) : Prop where
  mem_iff : ∀ name, name ∈ names ↔ name ∈ declared
  ordered : names.Pairwise fun a b => declared.idxOf a < declared.idxOf b

namespace FirstOccurrences

variable {declared names : List String} {name : String}

theorem nil : FirstOccurrences [] [] := ⟨fun _ => Iff.rfl, List.Pairwise.nil⟩

/-- Names in the order of their first places are distinct. -/
theorem nodup (h : FirstOccurrences declared names) : names.Nodup := by
  refine h.ordered.imp ?_
  rintro a _ hlt rfl
  exact Nat.lt_irrefl _ hlt

/-- More declarations keep the order of names that are declared before. -/
private theorem ordered_append (h : FirstOccurrences declared names) (more : List String) :
    names.Pairwise fun a b => (declared ++ more).idxOf a < (declared ++ more).idxOf b := by
  refine h.ordered.imp_of_mem fun ha hb hlt => ?_
  rwa [List.idxOf_append_of_mem ((h.mem_iff _).mp ha),
    List.idxOf_append_of_mem ((h.mem_iff _).mp hb)]

/-- A name that is declared again changes nothing. -/
theorem snoc_known (h : FirstOccurrences declared names) (hname : name ∈ declared) :
    FirstOccurrences (declared ++ [name]) names := by
  refine ⟨fun other => ?_, h.ordered_append [name]⟩
  rw [h.mem_iff, List.mem_append, List.mem_singleton]
  exact ⟨Or.inl, fun hother => hother.elim id fun he => he ▸ hname⟩

/-- A name that is declared for the first time comes last. -/
theorem snoc_new (h : FirstOccurrences declared names) (hname : name ∉ declared) :
    FirstOccurrences (declared ++ [name]) (names ++ [name]) := by
  refine ⟨fun other => ?_, List.pairwise_append.mpr
    ⟨h.ordered_append [name], List.pairwise_singleton _ _, ?_⟩⟩
  · rw [List.mem_append, List.mem_append, h.mem_iff]
  · intro other hother last hlast
    obtain rfl := List.mem_singleton.mp hlast
    have hmem := (h.mem_iff other).mp hother
    rw [List.idxOf_append_of_mem hmem, List.idxOf_append_of_notMem hname]
    exact Nat.lt_of_lt_of_le (List.idxOf_lt_length_of_mem hmem) (Nat.le_add_right _ _)

end FirstOccurrences

/-- A name at the end is a first occurrence if it is new. -/
theorem firsts_append_singleton (declared : List String) (name : String) :
    firstsBy id [] (declared ++ [name]) =
      firstsBy id [] declared ++ if name ∈ declared then [] else [name] := by
  have hstep := @firstsBy_append_singleton _ _ _ id [] declared name
  simpa only [id_eq, List.map_id, List.not_mem_nil, false_or] using hstep

/-- The first occurrences of names are in the order of declaration. -/
theorem firstOccurrences_firstsBy (declared : List String) :
    FirstOccurrences declared (firstsBy id [] declared) := by
  induction declared using List.reverseRecOn with
  | nil => exact .nil
  | append_singleton declared name ih =>
    rw [firsts_append_singleton]
    split
    next hknown =>
      rw [List.append_nil]
      exact ih.snoc_known hknown
    next hnew => exact ih.snoc_new hnew

namespace SymbolTable

variable {names : List String}

/-- Where names are distinct, the index under a name is its place. -/
theorem lookup_indices_ofNames (h : names.Nodup) (name : String) :
    (ofNames names).indices.lookup name = names.idxOf? name := by
  have hkeys : ((ofNames names).indices.map (·.1)).Nodup := by
    rwa [ofNames, List.map_reverse, List.zipIdx_map_fst, List.nodup_reverse]
  ext i
  rw [lookup_eq_some_iff_mem hkeys, idxOf?_eq_some_iff_getElem? h, ofNames, List.mem_reverse,
    List.mk_mem_zipIdx_iff_getElem?]

/-- A new name gets the next index. -/
theorem ofNames_append_singleton (names : List String) (name : String) :
    ofNames (names ++ [name]) =
      ⟨names ++ [name], (name, names.length) :: (ofNames names).indices⟩ := by
  rw [ofNames, ofNames, List.zipIdx_append, List.reverse_append, Nat.zero_add]
  rfl

/-- Interning adds a name at the end, unless it is known, and returns its place. -/
theorem intern_ofNames (h : names.Nodup) (name : String) :
    (ofNames names).intern name =
      (ofNames (names ++ if name ∈ names then [] else [name]), names.idxOf name) := by
  rw [intern, lookup_indices_ofNames h]
  split
  next i hi =>
    obtain ⟨hlt, hget, -⟩ := List.idxOf?_eq_some_iff.mp hi
    obtain rfl : names.idxOf name = i := hget ▸ h.idxOf_getElem i hlt
    rw [if_pos (List.idxOf_lt_length_iff.mp hlt), List.append_nil]
  next hnone =>
    have hnew := List.idxOf?_eq_none_iff.mp hnone
    rw [if_neg hnew, ofNames_append_singleton, List.idxOf_eq_length hnew]
    rfl

end SymbolTable

namespace SymbolIndex

/-- Interning changes the table of one kind only. -/
theorem table_intern (index : SymbolIndex) (kind other : SymbolKind) (name : String) :
    (index.intern kind name).1.table other =
      if other = kind then ((index.table kind).intern name).1 else index.table other :=
  table_setTable ..

/-- The index after some names of a kind were interned one by one. -/
def internAll (index : SymbolIndex) (kind : SymbolKind) (names : List String) : SymbolIndex :=
  names.foldl (fun index name => (index.intern kind name).1) index

/-- The index after names of several kinds were interned in the order of the calls. -/
def after (calls : List (SymbolKind × String)) : SymbolIndex :=
  calls.foldl (fun index call => (index.intern call.1 call.2).1) .empty

theorem after_append_singleton (calls : List (SymbolKind × String)) (kind : SymbolKind)
    (name : String) : after (calls ++ [(kind, name)]) = ((after calls).intern kind name).1 :=
  List.foldl_concat ..

/-- The names that calls intern for a kind, in the order of the calls. -/
def called (calls : List (SymbolKind × String)) (kind : SymbolKind) : List String :=
  (calls.filter fun call => call.1 = kind).map (·.2)

theorem called_append (calls more : List (SymbolKind × String)) (kind : SymbolKind) :
    called (calls ++ more) kind = called calls kind ++ called more kind := by
  rw [called, List.filter_append, List.map_append]
  rfl

theorem called_singleton (kind other : SymbolKind) (name : String) :
    called [(kind, name)] other = if other = kind then [name] else [] := by
  by_cases h : other = kind
  · simp [called, h]
  · simp [called, h, Ne.symm h]

theorem mem_called_iff {calls : List (SymbolKind × String)} {kind : SymbolKind} {name : String} :
    name ∈ called calls kind ↔ (kind, name) ∈ calls := by
  simp [called]

/-- After any calls, the table of a kind is that of the first occurrences of the names that
were interned for it. -/
theorem table_after (calls : List (SymbolKind × String)) (kind : SymbolKind) :
    (after calls).table kind = .ofNames (firstsBy id [] (called calls kind)) := by
  induction calls using List.reverseRecOn generalizing kind with
  | nil => cases kind <;> rfl
  | append_singleton calls call ih =>
    obtain ⟨other, name⟩ := call
    -- The last call acts on the table of its own kind, which need not be the kind in question.
    rw [after_append_singleton, table_intern, called_append, called_singleton]
    by_cases h : kind = other
    · subst h
      have hfirsts := firstOccurrences_firstsBy (called calls kind)
      rw [if_pos rfl, if_pos rfl, ih, SymbolTable.intern_ofNames hfirsts.nodup,
        firsts_append_singleton, if_congr (hfirsts.mem_iff name) rfl rfl]
    · rw [if_neg h, if_neg h, List.append_nil, ih]

section After

variable (calls : List (SymbolKind × String)) (kind : SymbolKind)

/-- The index has the names of a kind by their first calls. -/
theorem names_after : (after calls).names kind = firstsBy id [] (called calls kind) :=
  congrArg SymbolTable.names (table_after calls kind)

/-- The names of a kind are in the order of the first calls. -/
theorem firstOccurrences_after :
    FirstOccurrences (called calls kind) ((after calls).names kind) := by
  rw [names_after]
  exact firstOccurrences_firstsBy _

/-- A name resolves to its place among the names of its kind. -/
theorem resolve_after (name : String) :
    (after calls).resolve kind name = ((after calls).names kind).idxOf? name := by
  rw [resolve, names_after, table_after,
    SymbolTable.lookup_indices_ofNames (firstOccurrences_firstsBy _).nodup]

variable {calls kind}

/-- Names and indices belong to each other one to one. -/
theorem resolve_after_eq_some_iff {name : String} {i : Nat} :
    (after calls).resolve kind name = some i ↔ (after calls).name? kind i = some name := by
  rw [resolve_after, name?, idxOf?_eq_some_iff_getElem? (firstOccurrences_after calls kind).nodup]

end After

end SymbolIndex

namespace Assembly

/-- The declared names of a kind; the pixels are numbered from one on. -/
def declaredNames (config : Config) : SymbolKind → List String
  | .capability => config.capabilities.map (·.name)
  | .trigger => config.triggers.map (·.name)
  | .result => config.results.map (·.name)
  | .pixel => pixelNames (config.pixels.map PixelMap.build)
  | .animation => config.animations.map (·.name)

/-- The index of a configuration whose names are interned kind by kind. -/
def interned (config : Config) : SymbolIndex :=
  [SymbolKind.capability, .result, .trigger, .animation, .pixel].foldl
    (fun index kind => index.internAll kind (declaredNames config kind)) .empty

/-- The names of pixels are distinct. -/
theorem nodup_pixelNames (pixels : Option PixelMap) : (pixelNames pixels).Nodup := by
  cases pixels with
  | none => exact List.nodup_nil
  | some map =>
    refine List.Nodup.map (fun i j h => ?_) List.nodup_range
    exact Nat.succ.inj (Text.toString_injective h)

/-- The names of every kind are the first occurrences of the declared ones. -/
theorem names_symbols_build (config : Config) (kind : SymbolKind) :
    (build config).symbols.names kind = firstsBy id [] (declaredNames config kind) := by
  have hpixels : firstsBy id [] (declaredNames config .pixel) = declaredNames config .pixel :=
    firstsBy_nil_eq_self (by rw [List.map_id]; exact nodup_pixelNames _)
  cases kind with
  | capability => exact map_firstsBy [] config.capabilities
  | trigger => exact map_firstsBy [] config.triggers
  | result => exact map_firstsBy [] config.results
  | pixel => exact hpixels.symm
  | animation => exact map_firstsBy [] config.animations

/-- The table of every kind has just its names. -/
theorem table_symbols_build (config : Config) (kind : SymbolKind) :
    (build config).symbols.table kind = .ofNames ((build config).symbols.names kind) := by
  cases kind <;> rfl

/-- The declared names with their kinds, kind by kind. -/
def declaredCalls (config : Config) : List (SymbolKind × String) :=
  [SymbolKind.capability, .result, .trigger, .animation, .pixel].flatMap fun kind =>
    (declaredNames config kind).map (kind, ·)

/-- The index of a configuration is the one after its declarations. -/
theorem interned_eq_after (config : Config) :
    interned config = .after (declaredCalls config) := by
  rw [interned, SymbolIndex.after, declaredCalls, List.foldl_flatMap]
  simp only [List.foldl_map]
  rfl

/-- The calls of a configuration have its declared names. -/
theorem called_declaredCalls (config : Config) (kind : SymbolKind) :
    SymbolIndex.called (declaredCalls config) kind = declaredNames config kind := by
  cases kind <;>
    simp [SymbolIndex.called, declaredCalls, List.filter_map, Function.comp_def]

/-- The names of every kind are those that are interned. -/
theorem symbols_build (config : Config) : (build config).symbols = interned config := by
  rw [interned_eq_after]
  refine SymbolIndex.eq_of_tables fun kind => ?_
  rw [SymbolIndex.table_after, called_declaredCalls, table_symbols_build, names_symbols_build]

/-- The names of every kind are in the order of declaration. -/
theorem firstOccurrences_build (config : Config) (kind : SymbolKind) :
    FirstOccurrences (declaredNames config kind) ((build config).symbols.names kind) := by
  rw [names_symbols_build]
  exact firstOccurrences_firstsBy _

/-- A name resolves to its place among the names of its kind. -/
theorem resolve_symbols_build (config : Config) (kind : SymbolKind) (name : String) :
    (build config).symbols.resolve kind name =
      ((build config).symbols.names kind).idxOf? name := by
  rw [symbols_build, interned_eq_after, SymbolIndex.resolve_after]

/-- A name resolves to the index whose name it is. -/
theorem resolve_build_eq_some_iff (config : Config) {kind : SymbolKind} {name : String}
    {index : Nat} : (build config).symbols.resolve kind name = some index ↔
      (build config).symbols.name? kind index = some name := by
  rw [symbols_build, interned_eq_after]
  exact SymbolIndex.resolve_after_eq_some_iff

/-- The trigger macros have the names of the triggers that count. -/
theorem name?_trigger_build (config : Config) {index : Nat} {name : String} :
    (build config).symbols.name? .trigger index = some name ↔
      ∃ trigger, config.distinctTriggers[index]? = some trigger ∧ trigger.name = name := by
  have hnames : (build config).symbols.names .trigger = config.distinctTriggers.map (·.name) := rfl
  rw [SymbolIndex.name?, hnames, List.getElem?_map, Option.map_eq_some_iff]

end Assembly

end Keymap
