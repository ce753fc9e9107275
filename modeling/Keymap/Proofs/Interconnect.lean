import Keymap.Proofs.Acceptance

/-!
# Boards that share the scan codes

Offsets that are not declared follow from the keys of the boards before, as far as sixteen
bits hold them. In a configuration without errors no offset is beyond the greatest scan
code, which fits a byte. So none of the sums was cut off there, and no two keys of the
boards have one scan code.
-/

namespace Keymap

namespace Config

/-- The keys of some boards together. -/
def keyCount (boards : List UInt16) : Nat := (boards.map (·.toNat)).sum

/-- The board has a key with a scan code of its own. -/
def HasKey (config : Config) (board code : Nat) : Prop :=
  ∃ size, config.boardScanCodes[board]? = some size ∧ code < size.toNat

/-- The scan code of a key among those of all boards. -/
def sharedCode (config : Config) (board code : Nat) : Option Nat :=
  (boardOffset (Assembly.build config).offsets board).map fun offset => code + offset

@[simp]
theorem keyCount_nil : keyCount [] = 0 := rfl

/-- The keys of the first board are counted with those of the others. -/
@[simp]
theorem keyCount_cons (size : UInt16) (rest : List UInt16) :
    keyCount (size :: rest) = size.toNat + keyCount rest := rfl

/-- The keys of a board come before those of every later board. -/
theorem keyCount_take_add_le {boards : List UInt16} {i j : Nat} {size : UInt16} (hij : i < j)
    (hsize : boards[i]? = some size) :
    keyCount (boards.take i) + size.toNat ≤ keyCount (boards.take j) := by
  induction boards generalizing i j with
  | nil => cases hsize
  | cons first rest ih =>
    obtain ⟨j, rfl⟩ := Nat.exists_eq_add_one_of_ne_zero (Nat.ne_zero_of_lt hij)
    cases i with
    | zero =>
      obtain rfl : first = size := Option.some.inj hsize
      simp
    | succ i =>
      rw [List.getElem?_cons_succ] at hsize
      have hrest := ih (Nat.lt_of_succ_lt_succ hij) hsize
      simp only [List.take_succ_cons, keyCount_cons]
      omega

/-- Two keys whose scan codes are counted behind the boards before theirs are one key if the
scan codes are equal. -/
theorem HasKey.eq_of_add_eq {config : Config} {board code other otherCode : Nat}
    (h : config.HasKey board code) (h' : config.HasKey other otherCode)
    (he : code + keyCount (config.boardScanCodes.take board) =
      otherCode + keyCount (config.boardScanCodes.take other)) :
    board = other ∧ code = otherCode := by
  obtain ⟨size, hsize, hcode⟩ := h
  obtain ⟨otherSize, hotherSize, hotherCode⟩ := h'
  rcases Nat.lt_trichotomy board other with hlt | rfl | hlt
  · have hle := keyCount_take_add_le hlt hsize
    omega
  · exact ⟨rfl, by omega⟩
  · have hle := keyCount_take_add_le hlt hotherSize
    omega

end Config

/-- The offset of a board is the sum of the sizes before it, and never above the greatest
offset. -/
theorem cumulativeOffsets_eq_map {next : Nat} (hnext : next ≤ maxOffset) (boards : List UInt16) :
    cumulativeOffsets next (boards.map (·.toNat)) =
      (List.range boards.length).map fun i =>
        min (next + Config.keyCount (boards.take i)) maxOffset := by
  induction boards generalizing next with
  | nil => rfl
  | cons size rest ih =>
    rw [List.map_cons, cumulativeOffsets, ih (Nat.min_le_right _ _), List.length_cons,
      List.range_succ_eq_map, List.map_cons, List.map_map]
    congr 1
    · simp only [List.take_zero, Config.keyCount_nil]
      omega
    · refine List.map_congr_left fun i _ => ?_
      -- a sum that was cut off before is cut off here
      simp only [Function.comp_apply, List.take_succ_cons, Config.keyCount_cons]
      omega

namespace Config

variable {config : Config}

/-- No offset that follows from the boards is cut off if all are in range. -/
theorem offsets_eq_map (hderived : config.interconnectOffsets = [])
    (hrange : ∀ offset ∈ config.offsets, offset < maxOffset) :
    config.offsets = (List.range config.boardScanCodes.length).map fun i =>
      keyCount (config.boardScanCodes.take i) := by
  have hoffsets : config.offsets = (List.range config.boardScanCodes.length).map fun i =>
      min (0 + keyCount (config.boardScanCodes.take i)) maxOffset := by
    rw [offsets, hderived, List.isEmpty_nil, if_pos rfl]
    exact cumulativeOffsets_eq_map (Nat.zero_le _) _
  rw [hoffsets] at hrange ⊢
  refine List.map_congr_left fun i hi => ?_
  have hlt := hrange _ (List.mem_map_of_mem hi)
  omega

/-- Where the offsets are those that follow from the boards, a key is counted behind the
boards before its own. -/
theorem HasKey.sharedCode_eq {board code : Nat} (h : config.HasKey board code)
    (hoffsets : config.offsets = (List.range config.boardScanCodes.length).map fun i =>
      keyCount (config.boardScanCodes.take i)) :
    config.sharedCode board code =
      some (code + keyCount (config.boardScanCodes.take board)) := by
  obtain ⟨size, hsize, _⟩ := h
  have hlt := (List.getElem?_eq_some_iff.mp hsize).1
  have hbuild : (Assembly.build config).offsets = config.offsets := rfl
  have hoffset : config.offsets[board]? =
      some (keyCount (config.boardScanCodes.take board)) := by
    rw [hoffsets, List.getElem?_map, List.getElem?_range hlt, Option.map_some]
  rw [sharedCode, hbuild, boardOffset, hoffset, Option.map_some]

/-- Where the report has no errors and no offsets are declared, the offset of every board
is the number of keys on the boards before it. The list through which an element fires that
waits for a key is that of the key's scan code among all boards, and no two keys of
the boards have one scan code. -/
theorem keys_apart (hderived : config.interconnectOffsets = [])
    (h : config.check.hasErrors = false) :
    (Assembly.build config).offsets = (List.range config.boardScanCodes.length).map
        (fun i => keyCount (config.boardScanCodes.take i)) ∧
    (∀ board code state, (Assembly.triggerScope config).listUid (.switch code board state) =
      config.sharedCode board.toNat code.toNat) ∧
    ∀ board code other otherCode, config.HasKey board code → config.HasKey other otherCode →
      (board, code) ≠ (other, otherCode) →
        ∃ m n, config.sharedCode board code = some m ∧
          config.sharedCode other otherCode = some n ∧ m ≠ n := by
  have hw := WellFormed.of_check h
  have hoffsets := offsets_eq_map hderived fun offset hoffset => by
    have hmax := hw.offsets offset hoffset
    have hbyte := hw.maxScanCode
    have hlimit : maxOffset = 65535 := rfl
    omega
  refine ⟨hoffsets, fun _ _ _ => rfl, ?_⟩
  intro board code other otherCode hkey hother hne
  refine ⟨_, _, hkey.sharedCode_eq hoffsets, hother.sharedCode_eq hoffsets, ?_⟩
  intro he
  obtain ⟨rfl, rfl⟩ := hkey.eq_of_add_eq hother he
  exact hne rfl

/-- Four boards that are connected: the second has no keys, and the last one has more than
there are scan codes. -/
def coupled : Config := { sample with boardScanCodes := [3, 0, 5, 60000] }

/-- The board without keys takes no offsets, the size of the last board counts for none, and
the last key of the first board stays apart from the first key of the third. -/
theorem keys_apart_coupled :
    coupled.interconnectOffsets = [] ∧ coupled.check.hasErrors = false ∧
      (Assembly.build coupled).offsets = [0, 3, 3, 8] ∧
      coupled.HasKey 0 2 ∧ coupled.HasKey 2 0 ∧
      ∃ m n, coupled.sharedCode 0 2 = some m ∧ coupled.sharedCode 2 0 = some n ∧ m ≠ n := by
  have hderived : coupled.interconnectOffsets = [] := rfl
  have hcheck : coupled.check.hasErrors = false := by decide +kernel
  have hlast : coupled.HasKey 0 2 := ⟨3, rfl, by decide⟩
  have hfirst : coupled.HasKey 2 0 := ⟨5, rfl, by decide⟩
  obtain ⟨hoffsets, _, hapart⟩ := keys_apart hderived hcheck
  refine ⟨hderived, hcheck, ?_, hlast, hfirst, hapart 0 2 2 0 hlast hfirst (by decide)⟩
  rw [hoffsets]
  decide

end Config

end Keymap
