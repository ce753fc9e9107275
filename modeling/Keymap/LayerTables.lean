/-!
# The tables that layers fill

The triggers that a layer binds are filed under scan codes, and their rotations
are recorded with the greatest parameters.
-/

namespace Keymap

/-!
## Trigger lists by scan code

A layer files its triggers under the scan codes, or other uids, through which
they fire. The lists are held in ascending order of the scan codes, and each
list holds distinct trigger indices in ascending order.
-/

/-- The trigger lists of a layer. -/
structure ScanMap where
  lists : List (Nat × List Nat) := []
  deriving DecidableEq

namespace ScanMap

/-- A map without lists. -/
def empty : ScanMap := {}

/-- Insert an index into an ascending list, unless it is there. -/
def insertIndex (trigger : Nat) : List Nat → List Nat
  | [] => [trigger]
  | t :: rest =>
    if trigger < t then trigger :: t :: rest
    else if trigger = t then t :: rest
    else t :: insertIndex trigger rest

/-- Insert an index into the list of a scan code. -/
def insertList (scanCode trigger : Nat) : List (Nat × List Nat) → List (Nat × List Nat)
  | [] => [(scanCode, [trigger])]
  | (s, ts) :: rest =>
    if scanCode < s then (scanCode, [trigger]) :: (s, ts) :: rest
    else if scanCode = s then (s, insertIndex trigger ts) :: rest
    else (s, ts) :: insertList scanCode trigger rest

/-- File a trigger under a scan code. -/
def insert (map : ScanMap) (scanCode trigger : Nat) : ScanMap :=
  ⟨insertList scanCode trigger map.lists⟩

/-- The least scan code with a list. -/
def first? (map : ScanMap) : Option Nat := map.lists.head?.map (·.1)

/-- The greatest scan code with a list. -/
def last? (map : ScanMap) : Option Nat := map.lists.getLast?.map (·.1)

/-- The triggers filed under a scan code. -/
def get (map : ScanMap) (scanCode : Nat) : List Nat := (map.lists.lookup scanCode).getD []

/-- The lists of all scan codes from `start` up to `stop`. -/
def dense (map : ScanMap) (start stop : Nat) : List (List Nat) :=
  (List.range' start (stop + 1 - start)).map map.get

/-- The lists from the least to the greatest scan code with a list, and the
least one; a map without lists has one empty list at zero. -/
def span (map : ScanMap) : Nat × List (List Nat) :=
  match map.first?, map.last? with
  | some first, some last => (first, map.dense first last)
  | _, _ => (0, [[]])

end ScanMap

/-!
## Rotation parameters

Each rotation has a uid, and the firmware needs the greatest parameter that any
of its elements has. The table is indexed by the uid; a uid that is not in use
has zero.
-/

/-- The greatest parameters in the order of the uids, up to the greatest uid in use. -/
structure RotationTable where
  maxima : List UInt8 := []
  deriving DecidableEq

namespace RotationTable

/-- A table without rotations. -/
def empty : RotationTable := {}

/-- The table padded with zeros until it has a uid. -/
def padded (table : RotationTable) (uid : Nat) : List UInt8 :=
  table.maxima ++ List.replicate (uid + 1 - table.maxima.length) 0

/-- Take a parameter of a uid into account. -/
def record (table : RotationTable) (uid param : UInt8) : RotationTable :=
  ⟨(table.padded uid.toNat).modify uid.toNat (max param)⟩

end RotationTable

end Keymap
