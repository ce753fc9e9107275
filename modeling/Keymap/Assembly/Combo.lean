import Keymap.Report

/-!
# The shape of combos

Results and triggers are sequences of combos. A sequence has at least one
combo, and a combo has at least one element and no more than a byte counts.
-/

namespace Keymap.Assembly

/-- The greatest number of elements in a combo. -/
def maxCombo : Nat := 255

/-- The finding on a combo without elements, or on a sequence without combos. -/
def emptyFinding (symbol : String) (step : Nat) : Finding :=
  .error .comboShape symbol (.shape (.emptyCombo symbol step))

/-- The finding on a combo with too many elements. -/
def oversizeFinding (symbol : String) (count : Nat) : Finding :=
  .error .comboShape symbol (.range (.indexOverflow (symbol ++ " combo") count 8 maxCombo))

/-- The findings on the size of a combo. -/
def comboFindings (symbol : String) (step count : Nat) : List Finding :=
  (if count = 0 then [emptyFinding symbol step] else []) ++
    if maxCombo < count then [oversizeFinding symbol count] else []

/-- The findings on a sequence of combos, where `inner` finds what is wrong with the elements. -/
def sequenceFindings (symbol : String) (inner : List α → List Finding) (steps : List (List α)) :
    List Finding :=
  (if steps.isEmpty then [emptyFinding symbol 0] else []) ++
    steps.zipIdx.flatMap fun (combo, step) =>
      comboFindings symbol step combo.length ++ inner combo

/-- The error of a computation that failed. -/
def errorOf : Except ε α → Option ε
  | .ok _ => none
  | .error e => some e

end Keymap.Assembly
