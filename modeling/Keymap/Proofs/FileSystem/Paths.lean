import Keymap.FileSystem.Path
import Mathlib.Data.List.Basic

/-!
# The directory of a path

A path is followed step by step, and the path to its directory is made anew of the
parts that say something. Both begin at the same place and have the same steps, apart
from those that say nothing.
-/

namespace Keymap.Path

/-- A step moves a walk if it is neither empty nor a point. -/
def Moves (step : String) : Prop := step ≠ "" ∧ step ≠ "."

instance (step : String) : Decidable (Moves step) := inferInstanceAs (Decidable (_ ∧ _))

/-- The steps that move a walk. -/
def moving (steps : List String) : List String := steps.filter fun step => decide (Moves step)

section Pieces

variable {separator : Char} {text : List Char}

/-- The pieces of a text are what is split off at the separators. -/
theorem pieces_eq_splitOn : pieces separator text = text.splitOn separator := by
  induction text with
  | nil => rfl
  | cons c rest ih =>
    obtain ⟨piece, more, hrest⟩ := List.exists_cons_of_ne_nil (List.splitOn_ne_nil separator rest)
    rw [pieces, List.splitOn_cons_eq_if_modifyHead, ih, hrest]
    by_cases hc : c = separator
    · rw [if_pos hc, if_pos (beq_iff_eq.mpr hc)]
    · rw [if_neg hc, if_neg (mt beq_iff_eq.mp hc)]
      rfl

/-- No piece holds the separator. -/
theorem notMem_of_mem_pieces {piece : List Char} (h : piece ∈ pieces separator text) :
    separator ∉ piece := by
  induction text generalizing piece with
  | nil =>
    rw [pieces, List.mem_singleton] at h
    rw [h]
    exact List.not_mem_nil
  | cons c rest ih =>
    rw [pieces] at h
    split at h
    next =>
      rcases List.mem_cons.mp h with rfl | h
      · exact List.not_mem_nil
      · exact ih h
    next hc =>
      split at h
      next =>
        rw [List.mem_singleton.mp h, List.mem_singleton]
        exact fun he => hc he.symm
      next first more hpieces =>
        rw [hpieces] at ih
        rcases List.mem_cons.mp h with rfl | h
        · rw [List.mem_cons, not_or]
          exact ⟨fun he => hc he.symm, ih (List.mem_cons_self ..)⟩
        · exact ih (List.mem_cons_of_mem _ h)

end Pieces

section Steps

/-- No step of a path has a slash in it. -/
theorem notMem_of_mem_steps {path step : String} (h : step ∈ steps path) :
    '/' ∉ step.toList := by
  obtain ⟨piece, hpiece, rfl⟩ := List.mem_map.mp h
  rw [String.toList_ofList]
  exact notMem_of_mem_pieces hpiece

/-- Every path has a step, if only an empty one. -/
theorem steps_ne_nil (path : String) : steps path ≠ [] := by
  rw [steps, pieces_eq_splitOn, ne_eq, List.map_eq_nil_iff]
  exact List.splitOn_ne_nil '/' path.toList

/-- A path that is made of steps has these steps. -/
theorem steps_intercalate {parts : List String} (hne : parts ≠ [])
    (h : ∀ part ∈ parts, '/' ∉ part.toList) : steps (String.intercalate "/" parts) = parts := by
  have hstroke : "/".toList = ['/'] := rfl
  have hlists : ∀ part ∈ parts.map String.toList, '/' ∉ part := List.forall_mem_map.mpr h
  have hne' : parts.map String.toList ≠ [] := mt List.map_eq_nil_iff.mp hne
  have hback : (String.ofList ∘ String.toList) = id := funext fun _ => String.ofList_toList
  rw [steps, pieces_eq_splitOn, String.toList_intercalate, hstroke,
    List.splitOn_intercalate _ hlists hne', List.map_map, hback, List.map_id]

/-- A stroke before a path is behind an empty step. -/
theorem steps_stroke (path : String) : steps ("/" ++ path) = "" :: steps path := by
  rw [steps, String.toList_append]
  rfl

/-- A path begins at the root if its first step is empty and not its only one. -/
theorem isAbsolute_iff {path first : String} {rest : List String}
    (h : steps path = first :: rest) : isAbsolute path = true ↔ first = "" ∧ rest ≠ [] := by
  rw [isAbsolute, decide_eq_true_iff]
  rw [steps, pieces_eq_splitOn] at h
  cases hpath : path.toList with
  | nil =>
    rw [hpath, List.splitOn_nil, List.map_singleton, List.cons.injEq] at h
    simp [← h.2]
  | cons c text =>
    obtain ⟨piece, more, htext⟩ := List.exists_cons_of_ne_nil (List.splitOn_ne_nil '/' text)
    rw [hpath, List.splitOn_cons_eq_if_modifyHead, htext] at h
    rw [List.head?_cons, Option.some.injEq]
    by_cases hc : c = '/'
    · rw [if_pos (beq_iff_eq.mpr hc), List.map_cons, List.map_cons, List.cons.injEq] at h
      simp [hc, ← h.1, ← h.2]
    · rw [if_neg (mt beq_iff_eq.mp hc), List.modifyHead_cons, List.map_cons, List.cons.injEq] at h
      simp [hc, ← h.1, ← String.toList_eq_nil_iff]

end Steps

section Parent

variable {path name : String}

theorem moving_cons_of_moves {step : String} (h : Moves step) (steps : List String) :
    moving (step :: steps) = step :: moving steps :=
  List.filter_cons_of_pos (decide_eq_true h)

theorem moving_cons_of_not_moves {step : String} (h : ¬ Moves step) (steps : List String) :
    moving (step :: steps) = moving steps :=
  List.filter_cons_of_neg (by rwa [decide_eq_true_iff])

theorem moving_moving (steps : List String) : moving (moving steps) = moving steps := by
  simp only [moving, List.filter_filter, Bool.and_self]

/-- Steps behind another one may be left out before or after it is added. -/
theorem moving_cons_moving (step : String) (steps : List String) :
    moving (step :: moving steps) = moving (step :: steps) := by
  by_cases h : Moves step
  · rw [moving_cons_of_moves h, moving_cons_of_moves h, moving_moving]
  · rw [moving_cons_of_not_moves h, moving_cons_of_not_moves h, moving_moving]

/-- The path made of the steps that move a walk has these steps. -/
theorem moving_steps_intercalate {way : List String} (h : ∀ step ∈ way, '/' ∉ step.toList) :
    moving (steps (String.intercalate "/" (moving way))) = moving way := by
  by_cases hway : moving way = []
  · rw [hway]
    decide +kernel
  · have hstroke : ∀ step ∈ moving way, '/' ∉ step.toList := fun step hstep =>
      h step (List.mem_of_mem_filter hstep)
    rw [steps_intercalate hway hstroke, moving_moving]

/-- The parts of a path whose last step moves a walk. -/
theorem parts_eq {first : String} {mid : List String} (h : steps path = first :: (mid ++ [name]))
    (hname : Moves name) :
    parts path = (if first = "" then [] else [first]) ++ moving mid ++ [name] := by
  have hfilter : (mid ++ [name]).filter (fun part => part ≠ "" && part ≠ ".") =
      moving (mid ++ [name]) := by
    exact List.filter_congr fun part _ => (Bool.decide_and ..).symm
  have hlast : moving [name] = [name] := moving_cons_of_moves hname []
  rw [parts, h, List.append_assoc]
  refine congrArg (_ ++ ·) (hfilter.trans ?_)
  rw [moving, List.filter_append]
  exact congrArg (_ ++ ·) hlast

/-- The path to the directory is the one made of the parts before the last one. -/
theorem parent_eq {directory : String}
    (h : ofParts (isAbsolute path && !(parts path).isEmpty) (parts path).dropLast = directory)
    (hne : directory ≠ "") : parent path = directory := by
  rw [parent]
  simp only [h, if_neg hne]

/-- The directory of a path from the root is a path from the root. -/
theorem steps_parent_of_root {mid : List String} (h : steps path = "" :: (mid ++ [name]))
    (hname : Moves name) :
    steps (parent path) = "" :: steps (String.intercalate "/" (moving mid)) := by
  have hparts : parts path = moving mid ++ [name] := parts_eq h hname
  have habsolute : isAbsolute path = true := (isAbsolute_iff h).mpr ⟨rfl, by simp⟩
  have hparent : parent path = "/" ++ String.intercalate "/" (moving mid) := by
    refine parent_eq ?_ (by simp)
    rw [habsolute, hparts, List.dropLast_concat]
    simp [ofParts]
  rw [hparent, steps_stroke]

/-- The directory of a path from elsewhere begins with the first step of the path. -/
theorem steps_parent_of_relative {first : String} {mid : List String} (hfirst : first ≠ "")
    (h : steps path = first :: (mid ++ [name])) (hname : Moves name) :
    steps (parent path) = first :: moving mid := by
  have hmem : ∀ step ∈ first :: (mid ++ [name]), '/' ∉ step.toList := fun step hstep =>
    notMem_of_mem_steps (h ▸ hstep)
  have hstroke : ∀ step ∈ first :: moving mid, '/' ∉ step.toList := by
    refine List.forall_mem_cons.mpr ⟨hmem first (List.mem_cons_self ..), fun step hstep => ?_⟩
    have hmid : step ∈ mid := List.mem_of_mem_filter hstep
    exact hmem step (List.mem_cons_of_mem _ (List.mem_append_left _ hmid))
  have hsteps := steps_intercalate (List.cons_ne_nil first (moving mid)) hstroke
  have hne : String.intercalate "/" (first :: moving mid) ≠ "" := by
    intro hempty
    have hnone : steps "" = [""] := rfl
    rw [hempty, hnone, List.cons.injEq] at hsteps
    exact hfirst hsteps.1.symm
  have hrelative : isAbsolute path = false := by
    rw [← Bool.not_eq_true, isAbsolute_iff h]
    exact fun hroot => hfirst hroot.1
  have hparent : parent path = String.intercalate "/" (first :: moving mid) := by
    refine parent_eq ?_ hne
    rw [hrelative, parts_eq h hname, List.dropLast_concat, if_neg hfirst]
    exact String.empty_append
  rw [hparent, hsteps]

/-- A path of one step names something in the current directory. -/
theorem parent_of_name (h : steps path = [name]) (hname : Moves name) : parent path = "." := by
  have hrelative : isAbsolute path = false := by
    rw [← Bool.not_eq_true, isAbsolute_iff h]
    exact fun hroot => hroot.2 rfl
  have hparts : parts path = [name] := by
    rw [parts, h]
    simp [hname.1]
  rw [parent, hparts, hrelative]
  rfl

/-- The path to the directory of a path begins where the path begins, and it has those steps of
the path before the last one that move a walk. -/
theorem steps_parent {way : List String} (h : steps path = way ++ [name]) (hname : Moves name) :
    isAbsolute (parent path) = isAbsolute path ∧ moving (steps (parent path)) = moving way := by
  have hmem : ∀ step ∈ way, '/' ∉ step.toList := fun step hstep =>
    notMem_of_mem_steps (h ▸ List.mem_append_left _ hstep)
  -- without a way the directory is a point, and points are no steps of a walk either
  cases way with
  | nil =>
    have hpoint : steps "." = ["."] := rfl
    rw [parent_of_name h hname, Bool.eq_iff_iff, isAbsolute_iff h, isAbsolute_iff hpoint, hpoint]
    exact ⟨iff_of_false (fun hroot => hroot.2 rfl) fun hroot => hroot.2 rfl, by decide⟩
  | cons first mid =>
    by_cases hfirst : first = ""
    · subst hfirst
      have hsteps := steps_parent_of_root h hname
      rw [Bool.eq_iff_iff, isAbsolute_iff h, isAbsolute_iff hsteps, hsteps,
        moving_cons_of_not_moves (by decide), moving_cons_of_not_moves (by decide)]
      refine ⟨iff_of_true ⟨rfl, steps_ne_nil _⟩ ⟨rfl, by simp⟩, ?_⟩
      exact moving_steps_intercalate (List.forall_mem_cons.mp hmem).2
    · have hsteps := steps_parent_of_relative hfirst h hname
      rw [Bool.eq_iff_iff, isAbsolute_iff h, isAbsolute_iff hsteps, hsteps, moving_cons_moving]
      exact ⟨iff_of_false (fun hroot => hfirst hroot.1) fun hroot => hfirst hroot.1, rfl⟩

end Parent

end Keymap.Path
