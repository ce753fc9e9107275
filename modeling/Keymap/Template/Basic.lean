import Keymap.Fault
import Keymap.Failure
import Keymap.Template.Placeholder

/-!
# Templates

A template is a text in which placeholders stand between `<|` and `|>`. It is
read from the left into segments, so that what stands before a mistake does not
matter and the first mistake is the one that is reported. A placeholder ends at
the first `|>` behind its beginning.
-/

namespace Keymap

/-- A part of a template. -/
inductive Segment where
  | literal (text : String)
  | slot (placeholder : Placeholder)
  deriving DecidableEq

/-- A text with placeholders. -/
structure Template where
  name : String
  segments : List Segment
  deriving DecidableEq

namespace Template

/-- What stands before and behind the first occurrence of two characters. -/
def cut (a b : Char) : List Char → Option (List Char × List Char)
  | x :: y :: rest =>
    if x = a ∧ y = b then some ([], rest)
    else (cut a b (y :: rest)).map fun (before, behind) => (x :: before, behind)
  | _ => none

/-- A cut text is put together again by the two characters. -/
theorem eq_of_cut {a b : Char} {cs before behind : List Char}
    (h : cut a b cs = some (before, behind)) : cs = before ++ a :: b :: behind := by
  fun_induction cut a b cs generalizing before behind with
  | case1 x y rest hxy => simp_all
  | case2 x y rest hxy ih =>
    obtain ⟨⟨tail, end'⟩, hcut, hpair⟩ := Option.map_eq_some_iff.1 h
    simp only [Prod.mk.injEq] at hpair
    obtain ⟨rfl, rfl⟩ := hpair
    rw [ih hcut, List.cons_append]
  | case3 => simp at h

/-- The text behind a cut is shorter. -/
theorem length_lt_of_cut {a b : Char} {cs before behind : List Char}
    (h : cut a b cs = some (before, behind)) : behind.length < cs.length := by
  rw [eq_of_cut h]
  simp only [List.length_append, List.length_cons]
  omega

/-- The number of line breaks. -/
def lineBreaks (cs : List Char) : Nat := cs.count '\n'

/-- The segment of a text, none if it is empty. -/
def literals (cs : List Char) : List Segment :=
  if cs.isEmpty then [] else [.literal (String.ofList cs)]

/-- The segments of a text that begins on a line. -/
def readFrom (template : String) (line : Nat) (cs : List Char) :
    Except TemplateFault (List Segment) :=
  match _opened : cut '<' '|' cs with
  | none => .ok (literals cs)
  | some (before, inside) =>
    let line := line + lineBreaks before
    match _closed : cut '|' '>' inside with
    | none => .error (.unterminated template line)
    | some (body, rest) =>
      if (cut '<' '|' body).isSome then .error (.nested template line)
      else
        match Placeholder.ofName? (String.ofList body) with
        | none => .error (.unknown template (String.ofList body) line)
        | some placeholder => do
          let segments ← readFrom template (line + lineBreaks body) rest
          return literals before ++ .slot placeholder :: segments
termination_by cs.length
decreasing_by
  have outer := length_lt_of_cut _opened
  have inner := length_lt_of_cut _closed
  omega

/-- The template that a text writes. -/
def ofText (name text : String) : Except TemplateFault Template := do
  return ⟨name, ← readFrom name 1 text.toList⟩

/-- The text of a segment in a template. -/
def Segment.source : Segment → String
  | .literal text => text
  | .slot placeholder => "<|" ++ placeholder.name ++ "|>"

/-- The text of a template. -/
def source (template : Template) : String := String.join (template.segments.map Segment.source)

/-- The placeholder of a segment. -/
def slot? : Segment → Option Placeholder
  | .literal _ => none
  | .slot placeholder => some placeholder

/-- The placeholders of a template in their order. -/
def placeholders (template : Template) : List Placeholder := template.segments.filterMap slot?

/-- The text that stands for a segment. -/
def fill (name : String) (assembly : Assembly) : Segment → Except TemplateFault String
  | .literal text => .ok text
  | .slot placeholder =>
    match placeholder.text? assembly with
    | some text => .ok text
    | none => .error (.noGenerator name placeholder.name)

/-- The text with every placeholder replaced by its listing. -/
def render (template : Template) (assembly : Assembly) : Except TemplateFault String := do
  return String.join (← template.segments.mapM (fill template.name assembly))

end Template

end Keymap
