import Keymap.Proofs.Outcome

/-!
# How templates are read

A text is scanned from the left: a token begins at the first opening mark behind the
token before it, and its body ends at the first closing mark from there on. While the
bodies are names of placeholders the text is the same as the segments that are read;
the first token with another body, or without an end, is the one that is reported.
What is generated for a placeholder is not scanned again.
-/

namespace Keymap

/-- No two placeholders have one name. -/
theorem Placeholder.name_injective : Function.Injective Placeholder.name := by
  intro p q h
  have hall : ∀ p ∈ all, ∀ q ∈ all, p.name = q.name → p = q := by decide +kernel
  exact hall p (mem_all p) q (mem_all q) h

/-- Exactly the placeholder with a name is found by it. -/
theorem Placeholder.ofName?_eq_some_iff {name : String} {p : Placeholder} :
    ofName? name = some p ↔ p.name = name := by
  rw [ofName?, find?_eq_some_iff_mem fun _ _ _ _ he => name_injective he]
  exact and_iff_right (mem_all p)

example : Placeholder.all.length = 32 := rfl

namespace Template

section Marks

/-- A mark stands for the first time between two parts of a text. -/
structure FirstMark (mark text before behind : List Char) : Prop where
  eq : text = before ++ mark ++ behind
  first : ∀ p q, text = p ++ mark ++ q → before.length ≤ p.length

/-- A mark stands for the first time at one place only. -/
theorem FirstMark.unique {mark text before behind before' behind' : List Char}
    (h : FirstMark mark text before behind) (h' : FirstMark mark text before' behind') :
    before = before' ∧ behind = behind' := by
  have hlength : before.length = before'.length :=
    Nat.le_antisymm (h.first _ _ h'.eq) (h'.first _ _ h.eq)
  have heq := h.eq.symm.trans h'.eq
  rw [List.append_assoc, List.append_assoc] at heq
  obtain ⟨hbefore, hrest⟩ := List.append_inj heq hlength
  exact ⟨hbefore, List.append_cancel_left hrest⟩

/-- Before the first mark there is none. -/
theorem FirstMark.not_infix_before {mark text before behind : List Char} (hmark : mark ≠ [])
    (h : FirstMark mark text before behind) : ¬ mark <:+: before := by
  rintro ⟨p, q, rfl⟩
  have hle := h.first p (q ++ mark ++ behind) (by rw [h.eq]; simp only [List.append_assoc])
  have hpos := List.length_pos_iff.mpr hmark
  simp only [List.length_append] at hle
  omega

variable {a b : Char} {cs before behind : List Char}

/-- A text is cut nowhere exactly if it does not have the mark. -/
theorem cut_eq_none_iff : cut a b cs = none ↔ ¬ [a, b] <:+: cs := by
  fun_induction cut a b cs with
  | case1 x y rest hxy =>
    obtain ⟨rfl, rfl⟩ := hxy
    simp only [reduceCtorEq, false_iff, not_not]
    exact ⟨[], rest, rfl⟩
  | case2 x y rest hxy ih =>
    have hprefix : ¬ [a, b] <+: x :: y :: rest := by
      rintro ⟨tail, heq⟩
      injection heq with hx hrest
      injection hrest with hy _
      exact hxy ⟨hx.symm, hy.symm⟩
    have hcons : [a, b] <:+: x :: y :: rest ↔ [a, b] <:+: y :: rest := by
      rw [List.infix_cons_iff, or_iff_right hprefix]
    rw [Option.map_eq_none_iff, ih, hcons]
  | case3 cs hshort =>
    refine iff_of_true rfl ?_
    rintro ⟨p, q, rfl⟩
    rcases p with _ | ⟨x, _ | ⟨y, p⟩⟩
    · exact hshort a b q rfl
    · exact hshort x a (b :: q) rfl
    · exact hshort x y (p ++ [a, b] ++ q) rfl

/-- A text is cut where the mark stands for the first time. -/
theorem firstMark_of_cut (h : cut a b cs = some (before, behind)) :
    FirstMark [a, b] cs before behind := by
  refine ⟨by simpa using eq_of_cut h, ?_⟩
  fun_induction cut a b cs generalizing before behind with
  | case1 x y rest hxy =>
    cases h
    exact fun _ _ _ => Nat.zero_le _
  | case2 x y rest hxy ih =>
    obtain ⟨⟨tail, behind'⟩, hcut, hpair⟩ := Option.map_eq_some_iff.mp h
    cases hpair
    rintro (_ | ⟨z, p⟩) q heq
    · injection heq with hx hrest
      injection hrest with hy _
      exact absurd ⟨hx, hy⟩ hxy
    · injection heq with _ hrest
      exact Nat.succ_le_succ (ih hcut p q hrest)
  | case3 => cases h

/-- A text is cut exactly at the first place where the mark stands. -/
theorem cut_eq_some_iff :
    cut a b cs = some (before, behind) ↔ FirstMark [a, b] cs before behind := by
  refine ⟨firstMark_of_cut, fun h => ?_⟩
  cases hcut : cut a b cs with
  | none =>
    have hinfix : [a, b] <:+: cs := ⟨before, behind, h.eq.symm⟩
    exact absurd hinfix (cut_eq_none_iff.mp hcut)
  | some parts =>
    obtain ⟨p, q⟩ := parts
    obtain ⟨rfl, rfl⟩ := (firstMark_of_cut hcut).unique h
    rfl

end Marks

/-- The mark at which a token begins. -/
def opening : List Char := ['<', '|']

/-- The mark at which a token ends. -/
def closing : List Char := ['|', '>']

/-- A token whose body is the name of a placeholder, with the text between the token
before it and its opening mark. -/
structure Placed where
  before : List Char
  placeholder : Placeholder

/-- The text of a placeholder in a template. -/
def mark (p : Placeholder) : List Char := opening ++ p.name.toList ++ closing

/-- A text with some text for each of its placeholders. -/
def written (write : Placeholder → List Char) (placed : List Placed) (tail : List Char) :
    List Char :=
  (placed.flatMap fun token => token.before ++ write token.placeholder) ++ tail

/-- The segments of a text, none of them empty. -/
def segmentsOf (placed : List Placed) (tail : List Char) : List Segment :=
  (placed.flatMap fun token => literals token.before ++ [.slot token.placeholder]) ++ literals tail

/-- Scanning a text from the left finds tokens one after another, all of which have names
of placeholders as their bodies; some text is left over. -/
inductive Scanned : (text : List Char) → List Placed → (tail : List Char) → Prop
  | nil (text : List Char) : Scanned text [] text
  | cons {text before inside rest tail : List Char} {p : Placeholder} {placed : List Placed}
    (opens : FirstMark opening text before inside)
    (closes : FirstMark closing inside p.name.toList rest)
    (later : Scanned rest placed tail) : Scanned text (⟨before, p⟩ :: placed) tail

/-- The line on which a token begins, behind placed tokens and some more text. -/
def lineOf (placed : List Placed) (before : List Char) : Nat :=
  1 + lineBreaks (written mark placed before)

/-- What scanning a text from the left leads to. -/
inductive Reads (name : String) (text : List Char) : Except TemplateFault Template → Prop
  /-- All tokens are placeholders. -/
  | ok {placed : List Placed} {tail : List Char} (scanned : Scanned text placed tail)
    (done : ¬ opening <:+: tail) : Reads name text (.ok ⟨name, segmentsOf placed tail⟩)
  /-- The first token that is no placeholder has no end. -/
  | unterminated {placed : List Placed} {tail before inside : List Char}
    (scanned : Scanned text placed tail) (opens : FirstMark opening tail before inside)
    (endless : ¬ closing <:+: inside) :
    Reads name text (.error (.unterminated name (lineOf placed before)))
  /-- Another token begins in the body of the first token that is no placeholder. -/
  | nested {placed : List Placed} {tail before inside body rest : List Char}
    (scanned : Scanned text placed tail) (opens : FirstMark opening tail before inside)
    (closes : FirstMark closing inside body rest) (inner : opening <:+: body) :
    Reads name text (.error (.nested name (lineOf placed before)))
  /-- The body of the first token that is no placeholder is some other name. -/
  | unknown {placed : List Placed} {tail before inside body rest : List Char}
    (scanned : Scanned text placed tail) (opens : FirstMark opening tail before inside)
    (closes : FirstMark closing inside body rest) (plain : ¬ opening <:+: body)
    (unnamed : ∀ p : Placeholder, p.name.toList ≠ body) :
    Reads name text (.error (.unknown name (String.ofList body) (lineOf placed before)))

/-- The names of placeholders have no opening mark. -/
theorem not_opening_infix_name (p : Placeholder) : ¬ opening <:+: p.name.toList := by
  have hall : ∀ p ∈ Placeholder.all, cut '<' '|' p.name.toList = none := by decide +kernel
  exact cut_eq_none_iff.mp (hall p p.mem_all)

section Steps

variable {name : String} {line : Nat} {cs before inside body rest : List Char}

/-- A token begins in a text exactly if the text is cut there. -/
theorem isSome_cut_opening_iff : (cut '<' '|' cs).isSome = true ↔ opening <:+: cs := by
  rw [← Option.ne_none_iff_isSome, ne_eq, cut_eq_none_iff, not_not]
  rfl

/-- A text without an opening mark is literal. -/
theorem readFrom_of_not_infix (h : ¬ opening <:+: cs) :
    readFrom name line cs = .ok (literals cs) := by
  have hcut : cut '<' '|' cs = none := cut_eq_none_iff.mpr h
  rw [readFrom]
  split
  · rfl
  next hopened => rw [hcut] at hopened; cases hopened

/-- A token that is not closed is found fault with at the line of its opening mark. -/
theorem readFrom_of_unterminated (h : FirstMark opening cs before inside)
    (h' : ¬ closing <:+: inside) :
    readFrom name line cs = .error (.unterminated name (line + lineBreaks before)) := by
  have hcut := cut_eq_some_iff.mpr h
  have hclosed : cut '|' '>' inside = none := cut_eq_none_iff.mpr h'
  rw [readFrom]
  split
  next hopened => rw [hcut] at hopened; cases hopened
  next before' inside' hopened =>
    rw [hcut] at hopened
    cases hopened
    split
    next hcut' => rfl
    next hcut' => rw [hclosed] at hcut'; cases hcut'

/-- What a closed token leads to. -/
theorem readFrom_of_closed (h : FirstMark opening cs before inside)
    (h' : FirstMark closing inside body rest) :
    readFrom name line cs =
      if (cut '<' '|' body).isSome then .error (.nested name (line + lineBreaks before))
      else
        (Placeholder.ofName? (String.ofList body)).elim
          (.error (.unknown name (String.ofList body) (line + lineBreaks before)))
          fun p => (readFrom name (line + lineBreaks before + lineBreaks body) rest).map
            fun segments => literals before ++ .slot p :: segments := by
  have hcut := cut_eq_some_iff.mpr h
  have hclosed := cut_eq_some_iff.mpr h'
  rw [readFrom]
  split
  next hopened => rw [hcut] at hopened; cases hopened
  next before' inside' hopened =>
    rw [hcut] at hopened
    cases hopened
    split
    next hcut' => rw [hclosed] at hcut'; cases hcut'
    next body' rest' hcut' =>
      rw [hclosed] at hcut'
      cases hcut'
      dsimp only
      split
      · rfl
      · cases Placeholder.ofName? (String.ofList body) with
        | none => rfl
        | some p => cases readFrom name (line + lineBreaks before + lineBreaks body) rest <;> rfl

end Steps

theorem literals_eq_nil_iff {cs : List Char} : literals cs = [] ↔ cs = [] := by
  cases cs <;> simp [literals]

theorem lineBreaks_append (first second : List Char) :
    lineBreaks (first ++ second) = lineBreaks first + lineBreaks second :=
  List.count_append

theorem written_cons (write : Placeholder → List Char) (token : Placed) (placed : List Placed)
    (tail : List Char) : written write (token :: placed) tail =
      token.before ++ write token.placeholder ++ written write placed tail := by
  simp only [written, List.flatMap_cons, List.append_assoc]

theorem segmentsOf_cons (token : Placed) (placed : List Placed) (tail : List Char) :
    segmentsOf (token :: placed) tail =
      literals token.before ++ .slot token.placeholder :: segmentsOf placed tail := by
  simp only [segmentsOf, List.flatMap_cons, List.append_assoc, List.cons_append, List.nil_append]

/-- The marks of a token have no line breaks. -/
theorem lineBreaks_mark (p : Placeholder) : lineBreaks (mark p) = lineBreaks p.name.toList := by
  rw [mark, lineBreaks_append, lineBreaks_append]
  exact Nat.zero_add _

namespace Scanned

variable {text tail : List Char} {placed : List Placed}

/-- A text is what is scanned of it and what is left over. -/
theorem text_eq (h : Scanned text placed tail) : text = written mark placed tail := by
  induction h with
  | nil => rfl
  | cons opens closes _ ih =>
    rw [written_cons, ← ih, opens.eq, closes.eq]
    simp only [mark, List.append_assoc]

/-- The tokens are read one by one, and what is left over is read behind them. -/
theorem readFrom_eq (h : Scanned text placed tail) (name : String) (line : Nat) :
    readFrom name line text =
      (readFrom name (line + lineBreaks (written mark placed [])) tail).map
        fun segments => segmentsOf placed [] ++ segments := by
  induction h generalizing line with
  | nil => cases hread : readFrom name line _ <;> simp [written, segmentsOf, literals, lineBreaks,
      hread, Except.map]
  | @cons text before inside rest tail p placed opens closes later ih =>
    have hname : Placeholder.ofName? (String.ofList p.name.toList) = some p := by
      rw [String.ofList_toList]
      exact Placeholder.ofName?_eq_some_iff.mpr rfl
    rw [readFrom_of_closed opens closes,
      if_neg (isSome_cut_opening_iff.not.mpr (not_opening_infix_name p)), hname, Option.elim_some,
      ih, written_cons, lineBreaks_append, lineBreaks_append, lineBreaks_mark, Nat.add_assoc line,
      Nat.add_assoc line, segmentsOf_cons]
    cases readFrom name _ tail <;> simp [Except.map]

/-- No text before a placeholder has an opening mark. -/
theorem not_opening_infix_before (h : Scanned text placed tail) :
    ∀ token ∈ placed, ¬ opening <:+: token.before := by
  induction h with
  | nil => exact fun _ hmem => absurd hmem List.not_mem_nil
  | cons opens _ _ ih =>
    exact List.forall_mem_cons.mpr ⟨opens.not_infix_before (List.cons_ne_nil _ _), ih⟩

end Scanned

/-- The line of a token counts the line breaks of the tokens before it and those of the
text between. -/
theorem lineOf_eq (placed : List Placed) (before : List Char) :
    lineOf placed before = 1 + lineBreaks (written mark placed []) + lineBreaks before := by
  simp only [lineOf, written, lineBreaks_append, List.append_nil, Nat.add_assoc]

namespace Reads

variable {name : String} {text : List Char} {result : Except TemplateFault Template}

/-- What a text leads to is read from it. -/
theorem ofText_eq (h : Reads name text result) : ofText name (String.ofList text) = result := by
  have hread : ∀ {placed tail}, Scanned text placed tail → ofText name (String.ofList text) =
      (readFrom name (1 + lineBreaks (written mark placed [])) tail).map
        fun segments => ⟨name, segmentsOf placed [] ++ segments⟩ := by
    intro placed tail hscanned
    rw [ofText, String.toList_ofList, hscanned.readFrom_eq]
    cases readFrom name _ tail <;> rfl
  cases h with
  | @ok placed tail scanned done =>
    have hsegments : segmentsOf placed [] ++ literals tail = segmentsOf placed tail := by
      simp only [segmentsOf, List.append_assoc, literals_eq_nil_iff.mpr, List.nil_append]
    rw [hread scanned, readFrom_of_not_infix done, Except.map, hsegments]
  | unterminated scanned opens endless =>
    rw [hread scanned, readFrom_of_unterminated opens endless, lineOf_eq]
    rfl
  | nested scanned opens closes inner =>
    rw [hread scanned, readFrom_of_closed opens closes,
      if_pos (isSome_cut_opening_iff.mpr inner), lineOf_eq]
    rfl
  | @unknown placed tail before inside body rest scanned opens closes plain unnamed =>
    have hname : Placeholder.ofName? (String.ofList body) = none := by
      refine Option.eq_none_iff_forall_ne_some.mpr fun p hp => unnamed p ?_
      rw [Placeholder.ofName?_eq_some_iff.mp hp, String.toList_ofList]
    rw [hread scanned, readFrom_of_closed opens closes,
      if_neg (isSome_cut_opening_iff.not.mpr plain), hname, lineOf_eq]
    rfl

/-- A text that begins with a placeholder leads to something if the text behind it does. -/
theorem exists_cons {before inside rest : List Char} {p : Placeholder}
    (opens : FirstMark opening text before inside)
    (closes : FirstMark closing inside p.name.toList rest) (h : ∃ result, Reads name rest result) :
    ∃ result, Reads name text result := by
  obtain ⟨result, h⟩ := h
  cases h with
  | ok scanned done => exact ⟨_, .ok (.cons opens closes scanned) done⟩
  | unterminated scanned opens' endless =>
    exact ⟨_, .unterminated (.cons opens closes scanned) opens' endless⟩
  | nested scanned opens' closes' inner =>
    exact ⟨_, .nested (.cons opens closes scanned) opens' closes' inner⟩
  | unknown scanned opens' closes' plain unnamed =>
    exact ⟨_, .unknown (.cons opens closes scanned) opens' closes' plain unnamed⟩

end Reads

/-- Every text leads to something. -/
theorem exists_reads (name : String) (text : List Char) : ∃ result, Reads name text result := by
  cases hopened : cut '<' '|' text with
  | none => exact ⟨_, .ok (.nil text) (cut_eq_none_iff.mp hopened)⟩
  | some parts =>
    obtain ⟨before, inside⟩ := parts
    have opens : FirstMark opening text before inside := firstMark_of_cut hopened
    cases hclosed : cut '|' '>' inside with
    | none => exact ⟨_, .unterminated (.nil text) opens (cut_eq_none_iff.mp hclosed)⟩
    | some parts =>
      obtain ⟨body, rest⟩ := parts
      have closes : FirstMark closing inside body rest := firstMark_of_cut hclosed
      by_cases inner : opening <:+: body
      · exact ⟨_, .nested (.nil text) opens closes inner⟩
      · by_cases named : ∃ p : Placeholder, p.name.toList = body
        · obtain ⟨p, rfl⟩ := named
          exact Reads.exists_cons opens closes (exists_reads name rest)
        · exact ⟨_, .unknown (.nil text) opens closes inner fun p he => named ⟨p, he⟩⟩
termination_by text.length
decreasing_by
  have outer := length_lt_of_cut hopened
  have inner := length_lt_of_cut hclosed
  omega

/-- Exactly what a text leads to is read from it. -/
theorem ofText_eq_iff {name text : String} {result : Except TemplateFault Template} :
    ofText name text = result ↔ Reads name text.toList result := by
  have hsound : ∀ {result}, Reads name text.toList result → ofText name text = result := by
    intro result h
    rw [← h.ofText_eq, String.ofList_toList]
  constructor
  · rintro rfl
    obtain ⟨result, h⟩ := exists_reads name text.toList
    rwa [hsound h]
  · exact hsound

section Writing

variable {placed : List Placed} {tail : List Char}

/-- The segments of a text, put together with some text for each placeholder. -/
theorem join_segmentsOf {fill : Segment → String} {write : Placeholder → List Char}
    (hliteral : ∀ words, fill (.literal words) = words)
    (hslot : ∀ p, fill (.slot p) = String.ofList (write p)) :
    String.join ((segmentsOf placed tail).map fill) =
      String.ofList (written write placed tail) := by
  have hliterals : ∀ cs, String.join ((literals cs).map fill) = String.ofList cs := by
    intro cs
    cases cs with
    | nil => rfl
    | cons c cs => simp [literals, hliteral]
  induction placed with
  | nil => exact hliterals tail
  | cons token placed ih =>
    rw [segmentsOf_cons, written_cons, List.map_append, List.map_cons, String.join_append,
      String.join_cons, ih, hliterals, hslot]
    simp only [String.ofList_append, String.append_assoc]

/-- The segments have the placeholders in their order. -/
theorem filterMap_slot?_segmentsOf :
    (segmentsOf placed tail).filterMap slot? = placed.map (·.placeholder) := by
  have hliterals : ∀ cs, (literals cs).filterMap slot? = [] := by
    intro cs
    cases cs <;> rfl
  induction placed with
  | nil => exact hliterals tail
  | cons token placed ih =>
    rw [segmentsOf_cons, List.filterMap_append, hliterals, List.nil_append]
    exact congrArg (token.placeholder :: ·) ih

end Writing

/-- The text that is generated for a placeholder. -/
def generated (assembly : Assembly) (p : Placeholder) : List Char :=
  ((p.text? assembly).getD "").toList

section Placed

variable {text tail : List Char} {placed : List Placed}

/-- The source of the template of a text is the text. -/
theorem source_segmentsOf (name : String) (h : Scanned text placed tail) :
    source ⟨name, segmentsOf placed tail⟩ = String.ofList text := by
  rw [h.text_eq, source]
  refine join_segmentsOf (fun _ => rfl) fun p => ?_
  rw [Segment.source, mark, String.ofList_append, String.ofList_append, String.ofList_toList]
  rfl

/-- The literals of the template of a text are not empty and have no opening mark. -/
theorem literal_segmentsOf (h : Scanned text placed tail) (done : ¬ opening <:+: tail)
    {words : String} (hmem : .literal words ∈ segmentsOf placed tail) :
    words ≠ "" ∧ ¬ opening <:+: words.toList := by
  have hliterals : ∀ cs, ¬ opening <:+: cs → .literal words ∈ literals cs →
      words ≠ "" ∧ ¬ opening <:+: words.toList := by
    intro cs hcs hmem
    cases cs with
    | nil => exact absurd hmem List.not_mem_nil
    | cons c cs =>
      cases List.mem_singleton.mp hmem
      exact ⟨by simp, by rwa [String.toList_ofList]⟩
  rcases List.mem_append.mp hmem with hmem | hmem
  · obtain ⟨token, htoken, hmem⟩ := List.mem_flatMap.mp hmem
    rcases List.mem_append.mp hmem with hmem | hmem
    · exact hliterals _ (h.not_opening_infix_before token htoken) hmem
    · exact nomatch List.mem_singleton.mp hmem
  · exact hliterals _ done hmem

/-- The template of a text is rendered with a generated text for each placeholder, and
fails at the first one that has none. -/
theorem render_segmentsOf (name : String) (placed : List Placed) (tail : List Char)
    (assembly : Assembly) :
    render ⟨name, segmentsOf placed tail⟩ assembly =
      match placed.find? fun token => (token.placeholder.text? assembly).isNone with
      | some token => .error (.noGenerator name token.placeholder.name)
      | none => .ok (String.ofList (written (generated assembly) placed tail)) := by
  have hslot : ∀ p, segmentText assembly (.slot p) = String.ofList (generated assembly p) :=
    fun p => by rw [generated, String.ofList_toList]; rfl
  have hjoin := @join_segmentsOf placed tail (segmentText assembly) (generated assembly)
    (fun _ => rfl) hslot
  rw [render, mapM_fill, filterMap_slot?_segmentsOf, List.find?_map]
  cases hfind : placed.find? ((fun p => (p.text? assembly).isNone) ∘ (·.placeholder)) with
  | some token =>
    simp only [Function.comp_def] at hfind
    rw [hfind]
    rfl
  | none =>
    simp only [Function.comp_def] at hfind
    rw [hfind, ← hjoin]
    rfl

end Placed

/-- Exactly what scanning a text from the left leads to is read from it: a template where
all tokens are placeholders, and otherwise what is wrong with the first token that is
none, on its line. The source of a template that is read is the text, and no literal is
empty or has an opening mark. Rendering puts a generated text in the place of every
placeholder, whatever marks the generated texts have, and fails at the first placeholder
for which there is none. -/
theorem read_and_rendered (name text : String) :
    (∀ result, ofText name text = result ↔ Reads name text.toList result) ∧
    ∀ placed tail, Scanned text.toList placed tail → ¬ opening <:+: tail →
      ofText name text = .ok ⟨name, segmentsOf placed tail⟩ ∧
      source ⟨name, segmentsOf placed tail⟩ = text ∧
      (∀ words, .literal words ∈ segmentsOf placed tail →
        words ≠ "" ∧ ¬ opening <:+: words.toList) ∧
      text.toList = written mark placed tail ∧
      ∀ assembly, render ⟨name, segmentsOf placed tail⟩ assembly =
        match placed.find? fun token => (token.placeholder.text? assembly).isNone with
        | some token => .error (.noGenerator name token.placeholder.name)
        | none => .ok (String.ofList (written (generated assembly) placed tail)) := by
  refine ⟨fun result => ofText_eq_iff, fun placed tail scanned done => ⟨?_, ?_, ?_, ?_, ?_⟩⟩
  · exact ofText_eq_iff.mpr (.ok scanned done)
  · rw [source_segmentsOf name scanned, String.ofList_toList]
  · exact fun words => literal_segmentsOf scanned done
  · exact scanned.text_eq
  · exact render_segmentsOf name placed tail

/-- The marks may overlap with the text around them. -/
theorem read_and_rendered_overlapping :
    ofText "keymap" "<<|MaxScanCode|>|>" =
        .ok ⟨"keymap", [.literal "<", .slot .maxScanCode, .literal "|>"]⟩ ∧
      Reads "keymap" "\n<|>|>".toList (.error (.unknown "keymap" ">" 2)) := by
  have opens : FirstMark opening "<<|MaxScanCode|>|>".toList ['<'] "MaxScanCode|>|>".toList :=
    firstMark_of_cut (by decide +kernel)
  have closes : FirstMark closing "MaxScanCode|>|>".toList Placeholder.maxScanCode.name.toList
      ['|', '>'] := firstMark_of_cut (by decide +kernel)
  have done : ¬ opening <:+: ['|', '>'] := cut_eq_none_iff.mp (by decide)
  refine ⟨((read_and_rendered _ _).2 _ _ (.cons opens closes (.nil _)) done).1, ?_⟩
  exact ((read_and_rendered "keymap" "\n<|>|>").1 _).mp (by decide +kernel)

end Template

end Keymap
