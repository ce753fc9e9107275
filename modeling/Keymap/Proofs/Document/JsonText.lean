import Keymap.Proofs.Document.Numbers
import Keymap.Proofs.Document.Strings

/-!
# Reading back JSON texts

The reader finds in the text of a JSON value the value itself, provided that its integers
fit words, that its fractions are read back from their own texts, and that it is not
nested too deep. The induction is over the value; the parts of an array or object stand
behind one another, each on a line of its own.
-/

namespace Keymap

/-- A fraction is read back from its own text. -/
def Binary64.ReadsBack (x : Binary64) : Prop :=
  JsonReader.readNumber (Number.fraction x).json.toList = some (.fraction x, [])

instance (x : Binary64) : Decidable x.ReadsBack := inferInstanceAs (Decidable (_ = _))

namespace Json

mutual

/-- The fractions in a value. -/
def fractions : Json → List Binary64
  | .scalar (.number (.fraction x)) => [x]
  | .scalar _ => []
  | .array items => itemFractions items
  | .object members => memberFractions members

/-- The fractions in the items of an array. -/
def itemFractions : List Json → List Binary64
  | [] => []
  | item :: rest => fractions item ++ itemFractions rest

/-- The fractions in the members of an object. -/
def memberFractions : List (String × Json) → List Binary64
  | [] => []
  | (_, value) :: rest => fractions value ++ memberFractions rest

end

/-- The integers in a value fit words, and no more containers than `depth` are nested within
one another. -/
inductive Fits : Nat → Json → Prop where
  | null {depth : Nat} : Fits depth .null
  | bool {depth : Nat} (b : Bool) : Fits depth (.bool b)
  | int {depth : Nat} {n : Int} (hlow : -2 ^ 63 ≤ n) (hhigh : n < 2 ^ 64) : Fits depth (.int n)
  | fraction {depth : Nat} (x : Binary64) : Fits depth (.scalar (.number (.fraction x)))
  | string {depth : Nat} (s : String) : Fits depth (.string s)
  | array {depth : Nat} {items : List Json} (h : ∀ item ∈ items, Fits depth item) :
    Fits (depth + 1) (.array items)
  | object {depth : Nat} {members : List (String × Json)} (h : ∀ m ∈ members, Fits depth m.2) :
    Fits (depth + 1) (.object members)

/-- What stands behind a line between brackets: further lines, and the closing bracket. -/
def behind (level : Nat) (closing : Char) (rest : List Char) : List String → List Char
  | [] => (newLine level).toList ++ closing :: rest
  | line :: lines =>
    ',' :: ((newLine (level + 1)).toList ++ (line.toList ++ behind level closing rest lines))

/-- Lines with commas between them and the closing bracket stand one behind the other. -/
private theorem toList_intercalate_lines (level : Nat) (last : Char) (rest : List Char)
    (line : String) (lines : List String) :
    (String.intercalate ("," ++ newLine (level + 1)) (line :: lines)).toList ++
      ((newLine level).toList ++ last :: rest) = line.toList ++ behind level last rest lines := by
  have hcomma : ",".toList = [','] := rfl
  induction lines generalizing line with
  | nil =>
    rw [String.intercalate_singleton]
    rfl
  | cons next lines ih =>
    rw [String.intercalate_cons_cons]
    simp only [String.toList_append, List.append_assoc, hcomma, ih]
    rfl

/-- Lines between brackets stand one behind the other. -/
theorem toList_enclose {opening closing : String} {first last : Char}
    (hopening : opening.toList = [first]) (hclosing : closing.toList = [last]) (level : Nat)
    (line : String) (lines : List String) (rest : List Char) :
    (enclose opening closing level (line :: lines)).toList ++ rest =
      first :: ((newLine (level + 1)).toList ++ (line.toList ++ behind level last rest lines)) := by
  have hlines : (line :: lines).isEmpty = false := rfl
  rw [enclose, hlines, if_neg Bool.false_ne_true, ← toList_intercalate_lines level last rest line]
  simp only [String.toList_append, List.append_assoc, hopening, hclosing]
  rfl

/-- Brackets around no lines stand together. -/
theorem toList_enclose_nil {opening closing : String} {first last : Char}
    (hopening : opening.toList = [first]) (hclosing : closing.toList = [last]) (level : Nat)
    (rest : List Char) : (enclose opening closing level []).toList ++ rest =
      first :: last :: rest := by
  have hlines : ([] : List String).isEmpty = true := rfl
  rw [enclose, hlines, if_pos rfl, String.toList_append, hopening, hclosing]
  rfl

/-- What is enclosed in brackets begins with the opening one. -/
theorem exists_head_enclose {opening : String} {first : Char} (hopening : opening.toList = [first])
    (closing : String) (level : Nat) (lines : List String) :
    ∃ tail, (enclose opening closing level lines).toList = first :: tail := by
  rw [enclose]
  split
  · rw [String.toList_append, hopening]
    exact ⟨_, rfl⟩
  · simp only [String.toList_append, List.append_assoc, hopening]
    exact ⟨_, rfl⟩

/-- What follows a line can follow any value. -/
theorem ends_behind (level : Nat) (closing : Char) (rest : List Char) (lines : List String) :
    JsonReader.Ends (behind level closing rest lines) := by
  intro c hc
  cases lines with
  | nil =>
    rw [behind, newLine, String.toList_ofList] at hc
    exact Or.inr (Option.some.inj hc).symm
  | cons line lines =>
    rw [behind] at hc
    exact Or.inl (Option.some.inj hc).symm

end Json

namespace JsonReader

section Blanks

/-- All blanks in front are skipped. -/
theorem skipBlanks_append {blanks : List Char} (h : ∀ c ∈ blanks, isBlank c = true)
    (cs : List Char) : skipBlanks (blanks ++ cs) = skipBlanks cs := by
  induction blanks with
  | nil => rfl
  | cons c blanks ih =>
    rw [List.cons_append, skipBlanks, if_pos (h c (List.mem_cons_self ..))]
    exact ih fun c hc => h c (List.mem_cons_of_mem _ hc)

theorem skipBlanks_cons {c : Char} (h : isBlank c = false) (cs : List Char) :
    skipBlanks (c :: cs) = c :: cs := by
  rw [skipBlanks, h]
  rfl

theorem isBlank_of_mem_newLine {level : Nat} :
    ∀ c ∈ (Json.newLine level).toList, isBlank c = true := by
  intro c hc
  rw [Json.newLine, String.toList_ofList] at hc
  rcases List.mem_cons.mp hc with rfl | hc
  · rfl
  · rw [List.eq_of_mem_replicate hc]
    rfl

/-- Behind the last line stands the closing bracket. -/
theorem skipBlanks_behind_nil {closing : Char} (h : isBlank closing = false) (level : Nat)
    (rest : List Char) : skipBlanks (Json.behind level closing rest []) = closing :: rest := by
  rw [Json.behind, skipBlanks_append isBlank_of_mem_newLine, skipBlanks_cons h]

/-- Behind every other line stands a comma. -/
theorem skipBlanks_behind_cons (level : Nat) (closing : Char) (rest : List Char) (line : String)
    (lines : List String) : skipBlanks (Json.behind level closing rest (line :: lines)) =
      ',' :: (Json.behind level closing rest (line :: lines)).tail := by
  rw [Json.behind, skipBlanks_cons rfl, List.tail_cons]

/-- Blanks in front of a value do not matter. -/
theorem readValue_append {blanks : List Char} (h : ∀ c ∈ blanks, isBlank c = true)
    (fuel depth : Nat) (cs : List Char) :
    readValue fuel depth (blanks ++ cs) = readValue fuel depth cs := by
  cases fuel with
  | zero => rw [readValue.eq_def, readValue.eq_def]
  | succ fuel =>
    rw [readValue.eq_def, readValue.eq_def]
    dsimp only
    rw [skipBlanks_append h]

/-- A value without parts is read as such. -/
theorem readValue_of_scalar {c : Char} (hblank : isBlank c = false) (hsquare : c ≠ '[')
    (hcurly : c ≠ '\x7b') (fuel depth : Nat) (cs : List Char) :
    readValue (fuel + 1) depth (c :: cs) = readScalar (c :: cs) := by
  rw [readValue.eq_def]
  dsimp only
  rw [skipBlanks_cons hblank]
  split
  next h => exact absurd (List.cons.inj h).1 hsquare
  next h => exact absurd (List.cons.inj h).1 hcurly
  next h => exact absurd (List.cons.inj h).1 hsquare
  next h => exact absurd (List.cons.inj h).1 hcurly
  next => rfl

end Blanks

/-- A value that begins with a numeral is read as a number. -/
theorem readValue_number {cs rest : List Char} {n : Number} (h : readNumber cs = some (n, rest))
    (fuel depth : Nat) : readValue (fuel + 1) depth cs = (.scalar (.number n), some rest) := by
  obtain ⟨c, tail, rfl, hblank, hc⟩ := exists_head_of_readNumber h
  simp only [List.mem_cons, List.not_mem_nil, or_false, not_or] at hc
  obtain ⟨hn, ht, hf, hquote, hsquare, _, hcurly⟩ := hc
  rw [readValue_of_scalar hblank hsquare hcurly, readScalar]
  · rw [h]
  · exact fun _ he => hn (List.cons.inj he).1
  · exact fun _ he => ht (List.cons.inj he).1
  · exact fun _ he => hf (List.cons.inj he).1
  · exact fun _ he => hquote (List.cons.inj he).1

end JsonReader

namespace Json

open JsonReader

/-- The reader finds the value in its text, wherever the text stands, and the text does not begin
with a blank, nor like the end of an array. -/
structure Reads (depth : Nat) (json : Json) : Prop where
  head : ∀ level, ∃ c tail, (json.textAt level).toList = c :: tail ∧ isBlank c = false ∧ c ≠ ']'
  value : ∀ level fuel rest, Ends rest → 3 * ((json.textAt level).toList ++ rest).length ≤ fuel →
    readValue fuel depth ((json.textAt level).toList ++ rest) = (Node.ofJson json, some rest)

section Scalars

variable {depth : Nat}

/-- A scalar is read again if its text is read in front of everything that can follow. -/
theorem reads_scalar {value : Scalar} {c : Char} {tail : List Char}
    (htext : (scalarText value).toList = c :: tail) (hblank : isBlank c = false) (hc : c ≠ ']')
    (h : ∀ fuel rest, Ends rest → readValue (fuel + 1) depth (c :: tail ++ rest) =
      (.scalar value, some rest)) : Reads depth (.scalar value) where
  head level := by
    rw [textAt]
    exact ⟨c, tail, htext, hblank, hc⟩
  value level fuel rest hends hfuel := by
    rw [textAt, htext] at hfuel ⊢
    rw [List.cons_append, List.length_cons] at hfuel
    obtain ⟨fuel, rfl⟩ := Nat.exists_eq_add_of_le' (show 1 ≤ fuel by omega)
    rw [Node.ofJson]
    exact h fuel rest hends

/-- A number is read again if its text alone is. -/
theorem reads_number {n : Number} (h : readNumber n.json.toList = some (n, [])) :
    Reads depth (.scalar (.number n)) := by
  obtain ⟨c, tail, htext, hblank, hc⟩ := exists_head_of_readNumber h
  rw [htext] at h
  refine reads_scalar htext hblank ?_ fun fuel rest hends => ?_
  · rintro rfl
    exact hc (by decide)
  · exact readValue_number (readNumber_append hends h) fuel depth

/-- Every text is read again. -/
theorem reads_string (s : String) : Reads depth (.string s) := by
  obtain ⟨tail, htext⟩ : ∃ tail, (quote s).toList = '"' :: tail := by
    rw [quote, String.toList_ofList]
    exact ⟨_, rfl⟩
  refine reads_scalar htext rfl (by decide) fun fuel rest _ => ?_
  obtain ⟨inner, hquote, hread⟩ := exists_quote s rest
  rw [← htext, hquote, readValue_of_scalar rfl (by decide) (by decide), readScalar, hread]

theorem reads_null : Reads depth .null :=
  reads_scalar rfl rfl (by decide) fun fuel _ _ =>
    readValue_of_scalar rfl (by decide) (by decide) fuel depth _

theorem reads_bool (b : Bool) : Reads depth (.bool b) := by
  cases b with
  | true =>
    exact reads_scalar rfl rfl (by decide) fun fuel _ _ =>
      readValue_of_scalar rfl (by decide) (by decide) fuel depth _
  | false =>
    exact reads_scalar rfl rfl (by decide) fun fuel _ _ =>
      readValue_of_scalar rfl (by decide) (by decide) fuel depth _

end Scalars

section Arrays

variable {depth : Nat} {item : Json} {items : List Json}

/-- An item on a line is read; then the array ends, or the next line is read. -/
theorem readItem_line (h : item.Reads depth) (level fuel : Nat) {blanks : List Char}
    (hblanks : ∀ c ∈ blanks, isBlank c = true) (rest : List Char) (lines : List String)
    (hfuel : 3 * (blanks ++ ((item.textAt (level + 1)).toList ++
      behind level ']' rest lines)).length ≤ fuel) :
    readItem (fuel + 1) depth
        (blanks ++ ((item.textAt (level + 1)).toList ++ behind level ']' rest lines)) =
      if lines.isEmpty then ([Node.ofJson item], some rest)
      else
        let (nodes, after) := readItem fuel depth (behind level ']' rest lines).tail
        (Node.ofJson item :: nodes, after) := by
  rw [List.length_append] at hfuel
  have hvalue := h.value (level + 1) fuel (behind level ']' rest lines) (ends_behind _ _ _ _)
    (by omega)
  rw [readItem, readValue_append hblanks, hvalue]
  dsimp only
  cases lines with
  | nil =>
    rw [skipBlanks_behind_nil rfl]
    rfl
  | cons line lines =>
    rw [skipBlanks_behind_cons]
    rfl

/-- The items of an array are found on their lines, one after the other. -/
theorem readItem_itemTexts (h : ∀ json ∈ item :: items, json.Reads depth) (level fuel : Nat)
    {blanks : List Char} (hblanks : ∀ c ∈ blanks, isBlank c = true) (rest : List Char)
    (hfuel : 3 * (blanks ++ ((item.textAt (level + 1)).toList ++
      behind level ']' rest (itemTexts (level + 1) items))).length ≤ fuel) :
    readItem (fuel + 1) depth (blanks ++ ((item.textAt (level + 1)).toList ++
      behind level ']' rest (itemTexts (level + 1) items))) =
        (Node.ofItems (item :: items), some rest) := by
  induction items generalizing item fuel blanks with
  | nil =>
    rw [readItem_line (h item (List.mem_cons_self ..)) level fuel hblanks rest _ hfuel, itemTexts,
      Node.ofItems, Node.ofItems]
    rfl
  | cons next more ih =>
    have hmore : ∀ json ∈ next :: more, json.Reads depth := fun json hjson =>
      h json (List.mem_cons_of_mem _ hjson)
    rw [readItem_line (h item (List.mem_cons_self ..)) level fuel hblanks rest _ hfuel, itemTexts,
      List.isEmpty_cons, if_neg Bool.false_ne_true, behind, List.tail_cons, Node.ofItems]
    -- the line and the comma behind it have been used up
    rw [itemTexts, behind, List.length_append, List.length_append, List.length_cons] at hfuel
    obtain ⟨fuel, rfl⟩ := Nat.exists_eq_add_of_le' (show 1 ≤ fuel by omega)
    rw [ih hmore fuel isBlank_of_mem_newLine (by omega)]

private theorem toList_square : "[".toList = ['['] ∧ "]".toList = [']'] := ⟨rfl, rfl⟩

/-- Behind an opening square bracket the items of a sequence are read. -/
theorem readValue_square (fuel depth : Nat) (cs : List Char) :
    readValue (fuel + 1) (depth + 1) ('[' :: cs) =
      (.sequence (readItems fuel depth cs).1, (readItems fuel depth cs).2) := by
  rw [readValue.eq_def]
  dsimp only
  rw [skipBlanks_cons rfl]
  rfl

/-- Blanks in front of an item are skipped. -/
theorem readItems_of_item {c : Char} {tail : List Char} (hblank : isBlank c = false) (hc : c ≠ ']')
    (fuel depth : Nat) {blanks : List Char} (hblanks : ∀ c ∈ blanks, isBlank c = true) :
    readItems (fuel + 1) depth (blanks ++ c :: tail) = readItem fuel depth (c :: tail) := by
  rw [readItems.eq_def]
  dsimp only
  rw [skipBlanks_append hblanks, skipBlanks_cons hblank]
  split
  next h => exact absurd (List.cons.inj h).1 hc
  next => rfl

/-- A sequence is read again, one level deeper than its items. -/
theorem reads_array (h : ∀ json ∈ items, json.Reads depth) :
    Reads (depth + 1) (.array items) where
  head level := by
    obtain ⟨tail, htail⟩ :=
      exists_head_enclose toList_square.1 "]" level (itemTexts (level + 1) items)
    rw [textAt]
    exact ⟨'[', tail, htail, rfl, by decide⟩
  value level fuel rest hends hfuel := by
    cases items with
    | nil =>
      rw [textAt, itemTexts, toList_enclose_nil toList_square.1 toList_square.2,
        List.length_cons] at hfuel
      rw [textAt, itemTexts, toList_enclose_nil toList_square.1 toList_square.2]
      obtain ⟨fuel, rfl⟩ := Nat.exists_eq_add_of_le' (show 2 ≤ fuel by omega)
      rw [readValue_square, readItems, skipBlanks_cons rfl, Node.ofJson, Node.ofItems]
      rfl
    | cons item items =>
      obtain ⟨c, tail, hitem, hblank, hc⟩ := (h item (List.mem_cons_self ..)).head (level + 1)
      rw [textAt, itemTexts, toList_enclose toList_square.1 toList_square.2, List.length_cons,
        List.length_append] at hfuel
      rw [textAt, itemTexts, toList_enclose toList_square.1 toList_square.2]
      obtain ⟨fuel, rfl⟩ := Nat.exists_eq_add_of_le' (show 3 ≤ fuel by omega)
      have hitems := readItem_itemTexts h level fuel (List.forall_mem_nil _) rest (by
        rw [List.nil_append]
        omega)
      rw [List.nil_append, hitem, List.cons_append] at hitems
      rw [readValue_square, hitem, List.cons_append,
        readItems_of_item hblank hc (fuel + 1) depth isBlank_of_mem_newLine, hitems, Node.ofJson]

end Arrays

section Objects

variable {depth : Nat} {key : String} {value : Json} {members : List (String × Json)}

/-- The line of a member. -/
def memberLine (level : Nat) (key : String) (value : Json) : String :=
  quote key ++ ": " ++ textAt level value

/-- The line of a member begins with its name, and behind it stands the value. -/
theorem exists_memberLine (level : Nat) (key : String) (value : Json) (after : List Char) :
    ∃ inner, (memberLine level key value).toList ++ after = '"' :: inner ∧
      readString [] inner =
        some (key, ':' :: ([' '] ++ ((value.textAt level).toList ++ after))) := by
  obtain ⟨inner, hquote, hread⟩ := exists_quote key
    (':' :: ([' '] ++ ((value.textAt level).toList ++ after)))
  refine ⟨inner, ?_, hread⟩
  rw [← hquote, memberLine, String.toList_append, String.toList_append, List.append_assoc,
    List.append_assoc]
  rfl

/-- The text of an object begins with a brace. -/
theorem readValue_curly (fuel depth : Nat) (cs : List Char) :
    readValue (fuel + 1) (depth + 1) ('\x7b' :: cs) =
      (.mapping (readMembers fuel depth cs).1, (readMembers fuel depth cs).2) := by
  rw [readValue.eq_def]
  dsimp only
  rw [skipBlanks_cons rfl]
  rfl

/-- Blanks in front of a member are skipped. -/
theorem readMembers_of_member (fuel depth : Nat) {blanks : List Char}
    (hblanks : ∀ c ∈ blanks, isBlank c = true) (cs : List Char) :
    readMembers (fuel + 1) depth (blanks ++ '"' :: cs) = readMember fuel depth ('"' :: cs) := by
  rw [readMembers.eq_def]
  dsimp only
  rw [skipBlanks_append hblanks, skipBlanks_cons rfl]
  rfl

/-- What is read once the name and the value of a member are found. -/
theorem readMember_of_value {fuel : Nat} {cs inner tail after : List Char} {node : Node}
    (hcs : skipBlanks cs = '"' :: inner) (hname : readString [] inner = some (key, ':' :: tail))
    (hvalue : readValue fuel depth tail = (node, some after)) :
    readMember (fuel + 1) depth cs =
      match skipBlanks after with
      | '\x7d' :: rest => ([(.scalar (.string key), node)], some rest)
      | ',' :: rest =>
        let (entries, after) := readMember fuel depth rest
        ((.scalar (.string key), node) :: entries, after)
      | _ => ([(.scalar (.string key), node), (.broken, .broken)], none) := by
  have hcolon : skipBlanks (':' :: tail) = ':' :: tail := skipBlanks_cons rfl tail
  rw [readMember.eq_def]
  simp only [hcs, hname, hcolon]
  rewrite [hvalue]
  rfl

/-- A member on a line is read; then the object ends, or the next line is read. -/
theorem readMember_line (h : value.Reads depth) (key : String) (level fuel : Nat)
    {blanks : List Char} (hblanks : ∀ c ∈ blanks, isBlank c = true) (rest : List Char)
    (lines : List String)
    (hfuel : 3 * (blanks ++ ((memberLine (level + 1) key value).toList ++
      behind level '\x7d' rest lines)).length ≤ fuel) :
    readMember (fuel + 1) depth
        (blanks ++ ((memberLine (level + 1) key value).toList ++ behind level '\x7d' rest lines)) =
      if lines.isEmpty then ([(.scalar (.string key), Node.ofJson value)], some rest)
      else
        let (nodes, after) := readMember fuel depth (behind level '\x7d' rest lines).tail
        ((.scalar (.string key), Node.ofJson value) :: nodes, after) := by
  have hspace : ∀ c ∈ [' '], isBlank c = true := List.forall_mem_singleton.mpr rfl
  obtain ⟨inner, hline, hread⟩ :=
    exists_memberLine (level + 1) key value (behind level '\x7d' rest lines)
  have hskip : skipBlanks (blanks ++ ((memberLine (level + 1) key value).toList ++
      behind level '\x7d' rest lines)) = '"' :: inner := by
    rw [skipBlanks_append hblanks, hline, skipBlanks_cons rfl]
  have hvalue := h.value (level + 1) fuel (behind level '\x7d' rest lines) (ends_behind _ _ _ _) (by
    simp only [memberLine, String.toList_append, List.length_append] at hfuel ⊢
    omega)
  rw [readMember_of_value hskip hread ((readValue_append hspace fuel depth _).trans hvalue)]
  cases lines with
  | nil =>
    rw [skipBlanks_behind_nil rfl]
    rfl
  | cons line lines =>
    rw [skipBlanks_behind_cons]
    rfl

/-- The members of an object are found on their lines, one after the other. -/
theorem readMember_memberTexts (h : ∀ m ∈ (key, value) :: members, m.2.Reads depth)
    (level fuel : Nat) {blanks : List Char} (hblanks : ∀ c ∈ blanks, isBlank c = true)
    (rest : List Char)
    (hfuel : 3 * (blanks ++ ((memberLine (level + 1) key value).toList ++
      behind level '\x7d' rest (memberTexts (level + 1) members))).length ≤ fuel) :
    readMember (fuel + 1) depth (blanks ++ ((memberLine (level + 1) key value).toList ++
      behind level '\x7d' rest (memberTexts (level + 1) members))) =
        (Node.ofMembers ((key, value) :: members), some rest) := by
  have hvalue : value.Reads depth := h _ (List.mem_cons_self ..)
  induction members generalizing key value fuel blanks with
  | nil =>
    rw [readMember_line hvalue key level fuel hblanks rest _ hfuel, memberTexts, Node.ofMembers,
      Node.ofMembers]
    rfl
  | cons next more ih =>
    obtain ⟨name, json⟩ := next
    have hmore : ∀ m ∈ (name, json) :: more, m.2.Reads depth := fun m hm =>
      h m (List.mem_cons_of_mem _ hm)
    rw [readMember_line hvalue key level fuel hblanks rest _ hfuel, memberTexts,
      List.isEmpty_cons, if_neg Bool.false_ne_true, behind, List.tail_cons, Node.ofMembers]
    rw [memberTexts, behind, List.length_append, List.length_append, List.length_cons] at hfuel
    obtain ⟨fuel, rfl⟩ := Nat.exists_eq_add_of_le' (show 1 ≤ fuel by omega)
    have hnext := ih hmore fuel (@isBlank_of_mem_newLine (level + 1)) (by
      rw [memberLine]
      omega) (hmore _ (List.mem_cons_self ..))
    rw [memberLine] at hnext
    rw [hnext]

private theorem toList_curly : "\x7b".toList = ['\x7b'] ∧ "\x7d".toList = ['\x7d'] := ⟨rfl, rfl⟩

/-- A mapping is read again, one level deeper than the values of its members. -/
theorem reads_object (h : ∀ m ∈ members, m.2.Reads depth) :
    Reads (depth + 1) (.object members) where
  head level := by
    obtain ⟨tail, htail⟩ :=
      exists_head_enclose toList_curly.1 "\x7d" level (memberTexts (level + 1) members)
    rw [textAt]
    exact ⟨'\x7b', tail, htail, rfl, by decide⟩
  value level fuel rest hends hfuel := by
    cases members with
    | nil =>
      rw [textAt, memberTexts, toList_enclose_nil toList_curly.1 toList_curly.2,
        List.length_cons] at hfuel
      rw [textAt, memberTexts, toList_enclose_nil toList_curly.1 toList_curly.2]
      obtain ⟨fuel, rfl⟩ := Nat.exists_eq_add_of_le' (show 2 ≤ fuel by omega)
      rw [readValue_curly, readMembers, skipBlanks_cons rfl, Node.ofJson, Node.ofMembers]
      rfl
    | cons m members =>
      obtain ⟨key, value⟩ := m
      have htexts : memberTexts (level + 1) ((key, value) :: members) =
          memberLine (level + 1) key value :: memberTexts (level + 1) members := by
        rw [memberTexts, memberLine]
      rw [textAt, htexts, toList_enclose toList_curly.1 toList_curly.2, List.length_cons,
        List.length_append] at hfuel
      rw [textAt, htexts, toList_enclose toList_curly.1 toList_curly.2]
      obtain ⟨fuel, rfl⟩ := Nat.exists_eq_add_of_le' (show 3 ≤ fuel by omega)
      have hmembers := readMember_memberTexts h level fuel (List.forall_mem_nil _) rest (by
        rw [List.nil_append]
        omega)
      obtain ⟨inner, hline, _⟩ := exists_memberLine (level + 1) key value
        (behind level '\x7d' rest (memberTexts (level + 1) members))
      rw [List.nil_append, hline] at hmembers
      rw [readValue_curly, hline,
        readMembers_of_member (fuel + 1) depth isBlank_of_mem_newLine, hmembers, Node.ofJson]

end Objects

section Texts

variable {json : Json} {depth : Nat}

/-- The fractions of items are those of each item, in order. -/
theorem itemFractions_eq (items : List Json) : itemFractions items = items.flatMap fractions := by
  induction items with
  | nil => rfl
  | cons item rest ih => rw [itemFractions, ih, List.flatMap_cons]

theorem memberFractions_eq (members : List (String × Json)) :
    memberFractions members = members.flatMap (·.2.fractions) := by
  induction members with
  | nil => rfl
  | cons m rest ih => rw [memberFractions, ih, List.flatMap_cons]

/-- A value that fits is found in its text if its fractions are. -/
theorem Fits.reads (h : json.Fits depth) (hback : ∀ x ∈ json.fractions, x.ReadsBack) :
    json.Reads depth := by
  induction h with
  | null => exact reads_null
  | bool b => exact reads_bool b
  | int hlow hhigh => exact reads_number (readNumber_toString hlow hhigh)
  | fraction x => exact reads_number (hback x (List.mem_singleton.mpr rfl))
  | string s => exact reads_string s
  | array _ ih =>
    rw [fractions, itemFractions_eq] at hback
    exact reads_array fun item hitem => ih item hitem fun x hx =>
      hback x (List.mem_flatMap.mpr ⟨item, hitem, hx⟩)
  | object _ ih =>
    rw [fractions, memberFractions_eq] at hback
    exact reads_object fun m hm => ih m hm fun x hx =>
      hback x (List.mem_flatMap.mpr ⟨m, hm, hx⟩)

/-- The document that the text of a value writes is the value. -/
theorem ofJsonText_text (h : json.Fits deepest) (hback : ∀ x ∈ json.fractions, x.ReadsBack) :
    Document.ofJsonText json.text = ⟨Node.ofJson json, true⟩ := by
  have hread := (h.reads hback).value 0 (3 * (json.textAt 0).toList.length + 3) [] ends_nil
  rw [List.append_nil] at hread
  rw [Document.ofJsonText, text, hread (Nat.le_add_right ..)]
  rfl

end Texts

end Json

end Keymap
