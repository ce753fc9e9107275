/-!
# Arguments

A command line names a command and says what the command needs. A value stands
behind its setting or, after a sign of equality, in one word with it. Behind two
dashes every word is meant as it is written. No setting is made twice or empty.
-/

namespace Keymap.CommandLine

/-- What a generation can be told beside its configuration. -/
inductive Setting where
  | mapTemplate
  | pixelTemplate
  | defTemplate
  | mapOutput
  | pixelOutput
  | defOutput
  | jsonOutput
  | outDir
  deriving DecidableEq

namespace Setting

/-- The word for a setting. -/
def name : Setting → String
  | .mapTemplate => "map-template"
  | .pixelTemplate => "pixel-template"
  | .defTemplate => "def-template"
  | .mapOutput => "map-output"
  | .pixelOutput => "pixel-output"
  | .defOutput => "def-output"
  | .jsonOutput => "json-output"
  | .outDir => "out-dir"

/-- All settings. -/
def all : List Setting :=
  [.mapTemplate, .pixelTemplate, .defTemplate, .mapOutput, .pixelOutput, .defOutput, .jsonOutput,
   .outDir]

/-- No setting is missing in the list. -/
theorem mem_all (setting : Setting) : setting ∈ all := by cases setting <;> simp [all]

end Setting

/-- What is wrong with a command line. -/
inductive UsageFault where
  | noCommand
  | unknownCommand (word : String)
  | unknownWord (word : String)
  | unexpectedWord (word : String)
  | unexpectedValue (name : String)
  | missingValue (name : String)
  | emptyValue (name : String)
  | repeated (name : String)
  | missingConfig
  deriving DecidableEq

/-- The wording of what is wrong with a command line. -/
def UsageFault.message : UsageFault → String
  | .noCommand => "a command is missing: generate, check or placeholders"
  | .unknownCommand word => s!"'{word}' is not a command: generate, check or placeholders"
  | .unknownWord word => s!"'{word}' is not known"
  | .unexpectedWord word => s!"'{word}' is not expected"
  | .unexpectedValue name => s!"'{name}' takes no value"
  | .missingValue name => s!"'{name}' needs a value"
  | .emptyValue name => s!"'{name}' cannot be empty"
  | .repeated name => s!"'{name}' is said twice"
  | .missingConfig => "a configuration is missing"

/-! ## Words -/

/-- A word of a command line. -/
inductive Word where
  /-- Two dashes. -/
  | escape
  /-- A name behind two dashes, and what stands after a sign of equality. -/
  | long (name : String) (value : Option String)
  /-- Letters behind one dash. -/
  | short (letters : List Char)
  | plain (text : String)
  deriving DecidableEq

/-- What a word is by how it begins. A dash alone is a plain word. -/
def Word.ofText (text : String) : Word :=
  match text.toList with
  | ['-', '-'] => .escape
  | '-' :: '-' :: cs =>
    let name := String.ofList (cs.takeWhile (· ≠ '='))
    match cs.dropWhile (· ≠ '=') with
    | [] => .long name none
    | _ :: value => .long name (some (String.ofList value))
  | '-' :: c :: cs => .short (c :: cs)
  | _ => .plain text

/-- What the words of a command line say. -/
structure Words where
  json : Bool := false
  settings : List (Setting × String) := []
  operands : List String := []
  deriving DecidableEq

namespace Words

/-- The value of a setting. -/
def value? (words : Words) (setting : Setting) : Option String := words.settings.lookup setting

/-- The words with the wish for a document instead of text. -/
def wishJson (words : Words) : Except UsageFault Words :=
  if words.json then .error (.repeated "json") else .ok { words with json := true }

/-- The words with a setting. -/
def set (words : Words) (setting : Setting) (value : String) : Except UsageFault Words :=
  if (words.value? setting).isSome then .error (.repeated setting.name)
  else if value = "" then .error (.emptyValue setting.name)
  else .ok { words with settings := words.settings ++ [(setting, value)] }

/-- The words with an operand. -/
def operand (words : Words) (text : String) : Words :=
  { words with operands := words.operands ++ [text] }

end Words

/-- Letters that ask for more in the log, which is all that letters can ask for. -/
def checkLetters : List Char → Except UsageFault Unit
  | [] => .ok ()
  | c :: cs => if c = 'v' then checkLetters cs else .error (.unknownWord (String.ofList ['-', c]))

/-- What the names that stand with every command say. -/
def common (words : Words) (name : String) (value : Option String) : Except UsageFault Words :=
  if name ≠ "json" ∧ name ≠ "verbose" then .error (.unknownWord name)
  else if value.isSome then .error (.unexpectedValue name)
  else if name = "json" then words.wishJson
  else .ok words

/-- What the words behind a command say, where some settings can be made. -/
def readWords (settings : List Setting) (words : Words) : List String → Except UsageFault Words
  | [] => .ok words
  | text :: rest =>
    match Word.ofText text with
    | .escape => .ok (rest.foldl Words.operand words)
    | .short letters => do
      checkLetters letters
      readWords settings words rest
    | .plain operand => readWords settings (words.operand operand) rest
    | .long name value =>
      match settings.find? (fun setting => decide (setting.name = name)), value with
      | none, value => do readWords settings (← common words name value) rest
      | some setting, some value => do readWords settings (← words.set setting value) rest
      | some setting, none =>
        match rest with
        | [] => .error (.missingValue name)
        | next :: rest =>
          match Word.ofText next with
          | .plain value => do readWords settings (← words.set setting value) rest
          | _ => .error (.missingValue name)

/-- The wish that stands before the command, the command, and the words behind it. -/
def readCommand (words : Words) : List String → Except UsageFault (Words × String × List String)
  | [] => .error .noCommand
  | text :: rest =>
    match Word.ofText text with
    | .escape => .error .noCommand
    | .short letters => do
      checkLetters letters
      readCommand words rest
    | .long name value => do readCommand (← common words name value) rest
    | .plain command => .ok (words, command, rest)

/-! ## Invocations -/

/-- What is generated from which files into which. -/
structure Generation where
  config : String
  mapTemplate : Option String := none
  pixelTemplate : Option String := none
  defTemplate : Option String := none
  mapOutput : Option String := none
  pixelOutput : Option String := none
  defOutput : Option String := none
  jsonOutput : Option String := none
  outDir : String := "."
  deriving DecidableEq

/-- A command with what it needs. -/
inductive Command where
  | generate (generation : Generation)
  | check (config : String)
  | placeholders
  deriving DecidableEq

/-- A command, and whether it answers with a document instead of text. -/
structure Invocation where
  command : Command
  json : Bool
  deriving DecidableEq

namespace Words

/-- The only operand. -/
def config (words : Words) : Except UsageFault String :=
  match words.operands with
  | [] => .error .missingConfig
  | [config] => if config = "" then .error (.emptyValue "config") else .ok config
  | _ :: extra :: _ => .error (.unexpectedWord extra)

/-- The directory that is set, or else that of the environment, or else the current one. -/
def outDir (words : Words) (environment : Option String) : Except UsageFault String :=
  match words.value? .outDir, environment with
  | some directory, _ => .ok directory
  | none, some directory =>
    if directory = "" then .error (.emptyValue Setting.outDir.name) else .ok directory
  | none, none => .ok "."

/-- The generation that words describe. -/
def generation (words : Words) (environment : Option String) : Except UsageFault Generation := do
  return {
    config := ← words.config
    mapTemplate := words.value? .mapTemplate
    pixelTemplate := words.value? .pixelTemplate
    defTemplate := words.value? .defTemplate
    mapOutput := words.value? .mapOutput
    pixelOutput := words.value? .pixelOutput
    defOutput := words.value? .defOutput
    jsonOutput := words.value? .jsonOutput
    outDir := ← words.outDir environment }

/-- There is no operand. -/
def noOperand (words : Words) : Except UsageFault Unit :=
  match words.operands with
  | [] => .ok ()
  | extra :: _ => .error (.unexpectedWord extra)

end Words

/-- The invocation by words, with the output directory of the environment if it has one. -/
def Invocation.ofWords (environment : Option String) (texts : List String) :
    Except UsageFault Invocation := do
  let (before, command, rest) ← readCommand {} texts
  match command with
  | "generate" => do
    let words ← readWords Setting.all {} rest
    return ⟨.generate (← words.generation environment), before.json || words.json⟩
  | "check" => do
    let words ← readWords [] {} rest
    return ⟨.check (← words.config), before.json || words.json⟩
  | "placeholders" => do
    let words ← readWords [] {} rest
    words.noOperand
    return ⟨.placeholders, before.json || words.json⟩
  | word => .error (.unknownCommand word)

example :
    (Invocation.ofWords none ["-vv", "check", "--", "--json"]).toOption =
      some ⟨.check "--json", false⟩ := by
  decide +kernel

example :
    (Invocation.ofWords (some "b") ["generate", "--json", "a", "--map-output=m"]).toOption =
      some ⟨.generate { config := "a", mapOutput := some "m", outDir := "b" }, true⟩ := by
  decide +kernel

end Keymap.CommandLine
