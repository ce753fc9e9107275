import Keymap.Text.Numerals

/-!
# What is wrong with a configuration

The causes of findings and failures, each with its wording: names that are not
declared, values out of range, parts that do not fit together, and templates that
cannot be used.
-/

namespace Keymap

/-!
## Names that are not declared

One table names an entry of another table that does not exist.
-/

/-- A reference to something that is not declared. -/
inductive ReferenceFault where
  | result (trigger result : String)
  | trigger (layer trigger : String)
  | capability (user capability : String)
  | animation (user animation : String)
  | animationSettings (user settings : String)
  | settingsTrigger (settings trigger : String)
  | layer (user : String) (layer layers : Nat)
  | pixel (user : String) (pixel : Nat)
  | symbol (kind name : String)
  deriving DecidableEq

/-- The wording of a reference to something that is not declared. -/
def ReferenceFault.message : ReferenceFault → String
  | .result user name =>
    s!"Trigger macro '{user}' references unknown result macro '{name}'"
  | .trigger user name => s!"Layer '{user}' binds unknown trigger macro '{name}'"
  | .capability user name => s!"'{user}' requires capability '{name}' which is not declared"
  | .animation user name => s!"'{user}' references unknown animation '{name}'"
  | .animationSettings user name =>
    s!"'{user}' references unknown animation settings '{name}'"
  | .settingsTrigger user name =>
    s!"Animation settings '{user}' reference unknown trigger macro '{name}'"
  | .layer user id count => s!"'{user}' references layer {id} but only {count} layers exist"
  | .pixel user id => s!"'{user}' references pixel {id} which is not declared"
  | .symbol kind name => s!"Unknown {kind} '{name}'"

/-!
## Values out of range

A value lies outside the table or the encoding that it must fit.
-/

/-- A value that does not fit where it is used. -/
inductive RangeFault where
  /-- The number of a trigger list beyond the greatest scan code. -/
  | scanCode (symbol : String) (uid max : Nat)
  /-- A greatest scan code beyond one byte. -/
  | maxScanCode (value : Nat)
  | channel (pixel channel total : Nat)
  | displayCell (row column pixel maxPixel : Nat)
  /-- A table with more entries than the state word counts. -/
  | indexOverflow (table : String) (count bits limit : Nat)
  | board (symbol : String) (board boards : Nat)
  | triggerUid (symbol : String) (uid banks : Nat)
  | argument (symbol : String) (value : Int) (width : Nat)
  | address (symbol : String) (value : Int) (bytes : Nat)
  | frameIndex (animation : String) (index limit : Nat)
  | interconnectOffset (board offset max : Nat)
  | position (scanCode max : Nat)
  deriving DecidableEq

open Text in
/-- The wording of a value that does not fit. -/
def RangeFault.message : RangeFault → String
  | .scanCode symbol uid max =>
    s!"'{symbol}' uses trigger uid {hex uid} beyond MaxScanCode {hex max}"
  | .maxScanCode value => s!"MaxScanCode {shortHex value} exceeds 0xFF"
  | .channel pixel index total =>
    s!"Pixel {pixel} channel {index} is outside the {total} available channels"
  | .displayCell row column pixel maxPixel =>
    s!"Display map cell ({row}, {column}) holds pixel {pixel} " ++
      s!"beyond the last pixel {maxPixel}"
  | .indexOverflow table count bits limit =>
    s!"{table} has {count} entries but stateWordSize {bits} indexes at most {limit}"
  | .board symbol id count =>
    s!"'{symbol}' uses board {id} but only {count} interconnect offsets are declared"
  | .triggerUid symbol uid banks =>
    s!"'{symbol}' uses uid {uid} which does not fit the {banks} trigger type banks"
  | .argument symbol value width =>
    s!"'{symbol}' argument {value} does not fit in {width} byte(s)"
  | .address symbol value bytes =>
    s!"'{symbol}' address value {value} does not fit its {bytes}-byte field"
  | .frameIndex animation index limit =>
    s!"Animation '{animation}' frame {index} exceeds the {limit} frame limit"
  | .interconnectOffset id offset max =>
    s!"Interconnect offset {hex offset} of board {id} is beyond MaxScanCode {hex max}"
  | .position code max => s!"Key position for scan code {code} is outside 1..={max}"

/-!
## Parts that do not fit together

Two declarations, or a table and its count, disagree about a shape.
-/

/-- A shape that is not as it has to be. -/
inductive ShapeFault where
  | displayRow (row expected actual : Nat)
  | argumentCount (symbol capability : String) (expected actual : Nat)
  /-- The encoded bytes of the arguments are not as many as declared. -/
  | argumentWidth (symbol capability : String) (expected actual : Nat)
  | duplicateChannel (channel buffer offset first second : Nat)
  | bufferBase (buffer declared computed : Nat)
  | emptyCombo (symbol : String) (step : Nat)
  | payload (symbol : String) (expected actual : Nat)
  | duplicate (kind name : String)
  | interconnectOrder (board offset previous : Nat)
  | frameTermination (frame : String)
  | indexGap (kind : String) (expected found : Nat)
  deriving DecidableEq

/-- The wording of a shape that is not as it has to be. -/
def ShapeFault.message : ShapeFault → String
  | .displayRow row expected actual =>
    s!"Display map row {row} has {actual} columns, expected {expected}"
  | .argumentCount symbol capability expected actual =>
    s!"'{symbol}' passes {actual} argument(s) to '{capability}' which declares {expected}"
  | .argumentWidth symbol capability expected actual =>
    s!"'{symbol}' encodes {actual} argument byte(s) for '{capability}' " ++
      s!"which declares {expected}"
  | .duplicateChannel channel buffer offset first second =>
    s!"Channel {channel} (buffer {buffer}, offset {offset}) is used by " ++
      s!"pixel {first} and pixel {second}"
  | .bufferBase buffer declared computed =>
    s!"Pixel buffer {buffer} declares base {declared} but the cumulative base is {computed}"
  | .emptyCombo symbol step => s!"'{symbol}' has an empty combo at step {step}"
  | .payload symbol expected actual =>
    s!"'{symbol}' carries {actual} payload byte(s), the frame format requires {expected}"
  | .duplicate kind name => s!"Duplicate {kind} '{name}'"
  | .interconnectOrder board offset previous =>
    s!"Interconnect offset for board {board} ({offset}) is below " ++
      s!"the previous offset ({previous})"
  | .frameTermination frame => s!"Frame '{frame}' is not terminated by a single End sentinel"
  | .indexGap kind expected found =>
    s!"{kind} indices are not contiguous: expected {expected}, found {found}"

/-!
## Templates that cannot be used

A placeholder of a template is not well formed, not known, or has no text.
-/

/-- What is wrong with a template. -/
inductive TemplateFault where
  | unknown (template name : String) (line : Nat)
  | unterminated (template : String) (line : Nat)
  | nested (template : String) (line : Nat)
  | noGenerator (template name : String)
  deriving DecidableEq

/-- The wording of what is wrong with a template. -/
def TemplateFault.message : TemplateFault → String
  | .unknown template name line => s!"{template}:{line}: unknown placeholder '<|{name}|>'"
  | .unterminated template line => s!"{template}:{line}: unterminated placeholder"
  | .nested template line => s!"{template}:{line}: nested placeholder"
  | .noGenerator template name => s!"{template}: no generator produced text for '<|{name}|>'"

end Keymap
