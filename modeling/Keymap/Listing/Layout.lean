import Keymap.Assembly.Build
import Keymap.Text.Characters
import Keymap.Text.Numerals

/-!
# The shape of listings

A listing is made of declarations in C. A short one stands on its line with its
tokens between braces; a long one has its rows between the brace that ends its
first line and the brace of its last. Every listing begins with the files that
the configuration comes from. The definitions are those that the configuration
declares and the sizes of the tables.
-/

namespace Keymap.Listing

section Declarations

/-- Tokens behind one another. -/
def tokens (items : List String) : String := String.intercalate ", " items

/-- A declaration on one line. -/
def inlined (head : String) (items : List String) : String :=
  head ++ " = \x7b " ++ tokens items ++ " \x7d;"

/-- Rows between braces; every row ends its line. -/
def braced (head : String) (rows : List String) (tail : String) : String :=
  head ++ " \x7b\n" ++ String.join rows ++ "\x7d" ++ tail

/-- A declaration of a table. -/
def table (head : String) (rows : List String) : String := braced (head ++ " =") rows ";"

/-- An indented row of a table. -/
def row (text : String) : String := "\t" ++ text ++ "\n"

/-- Lines without an end of line behind the last one. -/
def lines (texts : List String) : String := String.intercalate "\n" texts

/-- Sections with an empty line between them. -/
def sections (texts : List String) : String := String.intercalate "\n\n" texts

/-- A definition of a name. -/
def definition (name value : String) : String := "#define " ++ name ++ " " ++ value

end Declarations

section Headings

/-- The name and version of the program in every heading. -/
def generator : String := "kllgen 0.1.0"

/-- A line of a heading. -/
def remark (text : String) : String := "// " ++ text ++ "\n"

/-- A line of a section of a heading. -/
def entry (text : String) : String := remark ("  " ++ text)

/-- A section of a heading. -/
def headingSection (title : String) (entries : List String) : String :=
  remark ("- " ++ title ++ " -") ++ String.join (entries.map entry)

/-- The lines on the partial layers. -/
def partialEntries (layers : List LayerRow) : List String :=
  (layers.zipIdx.drop 1).map fun (layer, n) => toString n ++ ": " ++ layer.label

/-- Where the configuration comes from. -/
def information (assembly : Assembly) : String :=
  let sources := assembly.config.sources
  Text.trimEnd <|
    remark ("Generated by " ++ generator ++ ", do not edit") ++
      remark ("Configuration: " ++ assembly.config.name) ++ "//\n" ++
      headingSection "Configuration Files" sources.configuration ++
      headingSection "Generic Files" sources.generic ++
      headingSection "Base Files" sources.base ++
      headingSection "Default Layer" ((assembly.layers.take 1).map (·.label)) ++
      headingSection "Partial Layers" (partialEntries assembly.layers)

/-- The definitions that the configuration declares. -/
def defines (assembly : Assembly) : String :=
  String.join (assembly.config.defines.map fun (name, value) => "\n" ++ definition name value)

/-- The sizes of the tables that need a pixel section. -/
def pixelSizes (assembly : Assembly) : List (String × Nat) :=
  match assembly.pixels with
  | some map =>
    [("Pixel_BuffersLen", map.buffers.length), ("Pixel_TotalChannels", map.totalChannels),
     ("Pixel_TotalPixels", map.totalPixels), ("Pixel_DisplayMapping_Cols", map.columns),
     ("Pixel_DisplayMapping_Rows", map.rows),
     ("Pixel_AnimationSettingsNum", assembly.settings.length),
     ("AnimationNum", assembly.animations.length)]
  | none => [("AnimationNum", 0)]

/-- The sizes of the tables. -/
def tableSizes (assembly : Assembly) : List (String × Nat) :=
  [("CapabilitiesNum", assembly.capabilities.length), ("LayerNum", assembly.layers.length),
   ("ResultMacroNum", assembly.results.length),
   ("TriggerMacroNum", assembly.triggers.length),
   ("MaxScanCode", assembly.config.maxScanCode.toNat)] ++
    pixelSizes assembly

/-- The definitions of the sizes of the tables. -/
def sizeDefines (assembly : Assembly) : String :=
  lines ((tableSizes assembly).map fun (name, size) =>
    definition (name ++ "_KLL") (toString size))

end Headings

end Keymap.Listing
