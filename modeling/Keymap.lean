import Keymap.FileSystem.Disk
import Keymap.Main
import Keymap.Proofs.Altered
import Keymap.Proofs.Animation.Numbering
import Keymap.Proofs.Checks
import Keymap.Proofs.Description
import Keymap.Proofs.Document.JsonText
import Keymap.Proofs.Document.Paths
import Keymap.Proofs.ElementTypes
import Keymap.Proofs.Extension
import Keymap.Proofs.FileSystem.Replacement
import Keymap.Proofs.Guide.Arguments
import Keymap.Proofs.Guide.Filing
import Keymap.Proofs.Guide.Rejected
import Keymap.Proofs.Guide.Results
import Keymap.Proofs.Guide.Triggers
import Keymap.Proofs.Interconnect
import Keymap.Proofs.Listing.Display
import Keymap.Proofs.Listing.Evaluation
import Keymap.Proofs.Listing.Identifiers
import Keymap.Proofs.Lookup
import Keymap.Proofs.Outcome
import Keymap.Proofs.Pixels.Entries
import Keymap.Proofs.Positions
import Keymap.Proofs.Rearrangement
import Keymap.Proofs.References
import Keymap.Proofs.Reload
import Keymap.Proofs.RotationTable
import Keymap.Proofs.Rotations
import Keymap.Proofs.ScanCodeRange
import Keymap.Proofs.StateWord
import Keymap.Proofs.Symbols.History
import Keymap.Proofs.Tables
import Keymap.Proofs.Template.Reading
import Keymap.Proofs.Writing
