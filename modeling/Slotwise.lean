import Slotwise.Family.Arithmetic
import Slotwise.Family.Duality
import Slotwise.Family.Evolution
import Slotwise.Keys
import Slotwise.ModuleIndex
import Slotwise.Optics.Lens
import Slotwise.Optics.Prism
import Slotwise.Optics.Support
import Slotwise.Codec.Request
import Slotwise.Plan
import Slotwise.Preset
import Slotwise.Configuration.Reader
import Slotwise.Code.Layout.Attribute
import Slotwise.Code.Layout.Page
import Slotwise.Code.Layout.Macro
import Slotwise.Code.Layout.Pattern
import Slotwise.Code.Layout.Expression
import Slotwise.Code.Layout.Item
import Slotwise.Code.Layout
import Slotwise.Artifact
import Slotwise.FileTree
import Slotwise.Manifest
import Slotwise.CommandLine
import Slotwise.Main
import Slotwise.Proofs.Propagation
import Slotwise.Proofs.Imports
import Slotwise.Proofs.Prism
import Slotwise.Proofs.Checked
import Slotwise.Proofs.Duality
import Slotwise.Proofs.Arithmetic
import Slotwise.Proofs.Lens
import Slotwise.Proofs.Spared
import Slotwise.Proofs.Distinct
import Slotwise.Proofs.Atomicity
import Slotwise.Proofs.WrittenForm
import Slotwise.Proofs.Declarations
import Slotwise.Proofs.HostIndexes
import Slotwise.Proofs.Choices
import Slotwise.Proofs.DeclarationOrder
import Slotwise.Proofs.KeyOrder
import Slotwise.Proofs.LibraryRoot
import Slotwise.Proofs.Siblings
import Slotwise.Proofs.Capabilities
import Slotwise.Proofs.Verdicts
import Slotwise.Proofs.Unions
import Slotwise.Proofs.SelectionsAlone
import Slotwise.Proofs.Evolving
import Slotwise.Proofs.Recurring
import Slotwise.Proofs.KeyTables
import Slotwise.Proofs.BaseGetters
import Slotwise.Proofs.MethodNames
import Slotwise.Proofs.Serialization
import Slotwise.Proofs.TypeImports
import Slotwise.Proofs.Hygiene
import Slotwise.Proofs.ReadNames
import Slotwise.Proofs.WrittenTypes
import Slotwise.Proofs.Constructors
