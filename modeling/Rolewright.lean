import Rolewright.Main
import Rolewright.Proofs.Conversion.Course
import Rolewright.Proofs.Conversion.Standing
import Rolewright.Proofs.Conversion.Tally
import Rolewright.Proofs.Conversion.Acceptance
import Rolewright.Proofs.Conversion.Remainder
import Rolewright.Proofs.Conversion.Chain
import Rolewright.Proofs.Conversion.Cancellation
import Rolewright.Proofs.Conversion.Audit
import Rolewright.Proofs.Conversion.Grouping
import Rolewright.Proofs.Mapping.Lookup
import Rolewright.Proofs.Mapping.Formats
import Rolewright.Proofs.Path
import Rolewright.Proofs.Recipe.Lines
import Rolewright.Proofs.Recipe.Nesting
import Rolewright.Proofs.Recipe.Places
import Rolewright.Proofs.Recipe.Findings
import Rolewright.Proofs.Recipe.Gathering
import Rolewright.Proofs.Recipe.Excerpts
import Rolewright.Proofs.Recipe.Statements
import Rolewright.Proofs.Recipe.Coverage
import Rolewright.Proofs.Recipe.Stretches
import Rolewright.Proofs.Recipe.Order
import Rolewright.Proofs.Recipe.Layout
import Rolewright.Proofs.Recipe.Conditions
import Rolewright.Proofs.Value.Literals
import Rolewright.Proofs.Recipe.Rows
import Rolewright.Proofs.Recipe.Roles
import Rolewright.Proofs.Recipe.Rendering
import Rolewright.Proofs.Recipe.Outline
import Rolewright.Proofs.Recipe.Listing
import Rolewright.Proofs.Recipe.Agreement
import Rolewright.Proofs.Recipe.Quotation
import Rolewright.Proofs.Recipe.Silence
import Rolewright.Proofs.Recipe.Matching
import Rolewright.Proofs.Recipe.Renumbering
import Rolewright.Proofs.Recipe.Locality
import Rolewright.Proofs.Recipe.Arms
import Rolewright.Proofs.Recipe.Spelling
import Rolewright.Proofs.Recipe.Gaps
import Rolewright.Proofs.Recipe.Bodies
import Rolewright.Proofs.Recipe.Forms
import Rolewright.Proofs.Role.Contained
import Rolewright.Proofs.Role.Fences
import Rolewright.Proofs.Text.Utf8
import Rolewright.Proofs.Disk.Paths
import Rolewright.Proofs.Disk.Places
import Rolewright.Proofs.Disk.Contents
import Rolewright.Proofs.Role.Files
import Rolewright.Proofs.Role.Written
import Rolewright.Proofs.Conversion.Delivered
import Rolewright.Proofs.Disk.Effects
import Rolewright.Proofs.Role.Overwritten
import Rolewright.Proofs.Conversion.Rerun
import Rolewright.Proofs.Command.Sessions
import Rolewright.Proofs.Role.Completion
import Rolewright.Proofs.Check.Gateway
import Rolewright.Proofs.Check.Soundness
import Rolewright.Proofs.Recipe.Displacement
import Rolewright.Proofs.Recipe.Heredocs
import Rolewright.Proofs.Recipe.Indentation
import Rolewright.Proofs.Recipe.Opacity
import Rolewright.Proofs.Recipe.Cases
import Rolewright.Proofs.Conversion.Interleaving
import Rolewright.Proofs.Disk.Searches
import Rolewright.Proofs.Cookbook.Inputs
import Rolewright.Proofs.Value.References
import Rolewright.Proofs.Recipe.Attributes
import Rolewright.Proofs.Recipe.AttributeRows
import Rolewright.Proofs.Role.Defaults
import Rolewright.Proofs.Role.Variables
import Rolewright.Proofs.Role.Assets
import Rolewright.Proofs.Check.TaskPlaces
import Rolewright.Proofs.Check.Pointing
import Rolewright.Proofs.Recipe.Openers
import Rolewright.Proofs.Recipe.Collection
import Rolewright.Proofs.Recipe.Recognition
import Rolewright.Proofs.Mapping.Properties
import Rolewright.Proofs.Mapping.Loading
import Rolewright.Proofs.Value.Source
import Rolewright.Proofs.Value.Escapes
import Rolewright.Proofs.Recipe.Joining
import Rolewright.Proofs.Value.Interpolation
import Rolewright.Proofs.Cookbook.Writing
import Rolewright.Proofs.Conversion.Waiting
import Rolewright.Proofs.Conversion.Doubling
import Rolewright.Proofs.Recipe.Templates
import Rolewright.Proofs.Cookbook.Uses
import Rolewright.Proofs.Value.Division
import Rolewright.Proofs.Fingerprint
