import SchemaGen.Bundle
import SchemaGen.Catalogue
import SchemaGen.CommandLine
import SchemaGen.Decimal.Layout
import SchemaGen.Decimal.Literal
import SchemaGen.Decimal.Shortest
import SchemaGen.Descriptor.Basic
import SchemaGen.Descriptor.Coding
import SchemaGen.Descriptor.DefaultText
import SchemaGen.Descriptor.Features
import SchemaGen.Descriptor.JsonName
import SchemaGen.Descriptor.Pool
import SchemaGen.Descriptor.Pool.Basic
import SchemaGen.Descriptor.Pool.Meaning
import SchemaGen.Descriptor.Pool.Refusal
import SchemaGen.Descriptor.Standard
import SchemaGen.Descriptor.Traversal
import SchemaGen.Failure
import SchemaGen.FileSystem
import SchemaGen.Generation
import SchemaGen.Loader
import SchemaGen.Log
import SchemaGen.Main
import SchemaGen.ModuleText
import SchemaGen.Names
import SchemaGen.Options.Closure
import SchemaGen.Options.Declaration
import SchemaGen.Options.Reader
import SchemaGen.OrderedMap
import SchemaGen.Parameter
import SchemaGen.Path
import SchemaGen.Proofs.Artifacts
import SchemaGen.Proofs.Bundle
import SchemaGen.Proofs.CollectionLiteral
import SchemaGen.Proofs.Containment
import SchemaGen.Proofs.Descriptor.Canonical
import SchemaGen.Proofs.Descriptor.Faithful
import SchemaGen.Proofs.Descriptor.Layout
import SchemaGen.Proofs.Descriptor.LevelOrder
import SchemaGen.Proofs.Descriptor.Nesting
import SchemaGen.Proofs.Descriptor.Parts
import SchemaGen.Proofs.Descriptor.PoolExtensions
import SchemaGen.Proofs.Descriptor.PoolOrder
import SchemaGen.Proofs.Descriptor.References
import SchemaGen.Proofs.Descriptor.RoundTrip
import SchemaGen.Proofs.Descriptor.StandardNames
import SchemaGen.Proofs.Descriptor.Texts
import SchemaGen.Proofs.Descriptor.WellFormed
import SchemaGen.Proofs.Directories
import SchemaGen.Proofs.Fallible
import SchemaGen.Proofs.FileOrder
import SchemaGen.Proofs.Loader.Collections
import SchemaGen.Proofs.Loader.Fields
import SchemaGen.Proofs.Loader.History
import SchemaGen.Proofs.Loader.Retry
import SchemaGen.Proofs.Noninterference
import SchemaGen.Proofs.Options.Building
import SchemaGen.Proofs.Options.Declarations
import SchemaGen.Proofs.Options.LoadOrder
import SchemaGen.Proofs.Options.Lookups
import SchemaGen.Proofs.Options.Needed
import SchemaGen.Proofs.Options.Reach
import SchemaGen.Proofs.Options.Values
import SchemaGen.Proofs.OrderedMap
import SchemaGen.Proofs.Outline
import SchemaGen.Proofs.Parameter
import SchemaGen.Proofs.Pipeline
import SchemaGen.Proofs.Provenance
import SchemaGen.Proofs.Reporting
import SchemaGen.Proofs.Response
import SchemaGen.Proofs.RevisedFiles
import SchemaGen.Proofs.RunOutput
import SchemaGen.Proofs.Serialization
import SchemaGen.Proofs.Text.Blank
import SchemaGen.Proofs.Text.SingleQuoted
import SchemaGen.Proofs.Undeclared
import SchemaGen.Proofs.Wire.Alike
import SchemaGen.Proofs.Wire.Elements
import SchemaGen.Proofs.Wire.Normal
import SchemaGen.Proofs.Wire.Replacement
import SchemaGen.Proofs.Wire.RoundTrip
import SchemaGen.Proofs.Wire.SchemaOrder
import SchemaGen.Proofs.Wire.Tidy
import SchemaGen.Proofs.Wire.Unknown
import SchemaGen.Proofs.Wire.Values
import SchemaGen.Response
import SchemaGen.SchemaFile
import SchemaGen.Target
import SchemaGen.TargetType
import SchemaGen.Text.Blank
import SchemaGen.Text.Case
import SchemaGen.Text.Digit
import SchemaGen.Text.Escape
import SchemaGen.Text.Lowercase
import SchemaGen.Text.Shown
import SchemaGen.Text.SingleQuoted
import SchemaGen.Text.Visible
import SchemaGen.Wire.Record
import SchemaGen.Wire.Schema
import SchemaGen.Wire.Value
import SchemaGen.Wire.Varint
