import FeatureTransform.Binding
import FeatureTransform.Catalog
import FeatureTransform.Command.Arguments
import FeatureTransform.Command.Basic
import FeatureTransform.Command.Console
import FeatureTransform.Command.Folders
import FeatureTransform.Command.Inspect
import FeatureTransform.Command.List
import FeatureTransform.Command.Perform
import FeatureTransform.Command.Run
import FeatureTransform.Decimal.Binary
import FeatureTransform.Decimal.Layout
import FeatureTransform.Decimal.Read
import FeatureTransform.Decimal.Shortest
import FeatureTransform.Declaration.Basic
import FeatureTransform.Declaration.Members
import FeatureTransform.Declaration.Resolve
import FeatureTransform.Engine
import FeatureTransform.Feature.Exchange
import FeatureTransform.Feature.Projection
import FeatureTransform.Feature.Record
import FeatureTransform.Feature.ReferenceSystem
import FeatureTransform.Feature.Schema
import FeatureTransform.Folder.Path
import FeatureTransform.Folder.Tree
import FeatureTransform.Json.Basic
import FeatureTransform.Json.Read
import FeatureTransform.Json.Write
import FeatureTransform.Log
import FeatureTransform.Lua.Evaluate
import FeatureTransform.Lua.Execute
import FeatureTransform.Lua.Host
import FeatureTransform.Lua.Library
import FeatureTransform.Lua.Library.Argument
import FeatureTransform.Lua.Library.Basic
import FeatureTransform.Lua.Library.Bytes
import FeatureTransform.Lua.Library.Codepoints
import FeatureTransform.Lua.Library.Interchange
import FeatureTransform.Lua.Library.Mathematics
import FeatureTransform.Lua.Library.Names
import FeatureTransform.Lua.Library.Sequence
import FeatureTransform.Lua.Number
import FeatureTransform.Lua.Operation
import FeatureTransform.Lua.Parse
import FeatureTransform.Lua.Scope
import FeatureTransform.Lua.Start
import FeatureTransform.Lua.Store
import FeatureTransform.Lua.Syntax
import FeatureTransform.Lua.Table
import FeatureTransform.Lua.Token
import FeatureTransform.Lua.Value
import FeatureTransform.Main
import FeatureTransform.Program
import FeatureTransform.Script.Basic
import FeatureTransform.Script.Builtin
import FeatureTransform.Script.File
import FeatureTransform.Script.Header
import FeatureTransform.Script.Help
import FeatureTransform.Session
import FeatureTransform.Settings
import FeatureTransform.Text.Blank
import FeatureTransform.Text.Case
import FeatureTransform.Text.Split
import FeatureTransform.Text.Utf8
import FeatureTransform.Text.Word
import FeatureTransform.Toml.Basic
import FeatureTransform.Toml.Draft
import FeatureTransform.Toml.Quoted
import FeatureTransform.Toml.Read
import FeatureTransform.Toml.Scalar
import FeatureTransform.Transform
import FeatureTransform.Proofs.Attempt
import FeatureTransform.Proofs.Catalog.Discover
import FeatureTransform.Proofs.Catalog.Find
import FeatureTransform.Proofs.Catalog.Order
import FeatureTransform.Proofs.Command.Console
import FeatureTransform.Proofs.Command.List
import FeatureTransform.Proofs.Decimal.Digits
import FeatureTransform.Proofs.Decimal.Numeral
import FeatureTransform.Proofs.Decimal.Plain
import FeatureTransform.Proofs.Decimal.Shortest
import FeatureTransform.Proofs.Declaration.Document
import FeatureTransform.Proofs.Declaration.Range
import FeatureTransform.Proofs.Declaration.Resolve
import FeatureTransform.Proofs.Declaration.Separator
import FeatureTransform.Proofs.Declaration.Spelling
import FeatureTransform.Proofs.Declaration.Wording
import FeatureTransform.Proofs.Double.Bits
import FeatureTransform.Proofs.Double.Nearest
import FeatureTransform.Proofs.Double.Order
import FeatureTransform.Proofs.Double.Value
import FeatureTransform.Proofs.Feature.Composition
import FeatureTransform.Proofs.Feature.Decoding
import FeatureTransform.Proofs.Feature.Document
import FeatureTransform.Proofs.Feature.Exchange
import FeatureTransform.Proofs.Feature.Fields
import FeatureTransform.Proofs.Feature.Inference
import FeatureTransform.Proofs.Feature.Integers
import FeatureTransform.Proofs.Feature.Numbers
import FeatureTransform.Proofs.Feature.Projection
import FeatureTransform.Proofs.Feature.ReferenceSystem
import FeatureTransform.Proofs.Feature.Retyping
import FeatureTransform.Proofs.Feature.Schema
import FeatureTransform.Proofs.Folder.Path
import FeatureTransform.Proofs.Folder.Spelling
import FeatureTransform.Proofs.Folder.Tree
import FeatureTransform.Proofs.Json.Depth
import FeatureTransform.Proofs.Json.Order
import FeatureTransform.Proofs.Json.Place
import FeatureTransform.Proofs.Json.Portable
import FeatureTransform.Proofs.Json.Reader
import FeatureTransform.Proofs.Json.RoundTrip
import FeatureTransform.Proofs.Json.Scalar
import FeatureTransform.Proofs.Json.Trim
import FeatureTransform.Proofs.Lua.Endless
import FeatureTransform.Proofs.Lua.Fault
import FeatureTransform.Proofs.Lua.Interchange
import FeatureTransform.Proofs.Lua.Members
import FeatureTransform.Proofs.Lua.Parse
import FeatureTransform.Proofs.Lua.ReadBack
import FeatureTransform.Proofs.Lua.RoundTrip
import FeatureTransform.Proofs.Lua.Run
import FeatureTransform.Proofs.Lua.Shape
import FeatureTransform.Proofs.Lua.Start
import FeatureTransform.Proofs.Lua.Store
import FeatureTransform.Proofs.Lua.Table
import FeatureTransform.Proofs.Lua.Token
import FeatureTransform.Proofs.Program.Assignment
import FeatureTransform.Proofs.Program.Binding
import FeatureTransform.Proofs.Program.Dependence
import FeatureTransform.Proofs.Program.Dispatcher
import FeatureTransform.Proofs.Program.Echo
import FeatureTransform.Proofs.Program.Literal
import FeatureTransform.Proofs.Program.Preamble
import FeatureTransform.Proofs.Script.Ending
import FeatureTransform.Proofs.Script.Extent
import FeatureTransform.Proofs.Script.Header
import FeatureTransform.Proofs.Script.Help
import FeatureTransform.Proofs.Script.Key
import FeatureTransform.Proofs.Script.Naming
import FeatureTransform.Proofs.Script.Source
import FeatureTransform.Proofs.Settings
import FeatureTransform.Proofs.Text.Blank
import FeatureTransform.Proofs.Text.Case
import FeatureTransform.Proofs.Text.Split
import FeatureTransform.Proofs.Text.Upper
import FeatureTransform.Proofs.Transform.Account
import FeatureTransform.Proofs.Transform.Conformance
import FeatureTransform.Proofs.Transform.Course
import FeatureTransform.Proofs.Transform.Echo
import FeatureTransform.Proofs.Transform.Strict
