import Bindery.Build.Compilation
import Bindery.Build.Headers
import Bindery.Build.Settings
import Bindery.Build.Shell
import Bindery.Build.Toolchain
import Bindery.Call.EnumTable
import Bindery.Call.Marshalled
import Bindery.Call.Signature
import Bindery.Call.Value
import Bindery.Catalog.Basic
import Bindery.Catalog.Lineage
import Bindery.Catalog.Stored
import Bindery.CommandLine.EnvFile
import Bindery.CommandLine.Grammar
import Bindery.CommandLine.Invocation
import Bindery.CommandLine.Literal
import Bindery.CommandLine.Report
import Bindery.CommandLine.Run
import Bindery.Cpp.ClassReference
import Bindery.Cpp.Operator
import Bindery.Cpp.Scalar
import Bindery.Cpp.Spelling
import Bindery.Cpp.View
import Bindery.Decimal.Binary64
import Bindery.Decimal.Read
import Bindery.Decimal.Shortest
import Bindery.Digest.Blake3
import Bindery.Header.Declaration
import Bindery.Header.Declarator
import Bindery.Header.Documentation
import Bindery.Header.Members
import Bindery.Header.Reader
import Bindery.Header.Statement
import Bindery.Header.Token
import Bindery.Header.Tree
import Bindery.Host.Files
import Bindery.Host.Path
import Bindery.Json.Basic
import Bindery.Json.Printer
import Bindery.Json.Reader
import Bindery.Json.Token
import Bindery.Main
import Bindery.Native.Handle
import Bindery.Native.Platform
import Bindery.Native.Pool
import Bindery.Native.Raw
import Bindery.Native.Result
import Bindery.Native.Script
import Bindery.Proofs.Build.Headers
import Bindery.Proofs.Call.EnumTable
import Bindery.Proofs.Call.IntegerRange
import Bindery.Proofs.Call.Marshalled
import Bindery.Proofs.Call.ReadBack
import Bindery.Proofs.Call.SignatureText
import Bindery.Proofs.Catalog.Accessors
import Bindery.Proofs.Catalog.Meaning
import Bindery.Proofs.Catalog.Storage
import Bindery.Proofs.Catalog.Walks
import Bindery.Proofs.CommandLine.PrintedKey
import Bindery.Proofs.Cpp.Arguments
import Bindery.Proofs.Cpp.BareName
import Bindery.Proofs.Cpp.ClassPath
import Bindery.Proofs.Cpp.ClassReference
import Bindery.Proofs.Cpp.ConstantPath
import Bindery.Proofs.Cpp.Nesting
import Bindery.Proofs.Cpp.NormalForm
import Bindery.Proofs.Cpp.Signs
import Bindery.Proofs.Cpp.Spacing
import Bindery.Proofs.Cpp.Tokens
import Bindery.Proofs.Cpp.View
import Bindery.Proofs.Header.AliasTargets
import Bindery.Proofs.Header.Hidden
import Bindery.Proofs.Header.Members
import Bindery.Proofs.Host.Directory
import Bindery.Proofs.Host.Writers
import Bindery.Proofs.Json.RoundTrip
import Bindery.Proofs.Lookup
import Bindery.Proofs.Native.Counting
import Bindery.Proofs.Native.Pool
import Bindery.Proofs.Outcome
import Bindery.Proofs.Reflection.Overloads
import Bindery.Proofs.Session.Accounts
import Bindery.Proofs.Session.CallKinds
import Bindery.Proofs.Session.Callee
import Bindery.Proofs.Session.ContentAddress
import Bindery.Proofs.Session.Demands
import Bindery.Proofs.Session.Emission
import Bindery.Proofs.Session.GeneratedHeaders
import Bindery.Proofs.Session.Guards
import Bindery.Proofs.Session.Refusals
import Bindery.Proofs.Session.ReportedTypes
import Bindery.Proofs.Session.Runs
import Bindery.Proofs.Session.StoredCatalog
import Bindery.Proofs.Session.TypeObjects
import Bindery.Proofs.Session.Wrapping
import Bindery.Proofs.Source.Operands
import Bindery.Proofs.Source.Reading
import Bindery.Proofs.Source.Wrapper
import Bindery.Proofs.Store.AccessorChoice
import Bindery.Proofs.Store.Archive
import Bindery.Proofs.Store.Attempt
import Bindery.Proofs.Store.Backing
import Bindery.Proofs.Store.Balance
import Bindery.Proofs.Store.ClassNames
import Bindery.Proofs.Store.Consistency
import Bindery.Proofs.Store.Directory
import Bindery.Proofs.Store.Exec
import Bindery.Proofs.Store.Failure
import Bindery.Proofs.Store.Index
import Bindery.Proofs.Store.Ledger
import Bindery.Proofs.Store.Loading
import Bindery.Proofs.Store.Provenance
import Bindery.Proofs.Store.Restart
import Bindery.Proofs.Store.Runs
import Bindery.Proofs.Store.Sharing
import Bindery.Proofs.Store.Steps
import Bindery.Proofs.Text.Ends
import Bindery.Proofs.Text.Marks
import Bindery.Proofs.Text.Utf8
import Bindery.Reflection.Basic
import Bindery.Session.Basic
import Bindery.Session.Calls
import Bindery.Session.Cast
import Bindery.Session.Opening
import Bindery.Session.Request
import Bindery.Session.Setup
import Bindery.Session.Workspace
import Bindery.Source.Expr
import Bindery.Source.Prelude
import Bindery.Source.Registration
import Bindery.Source.Symbols
import Bindery.Source.Unit
import Bindery.Source.Wrapper
import Bindery.Store.Archive
import Bindery.Store.Cache
import Bindery.Store.Index
import Bindery.Store.Library
import Bindery.Store.Lookup
import Bindery.Store.Run
import Bindery.Store.Stats
import Bindery.Text.Blank
import Bindery.Text.Digits
import Bindery.Text.Printable
import Bindery.Text.Quoted
import Bindery.Text.Utf8
