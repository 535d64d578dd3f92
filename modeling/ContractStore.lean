import ContractStore.Bytes
import ContractStore.Call.Contract
import ContractStore.Call.Executor
import ContractStore.Call.Fixture
import ContractStore.Call.Host
import ContractStore.Call.Limits
import ContractStore.Call.LimitsFile
import ContractStore.Contracts.Keeper
import ContractStore.Contracts.Probe
import ContractStore.Contracts.Registry
import ContractStore.Contracts.Token
import ContractStore.Contracts.Vault
import ContractStore.Declaration.Attribute
import ContractStore.Declaration.Contract
import ContractStore.Declaration.Enum
import ContractStore.Declaration.Error
import ContractStore.Declaration.FunctionItem
import ContractStore.Declaration.Generics
import ContractStore.Declaration.Grammar.Basic
import ContractStore.Declaration.Grammar.Bound
import ContractStore.Declaration.Grammar.Expression
import ContractStore.Declaration.Grammar.Item
import ContractStore.Declaration.Grammar.Nested
import ContractStore.Declaration.Grammar.Path
import ContractStore.Declaration.Grammar.Pattern
import ContractStore.Declaration.Grammar.Reading
import ContractStore.Declaration.Grammar.Signature
import ContractStore.Declaration.Grammar.Statement
import ContractStore.Declaration.Grammar.Type
import ContractStore.Declaration.Record
import ContractStore.Declaration.Schema
import ContractStore.Declaration.Scope
import ContractStore.Declaration.Standard
import ContractStore.Declaration.Token.Arranged
import ContractStore.Declaration.Token.Basic
import ContractStore.Declaration.Token.Quotation
import ContractStore.Declaration.Token.Source
import ContractStore.Declaration.TypeExpr
import ContractStore.Error
import ContractStore.Name
import ContractStore.Program.Basic
import ContractStore.Program.Namespace
import ContractStore.Sandbox
import ContractStore.Sha256
import ContractStore.Slot
import ContractStore.SortedMap
import ContractStore.Store.Basic
import ContractStore.Store.KeyLayout
import ContractStore.Store.Layers
import ContractStore.Store.Overlay
import ContractStore.Store.Refusing
import ContractStore.Stream.Reader
import ContractStore.Stream.Script
import ContractStore.Stream.Target
import ContractStore.Table.Basic
import ContractStore.Table.External
import ContractStore.Table.Row
import ContractStore.Table.Singleton
import ContractStore.Text.Diagnostic
import ContractStore.Text.Hex
import ContractStore.Text.Quoted
import ContractStore.Text.Unprintable
import ContractStore.Toml.Document
import ContractStore.Toml.Scan
import ContractStore.Toml.Value
import ContractStore.Wire.Datum
import ContractStore.Wire.Decode
import ContractStore.Wire.Domain
import ContractStore.Wire.Encode
import ContractStore.Wire.Initial
import ContractStore.Wire.Pack
import ContractStore.Wire.Schema
import ContractStore.Wire.Varint
import ContractStore.Wire.WireType
import ContractStore.Proofs.Call.CodecSafe
import ContractStore.Proofs.Call.Coins
import ContractStore.Proofs.Call.Confinement
import ContractStore.Proofs.Call.Dispatch
import ContractStore.Proofs.Call.Interleaving
import ContractStore.Proofs.Call.Outcome
import ContractStore.Proofs.Call.Receipts
import ContractStore.Proofs.Call.Transaction
import ContractStore.Proofs.Declaration.Contract
import ContractStore.Proofs.Declaration.Options
import ContractStore.Proofs.Declaration.Record
import ContractStore.Proofs.Except
import ContractStore.Proofs.InTurn
import ContractStore.Proofs.Name
import ContractStore.Proofs.Name.Positions
import ContractStore.Proofs.Program.Action
import ContractStore.Proofs.Program.Namespace
import ContractStore.Proofs.Program.Simulation
import ContractStore.Proofs.Program.WritesLast
import ContractStore.Proofs.SortedMap
import ContractStore.Proofs.Store.KeyLayout
import ContractStore.Proofs.Store.LastWrites
import ContractStore.Proofs.Store.Overlay
import ContractStore.Proofs.Store.Snapshots
import ContractStore.Proofs.Stream.Bounded
import ContractStore.Proofs.Stream.Lockstep
import ContractStore.Proofs.Stream.Moves
import ContractStore.Proofs.Stream.Reading
import ContractStore.Proofs.Stream.Reads
import ContractStore.Proofs.Stream.Script
import ContractStore.Proofs.Stream.Sessions
import ContractStore.Proofs.Stream.Takes
import ContractStore.Proofs.Stream.Writing
import ContractStore.Proofs.Table.AllOrNothing
import ContractStore.Proofs.Table.Book
import ContractStore.Proofs.Table.CodecSafe
import ContractStore.Proofs.Table.External
import ContractStore.Proofs.Table.Matching
import ContractStore.Proofs.Table.Outcome
import ContractStore.Proofs.Table.Refinement
import ContractStore.Proofs.Table.Rewriting
import ContractStore.Proofs.Table.Singleton
import ContractStore.Proofs.Table.Stored
import ContractStore.Proofs.Token.Authority
import ContractStore.Proofs.Token.Balances
import ContractStore.Proofs.Token.Filed
import ContractStore.Proofs.Token.Invocation
import ContractStore.Proofs.Token.Layout
import ContractStore.Proofs.Token.Reachable
import ContractStore.Proofs.Token.Supply
import ContractStore.Proofs.Vault.Snapshots
import ContractStore.Proofs.Wire.Canonical
import ContractStore.Proofs.Wire.Composed
import ContractStore.Proofs.Wire.Containers
import ContractStore.Proofs.Wire.Encode
import ContractStore.Proofs.Wire.EntryOrder
import ContractStore.Proofs.Wire.Fields
import ContractStore.Proofs.Wire.Groups
import ContractStore.Proofs.Wire.Progress
import ContractStore.Proofs.Wire.Repack
import ContractStore.Proofs.Wire.RoundTrip
import ContractStore.Proofs.Wire.SelfDelimiting
import ContractStore.Proofs.Wire.Targets
import ContractStore.Proofs.Wire.Varint
