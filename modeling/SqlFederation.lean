import SqlFederation.Error
import SqlFederation.Row
import SqlFederation.Call
import SqlFederation.Number.Binary64
import SqlFederation.Number.Decimal
import SqlFederation.Number.Extended
import SqlFederation.Number.Stored
import SqlFederation.Text.Base64
import SqlFederation.Text.Blank
import SqlFederation.Text.Case
import SqlFederation.Text.Digits
import SqlFederation.Text.Hex
import SqlFederation.Text.Quoted
import SqlFederation.Text.Timestamp
import SqlFederation.Text.Unseen
import SqlFederation.Json.Basic
import SqlFederation.Json.Decode
import SqlFederation.Json.Draft
import SqlFederation.Json.Printer
import SqlFederation.Json.Reader
import SqlFederation.Query.Basic
import SqlFederation.Query.Codec
import SqlFederation.Query.Predicate
import SqlFederation.Sharding.KeyRange
import SqlFederation.Sharding.ShardMap
import SqlFederation.Sharding.TableEntry
import SqlFederation.Sql.Dialect
import SqlFederation.Sql.Schema
import SqlFederation.Sql.Statement
import SqlFederation.Sql.Value
import SqlFederation.Merge.Aggregate
import SqlFederation.Merge.Order
import SqlFederation.Merge.Rows
import SqlFederation.Files.Address
import SqlFederation.Files.Basic
import SqlFederation.Files.Path
import SqlFederation.Locks.Description
import SqlFederation.Locks.Entry
import SqlFederation.Locks.Scoped
import SqlFederation.Locks.Store
import SqlFederation.Storage.Cell
import SqlFederation.Storage.Database
import SqlFederation.Storage.Define
import SqlFederation.Storage.Describe
import SqlFederation.Storage.Evaluation
import SqlFederation.Storage.Fault
import SqlFederation.Storage.Keys
import SqlFederation.Storage.Language
import SqlFederation.Storage.Parser
import SqlFederation.Storage.Read
import SqlFederation.Storage.Relation
import SqlFederation.Storage.Run
import SqlFederation.Storage.Saved
import SqlFederation.Storage.Token
import SqlFederation.Storage.Total
import SqlFederation.Storage.Write
import SqlFederation.Link.Connection
import SqlFederation.Link.Embedded
import SqlFederation.Link.Endpoints
import SqlFederation.Link.Fanout
import SqlFederation.Link.Registry
import SqlFederation.Link.Replicated
import SqlFederation.Link.Resync
import SqlFederation.Link.Scripted
import SqlFederation.Link.ScriptedJson
import SqlFederation.Link.Sharded
import SqlFederation.Link.World
import SqlFederation.Config.Basic
import SqlFederation.Config.Build
import SqlFederation.Config.Check
import SqlFederation.Config.Codec
import SqlFederation.Config.Location
import SqlFederation.Command.Invocation
import SqlFederation.Command.Options
import SqlFederation.Command.Run
import SqlFederation.Command.Surroundings
import SqlFederation.Command.Text
import SqlFederation.Main
import SqlFederation.Proofs.Truth
import SqlFederation.Proofs.Routing
import SqlFederation.Proofs.Outcome
import SqlFederation.Proofs.Rows
import SqlFederation.Proofs.Plan
import SqlFederation.Proofs.RowTable
import SqlFederation.Proofs.Pieces
import SqlFederation.Proofs.Sorting
import SqlFederation.Proofs.Order
import SqlFederation.Proofs.Paging
import SqlFederation.Proofs.OverTables
import SqlFederation.Proofs.OneTable
import SqlFederation.Proofs.Serving
import SqlFederation.Proofs.KeyText
import SqlFederation.Proofs.Extreme
import SqlFederation.Proofs.Groups
import SqlFederation.Proofs.Central
import SqlFederation.Proofs.Grouping
import SqlFederation.Proofs.Regrouping
import SqlFederation.Proofs.Parameters
import SqlFederation.Proofs.InsertParts
import SqlFederation.Proofs.Recorded
import SqlFederation.Proofs.ResyncCopy
import SqlFederation.Proofs.DatabaseOrder
import SqlFederation.Proofs.CarriedOrder
import SqlFederation.Proofs.LockFiles
import SqlFederation.Proofs.LockStore
import SqlFederation.Proofs.LockMemory
import SqlFederation.Proofs.LockHolders
import SqlFederation.Proofs.KeptKeys
import SqlFederation.Proofs.Connecting
import SqlFederation.Proofs.LockReturn
import SqlFederation.Proofs.ResyncLock
import SqlFederation.Proofs.Lexemes
import SqlFederation.Proofs.Placeholders
import SqlFederation.Proofs.ConditionTokens
import SqlFederation.Proofs.ConditionGrammar
import SqlFederation.Proofs.Outline
import SqlFederation.Proofs.Building
import SqlFederation.Proofs.LockRefinement
import SqlFederation.Proofs.LockExclusion
import SqlFederation.Proofs.LockLongNames
import SqlFederation.Proofs.LockLeads
import SqlFederation.Proofs.LockNamespaces
import SqlFederation.Proofs.Decoding
import SqlFederation.Proofs.QueryJson
import SqlFederation.Proofs.ConfigJson
import SqlFederation.Proofs.ConfigSaved
import SqlFederation.Proofs.RegistryMoves
import SqlFederation.Proofs.ReadShapes
import SqlFederation.Proofs.Dispatch
import SqlFederation.Proofs.ReadPool
import SqlFederation.Proofs.RouteShape
import SqlFederation.Proofs.ExactRouting
import SqlFederation.Proofs.OrderClause
import SqlFederation.Proofs.ClauseOrder
import SqlFederation.Proofs.Transactions
import SqlFederation.Proofs.RollingBack
import SqlFederation.Proofs.PlanDispatch
import SqlFederation.Proofs.FoldedRows
import SqlFederation.Proofs.HiddenCounts
import SqlFederation.Proofs.Rounding
import SqlFederation.Proofs.StableOrder
import SqlFederation.Proofs.ValueOrder
import SqlFederation.Proofs.RepeatedColumns
import SqlFederation.Proofs.RunningTotals
import SqlFederation.Proofs.BlobTexts
import SqlFederation.Proofs.CopiedCells
import SqlFederation.Proofs.BlockBorders
import SqlFederation.Proofs.ResyncEnds
import SqlFederation.Proofs.ResyncLog
import SqlFederation.Proofs.TieBreaks
import SqlFederation.Proofs.NestedMirrors
import SqlFederation.Proofs.InsertedRows
import SqlFederation.Proofs.ConfiguredTables
import SqlFederation.Proofs.TableDefinition
import SqlFederation.Proofs.BlockOffsets
import SqlFederation.Proofs.Retargeting
import SqlFederation.Proofs.RouteRequests
