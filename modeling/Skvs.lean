import Skvs.Lib.IndexMap
import Skvs.Lib.KeyedFold
import Skvs.Lib.Links
import Skvs.Lib.BTreeMap
import Skvs.Lib.Program
import Skvs.Lib.Fuel
import Skvs.Lib.Text
import Skvs.Lib.Float64
import Skvs.Lib.Path
import Skvs.Lib.Exchange
import Skvs.Error
import Skvs.Schema
import Skvs.Ast
import Skvs.Externals
import Skvs.Json
import Skvs.Expr
import Skvs.Fts
import Skvs.Transaction
import Skvs.State
import Skvs.Index
import Skvs.Select
import Skvs.Constraint
import Skvs.Dml
import Skvs.Rollback
import Skvs.Trigger
import Skvs.Ddl
import Skvs.Engine
import Skvs.Api
import Skvs.Http
import Skvs.Snapshot
import Skvs.Raw
import Skvs.Replication
import Skvs.Proof.Placeholders
import Skvs.Proof.Constraints
import Skvs.Proof.Composite
import Skvs.Proof.Change
import Skvs.Proof.Journal
import Skvs.Proof.Statement
import Skvs.Proof.Run
import Skvs.Proof.Undo
import Skvs.Proof.Autocommit
import Skvs.Proof.Quiet
import Skvs.Proof.IndexEntries
import Skvs.Proof.Leftover
import Skvs.Proof.Reversible
import Skvs.Proof.Interleaving
import Skvs.Proof.FullText
import Skvs.Proof.Restore
import Skvs.Proof.FastPath
import Skvs.Proof.RawMap
import Skvs.Proof.RawIsolation
import Skvs.Proof.Convergence
import Skvs.Proof.SnapshotFiles
import Skvs.Proof.SnapshotLoad
import Skvs.Proof.LoadDatabases
import Skvs.Proof.RoundTrip
import Skvs.Proof.Durability
import Skvs.Proof.Reload
import Skvs.Proof.CrashDuringSave
import Skvs.Proof.Databases
import Skvs.Proof.CrashAtomicity
import Skvs.Proof.InsertValues
import Skvs.Proof.Substitution
import Skvs.Proof.WhereBinding
import Skvs.Proof.ClauseBinding
import Skvs.Wal
import Skvs.Proof.WalOrder
import Skvs.Proof.TxnIds
import Skvs.Proof.Catalogue
import Skvs.Proof.Committed
import Skvs.Proof.OtherDatabases
import Skvs.Proof.AlterIndexes
import Skvs.Proof.SerialRun
import Skvs.Proof.References
import Skvs.Proof.ListedIndexes
import Skvs.Proof.RenameColumn
import Skvs.Proof.AlterRules
import Skvs.Proof.RowidRun
import Skvs.Proof.RowShape
import Skvs.Proof.BeforeTriggers
import Skvs.Proof.UniqueIndex
import Skvs.Proof.TriggerSubstitution
import Skvs.Lib.Buckets
import Skvs.Lib.OuterJoin
import Skvs.Proof.Joins
import Skvs.Proof.OuterJoins
import Skvs.Lib.Float64Int
import Skvs.Proof.HashJoin
import Skvs.Proof.JoinUsing
import Skvs.Proof.CommaJoin
import Skvs.Proof.GroupBy
import Skvs.Proof.SelectRows
import Skvs.Proof.SelectBinding
import Skvs.Proof.GroupedValues
import Skvs.Proof.UngroupedAggregates
import Skvs.Proof.Aggregates
import Skvs.Proof.WhereAgreement
import Skvs.Proof.UpdateBinding
import Skvs.Proof.Views
import Skvs.Proof.CascadeLinks
import Skvs.Proof.CascadeEnds
import Skvs.Lib.StableSort
import Skvs.Proof.OrderBy
import Skvs.Proof.Updates
import Skvs.Proof.UniqueLookup
import Skvs.Lib.Schedule
import Skvs.Lib.KeyOrder
import Skvs.Lib.Durable
import Skvs.Proof.SharedKeys
import Skvs.Proof.UpdateOrder
import Skvs.Proof.ProjectedNames
import Skvs.Proof.SelectDistinct
import Skvs.Proof.OwnWrites
import Skvs.Proof.InsertSelect
import Skvs.Proof.GeneratedKeys
import Skvs.Proof.DroppedTable
import Skvs.Proof.FullTextRun
import Skvs.Proof.ValueOrder
import Skvs.Proof.JsonRoundTrip
import Skvs.Proof.TriggerLiterals
import Skvs.Proof.DamagedSnapshot
import Skvs.Proof.TriggerText
import Skvs.Proof.TriggerParts
import Skvs.Proof.StoredTrigger
import Skvs.Proof.FailedDdl
import Skvs.Proof.DdlFrame
import Skvs.Proof.LikeMatch
import Skvs.Proof.RangeBounds
import Skvs.Proof.IntegerArithmetic
import Skvs.Proof.EvalPanics
import Skvs.Proof.TableRenaming
import Skvs.Proof.MovedTable
import Skvs.Proof.MovedChange
import Skvs.Proof.MovedRun
import Skvs.Proof.RenameTable
import Skvs.Proof.SameDatabase
import Skvs.Proof.Indistinct
import Skvs.Proof.SeesDatabase
import Skvs.Proof.DatabaseIsolation
import Skvs.Proof.CascadeFrame
import Skvs.Proof.HttpRows
import Skvs.Proof.RowOrder
import Skvs.Proof.SelectOrder
import Skvs.Proof.Boundaries
import Skvs.Proof.Catalogued
import Skvs.Proof.HttpSql
import Skvs.Lifecycle
import Skvs.Proof.Recovery
