import SchemaForge.Adapter.Agreement
import SchemaForge.Adapter.Codecs
import SchemaForge.Adapter.Mapper
import SchemaForge.Adapter.Rpc
import SchemaForge.Adapter.Violations
import SchemaForge.Domain.Comparison
import SchemaForge.Domain.Report
import SchemaForge.Domain.Schema
import SchemaForge.Exchange
import SchemaForge.Exchange.Compare
import SchemaForge.Exchange.CompareComplete
import SchemaForge.Exchange.CompareCounts
import SchemaForge.Exchange.CompareEqual
import SchemaForge.Exchange.CompareLaws
import SchemaForge.Exchange.CompareMirror
import SchemaForge.Exchange.CompareSound
import SchemaForge.Exchange.Json
import SchemaForge.Exchange.JsonParts
import SchemaForge.Exchange.JsonRefusals
import SchemaForge.Exchange.JsonReopening
import SchemaForge.Exchange.JsonRoundTrip
import SchemaForge.Exchange.Names
import SchemaForge.Foundation.Binary64
import SchemaForge.Foundation.Digraph
import SchemaForge.Foundation.Interleaving
import SchemaForge.Foundation.Json
import SchemaForge.Foundation.Lists
import SchemaForge.Foundation.Machine
import SchemaForge.Foundation.Matching
import SchemaForge.Foundation.Paging
import SchemaForge.Foundation.Strings
import SchemaForge.Foundation.Varchar
import SchemaForge.Generator
import SchemaForge.Iam.Accounts
import SchemaForge.Iam.Addresses
import SchemaForge.Iam.Auth
import SchemaForge.Iam.Lockout
import SchemaForge.Iam.Passwords
import SchemaForge.Iam.Permissions
import SchemaForge.Iam.Races
import SchemaForge.Iam.Resets
import SchemaForge.Iam.Roles
import SchemaForge.Iam.Rows
import SchemaForge.Iam.SignUp
import SchemaForge.Iam.TokenKinds
import SchemaForge.Iam.UserListing
import SchemaForge.Iam.Users
import SchemaForge.Inward
import SchemaForge.Pagination
import SchemaForge.Repository.Serial
import SchemaForge.Repository.Store
import SchemaForge.Repository.Stored
import SchemaForge.Repository.Tables
import SchemaForge.Repository.Transactions
import SchemaForge.Repository.UuidText
import SchemaForge.Server.BothPorts
import SchemaForge.Server.Guard
import SchemaForge.Server.Ports
import SchemaForge.Server.Requests
import SchemaForge.Server.RpcBody
import SchemaForge.Service
import SchemaForge.Service.LastWrite
import SchemaForge.Service.Owners
import SchemaForge.Service.Sample
import SchemaForge.Service.SchemaListing
import SchemaForge.Sql.Alignment
import SchemaForge.Sql.AlterTable
import SchemaForge.Sql.Binding
import SchemaForge.Sql.ClauseReading
import SchemaForge.Sql.ClosedText
import SchemaForge.Sql.ColumnClauses
import SchemaForge.Sql.ColumnLines
import SchemaForge.Sql.CommentPlaces
import SchemaForge.Sql.CreateTable
import SchemaForge.Sql.Cursor
import SchemaForge.Sql.Defaults
import SchemaForge.Sql.Expressions
import SchemaForge.Sql.Flags
import SchemaForge.Sql.InertClauses
import SchemaForge.Sql.KeysAndLines
import SchemaForge.Sql.Lexemes
import SchemaForge.Sql.Lexing
import SchemaForge.Sql.Linking
import SchemaForge.Sql.Meaning
import SchemaForge.Sql.OpenKeys
import SchemaForge.Sql.Positions
import SchemaForge.Sql.Progress
import SchemaForge.Sql.Read
import SchemaForge.Sql.Relinking
import SchemaForge.Sql.Render
import SchemaForge.Sql.Reopening
import SchemaForge.Sql.RoundTrip
import SchemaForge.Sql.Scan
import SchemaForge.Sql.ScanAppend
import SchemaForge.Sql.Script
import SchemaForge.Sql.ScriptReading
import SchemaForge.Sql.Spelling
import SchemaForge.Sql.Statements
import SchemaForge.Sql.Table
import SchemaForge.Sql.TableReading
import SchemaForge.Sql.TopLevel
import SchemaForge.Sql.TypeSpelling
import SchemaForge.Sql.Written
import SchemaForge.Verifier
import SchemaForge.Verifier.Checks
import SchemaForge.Verifier.Components
import SchemaForge.Verifier.ConstraintNames
import SchemaForge.Verifier.Copies
import SchemaForge.Verifier.Cycles
import SchemaForge.Verifier.Directions
import SchemaForge.Verifier.DrawingOrder
import SchemaForge.Verifier.InsertionOrder
import SchemaForge.Verifier.KeyTargets
import SchemaForge.Verifier.Lookups
import SchemaForge.Verifier.SameNames
import SchemaForge.Verifier.Tarjan
import SchemaForge.Verifier.Valid
import SchemaForge.Verifier.Vectors
import SchemaForge.Verifier.WellFormed
