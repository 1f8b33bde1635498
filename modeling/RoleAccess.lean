import RoleAccess.Decision
import RoleAccess.Event
import RoleAccess.Explanation
import RoleAccess.Fault
import RoleAccess.Fault.Registry
import RoleAccess.Issue
import RoleAccess.Lineage
import RoleAccess.Log.Calendar
import RoleAccess.Log.Context
import RoleAccess.Log.DateFormat
import RoleAccess.Log.Hierarchy
import RoleAccess.Log.Level
import RoleAccess.Log.Preview
import RoleAccess.Log.Record
import RoleAccess.Log.System
import RoleAccess.Log.Template
import RoleAccess.Number.Binary64
import RoleAccess.Number.Rounded
import RoleAccess.Number.Shortest
import RoleAccess.Number.Written
import RoleAccess.Permission
import RoleAccess.Permission.Check
import RoleAccess.Request
import RoleAccess.Role
import RoleAccess.Roster
import RoleAccess.Roster.Configuration
import RoleAccess.Roster.Key
import RoleAccess.Session
import RoleAccess.Settings
import RoleAccess.Table
import RoleAccess.Text.Printable
import RoleAccess.Text.Quoted
import RoleAccess.Value
import RoleAccess.Value.Datum
import RoleAccess.Value.Identity
import RoleAccess.Value.Json
import RoleAccess.Value.Literal
import RoleAccess.Value.Naming
import RoleAccess.Value.Part
import RoleAccess.Proofs.Decision.Rules
import RoleAccess.Proofs.Lineage.Reach
import RoleAccess.Proofs.Roster.Resolve
import RoleAccess.Proofs.Roster.Rights
import RoleAccess.Proofs.Explanation.Agreement
import RoleAccess.Proofs.List.Distinct
import RoleAccess.Proofs.Roster.Alike
import RoleAccess.Proofs.Roster.Inheritance
import RoleAccess.Proofs.Schema.Reading
import RoleAccess.Proofs.Schema.Refusal
import RoleAccess.Proofs.Roster.WellFormed
import RoleAccess.Proofs.Roster.InPlace
import RoleAccess.Proofs.Session.Reachable
import RoleAccess.Proofs.Session.Update
import RoleAccess.Proofs.Table.Laws
import RoleAccess.Proofs.Schema.Written
import RoleAccess.Proofs.Role.Merge
import RoleAccess.Proofs.Roster.Merge
import RoleAccess.Proofs.Roster.Stated
import RoleAccess.Proofs.Session.Takes
import RoleAccess.Proofs.Session.Precedence
import RoleAccess.Proofs.Session.Batching
import RoleAccess.Proofs.Session.EitherOrder
import RoleAccess.Proofs.Session.Growth
import RoleAccess.Proofs.Permission.Codec
import RoleAccess.Proofs.Roster.Locality
import RoleAccess.Proofs.Session.Locality
import RoleAccess.Proofs.Decision.Checks
import RoleAccess.Proofs.Session.Checks
import RoleAccess.Proofs.Roster.Unrepeated
import RoleAccess.Proofs.Session.Unrepeated
import RoleAccess.Proofs.Decision.Outcome
import RoleAccess.Proofs.Roster.Flattened
import RoleAccess.Proofs.Session.Patterns
import RoleAccess.Proofs.Session.Wildcard
import RoleAccess.Proofs.Session.Flattened
import RoleAccess.Proofs.Lineage.Turns
import RoleAccess.Proofs.Decision.Ruling
import RoleAccess.Proofs.Log.Decisions
import RoleAccess.Proofs.Session.Export
import RoleAccess.Proofs.Session.Recording
import RoleAccess.Proofs.Lineage.Order
import RoleAccess.Proofs.Roster.Nearest
import RoleAccess.Proofs.Session.Collected
import RoleAccess.Proofs.Decision.Growth
import RoleAccess.Proofs.Roster.Preorder
import RoleAccess.Proofs.Session.EveryAction
import RoleAccess.Proofs.Session.Listed
import RoleAccess.Proofs.Explanation.Qualifiers
import RoleAccess.Proofs.Lineage.Cycles
import RoleAccess.Proofs.Session.Circles
import RoleAccess.Proofs.List.Corresponds
import RoleAccess.Proofs.Value.Equality
import RoleAccess.Proofs.Permission.Identity
import RoleAccess.Proofs.Log.Preview
import RoleAccess.Proofs.Number.Written
import RoleAccess.Proofs.Value.Entries
import RoleAccess.Proofs.Value.Obstacle
import RoleAccess.Proofs.Log.Attributes
import RoleAccess.Proofs.Log.Parts
import RoleAccess.Proofs.Log.Display
import RoleAccess.Proofs.Log.Line
