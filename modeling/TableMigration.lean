import TableMigration.Outcome
import TableMigration.Table
import TableMigration.Action
import TableMigration.Notice
import TableMigration.Keyed
import TableMigration.Execution
import TableMigration.Event
import TableMigration.Store
import TableMigration.Store.Memory
import TableMigration.Store.Faulty
import TableMigration.Count
import TableMigration.Task
import TableMigration.Verification
import TableMigration.Twister
import TableMigration.Planner
import TableMigration.Pool
import TableMigration.Pool.Script
import TableMigration.Scheduler
import TableMigration.Scheduler.Run
import TableMigration.Scheduler.Drive
import TableMigration.Scheduler.Rules
import TableMigration.Session
import TableMigration.Proofs.Findings
import TableMigration.Proofs.Ledger
import TableMigration.Proofs.Moves
import TableMigration.Proofs.Agenda
import TableMigration.Proofs.Custody
import TableMigration.Proofs.Sound
import TableMigration.Proofs.History
import TableMigration.Proofs.Tally
import TableMigration.Proofs.Conduct
import TableMigration.Proofs.Workers
import TableMigration.Proofs.Campaign
import TableMigration.Proofs.Balance
import TableMigration.Proofs.Groups
import TableMigration.Proofs.Coverage
import TableMigration.Proofs.Account
import TableMigration.Proofs.Determinacy
import TableMigration.Proofs.Descent
import TableMigration.Proofs.Liveness
import TableMigration.Proofs.Refinement
import TableMigration.Proofs.Writes
import TableMigration.Proofs.Deliveries
import TableMigration.Proofs.Notes
import TableMigration.Proofs.Reconciliation
import TableMigration.Proofs.Weighing
import TableMigration.Proofs.RightNotes
import TableMigration.Proofs.Verdicts
import TableMigration.Proofs.TableCalls
import TableMigration.Proofs.Calls
import TableMigration.Proofs.Effects
import TableMigration.Proofs.Rows
import TableMigration.Proofs.Settlement
import TableMigration.Proofs.Plans
import TableMigration.Proofs.Census
import TableMigration.Proofs.Migration
import TableMigration.Proofs.Additions
import TableMigration.Proofs.Counters
import TableMigration.Proofs.Standstill
import TableMigration.Proofs.Indifference
import TableMigration.Proofs.Fates
import TableMigration.Proofs.Postings
import TableMigration.Proofs.Confluence
import TableMigration.Proofs.Chronicle
import TableMigration.Proofs.Slices
import TableMigration.Proofs.Composition
import TableMigration.Proofs.Finishing
import TableMigration.Proofs.Isolation
import TableMigration.Proofs.Independence
import TableMigration.Proofs.Crew
import TableMigration.Proofs.Books
import TableMigration.Proofs.Recast
import TableMigration.Proofs.Reuse
import TableMigration.Proofs.Sizes
import TableMigration.Proofs.Watermark
import TableMigration.Proofs.Keys
import TableMigration.Proofs.Recording
import TableMigration.Proofs.Precedence
import TableMigration.Proofs.Numerals
import TableMigration.Proofs.Comparison
import TableMigration.Proofs.Refusals
import TableMigration.Proofs.Passes
import TableMigration.Proofs.Halting
