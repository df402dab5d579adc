import Dialogue.Answer
import Dialogue.Binary32
import Dialogue.Config
import Dialogue.Console.Demo
import Dialogue.Console.Run
import Dialogue.Cycle
import Dialogue.Datum.Basic
import Dialogue.Decimal.Shortest
import Dialogue.Domain.Basic
import Dialogue.Domain.File
import Dialogue.Engine
import Dialogue.Error
import Dialogue.Json.Number
import Dialogue.Json.Parser
import Dialogue.Json.Printer
import Dialogue.Language.Keywords
import Dialogue.Language.Prompt
import Dialogue.Language.Templates
import Dialogue.Main
import Dialogue.Move
import Dialogue.Ordered.Map
import Dialogue.Ordered.Set
import Dialogue.Plan
import Dialogue.Question
import Dialogue.Resolution
import Dialogue.Rules.Selection
import Dialogue.Rules.Update
import Dialogue.Session
import Dialogue.State.Basic
import Dialogue.State.Stored
import Dialogue.Store
import Dialogue.Telemetry
import Dialogue.Text.Blank
import Dialogue.Text.Case
import Dialogue.Text.CaseTable
import Dialogue.Text.Integer
import Dialogue.Text.Normal
import Dialogue.Toml.Moment
import Dialogue.Toml.Number
import Dialogue.Toml.Parser
import Dialogue.Toml.Table
import Dialogue.Toml.Text
import Dialogue.Uuid
import Dialogue.Value
import Dialogue.Proofs.Text
import Dialogue.Proofs.Resolution
import Dialogue.Proofs.Plan
import Dialogue.Proofs.State
import Dialogue.Proofs.Integration
import Dialogue.Proofs.Dependency
import Dialogue.Proofs.Cycle
import Dialogue.Proofs.Run
import Dialogue.Proofs.Completion
import Dialogue.Proofs.Provenance
import Dialogue.Proofs.Confidence
import Dialogue.Proofs.Voicing
import Dialogue.Proofs.Rest
import Dialogue.Proofs.Replay
import Dialogue.Proofs.Discussion
import Dialogue.Proofs.Housekeeping
import Dialogue.Proofs.Question
import Dialogue.Proofs.Narrowing
import Dialogue.Proofs.History
import Dialogue.Proofs.Progress
import Dialogue.Proofs.Underway
import Dialogue.Proofs.Unheard
import Dialogue.Proofs.Datum
import Dialogue.Proofs.Stored
import Dialogue.Proofs.Json
import Dialogue.Proofs.Exchange
import Dialogue.Proofs.Mutation
import Dialogue.Proofs.Request
import Dialogue.Proofs.Persistence
import Dialogue.Proofs.Rollback
import Dialogue.Proofs.Clarification
import Dialogue.Proofs.Quiescence
import Dialogue.Proofs.Standing
import Dialogue.Proofs.Courtesy
import Dialogue.Proofs.Visit
import Dialogue.Proofs.Farewell
import Dialogue.Proofs.Reasking
import Dialogue.Proofs.Prerequisite
import Dialogue.Proofs.Accommodation
import Dialogue.Proofs.Key
import Dialogue.Proofs.Stores
import Dialogue.Proofs.Tally
import Dialogue.Proofs.Outcome
import Dialogue.Proofs.Normal
import Dialogue.Proofs.Loading
import Dialogue.Proofs.Consistency
import Dialogue.Proofs.Choice
import Dialogue.Proofs.Conditions
import Dialogue.Proofs.Reception
import Dialogue.Proofs.Residual
import Dialogue.Proofs.Distance
import Dialogue.Proofs.Casing
import Dialogue.Proofs.Vocabulary
import Dialogue.Proofs.Recognition
import Dialogue.Proofs.Restatement
import Dialogue.Proofs.Rewording
import Dialogue.Proofs.Listing
