import Narrative.Text.Blank
import Narrative.Text.Search
import Narrative.Text.Quoted
import Narrative.Decimal.Layout
import Narrative.Decimal.Reading
import Narrative.Entries
import Narrative.SortedSet
import Narrative.Slug
import Narrative.Story.Basic
import Narrative.Json.Reader
import Narrative.Story.Coding
import Narrative.Source.Operand
import Narrative.Source.Condition
import Narrative.Condition.Holds
import Narrative.Operation.Apply
import Narrative.Record.Config
import Narrative.Event.Assembly
import Narrative.Session.Basic
import Narrative.Session.Builder
import Narrative.Bundle
import Narrative.Tools.Compiler
import Narrative.Tools.Charter
import Narrative.Tools.Player
import Narrative.Tools.Demo
import Narrative.Chart.Walk
import Narrative.Game
import Narrative.Ron.Writer
import Narrative.Ron.Reader
import Narrative.Main
import Narrative.Proofs.Operand.Rereading
import Narrative.Proofs.Story.Rereading
import Narrative.Proofs.Decimal.Finite
import Narrative.Proofs.Yaml.Proper
import Narrative.Proofs.Source.Written
import Narrative.Proofs.Source.Proper
import Narrative.Proofs.Bundle.Written
import Narrative.Proofs.Bundle.Proper
import Narrative.Proofs.Bundle.RoundTrip
import Narrative.Proofs.Session.Selection
import Narrative.Proofs.Text.Trimming
import Narrative.Proofs.Source.Balance
import Narrative.Proofs.Source.Unambiguous
import Narrative.Proofs.Session.Run
import Narrative.Proofs.Session.Builder
import Narrative.Proofs.Session.Alike
import Narrative.Proofs.Session.Restore
import Narrative.Proofs.Except
import Narrative.Proofs.Entries
import Narrative.Proofs.Session.Turn
import Narrative.Proofs.Session.Offer
import Narrative.Proofs.Session.Once
import Narrative.Proofs.State.WellFormed
import Narrative.Proofs.Source.WellFormed
import Narrative.Proofs.Bundle.WellFormed
import Narrative.Proofs.Session.WellFormed
import Narrative.Proofs.Decimal.Division
import Narrative.Proofs.Json.Fits
import Narrative.Proofs.Json.Settled
import Narrative.Proofs.Operand.Settled
import Narrative.Proofs.Story.Settled
import Narrative.Proofs.Story.Format
import Narrative.Proofs.State.Walk
import Narrative.Proofs.State.Frame
import Narrative.Proofs.Session.Screen
import Narrative.Proofs.Source.Spelled
import Narrative.Proofs.Bundle.Contents
import Narrative.Proofs.Operation.Batch
import Narrative.Proofs.Session.Rivals
import Narrative.Proofs.Chart.Walk
import Narrative.Proofs.Game.View
import Narrative.Proofs.Record.Fields
import Narrative.Proofs.Event.Acceptance
import Narrative.Proofs.Source.Kinds
import Narrative.Proofs.Source.Arrays
import Narrative.Proofs.Operand.Display
import Narrative.Proofs.Bundle.Listing
import Narrative.Proofs.Decimal.Whole
import Narrative.Proofs.Session.Counter
import Narrative.Proofs.Lottery.Fairness
import Narrative.Proofs.Condition.Duality
import Narrative.Proofs.Condition.Mentions
import Narrative.Proofs.Session.Availability
import Narrative.Proofs.Json.Reordered
import Narrative.Proofs.Operation.Result
import Narrative.Proofs.Json.Equality
import Narrative.Proofs.Operation.Commuting
import Narrative.Proofs.Chart.Edges
import Narrative.Proofs.Operation.Membership
import Narrative.Proofs.Source.Context
import Narrative.Proofs.Chart.Lines
import Narrative.Proofs.Source.Strings
import Narrative.Proofs.Json.Equivalence
import Narrative.Proofs.FrontMatter
import Narrative.Proofs.Tools.Desk
import Narrative.Proofs.Tools.Waiting
import Narrative.Proofs.Tools.Typing
