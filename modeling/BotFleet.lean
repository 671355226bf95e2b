import BotFleet.Client
import BotFleet.Client.Responses
import BotFleet.Clock.Simulation
import BotFleet.Clock.Ticker
import BotFleet.CommandLine.Plan
import BotFleet.CommandLine.Reader
import BotFleet.CommandLine.Setting
import BotFleet.CommandLine.Usage
import BotFleet.Effect
import BotFleet.Fleet.Basic
import BotFleet.Fleet.Holding
import BotFleet.Fleet.Joining
import BotFleet.Fleet.Recruitment
import BotFleet.Fleet.Watching
import BotFleet.Gateway.Connection
import BotFleet.Gateway.Decoding
import BotFleet.Gateway.Downlink
import BotFleet.Gateway.Endpoint
import BotFleet.Gateway.Field
import BotFleet.Gateway.Frame
import BotFleet.Gateway.Inbound
import BotFleet.Gateway.Message
import BotFleet.Gateway.Uplink
import BotFleet.Json.Number
import BotFleet.Json.Printer
import BotFleet.Json.Reader
import BotFleet.Json.Value
import BotFleet.Main
import BotFleet.Number.Double
import BotFleet.Number.Places
import BotFleet.Number.Shortest
import BotFleet.Point
import BotFleet.Proofs.Routine.Step
import BotFleet.Proofs.Seat.Login
import BotFleet.Proofs.Seat.Run
import BotFleet.Proofs.Session.Delivery
import BotFleet.Proofs.Session.Occurrence
import BotFleet.Proofs.Session.Seen
import BotFleet.Proofs.Session.Work
import BotFleet.Report.Record
import BotFleet.Report.RunId
import BotFleet.Report.Summary
import BotFleet.Routine.Alone
import BotFleet.Routine.Basic
import BotFleet.Routine.Chance
import BotFleet.Routine.Pace
import BotFleet.Run.Banner
import BotFleet.Run.Basic
import BotFleet.Run.Program
import BotFleet.Session.Basic
import BotFleet.Session.Handle
import BotFleet.Session.Lifecycle
import BotFleet.Session.Script
import BotFleet.Session.Settings
import BotFleet.Session.Settlement
import BotFleet.Session.Verdict
import BotFleet.Tally
import BotFleet.Text.Blank
import BotFleet.Text.Printable
import BotFleet.Text.Quoted
import BotFleet.Proofs.Seat.Count
import BotFleet.Proofs.Fleet.Balance
import BotFleet.Proofs.Seat.Cancel
import BotFleet.Proofs.Routine.Rest
import BotFleet.Proofs.Session.Rest
import BotFleet.Proofs.Clock.Simulation
import BotFleet.Proofs.Fleet.Rest
import BotFleet.Proofs.Fleet.Recruiting
import BotFleet.Proofs.Fleet.Completion
import BotFleet.Proofs.Seat.Ended
import BotFleet.Proofs.Session.History
import BotFleet.Proofs.Fleet.Ended
import BotFleet.Proofs.Routine.Series
import BotFleet.Proofs.Seat.Timely
import BotFleet.Proofs.Seat.Ticks
import BotFleet.Proofs.Seat.Course
import BotFleet.Proofs.Routine.Twins
import BotFleet.Proofs.Seat.Stages
import BotFleet.Proofs.Seat.Calls
import BotFleet.Proofs.Seat.Twins
import BotFleet.Proofs.Fleet.Isolation
import BotFleet.Proofs.Fleet.Schedule
import BotFleet.Proofs.Routine.Turn
import BotFleet.Proofs.Gateway.Stream
import BotFleet.Proofs.Fleet.Stopping
import BotFleet.Proofs.Seat.Answer
import BotFleet.Proofs.Fleet.Sequence
import BotFleet.Proofs.Fleet.Duration
import BotFleet.Proofs.Clock.Elapse
import BotFleet.Proofs.Fleet.Idle
import BotFleet.Proofs.Fleet.Watching
import BotFleet.Proofs.Fleet.Holding
import BotFleet.Proofs.Seat.Publication
import BotFleet.Proofs.Seat.Shutdown
import BotFleet.Proofs.Fleet.Shutdown
import BotFleet.Proofs.Json.Grammar
import BotFleet.Proofs.Json.Reading
import BotFleet.Proofs.Json.Soundness
import BotFleet.Proofs.Gateway.Members
import BotFleet.Proofs.Gateway.Frame
import BotFleet.Proofs.Gateway.Union
import BotFleet.Proofs.Gateway.Grammar
import BotFleet.Proofs.Gateway.Decoding
import BotFleet.Proofs.Number.Rounding
import BotFleet.Proofs.Number.Shortest
import BotFleet.Proofs.Json.Decimal
import BotFleet.Proofs.Json.Writing
import BotFleet.Proofs.Gateway.RoundTrip
import BotFleet.Proofs.Routine.Alone
import BotFleet.Proofs.Routine.Release
import BotFleet.Proofs.Gateway.Sending
import BotFleet.Proofs.Gateway.Position
import BotFleet.Proofs.CommandLine.Spelling
import BotFleet.Proofs.CommandLine.Precedence
import BotFleet.Proofs.Seat.Caller
import BotFleet.Proofs.Report.Totals
import BotFleet.Proofs.Json.Packing
import BotFleet.Proofs.Report.Text
import BotFleet.Proofs.Seat.Intact
import BotFleet.Proofs.Run.Capacity
import BotFleet.Proofs.Routine.Chance
import BotFleet.Proofs.Tally.Effects
import BotFleet.Proofs.Tally.Register
import BotFleet.Proofs.Session.Settlement
