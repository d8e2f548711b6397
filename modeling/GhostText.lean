import GhostText.Act
import GhostText.Assistant.Report
import GhostText.Assistant.Request
import GhostText.Assistant.Start
import GhostText.Assistant.Status
import GhostText.Client.Answer
import GhostText.Client.Basic
import GhostText.Client.Call
import GhostText.Client.Dispatch
import GhostText.Client.Handler
import GhostText.Client.Request
import GhostText.Client.Send
import GhostText.Document.Align
import GhostText.Document.Diff
import GhostText.Document.Edit
import GhostText.Document.Position
import GhostText.Document.Unchecked
import GhostText.Editor.Artifact
import GhostText.Editor.Buffer
import GhostText.Editor.Change
import GhostText.Fault
import GhostText.Host.Action
import GhostText.Host.Perform
import GhostText.Host.Start
import GhostText.Json.Basic
import GhostText.Json.Convert
import GhostText.Json.Display
import GhostText.Json.Path
import GhostText.Json.Printer
import GhostText.Json.Reader
import GhostText.Location.FileUri
import GhostText.Location.Path
import GhostText.Main
import GhostText.Number.Binary64
import GhostText.Number.Shortest
import GhostText.Proofs.Client.Bringing
import GhostText.Proofs.Client.Cancelling
import GhostText.Proofs.Client.Correlation
import GhostText.Proofs.Client.Heralds
import GhostText.Proofs.Client.Inbox
import GhostText.Proofs.Client.Isolation
import GhostText.Proofs.Client.Passing
import GhostText.Proofs.Client.Peer
import GhostText.Proofs.Client.Receiving
import GhostText.Proofs.Client.Registering
import GhostText.Proofs.Client.Replying
import GhostText.Proofs.Client.Serving
import GhostText.Proofs.Client.Settling
import GhostText.Proofs.Client.Tally
import GhostText.Proofs.Client.Turns
import GhostText.Proofs.Client.Withdrawal
import GhostText.Proofs.Document.Alignment
import GhostText.Proofs.Document.Callers
import GhostText.Proofs.Document.Carets
import GhostText.Proofs.Document.Items
import GhostText.Proofs.Document.LineEnds
import GhostText.Proofs.Document.Offsets
import GhostText.Proofs.Document.Patch
import GhostText.Proofs.Document.Places
import GhostText.Proofs.Document.Positions
import GhostText.Proofs.Document.Seams
import GhostText.Proofs.Document.Shape
import GhostText.Proofs.Document.Spans
import GhostText.Proofs.Document.Splices
import GhostText.Proofs.Document.Stretches
import GhostText.Proofs.Document.Together
import GhostText.Proofs.Document.Widening
import GhostText.Proofs.Editor.Acceptance
import GhostText.Proofs.Editor.Caret
import GhostText.Proofs.Editor.Ghost
import GhostText.Proofs.Editor.Suggesting
import GhostText.Proofs.Editor.Traces
import GhostText.Proofs.Fetch.Accounting
import GhostText.Proofs.Fetch.Activity
import GhostText.Proofs.Fetch.Attending
import GhostText.Proofs.Fetch.Candidates
import GhostText.Proofs.Fetch.Ending
import GhostText.Proofs.Fetch.Files
import GhostText.Proofs.Fetch.Lifetime
import GhostText.Proofs.Fetch.Newest
import GhostText.Proofs.Fetch.Order
import GhostText.Proofs.Fetch.Outdated
import GhostText.Proofs.Fetch.Pairs
import GhostText.Proofs.Fetch.Reading
import GhostText.Proofs.Fetch.Resolution
import GhostText.Proofs.Fetch.Tending
import GhostText.Proofs.Handshake.Advancing
import GhostText.Proofs.Handshake.Answering
import GhostText.Proofs.Handshake.Carrying
import GhostText.Proofs.Handshake.Greeting
import GhostText.Proofs.Handshake.Meanwhile
import GhostText.Proofs.Handshake.Order
import GhostText.Proofs.Handshake.Performing
import GhostText.Proofs.Handshake.Resuming
import GhostText.Proofs.Json.Layout
import GhostText.Proofs.Json.Legible
import GhostText.Proofs.Json.Line
import GhostText.Proofs.Json.Members
import GhostText.Proofs.Json.Numbers
import GhostText.Proofs.Json.Pages
import GhostText.Proofs.Json.Parts
import GhostText.Proofs.Json.Reading
import GhostText.Proofs.Json.RoundTrip
import GhostText.Proofs.Json.Sorting
import GhostText.Proofs.Json.Spelling
import GhostText.Proofs.Json.Texts
import GhostText.Proofs.Levels.Abreast
import GhostText.Proofs.Levels.Calls
import GhostText.Proofs.Levels.Editing
import GhostText.Proofs.Levels.Performing
import GhostText.Proofs.Levels.Verbosity
import GhostText.Proofs.Run.Answering
import GhostText.Proofs.Run.Calls
import GhostText.Proofs.Run.Conduct
import GhostText.Proofs.Run.Editing
import GhostText.Proofs.Run.Frame
import GhostText.Proofs.Run.Leads
import GhostText.Proofs.Run.Ledger
import GhostText.Proofs.Run.Notices
import GhostText.Proofs.Run.Performing
import GhostText.Proofs.Run.Requests
import GhostText.Proofs.Run.Reticence
import GhostText.Proofs.Run.Runs
import GhostText.Proofs.Run.Sound
import GhostText.Proofs.Run.Step
import GhostText.Proofs.Run.Syncing
import GhostText.Proofs.Run.Unrestrained
import GhostText.Proofs.Session.Closing
import GhostText.Proofs.Session.Ending
import GhostText.Proofs.Session.Finality
import GhostText.Proofs.Session.Listening
import GhostText.Proofs.Session.Occupancy
import GhostText.Proofs.Session.Slot
import GhostText.Proofs.Settings.Filing
import GhostText.Proofs.Settings.Keys
import GhostText.Proofs.Settings.Lasting
import GhostText.Proofs.Settings.Lens
import GhostText.Proofs.Settings.Listening
import GhostText.Proofs.Settings.Loading
import GhostText.Proofs.Settings.Merging
import GhostText.Proofs.Settings.Normal
import GhostText.Proofs.Settings.Ordering
import GhostText.Proofs.Settings.Refusal
import GhostText.Proofs.Settings.Rules
import GhostText.Proofs.Settings.Saving
import GhostText.Proofs.Settings.Values
import GhostText.Proofs.Settings.Watching
import GhostText.Proofs.Startup.Answering
import GhostText.Proofs.Startup.Bearings
import GhostText.Proofs.Startup.Beginning
import GhostText.Proofs.Startup.Course
import GhostText.Proofs.Startup.Exit
import GhostText.Proofs.Startup.Standing
import GhostText.Proofs.Sync.Delivery
import GhostText.Proofs.Sync.Mirror
import GhostText.Proofs.Sync.Replica
import GhostText.Proofs.Sync.Settings
import GhostText.Proofs.Sync.Typing
import GhostText.Proofs.Sync.Visiting
import GhostText.Proofs.Text.Blanks
import GhostText.Proofs.Text.Breaks
import GhostText.Proofs.Text.Digits
import GhostText.Proofs.Text.Utf8
import GhostText.Proofs.Wire.Borders
import GhostText.Proofs.Wire.Chunks
import GhostText.Proofs.Wire.Frames
import GhostText.Proofs.Wire.Grammar
import GhostText.Proofs.Wire.Headers
import GhostText.Proofs.Wire.Lines
import GhostText.Proofs.Wire.Messages
import GhostText.Proofs.Wire.Resuming
import GhostText.Settings.Config
import GhostText.Settings.Operation
import GhostText.Settings.Store
import GhostText.Startup.Arguments
import GhostText.Startup.Finish
import GhostText.Startup.Run
import GhostText.Startup.Step
import GhostText.Suggestion.Accept
import GhostText.Suggestion.Completion
import GhostText.Suggestion.Control
import GhostText.Suggestion.Deliver
import GhostText.Suggestion.Fetch
import GhostText.Suggestion.Finish
import GhostText.Suggestion.Session
import GhostText.Suggestion.Sync
import GhostText.Text.Blank
import GhostText.Text.Digit
import GhostText.Text.Lines
import GhostText.Text.Printable
import GhostText.Text.Quoted
import GhostText.Text.Units
import GhostText.Text.Utf8
import GhostText.Wire.Frame
import GhostText.Wire.Message
import GhostText.World
