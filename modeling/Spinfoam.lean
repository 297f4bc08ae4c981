import Spinfoam.Semantics.Machine
import Spinfoam.Std.Map
import Spinfoam.Std.MultiQueue
import Spinfoam.Json.Value
import Spinfoam.Outbox.Queues
import Spinfoam.Outbox.Tasks
import Spinfoam.Outbox.Delivery
import Spinfoam.Outbox.Shared
import Spinfoam.Json.Limits
import Spinfoam.Error
import Spinfoam.Host.Calls
import Spinfoam.Host.Effects
import Spinfoam.Host.Machine
import Spinfoam.Host.Ledger
import Spinfoam.Host.Accounts
import Spinfoam.Host.Settlement
import Spinfoam.Guest.Context
import Spinfoam.Guest.Mailbox
import Spinfoam.Guest.Helpers
import Spinfoam.Guest.Futures
import Spinfoam.Runtime.Objects
import Spinfoam.Runtime.Machine
import Spinfoam.Runtime.Upkeep
import Spinfoam.Runtime.Moves
import Spinfoam.Runtime.Lifecycle
import Spinfoam.Std.Fifo
import Spinfoam.Outbox.Effects
import Spinfoam.Outbox.Conservation
import Spinfoam.Outbox.Service
import Spinfoam.Outbox.Wakeups
import Spinfoam.Guest.Journal
import Spinfoam.Host.Replies
import Spinfoam.Guest.Table
import Spinfoam.Runtime.Changes
import Spinfoam.Json.Measures
import Spinfoam.Guest.Atomicity
import Spinfoam.Runtime.Handles
import Spinfoam.Runtime.Values
import Spinfoam.Build.Paths
import Spinfoam.Build.Request
import Spinfoam.Build.Compiler
import Spinfoam.Build.Files
import Spinfoam.Serve.Framing
import Spinfoam.Serve.Notices
import Spinfoam.Serve.Session
import Spinfoam.Serve.Effects
import Spinfoam.Serve.Accounting
import Spinfoam.Serve.Responses
import Spinfoam.Std.Segments
import Spinfoam.Serve.Input
import Spinfoam.Serve.Frames
import Spinfoam.Build.Descriptors
import Spinfoam.Build.Resolution
import Spinfoam.Build.Diagnostics
import Spinfoam.Truncation
import Spinfoam.Build.Result
import Spinfoam.Json.Exactness
import Spinfoam.Guest.Dump
import Spinfoam.Runtime.Stops
import Spinfoam.Std.Pages
import Spinfoam.Runtime.Inventory
import Spinfoam.Runtime.Calls
import Spinfoam.Runtime.Tables
import Spinfoam.Host.Closing
import Spinfoam.Serve.Errors
import Spinfoam.Host.Traffic
import Spinfoam.Runtime.Traffic
import Spinfoam.Runtime.Confinement
import Spinfoam.Runtime.Requests
import Spinfoam.Runtime.Leftovers
import Spinfoam.Runtime.Arrivals
import Spinfoam.Semantics.Simulation
import Spinfoam.Host.Refinement
import Spinfoam.Runtime.Refinement
import Spinfoam.Runtime.Answers
import Spinfoam.Json.Records
import Spinfoam.Json.Lines
import Spinfoam.Serve.Service
import Spinfoam.Serve.Process
import Spinfoam.Serve.Handlers
import Spinfoam.Serve.Parts
import Spinfoam.Serve.Custody
import Spinfoam.Serve.Reports
import Spinfoam.Serve.Teardown
import Spinfoam.Serve.Exit
import Spinfoam.Serve.Gate
import Spinfoam.Serve.Wire
import Spinfoam.Serve.Refinement
import Spinfoam.Std.Window
import Spinfoam.Guest.Posts
import Spinfoam.Runtime.Reasons
import Spinfoam.Runtime.Rates
import Spinfoam.Serve.Delivery
