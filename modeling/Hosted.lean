import Hosted.Category
import Hosted.Counters
import Hosted.Exit.Table
import Hosted.Facet.CharClass
import Hosted.Facet.Collation
import Hosted.Facet.Kind
import Hosted.Facet.NumPunct
import Hosted.Facet.Transcoder
import Hosted.Fault
import Hosted.Flags
import Hosted.Json.Double
import Hosted.Json.Printer
import Hosted.Json.Reader
import Hosted.Json.Value
import Hosted.Log.Buffer
import Hosted.Log.Calendar
import Hosted.Log.Emitter
import Hosted.Log.Entry
import Hosted.Log.Journal
import Hosted.Log.Level
import Hosted.Log.Output
import Hosted.Log.Reader
import Hosted.Names
import Hosted.Proofs.Accounts.Calls
import Hosted.Proofs.Accounts.Locales
import Hosted.Proofs.Accounts.Registries
import Hosted.Proofs.Accounts.Stock
import Hosted.Proofs.Accounts.Values
import Hosted.Proofs.Facet.Acceptance
import Hosted.Proofs.Facet.Collation
import Hosted.Proofs.Facet.Indices
import Hosted.Proofs.Facet.Transcoder
import Hosted.Proofs.Json.OneLine
import Hosted.Proofs.Json.Readable
import Hosted.Proofs.Json.RoundTrip
import Hosted.Proofs.Json.Scalars
import Hosted.Proofs.Json.Torn
import Hosted.Proofs.Log.Buffer
import Hosted.Proofs.Log.Calendar
import Hosted.Proofs.Log.Delivery
import Hosted.Proofs.Log.Emitter
import Hosted.Proofs.Log.Gregorian
import Hosted.Proofs.Log.LevelNames
import Hosted.Proofs.Log.Normal
import Hosted.Proofs.Log.RoundTrip
import Hosted.Proofs.Log.Timestamps
import Hosted.Proofs.Log.Torn
import Hosted.Proofs.Names
import Hosted.Proofs.References.Census
import Hosted.Proofs.References.Exchange
import Hosted.Proofs.References.Freed
import Hosted.Proofs.References.Holders
import Hosted.Proofs.References.Objects
import Hosted.Proofs.References.Operations
import Hosted.Proofs.References.Process
import Hosted.Proofs.References.Values
import Hosted.Proofs.References.Weight
import Hosted.Proofs.Registry.Classics
import Hosted.Proofs.Registry.Fronts
import Hosted.Proofs.Registry.LazyFacets
import Hosted.Proofs.Registry.Publication
import Hosted.Proofs.Registry.Refusals
import Hosted.Proofs.Registry.Stores
import Hosted.Proofs.Registry.Teardown
import Hosted.Proofs.Registry.TeardownReport
import Hosted.Proofs.Run.Chains
import Hosted.Proofs.Run.Derived
import Hosted.Proofs.Run.Equality
import Hosted.Proofs.Run.ExitProtocol
import Hosted.Proofs.Run.ExitTeardown
import Hosted.Proofs.Run.Fronts
import Hosted.Proofs.Run.Kept
import Hosted.Proofs.Run.Kinds
import Hosted.Proofs.Run.LazyFacets
import Hosted.Proofs.Run.Locales
import Hosted.Proofs.Run.NewestFirst
import Hosted.Proofs.Run.Orderly
import Hosted.Proofs.Run.QueuedTeardown
import Hosted.Proofs.Run.Records
import Hosted.Proofs.Run.Release
import Hosted.Proofs.Run.Settings
import Hosted.Proofs.Run.Step
import Hosted.Proofs.Run.ThreadLocale
import Hosted.Proofs.Run.Turns
import Hosted.Proofs.Session.Answers
import Hosted.Proofs.Session.AnyHandle
import Hosted.Proofs.Session.Balance
import Hosted.Proofs.Session.Blind
import Hosted.Proofs.Session.FacetSteps
import Hosted.Proofs.Session.HandleSteps
import Hosted.Proofs.Session.Hands
import Hosted.Proofs.Session.Logging
import Hosted.Proofs.Session.Reachable
import Hosted.Proofs.Session.RegistrySteps
import Hosted.Proofs.Session.SlotTables
import Hosted.Proofs.Session.ThreadSteps
import Hosted.Proofs.Settings
import Hosted.Proofs.Slot.Enumeration
import Hosted.Proofs.Slot.Held
import Hosted.Proofs.Slot.Lookup
import Hosted.Proofs.Slot.Preservation
import Hosted.Proofs.Slot.Reclaim
import Hosted.Proofs.Slot.Sound
import Hosted.Proofs.Terminated.Addresses
import Hosted.Proofs.Terminated.Callers
import Hosted.Proofs.Terminated.Content
import Hosted.Proofs.Terminated.Copies
import Hosted.Proofs.Terminated.InPlace
import Hosted.Proofs.Terminated.LastOccurrence
import Hosted.Proofs.Terminated.Order
import Hosted.Proofs.Text.Blank
import Hosted.Proofs.Text.Decimal
import Hosted.Proofs.Text.Lines
import Hosted.Proofs.Text.Numerals
import Hosted.Proofs.Text.Reach
import Hosted.Proofs.Text.Utf16
import Hosted.Proofs.Text.Utf8
import Hosted.Proofs.Text.WellFormed
import Hosted.Proofs.ThreadLocals.Chronicle
import Hosted.Proofs.ThreadLocals.Freed
import Hosted.Proofs.ThreadLocals.Leftover
import Hosted.Proofs.ThreadLocals.Lifetime
import Hosted.Proofs.ThreadLocals.Map
import Hosted.Proofs.ThreadLocals.Operations
import Hosted.Proofs.ThreadLocals.Refinement
import Hosted.Proofs.Transactions
import Hosted.Proofs.World.Classics
import Hosted.Proofs.World.Exits
import Hosted.Proofs.World.Failures
import Hosted.Proofs.World.Frame
import Hosted.Proofs.World.Mild
import Hosted.Proofs.World.Notices
import Hosted.Proofs.World.Warnings
import Hosted.Session.Events
import Hosted.Session.ExitTables
import Hosted.Session.Facets
import Hosted.Session.Handles
import Hosted.Session.Locales
import Hosted.Session.Logs
import Hosted.Session.Process
import Hosted.Session.Registries
import Hosted.Session.Reply
import Hosted.Session.Run
import Hosted.Session.Slots
import Hosted.Session.State
import Hosted.Session.ThreadLocals
import Hosted.Session.Threads
import Hosted.Settings
import Hosted.Shared
import Hosted.Slot.Locals
import Hosted.Slot.Table
import Hosted.Terminated.Basic
import Hosted.Terminated.Caller
import Hosted.Terminated.Narrow
import Hosted.Terminated.Wide
import Hosted.Text.Blank
import Hosted.Text.Decimal
import Hosted.Text.Lines
import Hosted.Text.Quoted
import Hosted.Text.Utf16
import Hosted.Text.Utf8
import Hosted.Text.Visible
import Hosted.World.Exits
import Hosted.World.Locales
import Hosted.World.Notice
import Hosted.World.Registries
import Hosted.World.Startup
import Hosted.World.State
import Hosted.World.ThreadLocals
