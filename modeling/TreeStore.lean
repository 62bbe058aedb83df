import TreeStore.Binary64.Rounding
import TreeStore.Binary64.Shortest
import TreeStore.Binary64.Text
import TreeStore.Bucket
import TreeStore.Bucket.Listing
import TreeStore.Connection
import TreeStore.Disk.Operations
import TreeStore.Disk.Route
import TreeStore.Disk.Tree
import TreeStore.Error
import TreeStore.Error.System
import TreeStore.Json.Chars
import TreeStore.Json.Expect
import TreeStore.Json.Failure
import TreeStore.Json.Number
import TreeStore.Json.Reader
import TreeStore.Json.Skip
import TreeStore.Json.Writer
import TreeStore.Key.Layout
import TreeStore.Key.Token
import TreeStore.Path
import TreeStore.Record
import TreeStore.Record.Binary
import TreeStore.Record.Format
import TreeStore.Record.Json
import TreeStore.Settings
import TreeStore.Settings.Json
import TreeStore.Site
import TreeStore.Site.Fault
import TreeStore.Site.Session
import TreeStore.Site.Stream
import TreeStore.Site.Walk
import TreeStore.SortedMap
import TreeStore.Text.Blank
import TreeStore.Text.Numeral
import TreeStore.Text.Quoted
import TreeStore.Text.Utf8
import TreeStore.Text.Visible
import TreeStore.Proofs.Tokens
import TreeStore.Proofs.Layout
import TreeStore.Proofs.Route
import TreeStore.Proofs.Edit
import TreeStore.Proofs.Action
import TreeStore.Proofs.Footprint
import TreeStore.Proofs.Effect
import TreeStore.Proofs.Purge
import TreeStore.Proofs.Command
import TreeStore.Proofs.Request
import TreeStore.Proofs.Frame
import TreeStore.Proofs.Shape
import TreeStore.Proofs.Reachable
import TreeStore.Proofs.Traversal
import TreeStore.Proofs.Calm
import TreeStore.Proofs.Keys
import TreeStore.Proofs.Listing
import TreeStore.Proofs.Packed
import TreeStore.Proofs.Written
import TreeStore.Proofs.Files
import TreeStore.Proofs.Writing
import TreeStore.Proofs.Emptying
import TreeStore.Proofs.Refused
import TreeStore.Proofs.Outcome
import TreeStore.Proofs.FiniteMap
import TreeStore.Proofs.Renamed
import TreeStore.Proofs.Deleted
import TreeStore.Proofs.Halfway
import TreeStore.Proofs.Leftover
import TreeStore.Proofs.Account
import TreeStore.Proofs.Sessions
import TreeStore.Proofs.Heeding
import TreeStore.Proofs.Unclassified
import TreeStore.Proofs.LifeCycle
import TreeStore.Proofs.Lookahead
import TreeStore.Proofs.Truncated
import TreeStore.Proofs.Torn
import TreeStore.Proofs.Floats
import TreeStore.Proofs.Reread
import TreeStore.Proofs.Fetched
import TreeStore.Proofs.Walks
import TreeStore.Proofs.Subtree
import TreeStore.Proofs.Logged
import TreeStore.Proofs.Visiting
import TreeStore.Proofs.Emptied
import TreeStore.Proofs.Clearing
import TreeStore.Proofs.Purged
import TreeStore.Proofs.Conserved
import TreeStore.Proofs.Retried
import TreeStore.Proofs.Parents
import TreeStore.Proofs.Healing
import TreeStore.Proofs.Apart
import TreeStore.Proofs.Pruning
import TreeStore.Proofs.Confined
import TreeStore.Proofs.Lazy
import TreeStore.Proofs.Ancestors
import TreeStore.Proofs.FanOut
import TreeStore.Proofs.CutShort
import TreeStore.Proofs.ZeroByte
import TreeStore.Proofs.FormatsApart
import TreeStore.Proofs.Canonical
import TreeStore.Proofs.SettingsText
import TreeStore.Proofs.Directories
import TreeStore.Proofs.Sizes
import TreeStore.Proofs.Interrupted
import TreeStore.Proofs.Vanished
import TreeStore.Proofs.Opened
import TreeStore.Proofs.Opened
