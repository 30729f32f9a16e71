import RemoteTree.Error
import RemoteTree.Failure.Family
import RemoteTree.Failure.Graph
import RemoteTree.Failure.Kind
import RemoteTree.Failure.Raised
import RemoteTree.Form
import RemoteTree.Http.Chain
import RemoteTree.Http.Headers
import RemoteTree.Http.Message
import RemoteTree.Http.Method
import RemoteTree.Http.NoResponse
import RemoteTree.Http.Policy
import RemoteTree.Http.Prepare
import RemoteTree.Http.Redirect
import RemoteTree.Http.Sendable
import RemoteTree.Json.Conversion
import RemoteTree.Json.Reader
import RemoteTree.Json.Writer
import RemoteTree.Lock.Plan
import RemoteTree.Lock.State
import RemoteTree.Log.Level
import RemoteTree.Log.Logger
import RemoteTree.Number.Double
import RemoteTree.Number.Integer
import RemoteTree.Number.Reader
import RemoteTree.Number.Shortest
import RemoteTree.Proofs.Lock.Calm
import RemoteTree.Proofs.Lock.Guarantees
import RemoteTree.Proofs.Lock.Record
import RemoteTree.Proofs.Lock.Turn
import RemoteTree.Reference.Basic
import RemoteTree.Reference.Derivation
import RemoteTree.Reference.Parameter
import RemoteTree.Session.Basic
import RemoteTree.Session.Operation
import RemoteTree.Session.Registry
import RemoteTree.Session.Run
import RemoteTree.Text.Alphanumeric
import RemoteTree.Text.Base64
import RemoteTree.Text.Basic
import RemoteTree.Text.Blank
import RemoteTree.Text.Casing
import RemoteTree.Text.Digit
import RemoteTree.Text.Lowercase
import RemoteTree.Text.Printable
import RemoteTree.Text.Quoted
import RemoteTree.Text.Utf8
import RemoteTree.Text.Wide
import RemoteTree.Timeout.Attempt
import RemoteTree.Timeout.Default
import RemoteTree.Url.Address
import RemoteTree.Url.Base
import RemoteTree.Url.Escape
import RemoteTree.Url.Join
import RemoteTree.Url.Parts
import RemoteTree.Url.Target
import RemoteTree.Value.Basic
import RemoteTree.Value.Print
import RemoteTree.Proofs.Failure.Reach
import RemoteTree.Proofs.Http.Carried
import RemoteTree.Proofs.Http.Follow
import RemoteTree.Proofs.Session.Attempt
import RemoteTree.Proofs.Session.Timeline
import RemoteTree.Proofs.Session.Idle
import RemoteTree.Proofs.Session.Along
import RemoteTree.Proofs.Session.Growth
import RemoteTree.Proofs.Session.Trace
import RemoteTree.Proofs.Session.Redirects
import RemoteTree.Proofs.Session.Failing
import RemoteTree.Proofs.Timeout.Expiry
import RemoteTree.Proofs.Session.Outcome
import RemoteTree.Proofs.Lock.Waiting
import RemoteTree.Proofs.Reference.Lineage
import RemoteTree.Proofs.Session.History
import RemoteTree.Proofs.Session.InFlight
import RemoteTree.Proofs.Json.Members
import RemoteTree.Proofs.Session.Action
import RemoteTree.Proofs.Form
import RemoteTree.Proofs.Url.Escape
import RemoteTree.Proofs.Url.Zone
import RemoteTree.Proofs.Url.Query
import RemoteTree.Proofs.Reference.Query
import RemoteTree.Proofs.Session.Query
import RemoteTree.Proofs.Session.Creation
import RemoteTree.Proofs.Session.Release
import RemoteTree.Proofs.Url.Decode
import RemoteTree.Proofs.Url.Dots
import RemoteTree.Proofs.Url.Location
import RemoteTree.Proofs.Reference.Child
import RemoteTree.Proofs.Session.Child
import RemoteTree.Proofs.Url.Veiled
import RemoteTree.Proofs.Url.VeiledEscapes
import RemoteTree.Proofs.Url.VeiledParts
import RemoteTree.Proofs.Reference.Veiled
import RemoteTree.Proofs.Http.Veiled
import RemoteTree.Proofs.Session.Secrecy
import RemoteTree.Proofs.Session.Escape
import RemoteTree.Proofs.Session.Inherited
import RemoteTree.Proofs.Reference.Copies
import RemoteTree.Proofs.Reference.Paths
import RemoteTree.Proofs.Url.Site
import RemoteTree.Proofs.Session.Urls
import RemoteTree.Proofs.Reference.Roots
import RemoteTree.Proofs.Session.Paths
import RemoteTree.Proofs.Value.Parts
import RemoteTree.Proofs.Number.Decimal
import RemoteTree.Proofs.Json.Written
import RemoteTree.Proofs.Json.Writable
import RemoteTree.Proofs.Text.Pairs
import RemoteTree.Proofs.Json.Strings
import RemoteTree.Proofs.Value.Paired
import RemoteTree.Proofs.Json.RoundTrip
import RemoteTree.Proofs.Json.Grammar
import RemoteTree.Proofs.Number.Shortest
import RemoteTree.Proofs.Json.Numbers
import RemoteTree.Proofs.Json.Conformity
import RemoteTree.Proofs.Json.Outside
import RemoteTree.Proofs.Session.Bodies
import RemoteTree.Proofs.Session.Push
import RemoteTree.Proofs.Http.Framing
import RemoteTree.Proofs.Session.Framing
import RemoteTree.Proofs.Http.Restoring
import RemoteTree.Proofs.Session.Writes
import RemoteTree.Proofs.Session.Reading
import RemoteTree.Proofs.Number.Largest
import RemoteTree.Proofs.Text.Lowercase
import RemoteTree.Proofs.Number.Reader
import RemoteTree.Proofs.Value.Shown
import RemoteTree.Proofs.Timeout.Default
