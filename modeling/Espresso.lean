import Espresso.Lib.Octets
import Espresso.Lib.Callback
import Espresso.Lib.Fold
import Espresso.Lib.Layout
import Espresso.Lib.Run
import Espresso.Lib.Search
import Espresso.Lib.Recorded
import Espresso.Lib.Digits
import Espresso.Lib.Utf8
import Espresso.Lib.System
import Espresso.Lib.Ledger
import Espresso.Codec.Envelope
import Espresso.Codec.Walk
import Espresso.Codec.Text
import Espresso.Codec.Target
import Espresso.Codec.Buffer
import Espresso.Codec.Presence
import Espresso.Codec.Operations
import Espresso.Codec.Synthesize
import Espresso.Codec.Record
import Espresso.Codec.Transform
import Espresso.Codec.Request
import Espresso.Codec.Relay
import Espresso.Codec.Behind
import Espresso.Codec.Inspect
import Espresso.Codec.Filter
import Espresso.Codec.Profile
import Espresso.Codec.Agreement
import Espresso.Codec.Normalize
import Espresso.Codec.Discovery
import Espresso.Codec.Response
import Espresso.Codec.Advertise
import Espresso.Codec.Attributes
import Espresso.Codec.Probed
import Espresso.Codec.Fields
import Espresso.Codec.Chain
import Espresso.Codec.CommaList
import Espresso.Codec.Compose
import Espresso.Codec.Endpoints
import Espresso.Codec.OperationOrder
import Espresso.Codec.FilterLaws
import Espresso.Codec.PartialMerge
import Espresso.Codec.Summary
import Espresso.Codec.Selectors
import Espresso.Codec.Relations
import Espresso.Codec.Remerge
import Espresso.Codec.Query
import Espresso.Codec.Status
import Espresso.Codec.BoundedList
import Espresso.Raster.Convert
import Espresso.Raster.Document
import Espresso.Raster.Urf
import Espresso.State.Migration
import Espresso.State.Selection
import Espresso.Http.Head
import Espresso.Http.Body
import Espresso.Http.Sizes
import Espresso.Http.Opening
import Espresso.Http.Framing
import Espresso.Http.Reference
import Espresso.Http.Decoding
import Espresso.Http.Chunk
import Espresso.Http.Interrupted
import Espresso.Http.Response
import Espresso.Raster.Ending
import Espresso.Raster.Alike
import Espresso.Proxy.Plan
import Espresso.Proxy.Formats
import Espresso.Proxy.Offers
import Espresso.Printer.Advertisement
import Espresso.Printer.Capabilities
import Espresso.Printer.Collect
import Espresso.Printer.Publication
import Espresso.Printer.InstanceName
import Espresso.Jobs.History
import Espresso.Jobs.Retention
import Espresso.Proxy.Monitor
import Espresso.Proxy.Receive
import Espresso.Proxy.Upstream
import Espresso.Proxy.Response
import Espresso.Proxy.Handler
import Espresso.Proxy.Intake
import Espresso.Proxy.Settlement
import Espresso.Proxy.Reply
import Espresso.Proxy.Refresh
import Espresso.Proxy.Identity
import Espresso.Proxy.Copy
import Espresso.Proxy.Completion
import Espresso.Proxy.Delivery
import Espresso.Proxy.Ahead
import Espresso.Proxy.Conversion
import Espresso.Proxy.Service
import Espresso.Proxy.Framing
import Espresso.Proxy.Converted
import Espresso.Proxy.Workers
import Espresso.Dns.Message
import Espresso.Dns.Reply
import Espresso.Improv.Codec
import Espresso.Improv.Session
import Espresso.Ota.Update
import Espresso.Ota.Safety
