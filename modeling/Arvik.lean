import Arvik.Foundation.Multimap
import Arvik.Foundation.Text
import Arvik.Foundation.Preference
import Arvik.Foundation.Percent
import Arvik.Core.Http
import Arvik.Core.FieldList
import Arvik.Core.ResponseBuilder
import Arvik.Core.IntoResponseParts
import Arvik.Extract.Cookies
import Arvik.Extract.CookieRoundTrip
import Arvik.Foundation.Machine
import Arvik.Foundation.Transition
import Arvik.Hyper.TlsTask
import Arvik.Foundation.Metered
import Arvik.Middleware.RateLimit
import Arvik.Middleware.TokenBucket
import Arvik.Foundation.IpAddr
import Arvik.Middleware.ClientKey
import Arvik.Core.Body
import Arvik.Core.BodyCollection
import Arvik.Middleware.BodyLimit
import Arvik.Middleware.BodyCounter
import Arvik.Core.Extract
import Arvik.Extract.Buffering
import Arvik.Extract.Multipart
import Arvik.Foundation.MediaType
import Arvik.Extract.Boundary
import Arvik.Middleware.MapBody
import Arvik.Middleware.Compression
import Arvik.Middleware.BodyConsumers
import Arvik.Middleware.Cors
import Arvik.Middleware.CorsVary
import Arvik.Middleware.Trace
import Arvik.Foundation.Memo
import Arvik.Static.Asset
import Arvik.Static.RangeGrammar
import Arvik.Static.Embedded
import Arvik.Core.Accept
import Arvik.Foundation.FileTree
import Arvik.Static.RelativePath
import Arvik.Static.Responses
import Arvik.Static.Containment
import Arvik.Tls.RustlsConfig
import Arvik.Hyper.Connections
import Arvik.Foundation.EventStream
import Arvik.Sse.Event
import Arvik.Sse.Body
import Arvik.Foundation.RoutePattern
import Arvik.Foundation.Layering
import Arvik.Core.MethodFilter
import Arvik.Router.Matchit
import Arvik.Router.MethodRouter
import Arvik.Router.Params
import Arvik.Router.ParamDecoding
import Arvik.Router.Router
import Arvik.Router.Tree
import Arvik.Router.Composition
import Arvik.Router.Relay
import Arvik.Router.Scope
import Arvik.Router.Service
import Arvik.Router.PrefixBoundary
import Arvik.Router.Mount
import Arvik.Router.Captures
import Arvik.Foundation.PlainTree
import Arvik.Static.EmbeddedService
import Arvik.Static.AssetTree
import Arvik.Static.Selection
import Arvik.Static.Agreement
import Arvik.Static.RangeIntegrity
import Arvik.Static.Divergence
import Arvik.Middleware.CompressionCaching
import Arvik.Middleware.AcceptLines
import Arvik.Foundation.IpAddrParser
import Arvik.Middleware.ForwardedFor
import Arvik.Hyper.ServerConfig
import Arvik.Config.Schema
import Arvik.Config.Preconditions
import Arvik.Foundation.KeyedTree
import Arvik.Config.Builder
import Arvik.Config.Overrides
import Arvik.Config.Precedence
import Arvik.Foundation.SharedCells
import Arvik.Router.SharedRouters
import Arvik.Router.MethodUnion
import Arvik.Router.AllowHeader
import Arvik.Router.Direct
import Arvik.Foundation.Admission
import Arvik.Router.Collected
import Arvik.Foundation.Debounce
import Arvik.HotReload
import Arvik.Foundation.Tally
import Arvik.Observe.Metrics
import Arvik.Observe.Cardinality
import Arvik.Observe.Health
import Arvik.Static.IfRange
import Arvik.Static.ConditionalGet
import Arvik.Static.HeadParity
import Arvik.Foundation.UriReference
import Arvik.Static.Normalisation
import Arvik.Static.ListingLinks
import Arvik.Static.Redirect
import Arvik.Core.ChunksBody
import Arvik.Sse.WireLength
import Arvik.Extract.JsonResponse
import Arvik.ContentTypes
import Arvik.Foundation.Radix
import Arvik.Observe.TraceContext
import Arvik.Ws.Upgrade
import Arvik.Middleware.Csrf
import Arvik.Foundation.Decimal
import Arvik.Foundation.Serde
import Arvik.Extract.PathDe
import Arvik.Foundation.PatternRendering
import Arvik.Extract.Path
import Arvik.Foundation.Base64
import Arvik.Middleware.Auth
import Arvik.Middleware.RequestId
import Arvik.Observe.Logging
import Arvik.Middleware.SecurityHeaders
import Arvik.Ws.Message
import Arvik.Ws.Socket
import Arvik.Ws.Handshake
import Arvik.Foundation.Deferred
import Arvik.Middleware.Timeout
import Arvik.Middleware.CatchPanic
import Arvik.Foundation.Sweeping
import Arvik.Middleware.BucketRetention
import Arvik.Test.Session
import Arvik.Foundation.HexNumeral
import Arvik.Observe.Propagation
import Arvik.Middleware.Transparency
import Arvik.Foundation.JsonReading
import Arvik.Refusals
import Arvik.Foundation.Unseen
import Arvik.Core.Handler
import Arvik.Extract.Independence
