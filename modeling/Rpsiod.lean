import Rpsiod.Lib.Search
import Rpsiod.Lib.Chunked
import Rpsiod.Lib.FastCgi
import Rpsiod.Lib.FastCgiRequest
import Rpsiod.Lib.Collect
import Rpsiod.Lib.Registry
import Rpsiod.Lib.Crlf
import Rpsiod.Lib.OpenAddressing
import Rpsiod.Lib.Digits
import Rpsiod.Lib.FixedWindow
import Rpsiod.Lib.Segments
import Rpsiod.Lib.LexicalPath
import Rpsiod.Lib.UriReference
import Rpsiod.Lib.BufferWrites
import Rpsiod.Lib.Suffixes
import Rpsiod.Lib.PercentEncoding
import Rpsiod.Lib.Strip
import Rpsiod.Lib.Descriptors
import Rpsiod.Lib.ContentCoding
import Rpsiod.Lib.EntityTag
import Rpsiod.Lib.FailingRuns
import Rpsiod.Lib.MessageFraming
import Rpsiod.Lib.BoundedTable
import Rpsiod.Lib.FirstMatch
import Rpsiod.Util
import Rpsiod.Http.Request
import Rpsiod.Http.Trim
import Rpsiod.Http.Parsed
import Rpsiod.Http.Fields
import Rpsiod.Http.HeadTwin
import Rpsiod.Http.ByteRange
import Rpsiod.Http.RangeGrammar
import Rpsiod.Http.Persistence
import Rpsiod.Http.Grammar
import Rpsiod.Http.AcceptEncoding
import Rpsiod.Config.Site
import Rpsiod.Config.Route
import Rpsiod.Config.Redirect
import Rpsiod.Config.HeaderPairs
import Rpsiod.Config.RouteTable
import Rpsiod.Config.Numbers
import Rpsiod.Config.Quantities
import Rpsiod.Config.SiteSettings
import Rpsiod.Config.SitesFile
import Rpsiod.Config.SiteLists
import Rpsiod.Config.SiteBranches
import Rpsiod.Config.SiteItems
import Rpsiod.Config.SiteRecords
import Rpsiod.Config.Validate
import Rpsiod.Config.RuntimePaths
import Rpsiod.Config.Methods
import Rpsiod.Config.ConfiguredLists
import Rpsiod.Config.LoadedTexts
import Rpsiod.Proxy.Forward
import Rpsiod.Proxy.RequestBuffer
import Rpsiod.Server.Output
import Rpsiod.Server.Headers
import Rpsiod.Server.Responders
import Rpsiod.Server.IfNoneMatch
import Rpsiod.Server.AddedHeads
import Rpsiod.Server.Replies
import Rpsiod.Server.ProxyRelay
import Rpsiod.Server.Event
import Rpsiod.Server.EventFraming
import Rpsiod.Server.RequestReady
import Rpsiod.Server.ClientList
import Rpsiod.Server.RateLimit
import Rpsiod.Server.RetryAfter
import Rpsiod.Server.Dispatch
import Rpsiod.Server.EventSites
import Rpsiod.Server.EventCuts
import Rpsiod.Server.Php
import Rpsiod.Server.PhpRun
import Rpsiod.Server.CgiLines
import Rpsiod.Server.PhpRequest
import Rpsiod.Server.HeadText
import Rpsiod.Server.BackendFailure
import Rpsiod.Http2.Stream
import Rpsiod.Http2.Connection
import Rpsiod.Http2.StaleStreams
import Rpsiod.Http2.StreamSteps
import Rpsiod.Http2.Steps
import Rpsiod.Http2.Loop
import Rpsiod.Http2.Answered
import Rpsiod.Http2.Bridge
import Rpsiod.Http2.HostNames
import Rpsiod.Http2.Identity
import Rpsiod.Http2.Response
import Rpsiod.Http2.StreamedBody
import Rpsiod.Http2.HeaderFidelity
import Rpsiod.Http2.BodylessResponse
import Rpsiod.Http2.RequestCopies
import Rpsiod.Server.HttpsRedirect
import Rpsiod.Server.RedirectTarget
import Rpsiod.Server.RedirectHops
import Rpsiod.Server.RangeReply
import Rpsiod.Server.Paths
import Rpsiod.Server.Static
import Rpsiod.Server.SlashRedirect
import Rpsiod.Server.StaticNames
import Rpsiod.Server.SentFile
import Rpsiod.Server.BlockedPaths
import Rpsiod.Server.PhpSource
import Rpsiod.Server.Reload
import Rpsiod.Server.Logs
import Rpsiod.Server.Listeners
import Rpsiod.Server.OpenFileCache
import Rpsiod.Server.Decoding
import Rpsiod.Server.AskedNames
import Rpsiod.Server.ServeRequest
import Rpsiod.Server.HeadPlans
import Rpsiod.Server.AnswerPlans
import Rpsiod.Server.Maintenance
import Rpsiod.Server.HeadRequests
import Rpsiod.Server.HeadIntegrity
import Rpsiod.Server.ForwardedFields
import Rpsiod.Server.TlsHeads
import Rpsiod.Http2.TlsPolicy
import Rpsiod.Server.OpenStaticPath
import Rpsiod.Server.MetaRing
import Rpsiod.Server.GzipStore
import Rpsiod.Server.SmallFile
import Rpsiod.Server.VectoredWrites
import Rpsiod.Server.FramedReply
import Rpsiod.Server.SelfDelimited
import Rpsiod.Server.EncodedReplies
import Rpsiod.Server.FileBodies
import Rpsiod.Lib.ChunkedGrammar
import Rpsiod.Http2.ChunkedBody
import Rpsiod.Server.GzipBuffer
import Rpsiod.Server.Dialogue
import Rpsiod.Server.WorkerLoop
import Rpsiod.Server.Supervisor
import Rpsiod.Server.HttpTime
import Rpsiod.Server.Revalidation
import Rpsiod.Server.Accounting
import Rpsiod.Server.AccessLog
import Rpsiod.Http2.BridgedReply
import Rpsiod.Config.ServerRoundTrip
import Rpsiod.Http2.Alpn
import Rpsiod.Server.WebsocketTunnel
