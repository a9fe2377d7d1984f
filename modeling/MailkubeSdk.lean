import MailkubeSdk.Python.Text
import MailkubeSdk.Python.Utf8
import MailkubeSdk.Python.Codecs
import MailkubeSdk.Python.Dict
import MailkubeSdk.Python.Datetime
import MailkubeSdk.Python.ClockText
import MailkubeSdk.Python.Isoformat
import MailkubeSdk.Python.Binary64
import MailkubeSdk.Python.Url
import MailkubeSdk.Python.UrlOrigin
import MailkubeSdk.Python.UrlJoin
import MailkubeSdk.Python.UrlRelative
import MailkubeSdk.Python.Value
import MailkubeSdk.Python.IntLiteral
import MailkubeSdk.Python.WebOrigin
import MailkubeSdk.Python.Json
import MailkubeSdk.Python.JsonText
import MailkubeSdk.Python.JsonLexing
import MailkubeSdk.Python.Heap
import MailkubeSdk.Effect.Program
import MailkubeSdk.Effect.Generator
import MailkubeSdk.Effect.Pager
import MailkubeSdk.Effect.Job
import MailkubeSdk.Effect.Interleaving
import MailkubeSdk.Effect.Broadcast
import MailkubeSdk.Effect.Transducer
import MailkubeSdk.Effect.Serving
import MailkubeSdk.Schema
import MailkubeSdk.Schema.Addition
import MailkubeSdk.Schema.Mismatch
import MailkubeSdk.Schema.Reread
import MailkubeSdk.Types.Params
import MailkubeSdk.Types.Responses
import MailkubeSdk.Types.Events
import MailkubeSdk.Exceptions
import MailkubeSdk.Transport
import MailkubeSdk.Logging
import MailkubeSdk.Serialization
import MailkubeSdk.BaseClient
import MailkubeSdk.Resources
import MailkubeSdk.Client
import MailkubeSdk.Webhooks
import MailkubeSdk.ErrorMapping
import MailkubeSdk.EventParsing
import MailkubeSdk.WebhookSignature
import MailkubeSdk.Flavours
import MailkubeSdk.RoundTrip
import MailkubeSdk.Listings
import MailkubeSdk.Routes
import MailkubeSdk.SendEncoding
import MailkubeSdk.SendObjects
import MailkubeSdk.Envelope
import MailkubeSdk.Requests
import MailkubeSdk.Confinement
import MailkubeSdk.LogConfidentiality
import MailkubeSdk.PageWalk
import MailkubeSdk.ErrorEnvelope
import MailkubeSdk.RetryAfter
import MailkubeSdk.Acknowledgement
import MailkubeSdk.UserAgent
import MailkubeSdk.WebhookFailures
import MailkubeSdk.PageLinks
import MailkubeSdk.SameOrigin
import MailkubeSdk.WalkTermination
import MailkubeSdk.BasePath
import MailkubeSdk.Lifecycle
import MailkubeSdk.FieldAddition
import MailkubeSdk.Concurrency
import MailkubeSdk.Traffic
import MailkubeSdk.ShapeReport
import MailkubeSdk.EventDump
import MailkubeSdk.ApiCalls
import MailkubeSdk.SessionCalls
import MailkubeSdk.WebhookProtocol
import MailkubeSdk.WalkReplay
import MailkubeSdk.LogOutput
import MailkubeSdk.ServiceCalls
import MailkubeSdk.SharedService
