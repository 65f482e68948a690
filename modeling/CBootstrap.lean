import CBootstrap.Lib.Bits
import CBootstrap.Lib.Block
import CBootstrap.Lib.Bytes
import CBootstrap.Lib.Check
import CBootstrap.Lib.Decoder
import CBootstrap.Lib.Dict
import CBootstrap.Lib.Markup
import CBootstrap.Lib.Transition
import CBootstrap.Lib.Utf8
import CBootstrap.Kms.RequestStr
import CBootstrap.Kms.AppendRuns
import CBootstrap.Kms.Segments
import CBootstrap.Kms.PathNormalized
import CBootstrap.Kmip.Reader
import CBootstrap.Kmip.Tags
import CBootstrap.Kmip.Dump
import CBootstrap.Kmip.DumpStep
import CBootstrap.Kmip.DumpRuns
import CBootstrap.Kmip.DumpTrust
import CBootstrap.Kmip.Ttlv
import CBootstrap.Kmip.Nesting
import CBootstrap.Kmip.Writer
import CBootstrap.Kmip.Navigate
import CBootstrap.Util.Hex
import CBootstrap.Miniclient.Opmsg
import CBootstrap.Miniclient.Receive
import CBootstrap.Miniclient.Session
import CBootstrap.Minpoolsize.Warmup
import CBootstrap.DbQueue.Inflight
import CBootstrap.DbQueue.Queue
import CBootstrap.DbQueue.Handles
import CBootstrap.DbQueue.Drain
import CBootstrap.Dns.LookupMany
import CBootstrap.Dns.Message
import CBootstrap.Dns.Server
import CBootstrap.Evergreen.Replacements
import CBootstrap.Bson.Document
import CBootstrap.Bson.Iter
import CBootstrap.Bson.Internal
import CBootstrap.Bson.Value
import CBootstrap.Bson.Elements
import CBootstrap.Bson.Visit
import CBootstrap.Bson.Verdict
import CBootstrap.Bson.Buffer
import CBootstrap.Bson.Stream
import CBootstrap.Bson.Utf8
import CBootstrap.Bson.Validate
import CBootstrap.Bson.Validated
import CBootstrap.Bson.Append
