import RustHttpServer.Http.Incremental
import RustHttpServer.Http.Grammar
import RustHttpServer.Pool.Conservation
import RustHttpServer.Host.Framing
import RustHttpServer.Host.Splitting
import RustHttpServer.Host.Coherence
import RustHttpServer.Host.Confinement
import RustHttpServer.Cgi.Pipes
import RustHttpServer.Cgi.Output
import RustHttpServer.Select.Connection
import RustHttpServer.Select.Reception
import RustHttpServer.Select.Watchdog
import RustHttpServer.Select.Registration
import RustHttpServer.Select.Reuse
import RustHttpServer.Select.Batch
import RustHttpServer.Select.Once
import RustHttpServer.Select.Accept
import RustHttpServer.Select.Cuts
import RustHttpServer.Host.Payload
import RustHttpServer.Select.Aborts
import RustHttpServer.Select.Panics
import RustHttpServer.Host.Headless
import RustHttpServer.Host.Interleaving
import RustHttpServer.Config.Printing
import RustHttpServer.Config.Blocks
import RustHttpServer.Pool.Load
import RustHttpServer.Host.Limit
import RustHttpServer.Single
import RustHttpServer.Pool.Clients
import RustHttpServer.Delivery
import RustHttpServer.Select.Shutdown
import RustHttpServer.Secrecy
