import Slim.Auth.Proof.PayloadSignature
import Slim.ChannelManager.Proof.Nonce
import Slim.Db.Proof.RouteIds
import Slim.HeaderMac
import Slim.Network.Proof.Mesh
import Slim.Network.Proof.Relay
import Slim.Network.Proof.Replay
import Slim.Persistence.ValueStore
import Slim.Proof.ControlPlane
import Slim.Proof.Discovery
import Slim.Proof.DropRace
import Slim.Proof.ForwardAck
import Slim.Proof.GatewayCache
import Slim.Proof.Handshake
import Slim.Proof.PinnedGateway
import Slim.Proof.RemoteLink
import Slim.RouteService.Proof.FailoverLinks
import Slim.RouteService.Proof.ReachabilityRun
import Slim.RouteService.Proof.WorkQueue
import Slim.Rpc.Demux
import Slim.Service.Proof.SessionRoutes
import Slim.Session.Proof.Convergence
import Slim.Session.Proof.Flush
import Slim.Session.Proof.Isolation
import Slim.Session.Proof.ReceiverBuffer
import Slim.Session.Proof.ReplayFilter
import Slim.Session.Proof.SenderRuns
import Slim.Session.Proof.SessionLayer
import Slim.Tables.Proof.Refinement
