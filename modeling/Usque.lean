/-
  Verification of usque: the packet mux, the packet ring, the capsule codec, the agent
  coordinators, the transport, routing, the direct gateway, domain rules, and service updates.
-/
import Usque.Agent.Guarantees
import Usque.Gateway.Admitted
import Usque.Geo.Domains
import Usque.Linux.Guarded
import Usque.PacketMux.Allocating
import Usque.PacketMux.Fair
import Usque.PacketMux.OnWire
import Usque.PacketMux.Solicited
import Usque.PacketMux.Trains
import Usque.Platform.Fifo
import Usque.Platform.Hostile
import Usque.Protocol.Routes
import Usque.Routing.Canonical
import Usque.Routing.HintRuns
import Usque.Routing.Publishing
import Usque.Routing.VpnDns
import Usque.Transport.Clamping
import Usque.Transport.Promotion
import Usque.Transport.Withdrawal
import Usque.Update.Atomic
