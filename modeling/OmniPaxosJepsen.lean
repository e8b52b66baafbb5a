import OmniPaxosJepsen.Locality
import OmniPaxosJepsen.EventHistory
import OmniPaxosJepsen.Forwarding
import OmniPaxosJepsen.ClusterHistory
import OmniPaxosJepsen.KeyIsolation
import OmniPaxosJepsen.CheckerResult
import OmniPaxosJepsen.HarnessCheck
import OmniPaxosJepsen.Restarts
import OmniPaxosJepsen.Durability
import OmniPaxosJepsen.SnapshotMerge
import OmniPaxosJepsen.ServerReplication
import OmniPaxosJepsen.ClientRun
import OmniPaxosJepsen.SessionIds
import OmniPaxosJepsen.LostResponses
import OmniPaxosJepsen.Writer
import OmniPaxosJepsen.Simulation
import OmniPaxosJepsen.NodeSnapshots
import OmniPaxosJepsen.NodeNames
import OmniPaxosJepsen.NodeSnapshotMerge
import OmniPaxosJepsen.Nemesis
import OmniPaxosJepsen.FaultInjection
import OmniPaxosJepsen.VerdictOrder
import OmniPaxosJepsen.Connections
import OmniPaxosJepsen.SessionHistory
import OmniPaxosJepsen.StartSignals
import OmniPaxosJepsen.EndToEnd
import OmniPaxosJepsen.FaultFree
import OmniPaxosJepsen.Violations
import OmniPaxosJepsen.MeshReady
import OmniPaxosJepsen.RequestAccounting
