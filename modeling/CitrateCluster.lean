import CitrateCluster.Runs
import CitrateCluster.Collections
import CitrateCluster.DeviceGate
import CitrateCluster.Text
import CitrateCluster.Roster
import CitrateCluster.Membership
import CitrateCluster.Device
import CitrateCluster.Registry
import CitrateCluster.EffectiveRoster
import CitrateCluster.Resolution
import CitrateCluster.Revocation
import CitrateCluster.Seed
import CitrateCluster.PeerAddrs
import CitrateCluster.Transport
import CitrateCluster.Session
import CitrateCluster.Daemon
import CitrateCluster.Ipc
import CitrateCluster.DaemonStep
import CitrateCluster.Admission
import CitrateCluster.GroupState
import CitrateCluster.History
import CitrateCluster.CommsIdentity
import CitrateCluster.SwarmLoop
import CitrateCluster.SwarmSafety
import CitrateCluster.SwarmConnected
import CitrateCluster.SwarmSurface
import CitrateCluster.Authorization
import CitrateCluster.Atomicity
import CitrateCluster.MeshRun
import CitrateCluster.StateWrites
import CitrateCluster.Bounds
import CitrateCluster.DeviceViews
import CitrateCluster.Leaving
import CitrateCluster.InProcessWire
import CitrateCluster.Refusals
import CitrateCluster.Provenance
import CitrateCluster.SwarmClock
import CitrateCluster.Offboarding
import CitrateCluster.SeedText
import CitrateCluster.Narrowing
import CitrateCluster.RoleGate
import CitrateCluster.SigningText
import CitrateCluster.UpdateSpec
import CitrateCluster.Escapes
import CitrateCluster.Percent
import CitrateCluster.SeedGrammar
import CitrateCluster.Evictions
import CitrateCluster.Mailbox
import CitrateCluster.Polling
import CitrateCluster.Redial
import CitrateCluster.Lines
import CitrateCluster.Server
import CitrateCluster.Connection
import CitrateCluster.Recency
import CitrateCluster.Discovered
import CitrateCluster.Resending
import CitrateCluster.Paging
import CitrateCluster.SharedWalk
import CitrateCluster.Dropping
import CitrateCluster.Relayed
import CitrateCluster.Simulation
import CitrateCluster.GroupEffect
import CitrateCluster.ClusterAdmission
import CitrateCluster.ScheduledMesh
import CitrateCluster.ClusterWireAdmission
import CitrateCluster.DeviceLinkModel
import CitrateCluster.DeviceLinkRefinement
import CitrateCluster.Serve
import CitrateCluster.Staying
import CitrateCluster.Network
import CitrateCluster.Dialing
import CitrateCluster.Arrival
import CitrateCluster.Invitation
import CitrateCluster.Hex
import CitrateCluster.Eip191
import CitrateCluster.Startup
import CitrateCluster.JsonText
import CitrateCluster.Serde
import CitrateCluster.WireFormat
import CitrateCluster.Directory
import CitrateCluster.ControlSocket
