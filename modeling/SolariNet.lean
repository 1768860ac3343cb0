import SolariNet.Server.AlertEpisodes
import SolariNet.Server.ClientIsolation
import SolariNet.Server.ControlCorrelation
import SolariNet.Provision.Validators
import SolariNet.Panel.StoreDurability
import SolariNet.Panel.ProvAgreement
import SolariNet.Deploy.Emitd
import SolariNet.Deploy.AlertBridge
import SolariNet.Deploy.ApplyDns
import SolariNet.Ctl.QueueBinding
import SolariNet.Netdb.AllocSafety
import SolariNet.Server.OneMaster
import SolariNet.EndToEnd.CurrentRows
import SolariNet.EndToEnd.Convergence
import SolariNet.Server.Retirement
import SolariNet.Server.Decommission
import SolariNet.Wire.FrameStream
import SolariNet.Panel.Completeness
import SolariNet.Wire.MsgRoundTrip
import SolariNet.Dashboard.LoginAttempts
import SolariNet.Deploy.AuthBrokerSafety
import SolariNet.Deploy.CrlSafety
import SolariNet.Deploy.FleetStaging
import SolariNet.Netdb.SelectExact
import SolariNet.Ctl.Arguments
import SolariNet.Server.Assets
import SolariNet.Panel.ProvSessions
import SolariNet.Server.SnmpRates
import SolariNet.Netdb.Ownership
import SolariNet.Panel.Link
import SolariNet.Agent.Durable
import SolariNet.Deploy.CrlOutput
import SolariNet.Monitor.Peers
import SolariNet.Server.NetGearView
import SolariNet.Dashboard.Components
import SolariNet.Dashboard.NetworkAllocator
import SolariNet.Dashboard.Oidc
import SolariNet.Agent.Json
