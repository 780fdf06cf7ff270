import TunnelOperator.Library.Program
import TunnelOperator.Library.Election
import TunnelOperator.Library.Ownership
import TunnelOperator.Standard.Quote
import TunnelOperator.Standard.Addr
import TunnelOperator.Standard.AddrProofs
import TunnelOperator.Standard.Prefix
import TunnelOperator.Standard.PrefixProofs
import TunnelOperator.Standard.Cidr
import TunnelOperator.Standard.Base64
import TunnelOperator.Api
import TunnelOperator.Resources
import TunnelOperator.Ipam
import TunnelOperator.IpamProofs
import TunnelOperator.Controller.Peers
import TunnelOperator.Controller.Gateway
import TunnelOperator.Controller.Reconcile
import TunnelOperator.Controller.Plan
import TunnelOperator.Controller.PlanProofs
import TunnelOperator.Controller.Stages
import TunnelOperator.Controller.PeersProofs
import TunnelOperator.Controller.Holders
import TunnelOperator.Controller.Allocation
import TunnelOperator.Controller.GatewayProofs
import TunnelOperator.Controller.Listable
import TunnelOperator.Controller.Cluster
import TunnelOperator.Controller.ClusterProofs
import TunnelOperator.Controller.PassProofs
import TunnelOperator.Controller.SecretProofs
import TunnelOperator.Controller.StateProofs
import TunnelOperator.Controller.Apiserver
import TunnelOperator.Controller.KeyIncumbency
import TunnelOperator.Controller.Effects
import TunnelOperator.Controller.Fates
import TunnelOperator.Controller.Outcomes
import TunnelOperator.Controller.AddressHolding
import TunnelOperator.Controller.AddressIncumbency
import TunnelOperator.Controller.CleanCalls
import TunnelOperator.Controller.CleanPass
import TunnelOperator.Controller.Settling
import TunnelOperator.Controller.Convergence
import TunnelOperator.Controller.Fixpoint
import TunnelOperator.Controller.Converged
import TunnelOperator.Agent.Device
import TunnelOperator.Agent.DeviceProofs
import TunnelOperator.Agent.DeviceConvergence
import TunnelOperator.Library.RouteTable
import TunnelOperator.Standard.AddrPort
import TunnelOperator.Sidecar.Routes
import TunnelOperator.Sidecar.RoutesProofs
import TunnelOperator.Sidecar.Routing
import TunnelOperator.Sidecar.Choice
import TunnelOperator.Sidecar.Interruption
import TunnelOperator.Sidecar.Tunnel
import TunnelOperator.Sidecar.Agreement
import TunnelOperator.Library.PolicyRules
import TunnelOperator.Datapath.Routing
import TunnelOperator.Datapath.Firewall
import TunnelOperator.Datapath.RuleProofs
import TunnelOperator.Datapath.ExactRule
import TunnelOperator.Datapath.Assertion
import TunnelOperator.Datapath.FailClosed
import TunnelOperator.Library.Register
import TunnelOperator.Controller.Custody
import TunnelOperator.Controller.MintedOnce
import TunnelOperator.Controller.Assessment
import TunnelOperator.Controller.Conditions
import TunnelOperator.Controller.Observation
import TunnelOperator.Controller.Readiness
import TunnelOperator.Controller.Reports
import TunnelOperator.Controller.Coherence
import TunnelOperator.Injection.ClientBinding
import TunnelOperator.Injection.ForeignBinding
import TunnelOperator.Injection.Watches
import TunnelOperator.Injection.BindingEvents
import TunnelOperator.Library.Interleaving
import TunnelOperator.Sidecar.Peer
import TunnelOperator.Sidecar.Registry
import TunnelOperator.Sidecar.Registration
import TunnelOperator.Library.Json
import TunnelOperator.Library.Cel
import TunnelOperator.Standard.Admission
import TunnelOperator.Injection.Policy
import TunnelOperator.Injection.PolicyProofs
import TunnelOperator.Injection.Backstop
import TunnelOperator.Controller.ForeignSecret
import TunnelOperator.Standard.Hex
import TunnelOperator.Agent.StateFile
import TunnelOperator.Agent.StateFileProofs
import TunnelOperator.Agent.Delivery
import TunnelOperator.Agent.PeerRange
import TunnelOperator.Library.Pool
import TunnelOperator.Controller.PoolRoom
import TunnelOperator.Controller.PoolExactness
import TunnelOperator.Library.Lockstep
import TunnelOperator.Controller.PairedRuns
import TunnelOperator.Controller.Turns
import TunnelOperator.Controller.LostWrite
import TunnelOperator.Controller.Partition
import TunnelOperator.Library.CharClass
import TunnelOperator.Controller.KeyPattern
import TunnelOperator.Library.Attempt
import TunnelOperator.Datapath.Iptables
import TunnelOperator.Datapath.AssertedOnce
import TunnelOperator.Datapath.Recorded
import TunnelOperator.Datapath.Forwarding
import TunnelOperator.Standard.NetBytes
import TunnelOperator.Standard.NetText
import TunnelOperator.Sidecar.DeviceConfig
import TunnelOperator.Library.CelLexer
import TunnelOperator.Library.CelGrammar
import TunnelOperator.Library.CelScanning
import TunnelOperator.Library.CelReading
import TunnelOperator.Library.CelValue
import TunnelOperator.Standard.QuotedCel
import TunnelOperator.Injection.CelLiteral
import TunnelOperator.Injection.LiteralParts
import TunnelOperator.Injection.LiteralProofs
import TunnelOperator.Controller.Unmixed
import TunnelOperator.Controller.Adopted
import TunnelOperator.Controller.RecreateStrategy
import TunnelOperator.Sidecar.KeyAgreement
import TunnelOperator.Sidecar.Loop
import TunnelOperator.Injection.PolicyLoop
import TunnelOperator.Agent.RacingSyncs
import TunnelOperator.Sidecar.NoLeak
import TunnelOperator.EndToEnd
import TunnelOperator.Sidecar.IPv6
import TunnelOperator.Datapath.PeerPath
