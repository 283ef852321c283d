import CcspPandM.Ipv6rd
import CcspPandM.MaptRollback
import CcspPandM.DmzRequest
import CcspPandM.NatEdit
import CcspPandM.NatOverlap
import CcspPandM.Dhcpv6sRestart
import CcspPandM.Dhcpv4sRuns
import CcspPandM.InterfacePrefixes
import CcspPandM.RoutingV4Runs
import CcspPandM.RoutingV6Runs
import CcspPandM.PolicyRuns
import CcspPandM.NatListsRuns
import CcspPandM.LanParameters
import CcspPandM.RfcStore
import CcspPandM.DynamicDns
import CcspPandM.PolicyRegistry
import CcspPandM.RaRegistry
import CcspPandM.BridgingRuns
import CcspPandM.CacheCapacity
import CcspPandM.NatClientPools
import CcspPandM.HexStream
import CcspPandM.Ipv6rdTable
import CcspPandM.PoolReads
import CcspPandM.SentOptions
import CcspPandM.ServerClientFile
import CcspPandM.AssignGlobalIp
import CcspPandM.InterfaceList
import CcspPandM.PortMappingClient
import CcspPandM.PortMappingV6
import CcspPandM.IpaddrText
import CcspPandM.NetmaskChecks
import CcspPandM.StringToHex
import CcspPandM.LowerLayersSearch
import CcspPandM.StaticIpRuleRuns
import CcspPandM.BridgeAllocation
import CcspPandM.RouteInfo
import CcspPandM.IfInet6
import CcspPandM.Route6Table
import CcspPandM.StaticRoutes
import CcspPandM.GreEndpoints
import CcspPandM.AccessPolicies
import CcspPandM.GreLocalInterfaces
import CcspPandM.InterfaceStack
import CcspPandM.DnsServers
import CcspPandM.TimeOffset
import CcspPandM.RedirectAddresses
import CcspPandM.NeighdiscInterface
import CcspPandM.DdnsServices
import CcspPandM.NeighborTable
import CcspPandM.FirewallLog
import CcspPandM.ParentalSettings
import CcspPandM.HotspotBlob
import CcspPandM.Dhcpv4Registry
import CcspPandM.RipdStaticRoutes
import CcspPandM.AddressLifetimes
import CcspPandM.ActivePorts
import CcspPandM.DdnsUpdates
import CcspPandM.BridgeModeNotifiers
import CcspPandM.V6InstanceNumbers
import CcspPandM.HostsTable
import CcspPandM.BridgeTransactions
import CcspPandM.MlanEthLinks
import CcspPandM.IpInterfaceDispatch
import CcspPandM.SortedLinks
import CcspPandM.SyndicationPartner
import CcspPandM.EthAssociations
import CcspPandM.ProcessTable
import CcspPandM.RebootRequest
import CcspPandM.SshArguments
import CcspPandM.NetDev
import CcspPandM.VlanTermination
import CcspPandM.BridgeMembers
import CcspPandM.PortTriggerSwitch
