import KuryrKubernetes.Lib.Dict
import KuryrKubernetes.Lib.Buckets
import KuryrKubernetes.Lib.Transition
import KuryrKubernetes.Lib.Result
import KuryrKubernetes.Lib.Effect
import KuryrKubernetes.Lib.Percent
import KuryrKubernetes.Lib.Text
import KuryrKubernetes.Lib.ArrayPatch
import KuryrKubernetes.Lib.Flag
import KuryrKubernetes.Lib.Replay
import KuryrKubernetes.Lib.Loop
import KuryrKubernetes.Lib.Acts
import KuryrKubernetes.Lib.Json
import KuryrKubernetes.Lib.Versions
import KuryrKubernetes.Lib.LabelSelector
import KuryrKubernetes.K8s.Objects
import KuryrKubernetes.K8s.Watch
import KuryrKubernetes.K8s.Watcher
import KuryrKubernetes.K8s.Finalizers
import KuryrKubernetes.Drivers.Selectors
import KuryrKubernetes.Drivers.ListenerAcls
import KuryrKubernetes.Drivers.AffectedServices
import KuryrKubernetes.Drivers.ListenerCallers
import KuryrKubernetes.Drivers.ListenerRelease
import KuryrKubernetes.Drivers.LoadBalancerRelease
import KuryrKubernetes.Drivers.EnsureProvisioned
import KuryrKubernetes.Drivers.AddressPairs
import KuryrKubernetes.Drivers.NodeSubnets
import KuryrKubernetes.Drivers.ZombieResources
import KuryrKubernetes.Policy.Compiler
import KuryrKubernetes.Policy.DefaultRules
import KuryrKubernetes.Policy.Peers
import KuryrKubernetes.Policy.Triggers
import KuryrKubernetes.Policy.Productions
import KuryrKubernetes.Policy.Widening
import KuryrKubernetes.Policy.ServiceEgress
import KuryrKubernetes.Policy.IpBlocks
import KuryrKubernetes.Policy.PortProducts
import KuryrKubernetes.Policy.Repeatable
import KuryrKubernetes.Policy.NamedPorts
import KuryrKubernetes.Policy.Parts
import KuryrKubernetes.Policy.PodDeletion
import KuryrKubernetes.Policy.NamespaceDeletion
import KuryrKubernetes.Policy.Recognition
import KuryrKubernetes.Policy.Reduction
import KuryrKubernetes.Policy.PodCreation
import KuryrKubernetes.Policy.NamespaceCreation
import KuryrKubernetes.Pool.State
import KuryrKubernetes.Pool.World
import KuryrKubernetes.Pool.Exclusive
import KuryrKubernetes.Pool.Labels
import KuryrKubernetes.Pool.Conservation
import KuryrKubernetes.Pool.Recovery
import KuryrKubernetes.Pool.NodeCleanup
import KuryrKubernetes.Pool.SgRemoval
import KuryrKubernetes.Pool.NetworkDeletion
import KuryrKubernetes.Pool.KnownVifs
import KuryrKubernetes.Pool.PoolMaximum
import KuryrKubernetes.Pool.Vlans
import KuryrKubernetes.Pool.SubportRequests
import KuryrKubernetes.Pool.VlanReservation
import KuryrKubernetes.Cni.Registry
import KuryrKubernetes.Cni.Leaks
import KuryrKubernetes.Cni.StaleDelete
import KuryrKubernetes.Cni.FrontEnds
import KuryrKubernetes.Handlers.KuryrNetworkPolicy
import KuryrKubernetes.Handlers.PolicyAttachment
import KuryrKubernetes.Handlers.PolicyFinalize
import KuryrKubernetes.Handlers.KuryrPort
import KuryrKubernetes.Handlers.VifRelease
import KuryrKubernetes.Handlers.AdditionalNetworks
import KuryrKubernetes.Handlers.Retry
import KuryrKubernetes.Handlers.Asynchronous
import KuryrKubernetes.Handlers.PodLabel
import KuryrKubernetes.Handlers.KuryrNetwork
import KuryrKubernetes.Handlers.KuryrNetworkFinalize
import KuryrKubernetes.Drivers.ResourceNames
import KuryrKubernetes.Handlers.ServiceSpec
import KuryrKubernetes.Handlers.LoadBalancer
import KuryrKubernetes.Handlers.LoadBalancerMoves
import KuryrKubernetes.Handlers.LoadBalancerAgreement
import KuryrKubernetes.Handlers.LoadBalancerIntegrity
import KuryrKubernetes.Handlers.LoadBalancerLookup
import KuryrKubernetes.Handlers.LoadBalancerSuccess
import KuryrKubernetes.Handlers.LoadBalancerBuild
import KuryrKubernetes.Handlers.LoadBalancerFixpoint
import KuryrKubernetes.Handlers.Endpoints
import KuryrKubernetes.Handlers.Reconciliation
import KuryrKubernetes.Handlers.SharedPorts
import KuryrKubernetes.Lib.Views
import KuryrKubernetes.Policy.Tracking
import KuryrKubernetes.Lib.Custody
import KuryrKubernetes.Handlers.PodLifecycle
import KuryrKubernetes.Handlers.PodCustody
import KuryrKubernetes.Handlers.PodUndisturbed
import KuryrKubernetes.Handlers.NamespaceLabels
import KuryrKubernetes.Drivers.PortAddresses
