import MongoHa.Foundations.Machine
import MongoHa.Foundations.HeldSince
import MongoHa.Foundations.Majority
import MongoHa.Foundations.RustStr
import MongoHa.Wrapper.Config
import MongoHa.Wrapper.Bson
import MongoHa.Wrapper.Mongo
import MongoHa.Wrapper.Peers
import MongoHa.Wrapper.InitiateGuard
import MongoHa.Wrapper.HealthServer
import MongoHa.Wrapper.Orchestrate
import MongoHa.Spec.Election
import MongoHa.Proofs.Commands
import MongoHa.Proofs.BootstrapLoop
import MongoHa.Wrapper.Cluster
import MongoHa.Proofs.PeerRound
import MongoHa.Proofs.ClusterFlags
import MongoHa.Proofs.OneInitiator
import MongoHa.Proofs.AdoptedData
import MongoHa.Proofs.PruneClock
import MongoHa.Proofs.Readmission
import MongoHa.Proofs.SplitBrainFence
import MongoHa.Wrapper.AuthPin
import MongoHa.Wrapper.StandaloneRecovery
import MongoHa.Wrapper.Boot
import MongoHa.Proofs.OplogReplay
import MongoHa.Proofs.KeyfileRetirement
import MongoHa.Wrapper.Passthrough
import MongoHa.Proofs.MongodArgv
import MongoHa.Foundations.VersionedRegister
import MongoHa.Proofs.MembershipEdits
import MongoHa.Proofs.LostSession
import MongoHa.Proofs.Electability
import MongoHa.Foundations.Program
import MongoHa.Foundations.Base64
import MongoHa.Foundations.JsonStrings
import MongoHa.Wrapper.Keyfile
import MongoHa.Wrapper.Credentials
import MongoHa.Wrapper.CredentialNode
import MongoHa.Proofs.CredentialTasks
import MongoHa.Proofs.PinnedMember
import MongoHa.Proofs.PinRegression
import MongoHa.Foundations.Replication
import MongoHa.Wrapper.RotatingSet
import MongoHa.Proofs.DurableDatabase
import MongoHa.Proofs.KeyOverlap
import MongoHa.Proofs.NoLockout
import MongoHa.Proofs.ResolverIteration
import MongoHa.Wrapper.Fcv
import MongoHa.Proofs.FcvRaise
import MongoHa.Proofs.FcvRetry
import MongoHa.Proofs.RebuildWindows
import MongoHa.Proofs.TransportRuns
import MongoHa.Proofs.FreezeWindow
import MongoHa.Proofs.RoleInstants
import MongoHa.Foundations.CriticalSection
import MongoHa.Proofs.PooledPassword
import MongoHa.Proofs.TruthfulPin
import MongoHa.Foundations.AtomicFile
import MongoHa.Wrapper.PinWrites
import MongoHa.Proofs.PinAtomicity
import MongoHa.Foundations.DnsMessage
import MongoHa.Foundations.NetAddr
import MongoHa.Wrapper.DnsProbe
import MongoHa.Proofs.MemberAddresses
import MongoHa.Proofs.QueryEncoding
import MongoHa.Proofs.MemberIds
import MongoHa.Wrapper.HealthAuth
import MongoHa.Proofs.CallerCredential
import MongoHa.Proofs.ReadersFollow
import MongoHa.Wrapper.ReplicationMonitor
import MongoHa.Proofs.SignalDerivation
import MongoHa.Wrapper.MemberDuties
import MongoHa.Proofs.AlertOnce
import MongoHa.Proofs.StuckAlerts
import MongoHa.Edge.Template
import MongoHa.Foundations.Collect
import MongoHa.Proofs.ServerLines
import MongoHa.Wrapper.KernelCompat
import MongoHa.Proofs.RseqTunables
import MongoHa.Proofs.GoneProof
import MongoHa.Common.Telemetry
import MongoHa.Proofs.BodyTruncation
import MongoHa.Foundations.Codec
import MongoHa.Wrapper.Documents
import MongoHa.Wrapper.PeerExchange
import MongoHa.Proofs.PeerAnswers
import MongoHa.Proofs.CredentialBytes
import MongoHa.Proofs.AdoptedKeyfile
import MongoHa.Foundations.Processes
import MongoHa.Wrapper.Supervisor
import MongoHa.Wrapper.Entrypoint
import MongoHa.Proofs.OneContainer
import MongoHa.Proofs.SupervisorRuns
import MongoHa.Proofs.BootRefinement
import MongoHa.Foundations.Slots
import MongoHa.Wrapper.KeyfileSlots
import MongoHa.Proofs.KeyfileGuesses
import MongoHa.Wrapper.SwitchoverHandler
import MongoHa.Proofs.SwitchoverRefinement
import MongoHa.Proofs.SwitchoverRuns
