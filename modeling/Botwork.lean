import Botwork.Foundations.FiniteMap
import Botwork.Foundations.Json
import Botwork.Foundations.Transition
import Botwork.ControlPlane.Sessions
import Botwork.ControlPlane.Handler
import Botwork.ControlPlane.Xds
import Botwork.ControlPlane.AckGate
import Botwork.ControlPlane.Policy
import Botwork.SessionBroker.Startup
import Botwork.SessionBroker.State
import Botwork.SessionBroker.World
import Botwork.SessionBroker.Steps
import Botwork.SessionBroker.Ownership
import Botwork.SessionBroker.Crash
import Botwork.Vault.Conflicts
import Botwork.AuthBroker.Revocation
import Botwork.SessionBroker.Recovery
import Botwork.SessionBroker.Steering
import Botwork.SessionBroker.Binding
import Botwork.SessionBroker.Rotation
import Botwork.SessionBroker.Idle
import Botwork.SessionBroker.Teardown
import Botwork.SessionBroker.AgentRow
import Botwork.SessionBroker.Delivery
import Botwork.SessionBroker.SecretsWire
import Botwork.SessionBroker.AgentDirs
import Botwork.SessionBroker.Tombstones
import Botwork.System.Names
import Botwork.ControlPlane.Addresses
import Botwork.ControlPlane.Convergence
import Botwork.AuthBroker.Caps
import Botwork.AuthBroker.Fetches
import Botwork.AuthBroker.Usable
import Botwork.System.Identity
import Botwork.AuthBroker.LeaseRows
import Botwork.System.ConfigServer
import Botwork.System.Locking
import Botwork.System.UniqueNames
import Botwork.System.GatedWrites
import Botwork.AuthBroker.Minting
import Botwork.System.SecretAddressing
import Botwork.Launcher.Leftovers
import Botwork.Launcher.StagingMounts
import Botwork.AuthBroker.Admission
import Botwork.AuthBroker.Lifecycle
import Botwork.System.Accounts
import Botwork.Launcher.Archive
import Botwork.AuthBroker.Registration
import Botwork.AuthBroker.BucketRuns
import Botwork.Vault.FailedWrites
import Botwork.Vault.Crashes
import Botwork.Vault.PublicKeys
import Botwork.AuthBroker.ActiveLease
import Botwork.AuthBroker.Cookies
import Botwork.AuthBroker.ServerSetup
import Botwork.AuthBroker.AdminKey
import Botwork.AuthBroker.KeyTerms
import Botwork.Api.BindingBodies
import Botwork.Bootstrap.Idempotence
import Botwork.Api.Reads
import Botwork.Api.PluginBodies
import Botwork.Api.WriteBack
import Botwork.Cli.Stamping
import Botwork.ControlPlane.PushedVersions
