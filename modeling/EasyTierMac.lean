import EasyTierMac.Properties.SignalDiscipline
import EasyTierMac.Properties.DownHooks
import EasyTierMac.Properties.Teardown
import EasyTierMac.Properties.Driving
import EasyTierMac.Properties.Residency
import EasyTierMac.Properties.HooksAtExit
import EasyTierMac.Properties.Handshake
import EasyTierMac.Properties.LifecycleOrder
import EasyTierMac.Properties.CoreDeath
import EasyTierMac.Properties.HookOrder
import EasyTierMac.Properties.LeaseInvariant
import EasyTierMac.Properties.SessionEvents
import EasyTierMac.Properties.RequestLife
import EasyTierMac.Properties.NothingLeft
import EasyTierMac.Properties.PortFollows
import EasyTierMac.Properties.Takeover
import EasyTierMac.Properties.Replies
import EasyTierMac.Actor
import EasyTierMac.App.Model
import EasyTierMac.App.Operations
import EasyTierMac.App.System
import EasyTierMac.App.Moves
import EasyTierMac.Properties.DeadCore
import EasyTierMac.Properties.Overtaken
import EasyTierMac.Json.RoundTrip
import EasyTierMac.Json.Object
import EasyTierMac.Bridge.Serde
import EasyTierMac.Supervisor.Serde
import EasyTierMac.Properties.Protocol
import EasyTierMac.App.Events
import EasyTierMac.Bridge.EventJson
import EasyTierMac.Properties.EventJson
import EasyTierMac.Bridge.Install
import EasyTierMac.Properties.Install
import EasyTierMac.Properties.Orphans
import EasyTierMac.Supervisor.RunChild
import EasyTierMac.Properties.HookBound
import EasyTierMac.Supervisor.Lines
import EasyTierMac.Supervisor.Dialog
import EasyTierMac.Properties.Commands
import EasyTierMac.Supervisor.HelloPhase
import EasyTierMac.Properties.HelloDeadline
import EasyTierMac.App.Roles
import EasyTierMac.Properties.Disconnected
import EasyTierMac.Properties.StopWait
import EasyTierMac.Bridge.Calls
import EasyTierMac.Properties.Serialised
import EasyTierMac.Properties.Conflict
import EasyTierMac.Properties.ConfigText
import EasyTierMac.Serial
import EasyTierMac.App.Turns
import EasyTierMac.Properties.SerialQueue
import EasyTierMac.Handles
import EasyTierMac.App.Kinds
import EasyTierMac.Properties.SingleFlight
import EasyTierMac.Window
import EasyTierMac.App.Chart
import EasyTierMac.Properties.Chart
import EasyTierMac.Bridge.Link
import EasyTierMac.Properties.Link
import EasyTierMac.Properties.CallsReturn
import EasyTierMac.Leading
import EasyTierMac.Supervisor.Progress
import EasyTierMac.Supervisor.Leaving
import EasyTierMac.Properties.AlwaysExits
import EasyTierMac.Supervisor.Sweeps
import EasyTierMac.Properties.JanitorRuns
import EasyTierMac.Interference
import EasyTierMac.Properties.Instances
import EasyTierMac.Properties.CallsEnd
import EasyTierMac.Atomic
import EasyTierMac.Supervisor.CoreObject
import EasyTierMac.Properties.Linearizable
import EasyTierMac.Properties.Accountable
import EasyTierMac.Properties.Truthful
import EasyTierMac.Rust.Parts
import EasyTierMac.Json.Parts
import EasyTierMac.Properties.Fragments
