import Py20305.Client.Armed
import Py20305.Client.Discovery
import Py20305.Client.Health
import Py20305.Client.Notified
import Py20305.Client.Paging
import Py20305.Client.Polling
import Py20305.Client.Rediscovery
import Py20305.Client.Retry
import Py20305.Client.Simulation
import Py20305.Client.State
import Py20305.Client.Timebase
import Py20305.Client.Topology
import Py20305.Connectors.Applying
import Py20305.Connectors.Dispatcher
import Py20305.Connectors.Modes
import Py20305.Connectors.Registry
import Py20305.Connectors.Vocabulary
import Py20305.Dnssd.Advertise
import Py20305.Dnssd.Discover
import Py20305.Dnssd.Messages
import Py20305.Dnssd.Names
import Py20305.Dnssd.Pointers
import Py20305.Dnssd.Responder
import Py20305.Dnssd.Txt
import Py20305.Events.AllPairs
import Py20305.Events.Alone
import Py20305.Events.Cancellation
import Py20305.Events.Chains
import Py20305.Events.CommsLoss
import Py20305.Events.Dedup
import Py20305.Events.Devices
import Py20305.Events.Effects
import Py20305.Events.Expiry
import Py20305.Events.Fallback
import Py20305.Events.GivingBack
import Py20305.Events.IdleDefaults
import Py20305.Events.Masking
import Py20305.Events.OnceOnly
import Py20305.Events.Polls
import Py20305.Events.Precedence
import Py20305.Events.Processor
import Py20305.Events.Pruning
import Py20305.Events.Records
import Py20305.Events.Registrations
import Py20305.Events.Rejection
import Py20305.Events.Removal
import Py20305.Events.Responses
import Py20305.Events.RuleP
import Py20305.Events.Setpoints
import Py20305.Events.Successive
import Py20305.Events.Supersession
import Py20305.Events.System
import Py20305.Events.Terminal
import Py20305.Events.Timers
import Py20305.Events.Trackers
import Py20305.Events.WholeDefaults
import Py20305.Events.World
import Py20305.Events.Written
import Py20305.History.Answers
import Py20305.History.Baseline
import Py20305.History.Counted
import Py20305.History.Database
import Py20305.History.Energy
import Py20305.History.Intervals
import Py20305.History.Query
import Py20305.History.Threads
import Py20305.History.Windows
import Py20305.Lib.AsyncLock
import Py20305.Lib.Bytes
import Py20305.Lib.Coroutine
import Py20305.Lib.Dict
import Py20305.Lib.Documents
import Py20305.Lib.Duties
import Py20305.Lib.Firsts
import Py20305.Lib.Gathering
import Py20305.Lib.Machine
import Py20305.Lib.Moves
import Py20305.Lib.Notes
import Py20305.Lib.Offers
import Py20305.Lib.Pacing
import Py20305.Lib.Raising
import Py20305.Lib.Rounding
import Py20305.Lib.Segments
import Py20305.Lib.Sorted
import Py20305.Lib.Spans
import Py20305.Lib.ThreadHop
import Py20305.Lib.Turns
import Py20305.Lib.Utf8
import Py20305.Lib.Zones
import Py20305.Observers.Queued
import Py20305.Profile.Editions
import Py20305.Profile.Outbound
import Py20305.Sep.Resources
import Py20305.Subscription.Adoption
import Py20305.Subscription.Ancestry
import Py20305.Subscription.Checkpoint
import Py20305.Subscription.Manager
import Py20305.Subscription.OneActive
import Py20305.Subscription.Suppression
import Py20305.SunSpec.Calls
import Py20305.SunSpec.Charge
import Py20305.SunSpec.Clearing
import Py20305.SunSpec.Controls
import Py20305.SunSpec.Effects
import Py20305.SunSpec.Homes
import Py20305.SunSpec.Limits
import Py20305.SunSpec.Modbus
import Py20305.SunSpec.Refused
import Py20305.SunSpec.Registers
import Py20305.SunSpec.Sharing
import Py20305.SunSpec.Watts
import Py20305.Tariff.Processor
import Py20305.Tariff.Relays
import Py20305.Telemetry.Alarms
import Py20305.Telemetry.Manager
import Py20305.Telemetry.Mrids
import Py20305.Telemetry.Mup
import Py20305.Telemetry.OwnType
import Py20305.Telemetry.Readings
import Py20305.Telemetry.Resend
import Py20305.Telemetry.Restarts
import Py20305.Telemetry.RuleN
import Py20305.Telemetry.ScaleFactor
import Py20305.Telemetry.Source
import Py20305.Xml.Layers
import Py20305.Xml.Order
