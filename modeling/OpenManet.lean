import OpenManet.Lib.SeqNum
import OpenManet.Lib.Machine
import OpenManet.Lib.Yield
import OpenManet.Lib.Text
import OpenManet.Lib.Split
import OpenManet.Lib.JsText
import OpenManet.Lib.Table
import OpenManet.Lib.Upsert
import OpenManet.Lib.Loop
import OpenManet.Comms.Jitter.Model
import OpenManet.Comms.Jitter.Invariant
import OpenManet.Comms.Jitter.Delivery
import OpenManet.Comms.Jitter.Recovery
import OpenManet.Comms.Jitter.Window
import OpenManet.Comms.Jitter.Gaps
import OpenManet.Comms.Jitter.Rejection
import OpenManet.Comms.Jitter.Drain
import OpenManet.Comms.Jitter.Series
import OpenManet.Sysupgrade.Model
import OpenManet.Sysupgrade.Exclusion
import OpenManet.Sysupgrade.Handle
import OpenManet.Sysupgrade.Asset
import OpenManet.Sysupgrade.Updates
import OpenManet.Sysupgrade.Fwx0
import OpenManet.Sysupgrade.Script
import OpenManet.Sysupgrade.Cancel
import OpenManet.Sysupgrade.Staged
import OpenManet.Sysupgrade.Checksum
import OpenManet.Sysupgrade.Download
import OpenManet.Address.Model
import OpenManet.Address.Search
import OpenManet.Address.Overlap
import OpenManet.Address.Window
import OpenManet.Address.Jumps
import OpenManet.Address.Convergence
import OpenManet.Topology.Model
import OpenManet.Topology.Gossip
import OpenManet.Topology.Merge
import OpenManet.Topology.WellFormed
import OpenManet.Topology.Aliases
import OpenManet.Topology.Components
import OpenManet.Topology.Gateways
import OpenManet.Topology.Redirects
import OpenManet.Topology.Order
import OpenManet.Comms.HalfDuplex.Model
import OpenManet.Comms.HalfDuplex.Busy
import OpenManet.Lib.Fallible
import OpenManet.Lib.Uci.Config
import OpenManet.Lib.Uci.Tree
import OpenManet.Lib.Uci.Frame
import OpenManet.Network.Wireless
import OpenManet.Network.Interfaces
import OpenManet.Network.Services
import OpenManet.Network.Frame
import OpenManet.Setup.Profile
import OpenManet.Setup.Phases
import OpenManet.Setup.Apply
import OpenManet.Setup.Frame
import OpenManet.Setup.Tail
import OpenManet.Setup.Runs
import OpenManet.Setup.Rollback
import OpenManet.Lib.Uci.Lookup
import OpenManet.Lib.Uci.Views
import OpenManet.Lib.Uci.Walk
import OpenManet.Network.Bridges
import OpenManet.Network.Cleanup
import OpenManet.Network.Names
import OpenManet.Network.Zones
import OpenManet.Network.Forwardings
import OpenManet.Network.Relayed
import OpenManet.Network.Pools
import OpenManet.Setup.Relayed
import OpenManet.Setup.Completeness
import OpenManet.Auth.Password
import OpenManet.Setup.Ports
import OpenManet.Setup.Patches
import OpenManet.Setup.Reset
import OpenManet.Setup.Checks
import OpenManet.Setup.Retry
import OpenManet.Setup.Credentials
import OpenManet.Setup.Interfaces
import OpenManet.Lib.Bytes
import OpenManet.Lib.Decimal
import OpenManet.Lib.Grouped
import OpenManet.Security.Codec
import OpenManet.Security.Replay
import OpenManet.Security.Envelope
import OpenManet.Security.Concurrent
import OpenManet.Bridge.PushToTalk
import OpenManet.Bridge.Hub
import OpenManet.Bridge.Membership
import OpenManet.Bridge.StuckKey
import OpenManet.Bridge.Toggles
import OpenManet.Blos.Model
import OpenManet.BatmanAdv.Originators
import OpenManet.BatmanAdv.Hops
import OpenManet.Blos.Manager
import OpenManet.Blos.Polling
import OpenManet.Blos.Shutdown
import OpenManet.Blos.Update
import OpenManet.Blos.Status
import OpenManet.Frontend.AudioEngine
import OpenManet.Frontend.Comms
import OpenManet.Frontend.Handlers
import OpenManet.Frontend.Decoding
import OpenManet.Frontend.Captions.Model
import OpenManet.Frontend.Captions.Owned
import OpenManet.Lib.Cartesian
import OpenManet.Frontend.ReleaseNotes.Model
import OpenManet.Frontend.ReleaseNotes.Spans
import OpenManet.Frontend.ReleaseNotes.Rendered
import OpenManet.Frontend.Release
import OpenManet.Frontend.PollStore
import OpenManet.Frontend.SettingsConfig
import OpenManet.Frontend.TopologyGraph
import OpenManet.Auth.Session
import OpenManet.Auth.Bridge
import OpenManet.Auth.History
import OpenManet.Comms.Audio.Capture
import OpenManet.Comms.Audio.Gain
import OpenManet.Comms.Announce.Ogg
import OpenManet.Comms.Audio.Playback
import OpenManet.Comms.Fec.Adapter
import OpenManet.Comms.Fec.Damping
import OpenManet.Comms.Fec.Reaction
import OpenManet.Comms.Lifecycle
import OpenManet.Comms.Web.Model
import OpenManet.Comms.Web.Source
import OpenManet.Comms.Web.Audio
import OpenManet.Comms.Web.Frames
import OpenManet.Comms.Web.Accounts
import OpenManet.Comms.Rtp.Session
import OpenManet.Comms.TalkGroup.Model
import OpenManet.Comms.TalkGroup.Selection
import OpenManet.Comms.TalkGroup.Playback
import OpenManet.Comms.Control.Volume
import OpenManet.Comms.Gpio.Selector
import OpenManet.Lib.Ring
import OpenManet.Lib.Script
import OpenManet.Lib.Knee
import OpenManet.Frontend.Ring.Model
import OpenManet.Frontend.Ring.Alone
import OpenManet.Frontend.Ring.Invariant
import OpenManet.Frontend.Ring.Runs
import OpenManet.Gnss.Model
import OpenManet.Gnss.Position
import OpenManet.Gnss.Nmea
import OpenManet.Lib.Yaml
import OpenManet.Config.Persist
import OpenManet.Frontend.Whisper.Model
import OpenManet.Frontend.Whisper.Complete
import OpenManet.Lib.Uci.Saves
import OpenManet.Network.MeshLink
import OpenManet.Mgmt.BatMesh1
import OpenManet.Mgmt.Link
import OpenManet.Mgmt.Disturbance
import OpenManet.Mgmt.NodeData
import OpenManet.Mgmt.Reservation
import OpenManet.Lib.Uci.Place
import OpenManet.Lib.Uci.Listed
import OpenManet.Lib.Uci.Clearing
import OpenManet.Lib.Uci.Raised
import OpenManet.Network.VxlanPeers
import OpenManet.Blos.Peers
import OpenManet.Blos.Retry
import OpenManet.Network.RegDB
import OpenManet.Network.MorseRegDB
import OpenManet.Setup.Status
import OpenManet.Frontend.Setup.State
import OpenManet.Frontend.Setup.Review
import OpenManet.Frontend.Setup.Entries
import OpenManet.Frontend.Setup.Pages
import OpenManet.Setup.Acceptance
import OpenManet.Frontend.Setup.Apply
import OpenManet.Topology.Segments
import OpenManet.Topology.Delta
import OpenManet.Topology.Churn
import OpenManet.Topology.Flagged
import OpenManet.Topology.Rendered
import OpenManet.Topology.Chains
import OpenManet.Topology.Orphans
import OpenManet.Lib.Meets
import OpenManet.Wifi.Settings
import OpenManet.Wifi.Staging
import OpenManet.Wifi.Join
import OpenManet.Lib.Uci.Alike
import OpenManet.Lib.Uci.Again
import OpenManet.Lib.Uci.Rework
import OpenManet.Wifi.Files
import OpenManet.Wifi.Refinement
import OpenManet.Wifi.Refusals
import OpenManet.Wifi.Sections
import OpenManet.Wifi.Sequences
