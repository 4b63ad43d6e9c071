import TinyWifi.Acl
import TinyWifi.AclApply
import TinyWifi.AclModes
import TinyWifi.Adblock
import TinyWifi.Amnezia
import TinyWifi.AutoRevert
import TinyWifi.AwgConf
import TinyWifi.AwgImport
import TinyWifi.Blocklist
import TinyWifi.BlocklistUpdate
import TinyWifi.CommitConfirm
import TinyWifi.ConfLines
import TinyWifi.CrashSafety
import TinyWifi.CustomBlocks
import TinyWifi.DefaultGateway
import TinyWifi.DhcpEdits
import TinyWifi.DhcpReadback
import TinyWifi.DhcpSharing
import TinyWifi.Display
import TinyWifi.DnsRecords
import TinyWifi.DnsSharing
import TinyWifi.DnsUpdate
import TinyWifi.EditRace
import TinyWifi.Escape
import TinyWifi.Files
import TinyWifi.FirstBoot
import TinyWifi.FrameBuffer
import TinyWifi.GuardProgress
import TinyWifi.GuardedEdit
import TinyWifi.Hostapd
import TinyWifi.HostapdEdits
import TinyWifi.IwScan
import TinyWifi.LeaseRemoval
import TinyWifi.Leases
import TinyWifi.Lib.Decimal
import TinyWifi.Lib.Decoded
import TinyWifi.Lib.Directives
import TinyWifi.Lib.Edits
import TinyWifi.Lib.Endless
import TinyWifi.Lib.Expiring
import TinyWifi.Lib.Interleave
import TinyWifi.Lib.Ipv4
import TinyWifi.Lib.Keyed
import TinyWifi.Lib.LastWrite
import TinyWifi.Lib.Lines
import TinyWifi.Lib.Markup
import TinyWifi.Lib.Mortal
import TinyWifi.Lib.Places
import TinyWifi.Lib.Runs
import TinyWifi.Lib.Substitute
import TinyWifi.Lib.Text
import TinyWifi.Lib.Uppercase
import TinyWifi.Lib.Utf8
import TinyWifi.Lib.Views
import TinyWifi.LoginAttempts
import TinyWifi.MacLists
import TinyWifi.MonitorPage
import TinyWifi.MonitorRace
import TinyWifi.NanoDns
import TinyWifi.Nanodhcp
import TinyWifi.PendingOutcomes
import TinyWifi.PendingProgress
import TinyWifi.PendingReverts
import TinyWifi.RateLimit
import TinyWifi.RecordRemoval
import TinyWifi.RevertCalls
import TinyWifi.RevertScope
import TinyWifi.Safety
import TinyWifi.Schedule
import TinyWifi.ScheduleClock
import TinyWifi.ScheduleOverride
import TinyWifi.ScheduleRace
import TinyWifi.ScheduleWindows
import TinyWifi.Sessions
import TinyWifi.SharedConf
import TinyWifi.StagedEdit
import TinyWifi.StaticLeases
import TinyWifi.TlsPair
import TinyWifi.TrimmedLines
import TinyWifi.Tunnel
import TinyWifi.TunnelConfined
import TinyWifi.TunnelFiles
import TinyWifi.TunnelFrames
import TinyWifi.TunnelRefusal
import TinyWifi.TunnelRuns
import TinyWifi.TunnelStore
import TinyWifi.VpnBypass
import TinyWifi.VpnDns
import TinyWifi.VpnPolicy
import TinyWifi.Wan
import TinyWifi.WanApply
import TinyWifi.WebFront
import TinyWifi.WebSessions
import TinyWifi.Wifi
import TinyWifi.WifiWriteback
