import MasqueServer.CapsuleAccounting
import MasqueServer.CapsuleFraming
import MasqueServer.CoalescedAuthentication
import MasqueServer.ConnectRace
import MasqueServer.DatagramCodec
import MasqueServer.DirtyRounds
import MasqueServer.DispatchGate
import MasqueServer.DynamicAllocation
import MasqueServer.EarlyDatagrams
import MasqueServer.GeneratedText
import MasqueServer.ListenerPlanning
import MasqueServer.PacedSending
import MasqueServer.ProbePackets
import MasqueServer.RetryAdmission
import MasqueServer.ReturnPath
import MasqueServer.RosterRevocation
import MasqueServer.RouteRanges
import MasqueServer.RuntimeStatus
import MasqueServer.ScopeSafety
import MasqueServer.SendPlanning
import MasqueServer.SourceAdmission
import MasqueServer.TargetResolution
import MasqueServer.TcpDownload
import MasqueServer.TransportAgreement
import MasqueServer.TunnelBound
import MasqueServer.UdpPaths
import MasqueServer.UploadWakeups
import MasqueServer.UserEditSafety
