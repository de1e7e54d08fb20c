import Nx508j.Ipanat.Containment
import Nx508j.Ipacm.NatPowerSave
import Nx508j.Ipacm.StaClients
import Nx508j.Ipacm.NatSurvival
import Nx508j.Ipacm.RmSessions
import Nx508j.Ipacm.LanSlots
import Nx508j.Loc.AgpsClients
import Nx508j.Loc.AgpsRestart
import Nx508j.Loc.AgpsRetries
import Nx508j.Loc.MuteSession
import Nx508j.Loc.LocEngNi
import Nx508j.Loc.UserAgent
import Nx508j.Loc.NmeaSv
import Nx508j.Loc.TrimSpace
import Nx508j.Loc.LocApiBase
import Nx508j.Loc.LocTimerDue
import Nx508j.Ril.SapLifecycles
import Nx508j.Ril.RilEventDeleted
import Nx508j.Ril.WakeLock
import Nx508j.Ipacm.WanUp
import Nx508j.Ipacm.WanTether
import Nx508j.Ipacm.WanPdn
import Nx508j.Ipacm.WanDepend
import Nx508j.Ipacm.WlanAps
import Nx508j.Ipacm.LanUplinkRuns
import Nx508j.Ipacm.LanFilterIndex
import Nx508j.Ipanat.Checksums
import Nx508j.Loc.LocHeapRuns
import Nx508j.Loc.LocThread
import Nx508j.Loc.MsgTask
import Nx508j.Ril.Requests
import Nx508j.Ril.ResponseLock
import Nx508j.Ril.EventTimers
import Nx508j.Ril.Nitz
import Nx508j.Ipacm.XmlKeywords
import Nx508j.Ipacm.FirewallOrder
import Nx508j.Ipacm.SoftwareRouting
import Nx508j.Ipacm.StaFirewallRuns
import Nx508j.Ipacm.FirewallPaths
import Nx508j.Ril.SapApdu
import Nx508j.Shims.Strdup16to8
import Nx508j.Ipacm.SubnetTable
import Nx508j.Ipacm.CmdQueue
import Nx508j.Ipacm.TempEntries
import Nx508j.Ipanat.DmaOffsets
import Nx508j.Ipacm.BridgeFlt
import Nx508j.Ipacm.EthEntries
import Nx508j.Ipacm.WlanClientRuns
import Nx508j.Ipacm.ConntrackFilters
import Nx508j.LightHal.Light
import Nx508j.Ril.CdmaSms
import Nx508j.Ipacm.IfaceQuery
import Nx508j.Loc.DmnConnServer
import Nx508j.ConsumerIr.SocketMessage
import Nx508j.Ipacm.EthRtRuns
