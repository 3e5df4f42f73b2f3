import VcWorkspace.Clone.Ownership
import VcWorkspace.Clone.Settlement
import VcWorkspace.Gateway.Cutoff
import VcWorkspace.Gateway.Targets
import VcWorkspace.Gateway.TicketToken
import VcWorkspace.Protocol.AgentAgreement
import VcWorkspace.Protocol.ComputerFence
import VcWorkspace.Protocol.NativeAgreement
import VcWorkspace.Protocol.SessionIdentity
import VcWorkspace.Protocol.SessionReceipts
import VcWorkspace.Protocol.WorkerFrame
import VcWorkspace.Server.AccessPolicy
import VcWorkspace.Server.JobRequests
import VcWorkspace.Server.PciMapping
import VcWorkspace.Server.SssdConfig
import VcWorkspace.Server.WindowsConnection
import VcWorkspace.Session.HelperHistory
import VcWorkspace.Session.LinuxLease
import VcWorkspace.Session.LinuxNative
import VcWorkspace.Session.LoginJournal
import VcWorkspace.Session.WindowsAuthority
import VcWorkspace.Session.WindowsNative
import VcWorkspace.Store.AccessLock
import VcWorkspace.Store.AssignmentMode
import VcWorkspace.Store.Audit
import VcWorkspace.Store.Deadlines
import VcWorkspace.Store.Exclusion
import VcWorkspace.Store.GroupSync
import VcWorkspace.Store.LeaseTable
import VcWorkspace.Store.NativeLedger
import VcWorkspace.Store.Pinning
import VcWorkspace.Store.SessionTable
import VcWorkspace.Store.StaleLogin
import VcWorkspace.Store.TicketLifecycle
