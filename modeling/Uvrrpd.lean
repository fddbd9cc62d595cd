import Uvrrpd.Acceptance
import Uvrrpd.Addresses
import Uvrrpd.Agreement
import Uvrrpd.Announcement
import Uvrrpd.Arming
import Uvrrpd.Coexistence
import Uvrrpd.Conformance
import Uvrrpd.Containment
import Uvrrpd.Failover
import Uvrrpd.Grammar
import Uvrrpd.Hooks
import Uvrrpd.Ip6Checksum
import Uvrrpd.IpList
import Uvrrpd.Isolation
import Uvrrpd.Lifecycle
import Uvrrpd.Numerals
import Uvrrpd.OptionOrder
import Uvrrpd.OwnExtent
import Uvrrpd.Passwords
import Uvrrpd.Program
import Uvrrpd.Resignation
import Uvrrpd.RoundTrip
import Uvrrpd.Safety
import Uvrrpd.Singleton
import Uvrrpd.Startup
import Uvrrpd.TieBreak
import Uvrrpd.TimerState
import Uvrrpd.VipArgument
import Uvrrpd.VipLists
