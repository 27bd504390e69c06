import Sweetcomb.Ietf.Address.Sync
import Sweetcomb.Ietf.Address.Failures
import Sweetcomb.Ietf.Address.Inverse
import Sweetcomb.Ietf.Interface.Sync
import Sweetcomb.Ietf.Interface.IpLevel
import Sweetcomb.Ietf.Nat.Sync
import Sweetcomb.Ietf.Lifecycle
import Sweetcomb.Openconfig.Equivalence
import Sweetcomb.Openconfig.Creation
import Sweetcomb.Subscribers.Abort
import Sweetcomb.Subscribers.Reject
import Sweetcomb.Subscribers.Removal
import Sweetcomb.Subscribers.Determined
import Sweetcomb.Subscribers.Handles
import Sweetcomb.Subscribers.Independence
import Sweetcomb.Configuration.Transaction
import Sweetcomb.Configuration.Survival
import Sweetcomb.Configuration.Populated
import Sweetcomb.Configuration.Models
import Sweetcomb.Configuration.Deployed
import Sweetcomb.Netmask
import Sweetcomb.Prefix
import Sweetcomb.Ietf.Nat.Builder
import Sweetcomb.Oper.Status
import Sweetcomb.Oper.Report
import Sweetcomb.Plugin.Cycle
import Sweetcomb.Plugin.Restart
import Sweetcomb.Plugin.Subscriptions.Context
import Sweetcomb.Plugin.Pid
import Sweetcomb.Plugin.Pid.Handles
import Sweetcomb.Plugin.Dependencies
import Sweetcomb.Plugin.Registrations.Live
import Sweetcomb.Plugin.Registrations.Entered
import Sweetcomb.Plugin.Registrations.Independent
