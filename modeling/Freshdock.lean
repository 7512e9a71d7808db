import Freshdock.Commands.Forecast
import Freshdock.Commands.Recreate
import Freshdock.Compose.DependsOn
import Freshdock.Compose.Edges
import Freshdock.Compose.Order
import Freshdock.Config.Credentials
import Freshdock.Config.ParseErrors
import Freshdock.Cron.Earliest
import Freshdock.Cron.Grammar
import Freshdock.Cron.Horizon
import Freshdock.Docker.FailedRepair
import Freshdock.Docker.FailedSwap
import Freshdock.Docker.PreviousContainer
import Freshdock.Docker.RepairedUpdates
import Freshdock.Docker.SharedNamespace
import Freshdock.Health.GracePath
import Freshdock.Health.OneShotExit
import Freshdock.Health.Tolerance
import Freshdock.Labels.Overridden
import Freshdock.OptOut
import Freshdock.Registry.Challenge
import Freshdock.Registry.Repositories
import Freshdock.Registry.Concurrent
import Freshdock.System.Budget
import Freshdock.System.Confined
import Freshdock.System.Mail
import Freshdock.Rollout.ActsOnce
import Freshdock.Rollout.FailStop
import Freshdock.Rollout.Gates
import Freshdock.Rollout.ListingOrder
import Freshdock.Rollout.Order
import Freshdock.Rollout.Permitted
import Freshdock.Rollout.PlainUpdate
import Freshdock.Rollout.PlannedReference
import Freshdock.Rollout.Restarts
import Freshdock.Rollout.Resumed
import Freshdock.Rollout.RunningOneShot
import Freshdock.Scheduler.Aborted
import Freshdock.Scheduler.Accounts
import Freshdock.Scheduler.Behalf
import Freshdock.Scheduler.CurrentLabels
import Freshdock.Scheduler.DueTrigger
import Freshdock.Scheduler.Loop
import Freshdock.Scheduler.MemberNames
import Freshdock.Scheduler.Once
import Freshdock.Scheduler.Rejected
import Freshdock.Scheduler.Silent
import Freshdock.Scheduler.Watching
import Freshdock.Scheduler.Windows
