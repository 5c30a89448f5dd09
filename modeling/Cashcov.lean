import Cashcov.Lock
import Cashcov.Config
import Cashcov.Float
import Cashcov.Handler
import Cashcov.Exclusion
import Cashcov.Isolation
import Cashcov.Discipline
import Cashcov.Failure
import Cashcov.Operations
import Cashcov.Cooldown
import Cashcov.Overwrite
import Cashcov.Cooperative
import Cashcov.Stale
import Cashcov.Probabilistic
import Cashcov.LoadConfig
import Cashcov.ResultSource
import Cashcov.Progress
import Cashcov.SingleFlight
import Cashcov.Errors
import Cashcov.Expiry
import Cashcov.Sequential
