import PrizeSender.Orderly
import PrizeSender.Retry
import PrizeSender.Recipient
import PrizeSender.Race
import PrizeSender.ValidTime
import PrizeSender.Restarts
import PrizeSender.RoundTrip
import PrizeSender.SendPort
import PrizeSender.StoreGrowth
import PrizeSender.Undisturbed
import PrizeSender.SecondPress
import PrizeSender.Drift
import PrizeSender.Turns
import PrizeSender.Blame
import PrizeSender.SharedFile
import PrizeSender.Untouched
import PrizeSender.Discipline
import PrizeSender.SendButton
