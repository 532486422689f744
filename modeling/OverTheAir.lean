import OverTheAir.Config.Document
import OverTheAir.Delivery
import OverTheAir.Device.Bench
import OverTheAir.Proofs.Accounting
import OverTheAir.Proofs.Calls
import OverTheAir.Proofs.Codec
import OverTheAir.Proofs.Completion
import OverTheAir.Proofs.Counts
import OverTheAir.Proofs.Death
import OverTheAir.Proofs.Departure
import OverTheAir.Proofs.Grammar
import OverTheAir.Proofs.Label
import OverTheAir.Proofs.Policy
import OverTheAir.Proofs.Progress
import OverTheAir.Proofs.Reachability
import OverTheAir.Proofs.Record
import OverTheAir.Proofs.Rejections
import OverTheAir.Proofs.Replies
import OverTheAir.Proofs.Rest
import OverTheAir.Proofs.Restart
import OverTheAir.Proofs.Selection
import OverTheAir.Proofs.Settings
import OverTheAir.Proofs.Timeout
import OverTheAir.Proofs.Upload
import OverTheAir.Wifi
import OverTheAir.Worker
