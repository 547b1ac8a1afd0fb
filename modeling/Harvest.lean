import Harvest.Gateway.Socket
import Harvest.Main
import Harvest.Proofs.Plan.Layers
import Harvest.Proofs.Plan.Refusals
import Harvest.Rehearsal.Description
import Harvest.Rehearsal.Desk
import Harvest.Rehearsal.Session
import Harvest.Store.Cell
import Harvest.Proofs.Program.Realm
import Harvest.Proofs.Run.Calls
import Harvest.Proofs.Run.Phase
import Harvest.Proofs.Run.Course
import Harvest.Proofs.Run.Progress
import Harvest.Proofs.Run.DataFlow
import Harvest.Proofs.Store.TablesLedger
import Harvest.Proofs.Run.Events
import Harvest.Proofs.Run.Credits
import Harvest.Proofs.Run.Stop
import Harvest.Proofs.Service.Finished
import Harvest.Proofs.Run.Outcome
import Harvest.Proofs.Run.Faults
import Harvest.Proofs.Store.Archive
import Harvest.Proofs.Service.Interruption
import Harvest.Proofs.Service.Recovery
import Harvest.Proofs.Store.Alike
import Harvest.Proofs.Service.Rejection
import Harvest.Proofs.Run.Errands
import Harvest.Proofs.Gateway.Tenancy
import Harvest.Proofs.Service.LastRun
import Harvest.Proofs.Service.Persisted
import Harvest.Proofs.Store.Share
import Harvest.Proofs.Service.Ensemble
import Harvest.Proofs.Run.Explained
import Harvest.Proofs.Run.Browsers
import Harvest.Proofs.Run.Ports
import Harvest.Proofs.Run.Readable
import Harvest.Proofs.Csv.Reading
import Harvest.Proofs.Executor.Sheet
import Harvest.Proofs.Executor.Files
import Harvest.Proofs.Flow.RoundTrip
import Harvest.Proofs.Text.Literals
import Harvest.Proofs.Executor.Paging
import Harvest.Proofs.Service.Orphans
import Harvest.Proofs.Service.Leftover
import Harvest.Proofs.Service.Resumption
import Harvest.Proofs.Executor.Closing
import Harvest.Proofs.Csv.Leaves
import Harvest.Proofs.Store.Logs
import Harvest.Proofs.Executor.Fields
import Harvest.Proofs.Executor.Extracting
import Harvest.Proofs.Executor.Placement
