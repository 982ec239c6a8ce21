import Pauli.Basic
import Pauli.Beacon.Types
import Pauli.Configuration
import Pauli.Backoff
import Pauli.Beacon.Requests
import Pauli.Storage.Scylla
import Pauli.Monitor.Clock
import Pauli.Monitor.Events
import Pauli.Monitor.RunLoop
import Pauli.Monitor.Jobs
import Pauli.Monitor.Results
import Pauli.Monitor.WorkerPool
import Pauli.Monitor.Shutdown
import Pauli.Monitor.Pipeline
import Pauli.Monitor.SubmitAndWait
import Pauli.Epochs
