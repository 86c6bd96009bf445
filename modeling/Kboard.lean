import Kboard.Concurrency.Interleaving
import Kboard.Concurrency.Increments
import Kboard.Concurrency.Lightswitch
import Kboard.Concurrency.Serialization
import Kboard.Concurrency.Termination
import Kboard.Queue.Ring
import Kboard.Text.Decimal
import Kboard.Sync.Observer
import Kboard.Sync.Solution1
import Kboard.Sync.Solution1Properties
import Kboard.Sync.Solution1Progress
import Kboard.Sync.Solution2
import Kboard.Sync.Solution2Properties
import Kboard.Sync.Solution2Overtaking
import Kboard.Sync.Solution3
import Kboard.Sync.Solution3Ledger
import Kboard.Sync.Solution3Progress
import Kboard.Sync.Solution3Grants
import Kboard.Sync.Exclusion
import Kboard.Sync.Restoration
import Kboard.Sync.Termination
import Kboard.Procfs.Linearization
import Kboard.Procfs.RandomRead
import Kboard.Procfs.Statistics
import Kboard.Procfs.Dumper
import Kboard.Procfs.Calls
import Kboard.Procfs.CallsProperties
import Kboard.Procfs.RoundTrip
import Kboard.Procfs.Serialization
import Kboard.Procfs.Clipboard
import Kboard.Procfs.Bodies
import Kboard.Procfs.Counter
import Kboard.Procfs.Provenance
import Kboard.Procfs.DumperValues
import Kboard.Procfs.Starvation
import Kboard.Procfs.Files
import Kboard.Procfs.SyncTest
import Kboard.Syscall.System
import Kboard.Syscall.Linearization
import Kboard.Syscall.Reinitialisation
import Kboard.Syscall.SyncTest
import Kboard.Syscall.Robustness
import Kboard.Syscall.Programs
import Kboard.Versions.Replay
