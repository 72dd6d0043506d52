import Retif.Admission
import Retif.Indices
import Retif.Window
import Retif.Framing
import Retif.Owner
import Retif.Replies
import Retif.Ids
import Retif.Selection
import Retif.Others
import Retif.Unique
import Retif.Cap
import Retif.Raised
import Retif.Dispatch
import Retif.Lib.CString
import Retif.Yaml
import Retif.Parse
import Retif.Overlap
import Retif.Lib.Unwinding
import Retif.Locality
import Retif.Isolation
import Retif.HalfDone
import Retif.Queries
import Retif.WorstFit
import Retif.Deletion
import Retif.Grants
import Retif.Solo
import Retif.Periods
import Retif.RoundRobin
import Retif.RateMonotonic
import Retif.PrioTable
import Retif.NewParams
import Retif.Activation
import Retif.Declared
import Retif.Utilisation
import Retif.CpuInfo
import Retif.Startup
import Retif.Priorities
import Retif.CoreLists
import Retif.Ranges
import Retif.Drafts
import Retif.Entries
import Retif.Unset
import Retif.Lib.Chain
import Retif.Nodes
import Retif.NodeRuns
import Retif.Lib.Compare
import Retif.Insertion
import Retif.Sorting
import Retif.Indexed
import Retif.CommonCores
import Retif.Lib.Binary64
import Retif.Instants
import Retif.Lib.Block
import Retif.Vectors
import Retif.VectorRuns
import Retif.VectorFailures
import Retif.Callees
import Retif.Lib.Acyclic
import Retif.Cycles
import Retif.Lib.Edf
import Retif.Schedulable
import Retif.Threads
import Retif.Lib.Traces
import Retif.Reservations
import Retif.Lib.Seeking
import Retif.Records
import Retif.Monitor
import Retif.Progress
import Retif.Vacated
import Retif.Bandwidth
import Retif.Lib.Decimal
import Retif.Written
import Retif.Judged
import Retif.Lib.Strings
import Retif.Lib.Paths
import Retif.Search
import Retif.Lib.FixedPriority
import Retif.Rates
import Retif.Lib.Renaming
import Retif.Addresses
import Retif.Reuse
