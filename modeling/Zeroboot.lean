import Zeroboot.Lib.Text
import Zeroboot.Lib.Shell
import Zeroboot.Lib.Search
import Zeroboot.Lib.Decimal
import Zeroboot.Lib.Calendar
import Zeroboot.Lib.Medium
import Zeroboot.Lib.Volume
import Zeroboot.Lib.Torn
import Zeroboot.Lib.Filling
import Zeroboot.Lib.Layout
import Zeroboot.Lib.Fitting
import Zeroboot.Lib.Run
import Zeroboot.Lib.Sorting
import Zeroboot.Lib.Checked
import Zeroboot.Lib.Json
import Zeroboot.Lib.Trace
import Zeroboot.Lib.Cell
import Zeroboot.Lib.Client
import Zeroboot.Lib.Versions
import Zeroboot.Core.Disk
import Zeroboot.Core.Esp
import Zeroboot.Core.Geometry
import Zeroboot.Core.Survey
import Zeroboot.Core.Bytes
import Zeroboot.Core.Checked
import Zeroboot.Core.Probe
import Zeroboot.Core.Boot
import Zeroboot.Core.BootImage
import Zeroboot.Core.Report
import Zeroboot.Core.Cli
import Zeroboot.Core.Manifests
import Zeroboot.Theory.Quoting
import Zeroboot.Theory.Evidence
import Zeroboot.Theory.Reading
import Zeroboot.Theory.Coverage
import Zeroboot.Theory.Judge
import Zeroboot.Theory.Selection
import Zeroboot.Theory.Intent
import Zeroboot.Theory.Bench
import Zeroboot.Theory.Blank
import Zeroboot.Theory.Ladder
import Zeroboot.Theory.Signatures
import Zeroboot.Theory.Boots
import Zeroboot.Theory.Geometry
import Zeroboot.Theory.Loader
import Zeroboot.Theory.Claim
import Zeroboot.Theory.Ownership
import Zeroboot.Theory.Reclaim
import Zeroboot.Theory.Faults
import Zeroboot.Theory.World
import Zeroboot.Theory.EspFiles
import Zeroboot.Theory.PlainTable
import Zeroboot.Theory.Written
import Zeroboot.Theory.Image
import Zeroboot.Theory.Placement
import Zeroboot.Theory.Entry
import Zeroboot.Theory.Naming
import Zeroboot.Theory.SlabLine
import Zeroboot.Theory.Clock
import Zeroboot.Theory.Least
import Zeroboot.Theory.Raid
import Zeroboot.Theory.Command
import Zeroboot.Theory.Leftover
import Zeroboot.Theory.Inventory
import Zeroboot.Theory.Ledger
import Zeroboot.Theory.Aftermath
import Zeroboot.Theory.Lifetime
import Zeroboot.Theory.Race
import Zeroboot.Theory.Payload
import Zeroboot.Theory.Cli
import Zeroboot.Theory.Neighbours
import Zeroboot.Theory.FlowOver
import Zeroboot.Theory.Cost
import Zeroboot.Theory.Apiserver
import Zeroboot.Theory.Manifests
import Zeroboot.Theory.Script
import Zeroboot.Theory.Urls
