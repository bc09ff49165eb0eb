import Guangyang.GoText
import Guangyang.Job
import Guangyang.Handlers
import Guangyang.Pipeline
import Guangyang.Invariant
import Guangyang.Payment
import Guangyang.Alone
import Guangyang.Stream
import Guangyang.Lock
import Guangyang.Routes
import Guangyang.Billing
import Guangyang.Redis
import Guangyang.Excelcmp.Normalize
import Guangyang.Excelcmp.Artifacts
import Guangyang.Excelcmp.Load
import Guangyang.Excelcmp.Export
import Guangyang.Excelcmp.Generate
import Guangyang.Excelcmp.TablePath
import Guangyang.Excelcmp.SheetNames
import Guangyang.KeyFile
import Guangyang.Ossstore
import Guangyang.Upload
import Guangyang.WorkerDisk
import Guangyang.Metrics
