import Lrun.LineWrap
import Lrun.CheckConfig
import Lrun.Binds
import Lrun.Reaping
import Lrun.Progress
import Lrun.Exceed
import Lrun.ParsedConfig
