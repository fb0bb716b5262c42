import Photon.Outcome
import Photon.Types
import Photon.Borsh
import Photon.Parser
import Photon.Assembler
import Photon.Scanner
import Photon.Failures
import Photon.Payloads
import Photon.Startup
