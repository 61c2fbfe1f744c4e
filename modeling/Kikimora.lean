import Kikimora.Control.Activation
import Kikimora.Control.Convergence
import Kikimora.Control.Detection
import Kikimora.Control.Disconnect
import Kikimora.Control.EndpointAgreement
import Kikimora.Control.Generations
import Kikimora.Control.Integrity
import Kikimora.Control.Intent
import Kikimora.Control.LedgerRun
import Kikimora.Control.Observation
import Kikimora.Control.Quarantine
import Kikimora.Control.Recoveries
import Kikimora.Control.Refusal
import Kikimora.Control.Restraint
import Kikimora.Control.ParkTracking
import Kikimora.Control.ParkSurvival
import Kikimora.Control.Resume
import Kikimora.Control.StartupRelease
import Kikimora.Control.Sessions
import Kikimora.Control.Survival
import Kikimora.Routing.ActiveProof
import Kikimora.Toad.Diagnostics
import Kikimora.Toad.OpenConnect
import Kikimora.Toad.Redaction
