import Breadboard.Proofs.Description.Completion
import Breadboard.Proofs.Description.Placement
import Breadboard.Proofs.Description.Tolerance
import Breadboard.Proofs.Network.Formulas
import Breadboard.Proofs.Network.Relatching
import Breadboard.Proofs.Network.Synchrony
import Breadboard.Proofs.Simulator.Renaming
import Breadboard.Proofs.Storage.Calls
import Breadboard.Proofs.Network.Quiet
import Breadboard.Proofs.Description.HalfPeriods
import Breadboard.Proofs.Simulator.SquareWaves
import Breadboard.Proofs.Simulator.Signals
import Breadboard.Proofs.Simulator.TableSimulation
import Breadboard.Proofs.Description.Demands
import Breadboard.Proofs.Description.Interruptions
import Breadboard.Proofs.Description.Atomicity
import Breadboard.Proofs.Description.Precedence
import Breadboard.Proofs.Description.Consulting
import Breadboard.Proofs.Description.Ranges
import Breadboard.Proofs.Description.Shorthand
import Breadboard.Proofs.Simulator.Display
import Breadboard.Proofs.Network.Ascent
import Breadboard.Proofs.Description.ConnectionOrder
import Breadboard.Proofs.Description.Merging
import Breadboard.Proofs.Description.Expansion
