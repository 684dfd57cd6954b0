import SensorBoard.Board.Inspect
import SensorBoard.Board.Session
import SensorBoard.Link.Metered
import SensorBoard.Proofs.Creation.Completion
import SensorBoard.Proofs.Creation.Correlation
import SensorBoard.Proofs.Creation.Refusal
import SensorBoard.Proofs.Filters.Allocation
import SensorBoard.Proofs.Session.Transparency
import SensorBoard.Proofs.Tables.Containment
import SensorBoard.Proofs.Tables.Dormancy
import SensorBoard.Proofs.Tables.Identity
import SensorBoard.Proofs.Tables.Ledgers
import SensorBoard.Proofs.Tables.Permanence
import SensorBoard.Proofs.Session.Quiet
import SensorBoard.Proofs.Session.Deliveries
import SensorBoard.Proofs.Filters.Bindings
import SensorBoard.Proofs.Session.Interchange
import SensorBoard.Proofs.Tables.Clearing
import SensorBoard.Proofs.Tables.Removal
import SensorBoard.Proofs.Tables.Reception
import SensorBoard.Proofs.Samples.LittleEndian
import SensorBoard.Proofs.Samples.Shortage
import SensorBoard.Proofs.Wire.Encoding
import SensorBoard.Proofs.Tables.Resolution
import SensorBoard.Proofs.Session.Labels
import SensorBoard.Proofs.Tables.Filing
import SensorBoard.Proofs.Samples.Bounds
