import ScriptMachine.Code.Verify
import ScriptMachine.Engine.ConfigText
import ScriptMachine.Engine.Host
import ScriptMachine.Graph.Rebuild
import ScriptMachine.Graph.Encoder
import ScriptMachine.Graph.Decoder
import ScriptMachine.Graph.Text
import ScriptMachine.Host.Holders
import ScriptMachine.Host.Stock
import ScriptMachine.Model.Release
import ScriptMachine.Proofs.Engine.Delivery
import ScriptMachine.Proofs.Engine.InstructionLimit
import ScriptMachine.Proofs.Engine.PrivateAccess
import ScriptMachine.Proofs.Engine.RaiseOrigin
import ScriptMachine.Proofs.Engine.TypeGraph
import ScriptMachine.Proofs.Engine.Verified
import ScriptMachine.Proofs.Graph.Continued
import ScriptMachine.Proofs.Model.Assignment
import ScriptMachine.Proofs.Graph.Stable
import ScriptMachine.Proofs.Graph.TextForm
import ScriptMachine.Proofs.Engine.Inequality
import ScriptMachine.Proofs.Engine.Atomic
import ScriptMachine.Proofs.Engine.Refusal
import ScriptMachine.Proofs.Model.Instances
import ScriptMachine.Proofs.Model.StaticHistory
import ScriptMachine.Proofs.Engine.Deeds
import ScriptMachine.Proofs.Engine.StaticData
import ScriptMachine.Proofs.Engine.Depth
import ScriptMachine.Proofs.Engine.SearchOrder
import ScriptMachine.Proofs.Model.Composition
import ScriptMachine.Proofs.Model.WriteAdmission
import ScriptMachine.Proofs.Engine.Construction
import ScriptMachine.Proofs.Engine.MethodCall
import ScriptMachine.Proofs.Model.CellNumbers
import ScriptMachine.Proofs.Graph.Discovery
import ScriptMachine.Proofs.Graph.Acceptance
import ScriptMachine.Proofs.Code.Building
import ScriptMachine.Proofs.Code.Demands
import ScriptMachine.Proofs.Model.Release
import ScriptMachine.Proofs.Engine.Counts
import ScriptMachine.Proofs.Engine.Indexing
