import SceneLighting.Log.Receiver
import SceneLighting.Log.Timestamp
import SceneLighting.Scene.Collection
import SceneLighting.Scene.DrawList
import SceneLighting.Scene.Edit
import SceneLighting.Proofs.Scene.Forest
import SceneLighting.Proofs.Action
import SceneLighting.Proofs.Scene.Edit
import SceneLighting.Proofs.Scene.Managers
import SceneLighting.Proofs.Scene.WellFormed
import SceneLighting.Proofs.Scene.Path
import SceneLighting.Proofs.Scene.Nearest
import SceneLighting.Proofs.Scene.Run
import SceneLighting.Proofs.Scene.Links
import SceneLighting.Proofs.Scene.Removal
import SceneLighting.Proofs.Scene.Assignment
import SceneLighting.Proofs.Scene.Attachment
import SceneLighting.Proofs.Scene.Failure
import SceneLighting.Proofs.Scene.Culling
import SceneLighting.Proofs.Scene.Collection
import SceneLighting.Proofs.Scene.Decoration
import SceneLighting.Proofs.Manager.Frame
import SceneLighting.Proofs.Manager.Cache
import SceneLighting.Proofs.Manager.Selection
import SceneLighting.Proofs.Manager.Coherence
import SceneLighting.Proofs.Manager.Preparation
import SceneLighting.Proofs.Scene.Selection
import SceneLighting.Proofs.Scene.Enclosure
import SceneLighting.Proofs.Scene.Interruption
import SceneLighting.Proofs.Scene.Renewal
import SceneLighting.Proofs.Slot.Mapping
import SceneLighting.Proofs.Scene.Trace
import SceneLighting.Proofs.Scene.Identity
import SceneLighting.Proofs.Scene.Descent
import SceneLighting.Proofs.Scene.Lifetime
import SceneLighting.Proofs.Scene.Footprint
import SceneLighting.Proofs.Scalar.Real
import SceneLighting.Proofs.Scene.Reporting
import SceneLighting.Proofs.Scene.Placement
import SceneLighting.Proofs.Scene.Worklist
import SceneLighting.Proofs.Scene.Traversal
import SceneLighting.Proofs.Manager.Candidates
import SceneLighting.Proofs.Manager.Accounts
import SceneLighting.Proofs.Scene.Domain
import SceneLighting.Proofs.Scene.Pruning
import SceneLighting.Proofs.Geometry.Enclosing
import SceneLighting.Proofs.Scene.Refusal
import SceneLighting.Proofs.Geometry.Stretch
import SceneLighting.Proofs.Scalar.Binary32
import SceneLighting.Proofs.Geometry.Validity
import SceneLighting.Proofs.Scene.Bounds
import SceneLighting.Proofs.Manager.Reach
import SceneLighting.Proofs.Scene.Unlit
import SceneLighting.Proofs.Light.EyeSpace
import SceneLighting.Proofs.Light.Cone
import SceneLighting.Proofs.Light.Image
import SceneLighting.Proofs.Manager.Fingerprint
import SceneLighting.Proofs.Manager.Lookup
