import ZoomConfig.FileTree
import ZoomConfig.Main
import ZoomConfig.Proofs.Configuration.Caching
import ZoomConfig.Proofs.Configuration.Conditions
import ZoomConfig.Proofs.Configuration.Defenses
import ZoomConfig.Proofs.Configuration.Extents
import ZoomConfig.Proofs.Configuration.Invariants
import ZoomConfig.Proofs.Configuration.Narrowing
import ZoomConfig.Proofs.Configuration.Precedence
import ZoomConfig.Proofs.Configuration.Trees
import ZoomConfig.Proofs.Document.Refusals
import ZoomConfig.Proofs.GeoJson.Extent
import ZoomConfig.Proofs.GeoJson.Loading
import ZoomConfig.Proofs.Geometry.Covering
import ZoomConfig.Proofs.Geometry.Maximal
import ZoomConfig.Proofs.Input.Failures
import ZoomConfig.Proofs.Input.Meaning
import ZoomConfig.Proofs.Input.Positions
import ZoomConfig.Proofs.Pyramids
import ZoomConfig.Proofs.Renderings
import ZoomConfig.Proofs.Tree.Entries
import ZoomConfig.Proofs.Zoom.FixedPoint
import ZoomConfig.Proofs.Zoom.Grammar
import ZoomConfig.Proofs.Zoom.Visibility
