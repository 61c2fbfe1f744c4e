import Kikimora.Control.Underlay
import Kikimora.Platform.DefaultPath

/-!
# Detection of the underlay

The snapshot of the underlay that a platform takes is what the coalescer compares with
its copy. A snapshot that fails stops the coalescer and changes nothing else. A snapshot
that shows no path is a lost underlay, whatever kept the path from being seen.
-/

namespace Kikimora.Control

open Kikimora.Core Net Platform

section Linux

variable {src : Linux.Source} {excluded : String → Bool} {now : Int}

end Linux

-- === Windows ===

section Windows

variable {src : Windows.Source} {excluded : String → Bool} {now : Int} {is4 : Bool} {e : String}

end Windows

-- === Both platforms ===

end Kikimora.Control
