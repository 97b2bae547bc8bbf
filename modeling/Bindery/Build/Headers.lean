/-
# Sets of headers

Generated sources include a header by its file name. The compiler finds it because the directory of
every header is given to it by a flag, each directory once, in the order of the headers.
-/

import Bindery.Host.Path

namespace Bindery
namespace Headers

/-- The name by which each header is included. -/
def includes (paths : List String) : List String := paths.filterMap Path.fileName?

/-- The texts of a list, each at its first occurrence only. -/
def distinct : List String → List String
  | [] => []
  | s :: r => s :: (distinct r).filter (· ≠ s)

/-- The directories of the headers. -/
def directories (paths : List String) : List String :=
  distinct ((paths.filterMap Path.parent?).filter (· ≠ ""))

/-- The flags that make the headers known to the compiler. -/
def includeFlags (paths : List String) : List String := (directories paths).map ("-I" ++ ·)

end Headers
end Bindery
