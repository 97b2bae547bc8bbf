/-
# Names of generated things

The names of the files and symbols that belong to an artifact or to a class. The hash of a call
names its entry point; every other symbol is the hash with an ending.
-/

namespace Bindery
namespace Source

/-- The header that every generated source includes first. -/
def preludeFile : String := "bind_abi.hpp"

/-- The stem of the enumeration table. -/
def enumStem : String := "_kernel_enums"

/-- The symbol that counts the rows of the enumeration table. -/
def enumCount : String := "_kernel_enums_count"

/-- The symbol that gives the rows of the enumeration table. -/
def enumRows : String := "_kernel_enums_entries"

/-- The symbol that describes what a call returns. -/
def probeSymbol (hash : String) : String := hash ++ "_probe"

/-- The symbol that gives an object back. -/
def dropSymbol (hash : String) : String := hash ++ "_drop"

/-- The symbol that reads a field. -/
def getSymbol (hash : String) : String := hash ++ "_get"

/-- The symbol that writes a field. -/
def setSymbol (hash : String) : String := hash ++ "_set"

/-- The symbol that spells a class. -/
def cppTypeSymbol (hash : String) : String := hash ++ "_cpp_type"

/-- The file name of the library with a stem. -/
def artifactFile (stem : String) : String := stem ++ ".so"

/-- The file name of the source with a stem. -/
def sourceFile (stem : String) : String := stem ++ ".cpp"

/-- The accessor template of a class. -/
def accessorName (class_ : String) : String := "bind_class_" ++ class_

/-- The header that holds the accessor template of a class. -/
def accessorHeader (class_ : String) : String := class_ ++ ".hpp"

end Source
end Bindery
