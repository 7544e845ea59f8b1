/-!
# Predefined types

The types of the namespace `System` that are written with a keyword.
-/
namespace QuickInfo.Predefined

def keywords : List (String × String) :=
  [("Object", "object"), ("Boolean", "bool"), ("Char", "char"), ("SByte", "sbyte"),
   ("Byte", "byte"), ("Int16", "short"), ("UInt16", "ushort"), ("Int32", "int"),
   ("UInt32", "uint"), ("Int64", "long"), ("UInt64", "ulong"), ("Single", "float"),
   ("Double", "double"), ("Decimal", "decimal"), ("String", "string"), ("Void", "void")]

/-- The keyword of a type that is not generic and not nested. -/
def keyword? (ns name : String) : Option String :=
  if ns = "System" then keywords.lookup name else none

end QuickInfo.Predefined
