/-!
# Kinds of values

The sorts of value a caller may hand to an operation, and the word by which a message calls
each of them.
-/

namespace SaltedHash

inductive Kind where
  | nothing | flag | integer | real | text | list | octets | buffer | window | mapping
  deriving DecidableEq, Repr, Inhabited

namespace Kind

def name : Kind → String
  | nothing => "NoneType"
  | flag => "bool"
  | integer => "int"
  | real => "float"
  | text => "str"
  | list => "list"
  | octets => "bytes"
  | buffer => "bytearray"
  | window => "memoryview"
  | mapping => "dict"

end Kind

end SaltedHash
