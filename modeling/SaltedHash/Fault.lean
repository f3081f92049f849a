import SaltedHash.Datum.Kind
import SaltedHash.Text.Quoted

/-!
# Faults

Why an operation refuses its input. Each constructor is a cause; the wording is in `message`
alone, and the class of a cause in `family`.
-/

namespace SaltedHash

inductive InputFault where
  | noData (length : Text)
  | unencoded
  | notOctets (kind : Kind)
  /-- A window whose octets do not stand one after another. -/
  | gapped
  /-- A grid without octets. -/
  | emptyGrid
  | negativeLength (length : Text)
  | excessLength (length : Text) (available : Nat)
  | overCeiling
  | plaintextKind (kind : Kind)
  /-- A plaintext that has no UTF-8 octets. -/
  | plaintextSurrogate
  deriving DecidableEq, Repr

/-- The most octets that one hash takes. -/
def maxMessageOctets : Nat := 4294967295

def InputFault.message : InputFault → Text
  | noData length => "No data supplied for a length of " ++ length ++ " bytes"
  | unencoded => "Data must be bytes-like, not str"
  | notOctets kind =>
    s!"Data must be bytes-like: memoryview: a bytes-like object is required, not '{kind.name}'"
  | gapped => "Data must be bytes-like: memoryview: casts are restricted to C-contiguous views"
  | emptyGrid =>
    "Data must be bytes-like: memoryview: cannot cast view with zeros in shape or strides"
  | negativeLength length => "Length must be non-negative, got " ++ length
  | excessLength length available =>
    "Length " ++ length ++ s!" exceeds the {available} bytes supplied"
  | overCeiling => s!"Input exceeds the {maxMessageOctets} byte limit of one hash"
  | plaintextKind kind => s!"Plaintext must be str or bytes-like, not {kind.name}"
  | plaintextSurrogate => "Plaintext is not valid UTF-8 text: surrogates not allowed"

/-- The classes of faults. An input fault is also a value fault to whoever catches those. -/
inductive Fault.Family where
  | input | value | type | attribute | overflow | frozen | index | memory | encoding
  | unimplemented | raised
  deriving DecidableEq, Repr

inductive Fault where
  | input (cause : InputFault)
  /-- A window that is given back, where its octets are wanted. -/
  | released
  /-- An integer of too many digits, where its text is wanted. -/
  | tooManyDigits
  /-- A value without items where a size is wanted. -/
  | noLength (kind : Kind)
  | notOrdered (relation : String) (left right : Kind)
  | notACut
  /-- An integer added to a number with a point that it is too large to become. -/
  | integerTooLarge
  | infinity
  | notANumber
  | notAnInteger (kind : Kind)
  | notIterable (kind : Kind)
  /-- A row of a grid, where an item is wanted. -/
  | rowOfGrid
  | noDimension
  | noFormat (kind : Kind)
  | formatCode (kind : Kind)
  | joinedByOctets (kind : Kind)
  | fixedItems (kind : Kind)
  | readOnly
  | itemLayout
  | textAsOctets
  /-- An item outside 0 to 255. -/
  | octetRange
  | negativeCount
  | octetItem
  | wordItem
  | wordKind
  | indexKind (holder index : Kind)
  | indexRange (kind : Kind)
  | fixedSize (kind : Kind)
  | raised (text : Text)
  | seedKind (kind : Kind)
  | hexKind (kind : Kind)
  | hexDigit (position : Nat)
  | fieldCount
  | saltSize (size : Nat)
  | digestSize (size : Nat)
  | recordSize (size : Nat)
  | negativeSalt (length : Text)
  | noMember (kind : Kind) (member : String)
  | unseeded (source : String)
  | countTooBig
  | countNegative
  | sizeTooBig
  | sizeKind (kind : Kind)
  | bufferTooBig
  | outOfMemory
  | frozenField (field : Text)
  | unknownLevel (name : Text)
  /-- A file name that has no octets, from a place on where these surrogates stand. -/
  | unencodable (place : Nat) (surrogates : Text)
  | nullInName
  /-- A message that another implementation of the hash does not take. -/
  | notABuffer (kind : Kind)
  deriving DecidableEq, Repr

namespace Fault

def message : Fault → Text
  | input cause => cause.message
  | released => "operation forbidden on released memoryview object"
  | tooManyDigits =>
    "Exceeds the limit (4300 digits) for integer string conversion; " ++
      "use sys.set_int_max_str_digits() to increase the limit"
  | noLength kind => s!"object of type '{kind.name}' has no len()"
  | notOrdered relation left right =>
    s!"'{relation}' not supported between instances of '{left.name}' and '{right.name}'"
  | integerTooLarge => "int too large to convert to float"
  | infinity => "cannot convert float infinity to integer"
  | notANumber => "cannot convert float NaN to integer"
  | notACut => "slice indices must be integers or None or have an __index__ method"
  | notAnInteger kind => s!"'{kind.name}' object cannot be interpreted as an integer"
  | notIterable kind => s!"'{kind.name}' object is not iterable"
  | rowOfGrid => "multi-dimensional sub-views are not implemented"
  | noDimension => "invalid indexing of 0-dim memory"
  | noFormat kind => s!"unsupported format string passed to {kind.name}.__format__"
  | formatCode kind => s!"Unknown format code 'X' for object of type '{kind.name}'"
  | joinedByOctets _ => "sequence item 0: expected a bytes-like object, str found"
  | fixedItems kind => s!"'{kind.name}' object does not support item assignment"
  | readOnly => "cannot modify read-only memory"
  | itemLayout => "memoryview assignment: lvalue and rvalue have different structures"
  | textAsOctets => "string argument without an encoding"
  | octetRange => "bytes must be in range(0, 256)"
  | negativeCount => "negative count"
  | octetItem => "byte must be in range(0, 256)"
  | wordItem => "memoryview: invalid value for format 'H'"
  | wordKind => "memoryview: invalid type for format 'H'"
  | indexKind holder index =>
    match holder with
    | .window => "memoryview: invalid slice key"
    | holder => s!"{holder.name} indices must be integers or slices, not {index.name}"
  | indexRange kind =>
    match kind with
    | .window => "index out of bounds on dimension 1"
    | .list => "list assignment index out of range"
    | kind => s!"{kind.name} index out of range"
  | fixedSize kind =>
    match kind with
    | .window => "cannot delete memory"
    | kind => s!"'{kind.name}' object doesn't support item deletion"
  | raised text => text
  | seedKind kind => s!"unsupported operand type(s) for &: '{kind.name}' and 'int'"
  | hexKind kind =>
    match kind with
    | .nothing => "fromhex() argument must be str, not None"
    | kind => s!"fromhex() argument must be str, not {kind.name}"
  | hexDigit position => s!"non-hexadecimal number found in fromhex() arg at position {position}"
  | fieldCount => "Expected salt and digest separated by whitespace"
  | saltSize size => s!"Salt must be 8 bytes, got {size}"
  | digestSize size => s!"Digest must be 20 bytes, got {size}"
  | recordSize size => s!"Record must be 28 bytes, got {size}"
  | negativeSalt length => "Salt length must be non-negative, got " ++ length
  | noMember kind member => s!"'{kind.name}' object has no attribute '{member}'"
  | unseeded source => s!"'{source}' object has no attribute 'seed'"
  | countTooBig => "int too big to convert"
  | countNegative => "can't convert negative int to unsigned"
  | sizeTooBig => "cannot fit 'int' into an index-sized integer"
  | sizeKind kind => s!"argument should be integer or None, not '{kind.name}'"
  | bufferTooBig => "byte string is too large"
  | outOfMemory => []
  | frozenField field => "cannot assign to field " ++ Text.quoted field
  | unknownLevel name => "Unknown level: " ++ Text.quoted name
  | unencodable place surrogates =>
    match surrogates with
    | [c] =>
      "'utf-8' codec can't encode character '" ++ (Text.escape c).map CodePoint.ofChar ++
        s!"' in position {place}: surrogates not allowed"
    | surrogates =>
      let last := place + surrogates.length - 1
      s!"'utf-8' codec can't encode characters in position {place}-{last}: " ++
        "surrogates not allowed"
  | nullInName => "embedded null byte"
  | notABuffer kind => s!"Cannot convert \"<class '{kind.name}'>\" instance to a buffer."

def family : Fault → Family
  | input _ => .input
  | rowOfGrid => .unimplemented
  | released | tooManyDigits | notANumber
  | formatCode _ | itemLayout | octetRange | negativeCount | octetItem | wordItem | hexDigit _
  | fieldCount | saltSize _ | digestSize _ | recordSize _ | negativeSalt _ | unknownLevel _
  | nullInName => .value
  | noLength _ | notOrdered _ _ _ | notACut | notAnInteger _ | notIterable _ | noDimension
  | noFormat _
  | joinedByOctets _ | fixedItems _ | fixedSize _ | readOnly | textAsOctets | wordKind
  | indexKind _ _ | seedKind _ | hexKind _ | sizeKind _ | notABuffer _ => .type
  | noMember _ _ | unseeded _ => .attribute
  | countTooBig | countNegative | sizeTooBig | bufferTooBig | integerTooLarge | infinity =>
    .overflow
  | outOfMemory => .memory
  | unencodable _ _ => .encoding
  | frozenField _ => .frozen
  | indexRange _ => .index
  | raised _ => .raised

end Fault

end SaltedHash
