import ProofGate.Failure.Cause
import ProofGate.Value.Shown

/-!
# The wording of failures

What callers are told of a failure, in one sentence that quotes the values at fault. An integer is
quoted in full: the limit on its decimal digits (`Literal.maxDigits`) is there for reading texts and
left out for writing them, so no failure is too long to be told.
-/

namespace ProofGate

def longNumberText (count : Nat) : Text :=
  "Exceeds the limit (4300 digits) for integer string conversion: value has "
    ++ Numeral.ofNat count ++ " digits; use sys.set_int_max_str_digits() to increase the limit"

def JsonFault.text : JsonFault → Text
  | valueDue => "Expecting value"
  | nameDue => "Expecting property name enclosed in double quotes"
  | colonDue => "Expecting ':' delimiter"
  | commaDue => "Expecting ',' delimiter"
  | openText => "Unterminated string starting at"
  | controlCharacter => "Invalid control character at"
  | badEscape => "Invalid \\escape"
  | badCodeEscape => "Invalid \\uXXXX escape"
  | extraData => "Extra data"
  | byteOrderMark => "Unexpected UTF-8 BOM (decode using utf-8-sig)"
  | longNumber count => longNumberText count

namespace Failure

/-- The hexadecimal form of an integer; another value has none and is quoted. -/
def hexOf (v : Value) : Text :=
  v.hex?.getD v.literal

/-- A literal cut to 200 characters. -/
def briefly (v : Value) : Text :=
  v.literal.take 200

/-- Quoted names in a sentence: `a`, `a and b`, `a, b, and c`. -/
def enumerated : List String → Text
  | [] => []
  | [a] => Text.quoted a
  | [a, b] => Text.quoted a ++ " and " ++ Text.quoted b
  | names =>
    Text.join ", " (names.dropLast.map fun (a : String) => Text.quoted a) ++ ", and "
      ++ Text.quoted (names.getLastD "")

/-- Where the points from `start` up to and without `stop` stand, if there are several. -/
def places (start stop : Nat) : Text :=
  Numeral.ofNat start ++ "-" ++ Numeral.ofNat (stop - 1)

/-- Which points a code of a name has no bytes for, and why. -/
def unencodableText (code : String) (first : Point) (start stop : Nat) (reason : String) : Text :=
  "'" ++ code ++ "' codec can't encode character" ++
    (if stop = start + 1 then
      " '" ++ Text.ofChars (Text.codeEscape first.code) ++ "' in position "
        ++ Numeral.ofNat start
    else "s in position " ++ places start stop) ++ ": " ++ reason

def hexFaultText : Hex.Fault → Text
  | .notDigit => "Non-hexadecimal digit found"
  | .notAscii first start stop =>
    unencodableText "ascii" first start stop "ordinal not in range(128)"

def nameFaultText : NameFault → Text
  | .zero => "embedded null byte"
  | .halves first start stop =>
    unencodableText "utf-8" first start stop "surrogates not allowed"

def utf8FaultText (f : Utf8.Fault) : Text :=
  let reason := match f.reason with
    | .start => "invalid start byte"
    | .continuation => "invalid continuation byte"
    | .ended => "unexpected end of data"
  "'utf-8' codec can't decode byte" ++
    (if f.stop = f.start + 1 then
      " 0x" ++ Text.ofChars (Numeral.padded 16 2 f.byte) ++ " in position "
        ++ Numeral.ofNat f.start
    else "s in position " ++ places f.start f.stop) ++ ": " ++ reason

/-- The text of details that nothing more is known of. -/
def detailsText : List Value → Text
  | [] => []
  | [v] => v.bare
  | vs => Value.grouped vs

/-- The text of a system failure: its number and reason, the file it is about, and the file that
this one was to become. -/
def systemText (details : List Value) : Text :=
  let about (number reason : Value) : Text :=
    "[Errno " ++ number.bare ++ "] " ++ reason.bare
  let file (v : Value) (lead : String) : Text :=
    match v with
    | .null => []
    | v => lead ++ v.literal
  match details with
  | [number, reason] => about number reason
  | [number, reason, source] => about number reason ++ file source ": "
  | [number, reason, source, _] => about number reason ++ file source ": "
  | [number, reason, .null, _, _] => about number reason
  | [number, reason, source, _, goal] =>
    about number reason ++ file source ": " ++ file goal " -> "
  | vs => detailsText vs

/-- The text of a failure from outside. Of a missing key it is the key as a literal. -/
def outsideText (kind : Kind) (details : List Value) : Text :=
  if kind.isA .system then systemText details
  else
    match kind, details with
    | .key, [v] => v.literal
    | _, vs => detailsText vs

/-- The words of a failure. -/
def text : Failure → Text
  | outside kind details => outsideText kind details
  | contract _ message data => Value.grouped [message, data]
  | detailCount kind count => kind.name ++ " does not take " ++ Numeral.ofNat count ++ " details"
  | writtenTooWide => "cannot fit 'int' into an index-sized integer"
  | layoutGap name offset expected =>
    "Layout gap or overlap at " ++ name ++ ": offset " ++ Numeral.ofInt offset ++ ", expected "
      ++ Numeral.ofInt expected
  | layoutEnd sum total =>
    "Layout length " ++ Numeral.ofInt sum ++ " != total_len " ++ Numeral.ofInt total
  | layoutSize ids expected total =>
    "Layout for L=" ++ Numeral.ofInt ids ++ " must be " ++ Numeral.ofInt expected
      ++ " bytes, got " ++ Numeral.ofInt total
  | layoutTotal total expected =>
    "Public inputs layout spans " ++ Numeral.ofInt total ++ " bytes, expected "
      ++ Numeral.ofNat expected
  | digitIndex name digits index =>
    name ++ " has " ++ Numeral.ofInt digits ++ " digits, got index " ++ index.bare
  | digitOutside offset size =>
    "Digit at offset " ++ offset.bare ++ " is outside the " ++ Numeral.ofNat size
      ++ "-byte public inputs"
  | elementOutside offset size =>
    "Element at offset " ++ offset.bare ++ " is outside the " ++ Numeral.ofNat size
      ++ "-byte public inputs"
  | byteOutside => "index out of range"
  | statementShort expected size =>
    "Public inputs need " ++ expected.bare ++ " bytes, got " ++ Numeral.ofNat size
  | statementSize expected size =>
    "Public inputs must be " ++ Numeral.ofInt expected ++ " bytes, got " ++ Numeral.ofNat size
  | idCount expected count =>
    "Expected " ++ Numeral.ofInt expected ++ " NFT ids, got " ++ Numeral.ofNat count
  | blockTooWide field => field.name ++ " does not fit in 32 bits"
  | idTooWide => "NFT ids must fit in 32 bits"
  | elementTooWide given => "Element value " ++ given.bare ++ " does not fit in 64 bits"
  | numberTooWide given => "Value " ++ given.bare ++ " does not fit in 256 bits"
  | hashTooWide => "int too big to convert"
  | spanSize name expected size =>
    name ++ " needs " ++ Numeral.ofInt expected ++ " bytes, got " ++ Numeral.ofNat size
  | badNumber name given => "Invalid " ++ name ++ ": " ++ given.literal
  | notWide name given => "Invalid " ++ name ++ ": " ++ given.literal ++ " is not a uint256"
  | notBlock name n => "Invalid " ++ name ++ ": " ++ Numeral.ofInt n ++ " is not a uint32"
  | notAddress name given =>
    "Invalid " ++ name ++ ": " ++ given.literal ++ " is not an address"
  | queryMemberMissing name => "Missing query field: " ++ name
  | statementMemberMissing name => "Missing public input field: " ++ name
  | argumentsMissing names =>
    "PublicInputs.__init__() missing " ++ Numeral.ofNat names.length
      ++ " required positional argument" ++ (if names.length = 1 then "" else "s") ++ ": "
      ++ enumerated names
  | argumentUnknown name =>
    "PublicInputs.__init__() got an unexpected keyword argument " ++ Text.quoted name
  | unsupportedTag given => "Unsupported query identifier: " ++ given.literal
  | addressNotHex given =>
    "when sending a str, it must be a hex string. Got: " ++ Text.quoted given
  | addressForm given normal =>
    "Unknown format " ++ given.literal ++ ", attempted to normalize to " ++ Text.quoted normal
  | addressKind given =>
    "Unsupported type: '<class '" ++ given.typeName
      ++ "'>'. Must be one of: bool, str, bytes, bytearray or int."
  | addressEmpty name => "Invalid " ++ name ++ ": address must be a non-empty string"
  | addressUnknown name given =>
    "Invalid " ++ name ++ ": " ++ given ++ " is not a valid Ethereum address"
  | wordRange index => "Word " ++ Numeral.ofNat index ++ " is not a uint256"
  | wordUnreadable index cause =>
    "Word " ++ Numeral.ofNat index ++ " is not valid hex: " ++ cause.text
  | wordSize index size =>
    "Word " ++ Numeral.ofNat index ++ " is " ++ Numeral.ofNat size ++ " bytes, expected 32"
  | bundleSize expected count =>
    "Bundle must have " ++ Numeral.ofNat expected ++ " words, got " ++ Numeral.ofNat count
  | proofSize expected count =>
    "Groth16 proof needs " ++ Numeral.ofNat expected ++ " elements, got " ++ Numeral.ofNat count
  | inputsSize expected count =>
    "Groth16 inputs need " ++ Numeral.ofNat expected ++ " elements, got " ++ Numeral.ofNat count
  | badElement given => "Invalid field element: " ++ given.literal
  | bundleMemberMissing name => "Missing bundle field: " ++ name
  | hexText fault => hexFaultText fault
  | negativeBytes n => "Cannot convert negative integer " ++ Numeral.ofInt n ++ " to bytes"
  | notLooseBytes given =>
    "Cannot convert " ++ given.literal ++ " of type <class '" ++ given.typeName ++ "'> to bytes"
  | notBytes (.text _) => "string argument without an encoding"
  | notBytes given => "cannot convert '" ++ given.typeName ++ "' object to bytes"
  | byteRange one => (if one then "byte" else "bytes") ++ " must be in range(0, 256)"
  | byteIndex => "bytearray index out of range"
  | negativeCount => "negative count"
  | indexTooWide => "cannot fit 'int' into an index-sized integer"
  | countTooWide => "cannot fit 'int' into an index-sized integer"
  | noMemory => []
  | noElements given => "'" ++ given.typeName ++ "' object is not iterable"
  | noLength given => "object of type '" ++ given.typeName ++ "' has no len()"
  | noNames given => "argument of type '" ++ given.typeName ++ "' is not iterable"
  | noMembers (.list _) => "list indices must be integers or slices, not str"
  | noMembers (.text _) => "string indices must be integers, not 'str'"
  | noMembers (.bytes _) => "byte indices must be integers or slices, not str"
  | noMembers given => "'" ++ given.typeName ++ "' object is not subscriptable"
  | noOperation given name =>
    "'" ++ given.typeName ++ "' object has no attribute " ++ Text.quoted name
  | notKey given => "unhashable type: '" ++ given.typeName ++ "'"
  | notInteger given =>
    "'" ++ given.typeName ++ "' object cannot be interpreted as an integer"
  | notNumber given =>
    "int() argument must be a string, a bytes-like object or a real number, not '"
      ++ given.typeName ++ "'"
  | notCompared sign left right =>
    "'" ++ sign ++ "' not supported between instances of '" ++ left.typeName ++ "' and '"
      ++ right.typeName ++ "'"
  | notShiftable given => "unsupported operand type(s) for >>: '" ++ given.typeName ++ "' and 'int'"
  | notDecimal (.text _) => "Unknown format code 'f' for object of type 'str'"
  | notDecimal given => "unsupported format string passed to " ++ given.typeName ++ ".__format__"
  | notJoined index given =>
    "sequence item " ++ Numeral.ofNat index ++ ": expected str instance, " ++ given.typeName
      ++ " found"
  | notShowable given =>
    "unable to render " ++ given.typeName ++ "; a string or other renderable object is required"
  | notText given => "expected str, bytes or os.PathLike object, not " ++ given.typeName
  | badLiteral base given =>
    "invalid literal for int() with base " ++ (match base with | .decimal => "10" | .detected => "0")
      ++ ": " ++ briefly given
  | longLiteral count => longNumberText count
  | infiniteNumber => "cannot convert float infinity to integer"
  | undefinedNumber => "cannot convert float NaN to integer"
  | pairForm index =>
    "cannot convert dictionary update sequence element #" ++ Numeral.ofNat index
      ++ " to a sequence"
  | pairSize index size =>
    "dictionary update sequence element #" ++ Numeral.ofNat index ++ " has length "
      ++ Numeral.ofNat size ++ "; 2 is required"
  | notWritable given => "Object of type " ++ given.typeName ++ " is not JSON serializable"
  | inputIndex => "list index out of range"
  | circuitMismatch expected actual =>
    "Circuit digest mismatch: expected " ++ hexOf expected ++ ", got " ++ hexOf actual
  | digestMismatch claimed computed =>
    "Public inputs digest mismatch: proof commits to " ++ hexOf claimed ++ ", bytes hash to "
      ++ hexOf computed
  | fieldMismatch field expected actual =>
    ((field.map Checked.name).getD "field") ++ " mismatch: query has " ++ expected.literal
      ++ ", proof has " ++ actual.literal
  | inputOutsideField index =>
    "Groth16 input " ++ Numeral.ofNat index ++ " is not in the scalar field"
  | inputRefused => "Verifier rejected a public input as out of field"
  | proofRefused => "Verifier rejected the proof"
  | proofReverted cause => "Verifier reverted: " ++ cause.text
  | verifierUnreachable chain cause =>
    "Verifier call failed on chain " ++ chain.bare ++ ": " ++ cause.text
  | noAttempt => "Unexpected state: no exception but all attempts exhausted"
  | delayTooLong => "int too large to convert to float"
  | notKinds => "catching classes that do not inherit from BaseException is not allowed"
  | wrongSelector given => "Calldata selector " ++ Hex.marked given ++ " is not processQuery"
  | undecodable cause => "Undecodable processQuery calldata: " ++ cause.text
  | shortData wanted size =>
    "Tried to read " ++ Numeral.ofNat wanted ++ " bytes, only got " ++ Numeral.ofNat size
      ++ " bytes."
  | badPointer location =>
    "Invalid pointer in tuple at location " ++ Numeral.ofNat location ++ " in payload"
  | dirtyPadding padding => "Padding bytes were not empty: " ++ Text.quotedBytes padding
  | outOfBounds => "Cannot be encoded in that many bits"
  | notEncodable => "Cannot be encoded as that type"
  | chainUnknown chain => "Chain ID " ++ Numeral.ofInt chain ++ " not supported"
  | endpointUnset chain => "RPC URL not set for chain " ++ Numeral.ofInt chain
  | verifierUnset chain => "Verifier address not set for chain " ++ chain.bare
  | digestUnset => "Circuit digest not set (LPN_CIRCUIT_DIGEST)"
  | badDigest given cause =>
    "Invalid circuit digest " ++ given.literal ++ ": " ++ cause.text
  | badChain given known =>
    "Invalid chain_id: " ++ given.bare ++ ". Must be one of \x7b"
      ++ Text.join ", " (known.map fun n => Numeral.ofInt n) ++ "\x7d"
  | badTag given =>
    "Invalid identifier: " ++ given.bare ++ ". Must be one of "
      ++ (Value.object [("nft", .int 67), ("erc20", .int 88)]).literal
  | badSeverity given => given.literal ++ " is not a valid ErrorSeverity"
  | levelUnknown given => "Unknown level: " ++ Text.quoted given
  | levelForm given => "Level not an integer or a valid string: " ++ given.literal
  | failedReport messages => Text.join "; " messages
  | outsideResources folder file =>
    "Invalid resource path outside <resources>: " ++ folder ++ "/" ++ file
  | resourceMissing path => "ABI file not found: " ++ path
  | badName fault => nameFaultText fault
  | fileMissing path => "[Errno 2] No such file or directory: " ++ Text.quoted path
  | fileExists path => "[Errno 17] File exists: " ++ Text.quoted path
  | isDirectory path => "[Errno 21] Is a directory: " ++ Text.quoted path
  | notDirectory path => "[Errno 20] Not a directory: " ++ Text.quoted path
  | nameTooLong path => "[Errno 36] File name too long: " ++ Text.quoted path
  | badJson fault line column offset =>
    fault.text ++ ": line " ++ Numeral.ofNat line ++ " column " ++ Numeral.ofNat column
      ++ " (char " ++ Numeral.ofNat offset ++ ")"
  | badUtf8 fault => utf8FaultText fault
  | calldataMissing path => "No calldata field in " ++ path

/-- What a failure says of itself: its words, or the one detail it was made of. -/
def message : Failure → Value
  | outside _ [v] => v
  | contract _ message _ => message
  | f => .text f.text

end Failure

end ProofGate
