import ProofGate.Failure.Kind
import ProofGate.Number.Literal
import ProofGate.Text.Hex
import ProofGate.Text.Utf8
import ProofGate.Value

/-!
# Causes of failure

Every way in which reading, checking, calling or writing can end early. A failure that arose
outside the library is known by its kind and details alone.
-/

namespace ProofGate

/-- Why a text is not a JSON document. -/
inductive JsonFault where
  | valueDue
  | nameDue
  | colonDue
  | commaDue
  | openText
  | controlCharacter
  | badEscape
  | badCodeEscape
  | extraData
  | byteOrderMark
  | longNumber (count : Nat)
deriving Repr, DecidableEq

/-- Why a text cannot name a file: it holds the zero character, or from `start` up to and
without `stop` halves that stand for no byte, of which `first` is the first. -/
inductive NameFault where
  | zero
  | halves (first : Point) (start stop : Nat)
deriving Repr, DecidableEq

inductive Failure where
  -- from outside
  | outside (kind : Kind) (details : List Value)
  | contract (kind : Kind) (message data : Value)
  | detailCount (kind : Kind) (count : Nat)
  | writtenTooWide
  -- layouts
  | layoutGap (name : Text) (offset expected : Int)
  | layoutEnd (sum total : Int)
  | layoutSize (ids expected total : Int)
  | layoutTotal (total : Int) (expected : Nat)
  | digitIndex (name : Text) (digits : Int) (index : Value)
  -- statement bytes
  | digitOutside (offset : Value) (size : Nat)
  | elementOutside (offset : Value) (size : Nat)
  | byteOutside
  | statementShort (expected : Value) (size : Nat)
  | statementSize (expected : Int) (size : Nat)
  | idCount (expected : Int) (count : Nat)
  | blockTooWide (field : Checked)
  | idTooWide
  | elementTooWide (given : Value)
  | numberTooWide (given : Value)
  | hashTooWide
  | spanSize (name : Text) (expected : Int) (size : Nat)
  -- members of queries and statements
  | badNumber (name : String) (given : Value)
  | notWide (name : String) (given : Value)
  | notBlock (name : String) (n : Int)
  | notAddress (name : String) (given : Value)
  | queryMemberMissing (name : String)
  | statementMemberMissing (name : String)
  | argumentsMissing (names : List String)
  | argumentUnknown (name : Text)
  | unsupportedTag (given : Value)
  -- addresses
  | addressNotHex (given : Text)
  | addressForm (given : Value) (normal : Text)
  | addressKind (given : Value)
  | addressEmpty (name : Text)
  | addressUnknown (name given : Text)
  -- words and bundles
  | wordRange (index : Nat)
  | wordUnreadable (index : Nat) (cause : Failure)
  | wordSize (index size : Nat)
  | bundleSize (expected count : Nat)
  | proofSize (expected count : Nat)
  | inputsSize (expected count : Nat)
  | badElement (given : Value)
  | bundleMemberMissing (name : String)
  | hexText (fault : Hex.Fault)
  | negativeBytes (n : Int)
  | notLooseBytes (given : Value)
  | notBytes (given : Value)
  | byteRange (one : Bool)
  | byteIndex
  | negativeCount
  | indexTooWide
  | countTooWide
  | noMemory
  -- use of a value as something it is not
  | noElements (given : Value)
  | noLength (given : Value)
  | noNames (given : Value)
  | noMembers (given : Value)
  | noOperation (given : Value) (name : String)
  | notKey (given : Value)
  | notInteger (given : Value)
  | notNumber (given : Value)
  | notCompared (sign : String) (left right : Value)
  | notShiftable (given : Value)
  | notDecimal (given : Value)
  | notText (given : Value)
  | notJoined (index : Nat) (given : Value)
  | notShowable (given : Value)
  | badLiteral (base : Literal.Base) (given : Value)
  | longLiteral (count : Nat)
  | infiniteNumber
  | undefinedNumber
  | pairForm (index : Nat)
  | pairSize (index size : Nat)
  | notWritable (given : Value)
  -- gates
  | inputIndex
  | circuitMismatch (expected actual : Value)
  | digestMismatch (claimed computed : Value)
  | fieldMismatch (field : Option Checked) (expected actual : Value)
  | inputOutsideField (index : Nat)
  | inputRefused
  | proofRefused
  | proofReverted (cause : Failure)
  | verifierUnreachable (chain : Value) (cause : Failure)
  -- repetition
  | noAttempt
  | delayTooLong
  | notKinds
  -- call data
  | wrongSelector (given : Bytes)
  | undecodable (cause : Failure)
  | shortData (wanted size : Nat)
  | badPointer (location : Nat)
  | dirtyPadding (padding : Bytes)
  | outOfBounds
  | notEncodable
  -- settings
  | chainUnknown (chain : Int)
  | endpointUnset (chain : Int)
  | verifierUnset (chain : Value)
  | digestUnset
  | badDigest (given : Value) (cause : Failure)
  | badChain (given : Value) (known : List Int)
  | badTag (given : Value)
  | badSeverity (given : Value)
  | levelUnknown (given : Text)
  | levelForm (given : Value)
  -- reports
  | failedReport (messages : List Text)
  -- resources and files
  | outsideResources (folder file : Text)
  | resourceMissing (path : Text)
  | badName (fault : NameFault)
  | fileMissing (path : Text)
  | fileExists (path : Text)
  | isDirectory (path : Text)
  | notDirectory (path : Text)
  | nameTooLong (path : Text)
  | badJson (fault : JsonFault) (line column offset : Nat)
  | badUtf8 (fault : Utf8.Fault)
  | calldataMissing (path : Text)
deriving Repr

end ProofGate
