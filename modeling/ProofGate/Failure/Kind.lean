import ProofGate.Text

/-!
# Kinds of failure

Failures fall into families: those that a repetition may cure, those that it cannot (rejections
of a proof and faults of configuration), and the plain kinds that reading values, files, call
data and contracts brings up. `family` lists a kind and the wider ones it belongs to, nearest
first.
-/

namespace ProofGate

/-- The checked members of a query, in the order of their checks. -/
inductive Checked where
  | minBlock
  | maxBlock
  | contract
  | user
  | blockHash
  | rewardsRate
  | identifier
deriving Repr, DecidableEq

def Checked.name : Checked → String
  | minBlock => "min_block_number"
  | maxBlock => "max_block_number"
  | contract => "contract_address"
  | user => "user_address"
  | blockHash => "block_hash"
  | rewardsRate => "rewards_rate"
  | identifier => "identifier"

inductive Kind where
  -- families of the gate
  | transient
  | permanent
  | configuration
  | transport
  | rejection
  | malformedBundle
  | primitive
  | proofInvalid
  | inputOutsideField
  | circuitMismatch
  | digestMismatch
  | fieldMismatch
  | mismatch (field : Checked)
  | unsupportedTag
  -- plain values
  | value
  | index
  | runtime
  | key
  | type
  | overflow
  | memory
  | member
  | hexDigit
  | unencodable
  | undecodable
  | json
  -- system
  | system
  | connection
  | timeout
  | fileMissing
  | fileExists
  | isDirectory
  | notDirectory
  | permission
  | blocking
  | interrupted
  | childProcess
  | processLookup
  | brokenPipe
  | connectionAborted
  | connectionRefused
  | connectionReset
  -- call data
  | shortData
  | badPointer
  | dirtyPadding
  | outOfBounds
  | notEncodable
  -- contract
  | reverted
  | customRevert
  | panicked
  -- tables
  | notRenderable
deriving Repr, DecidableEq

namespace Kind

/-- The name that logs and reports give a kind. -/
def name : Kind → String
  | transient => "RetryableException"
  | permanent => "NonRetryableException"
  | configuration => "ConfigurationException"
  | transport => "VerifierRpcException"
  | rejection => "QueryVerificationException"
  | malformedBundle => "MalformedBundle"
  | primitive => "ProofPrimitiveException"
  | proofInvalid => "ProofInvalid"
  | inputOutsideField => "PublicInputNotInField"
  | circuitMismatch => "CircuitBindingMismatch"
  | digestMismatch => "DigestBindingMismatch"
  | fieldMismatch => "FieldMismatch"
  | mismatch .minBlock => "MinBlockNumberMismatch"
  | mismatch .maxBlock => "MaxBlockNumberMismatch"
  | mismatch .contract => "ContractAddressMismatch"
  | mismatch .user => "UserAddressMismatch"
  | mismatch .blockHash => "BlockHashMismatch"
  | mismatch .rewardsRate => "RewardsRateMismatch"
  | mismatch .identifier => "IdentifierMismatch"
  | unsupportedTag => "UnsupportedIdentifier"
  | value => "ValueError"
  | index => "IndexError"
  | runtime => "RuntimeError"
  | key => "KeyError"
  | type => "TypeError"
  | overflow => "OverflowError"
  | memory => "MemoryError"
  | member => "AttributeError"
  | hexDigit => "binascii.Error"
  | unencodable => "UnicodeEncodeError"
  | undecodable => "UnicodeDecodeError"
  | json => "JSONDecodeError"
  | system => "OSError"
  | connection => "ConnectionError"
  | timeout => "TimeoutError"
  | fileMissing => "FileNotFoundError"
  | fileExists => "FileExistsError"
  | isDirectory => "IsADirectoryError"
  | notDirectory => "NotADirectoryError"
  | permission => "PermissionError"
  | blocking => "BlockingIOError"
  | interrupted => "InterruptedError"
  | childProcess => "ChildProcessError"
  | processLookup => "ProcessLookupError"
  | brokenPipe => "BrokenPipeError"
  | connectionAborted => "ConnectionAbortedError"
  | connectionRefused => "ConnectionRefusedError"
  | connectionReset => "ConnectionResetError"
  | shortData => "InsufficientDataBytes"
  | badPointer => "InvalidPointer"
  | dirtyPadding => "NonEmptyPaddingBytes"
  | outOfBounds => "ValueOutOfBounds"
  | notEncodable => "EncodingTypeError"
  | reverted => "ContractLogicError"
  | customRevert => "ContractCustomError"
  | panicked => "ContractPanicError"
  | notRenderable => "NotRenderableError"

/-- The wider kind that a kind directly belongs to. -/
def parent? : Kind → Option Kind
  | configuration => some permanent
  | transport => some transient
  | rejection => some permanent
  | malformedBundle => some rejection
  | primitive => some rejection
  | proofInvalid => some primitive
  | inputOutsideField => some primitive
  | circuitMismatch => some rejection
  | digestMismatch => some rejection
  | fieldMismatch => some rejection
  | mismatch _ => some fieldMismatch
  | unsupportedTag => some rejection
  | hexDigit => some value
  | unencodable => some value
  | undecodable => some value
  | json => some value
  | connection => some system
  | timeout => some system
  | fileMissing => some system
  | fileExists => some system
  | isDirectory => some system
  | notDirectory => some system
  | permission => some system
  | blocking => some system
  | interrupted => some system
  | childProcess => some system
  | processLookup => some system
  | brokenPipe => some connection
  | connectionAborted => some connection
  | connectionRefused => some connection
  | connectionReset => some connection
  | customRevert => some reverted
  | panicked => some reverted
  | _ => none

/-- No chain of parents is longer than three. -/
def familyUpTo : Nat → Kind → List Kind
  | 0, k => [k]
  | n + 1, k =>
    match k.parent? with
    | none => [k]
    | some p => k :: familyUpTo n p

def family (k : Kind) : List Kind :=
  familyUpTo 3 k

def isA (k wider : Kind) : Bool :=
  k.family.contains wider

/-- The kinds that belong to the gate itself. -/
def isOwn (k : Kind) : Bool :=
  k.isA transient || k.isA permanent

def all : List Kind :=
  [transient, permanent, configuration, transport, rejection, malformedBundle, primitive,
    proofInvalid, inputOutsideField, circuitMismatch, digestMismatch, fieldMismatch,
    mismatch .minBlock, mismatch .maxBlock, mismatch .contract, mismatch .user,
    mismatch .blockHash, mismatch .rewardsRate, mismatch .identifier, unsupportedTag,
    value, index, runtime, key, type, overflow, memory, member, hexDigit, unencodable, undecodable,
    json, system, connection, timeout, fileMissing, fileExists, isDirectory, notDirectory,
    permission, blocking, interrupted, childProcess, processLookup, brokenPipe,
    connectionAborted, connectionRefused, connectionReset, shortData, badPointer, dirtyPadding,
    outOfBounds, notEncodable, reverted, customRevert, panicked, notRenderable]

def ofName? (s : Text) : Option Kind :=
  all.find? fun k => Text.ofString k.name == s

/-- The kinds of system failure that have error numbers of their own. -/
def numbered : List (Int × Kind) :=
  [(1, permission), (2, fileMissing), (3, processLookup), (4, interrupted), (10, childProcess),
    (11, blocking), (13, permission), (17, fileExists), (20, notDirectory), (21, isDirectory),
    (32, brokenPipe), (103, connectionAborted), (104, connectionReset), (108, brokenPipe),
    (110, timeout), (111, connectionRefused), (114, blocking), (115, blocking)]

end Kind

end ProofGate
