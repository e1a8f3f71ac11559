import ProofGate.Failure.Wording

/-!
# Failures

A failure has a cause and a wording; `kind` sorts the causes into families.
-/

namespace ProofGate

namespace Failure

def kind : Failure → Kind
  | outside k _ => k
  | contract k _ _ => k
  | detailCount .. => .type
  | writtenTooWide => .value
  | layoutGap .. => .value
  | layoutEnd .. => .value
  | layoutSize .. => .value
  | layoutTotal .. => .value
  | digitIndex .. => .index
  | digitOutside .. => .malformedBundle
  | elementOutside .. => .malformedBundle
  | byteOutside => .index
  | statementShort .. => .malformedBundle
  | statementSize .. => .malformedBundle
  | idCount .. => .value
  | blockTooWide _ => .value
  | idTooWide => .value
  | elementTooWide _ => .value
  | numberTooWide _ => .value
  | hashTooWide => .overflow
  | spanSize .. => .value
  | badNumber .. => .value
  | notWide .. => .value
  | notBlock .. => .value
  | notAddress .. => .value
  | queryMemberMissing _ => .value
  | statementMemberMissing _ => .value
  | argumentsMissing _ => .type
  | argumentUnknown _ => .type
  | unsupportedTag _ => .unsupportedTag
  | addressNotHex _ => .value
  | addressForm .. => .value
  | addressKind _ => .type
  | addressEmpty _ => .value
  | addressUnknown .. => .value
  | wordRange _ => .malformedBundle
  | wordUnreadable .. => .malformedBundle
  | wordSize .. => .malformedBundle
  | bundleSize .. => .malformedBundle
  | proofSize .. => .malformedBundle
  | inputsSize .. => .malformedBundle
  | badElement _ => .malformedBundle
  | bundleMemberMissing _ => .malformedBundle
  | hexText (.notAscii ..) => .unencodable
  | hexText .notDigit => .hexDigit
  | negativeBytes _ => .value
  | notLooseBytes _ => .type
  | notBytes _ => .type
  | byteRange _ => .value
  | byteIndex => .index
  | negativeCount => .value
  | indexTooWide => .index
  | countTooWide => .overflow
  | noMemory => .memory
  | noElements _ => .type
  | noLength _ => .type
  | noNames _ => .type
  | noMembers _ => .type
  | noOperation .. => .member
  | notKey _ => .type
  | notInteger _ => .type
  | notNumber _ => .type
  | notCompared .. => .type
  | notShiftable _ => .type
  | notDecimal (.text _) => .value
  | notDecimal _ => .type
  | notText _ => .type
  | notJoined .. => .type
  | notShowable _ => .notRenderable
  | badLiteral .. => .value
  | longLiteral _ => .value
  | infiniteNumber => .overflow
  | undefinedNumber => .value
  | pairForm _ => .type
  | pairSize .. => .value
  | notWritable _ => .type
  | inputIndex => .index
  | circuitMismatch .. => .circuitMismatch
  | digestMismatch .. => .digestMismatch
  | fieldMismatch none .. => .fieldMismatch
  | fieldMismatch (some f) .. => .mismatch f
  | inputOutsideField _ => .inputOutsideField
  | inputRefused => .inputOutsideField
  | proofRefused => .proofInvalid
  | proofReverted _ => .proofInvalid
  | verifierUnreachable .. => .transport
  | noAttempt => .runtime
  | delayTooLong => .overflow
  | notKinds => .type
  | wrongSelector _ => .malformedBundle
  | undecodable _ => .malformedBundle
  | shortData .. => .shortData
  | badPointer _ => .badPointer
  | dirtyPadding _ => .dirtyPadding
  | outOfBounds => .outOfBounds
  | notEncodable => .notEncodable
  | chainUnknown _ => .configuration
  | endpointUnset _ => .configuration
  | verifierUnset _ => .configuration
  | digestUnset => .configuration
  | badDigest .. => .configuration
  | badChain .. => .value
  | badTag _ => .value
  | badSeverity _ => .value
  | levelUnknown _ => .value
  | levelForm _ => .type
  | failedReport _ => .runtime
  | outsideResources .. => .value
  | resourceMissing _ => .configuration
  | badName .zero => .value
  | badName (.halves ..) => .unencodable
  | fileMissing _ => .fileMissing
  | fileExists _ => .fileExists
  | isDirectory _ => .isDirectory
  | notDirectory _ => .notDirectory
  | nameTooLong _ => .system
  | badJson .. => .json
  | badUtf8 _ => .undecodable
  | calldataMissing _ => .value

def isA (f : Failure) (k : Kind) : Bool :=
  f.kind.isA k

end Failure

end ProofGate
