import Naalp.Foundation.Checks
import Naalp.Foundation.Bytes

/-! The exceptions of the Python implementation, and its `str` and `int` built-ins.
A `str` holds code points, so it may hold a lone surrogate that no UTF-8 text has.
-/

namespace Naalp.Python

open Naalp.Foundation

/-- The stable error kinds that the modelled modules raise. -/
inductive Kind where
  | nonCanonical
  | depthExceeded
  | malformed
  | contentIdMismatch
  | headerBodyMismatch
  | unsupportedVersion
  | unknownCriticalExt
  | unknownKind
  | rangeError
  | wrongAudience
  | tooLarge
  | tooManyCauses
  | tooManyExtensions
  | unknownAlg
  | keyAlgMismatch
  | profileDowngrade
  | suiteMismatch
  | compositeRefused
  | badSignature
  | rotationUnauthorized
  | hybridIncomplete
  | unencodable
  | effectNotAuthorized
  | approvalRequired
  | approvalMismatch
  | approvalExpired
  | alreadyConsumed
  | ledgerCorrupt
  | ledgerUnsigned
  | chainBroken
  | capExceedsParent
  | wrongFlow
  | seqGap
  | aboveCeiling
  | commitMismatch
  | contMalformed
  | grantExpired
  | grantNotYetValid
  | grantRevoked
  | untrustedChainRoot
  | delegationDepthExceeded
  | negMalformed
  | nameMalformed
  | nameChainBroken
  | unknownRole
  | unknownProfile
  | malformedCriticalFlag
  | unknownCriticalRisk
  | referenceMismatch
  | unknownPaymentFormat
  | gwMalformed
  | unknownGatewayDecision
  | unknownOrderingBasis
  | orderingDisclosureMalformed
  | foreignProfileMalformed
  | payMalformed
  | uiMalformed
  | stageOutOfOrder
  | taskStateError
  | inputGateBypass
  | effectDeclarationMismatch
  | unauthenticatedPrincipal
  | mappingError
  | legacyDisabled
  | legacyRefused
  | legacyMalformed
  | legacyEffectNotAuthorized
  | signerMismatch
  | descMalformed
  | nonNfc
  | receiptUnsigned
  | consumeReceiptUnsigned
  | causalViolation
  | reconcileMismatch
  | ledgerIo
  | inclusionProofInvalid
  | forkProofInvalid
  | consumeForkInvalid
  | gapDetected
  | roomOpMismatch
  | staleEpoch
  | unauthorized
  | roleInvalid
  | memberExists
  | ownerExists
  | memberUnknown
  | ownerImmutable
  | opUnknown
  | streamStateError
  | streamDigestMismatch
  | tooManyChunks
  | nameForkProofInvalid
  | illegalTransition
  | taskChainBroken
  | foreignCard
  | notOffer
  | notAccept
  | notDescended
  | uiChainBroken
  | unknownUIEventKind
  | actionSubstituted
  | uiNoConsent
  | freshnessSelfAsserted
  | refusalDetailLeak
  | unknownRefusalOutcome
  | annotationMalformed
  | toolCallMalformed
  | effectOutsideLattice
  | effectUnderDeclared
  | foreignToolNotJson
  | foreignBodyNotJson
  | foreignCallMalformed
  | toolNameMismatch
  | hazardNotCovered
  | hazardUnknown
  | decisionMalformed
  | termDispositionMalformed
  | egMalformed
  | unknownEgressBinding
  | hazardMalformed
  | principalExists
  | principalUnknown
  | rebindUnauthorized
  | audienceMismatch
  | approvalDenied
  | keyPinViolation
  | anchorRequired
  | circularAnchor
  | unresolvedAnchor
  | incompleteBundle
  | receiptApprovalMismatch
  | malformedSignatureInput
  | malformedReceipt
  | transformCycle
  | witnessRootMismatch
  deriving DecidableEq, Repr

/-- The kind string that an error carries. -/
def Kind.name : Kind → String
  | .nonCanonical => "NonCanonical"
  | .depthExceeded => "DepthExceeded"
  | .malformed => "Malformed"
  | .contentIdMismatch => "ContentIdMismatch"
  | .headerBodyMismatch => "HeaderBodyMismatch"
  | .unsupportedVersion => "UnsupportedVersion"
  | .unknownCriticalExt => "UnknownCriticalExt"
  | .unknownKind => "UnknownKind"
  | .rangeError => "RangeError"
  | .wrongAudience => "WrongAudience"
  | .tooLarge => "TooLarge"
  | .tooManyCauses => "TooManyCauses"
  | .tooManyExtensions => "TooManyExtensions"
  | .unknownAlg => "UnknownAlg"
  | .keyAlgMismatch => "KeyAlgMismatch"
  | .profileDowngrade => "ProfileDowngrade"
  | .suiteMismatch => "SuiteMismatch"
  | .compositeRefused => "CompositeRefused"
  | .badSignature => "BadSignature"
  | .rotationUnauthorized => "RotationUnauthorized"
  | .hybridIncomplete => "HybridIncomplete"
  | .unencodable => "Unencodable"
  | .effectNotAuthorized => "EffectNotAuthorized"
  | .approvalRequired => "ApprovalRequired"
  | .approvalMismatch => "ApprovalMismatch"
  | .approvalExpired => "ApprovalExpired"
  | .alreadyConsumed => "AlreadyConsumed"
  | .ledgerCorrupt => "LedgerCorrupt"
  | .ledgerUnsigned => "LedgerUnsigned"
  | .chainBroken => "ChainBroken"
  | .capExceedsParent => "CapExceedsParent"
  | .wrongFlow => "WrongFlow"
  | .seqGap => "SeqGap"
  | .aboveCeiling => "AboveCeiling"
  | .commitMismatch => "CommitMismatch"
  | .contMalformed => "ContMalformed"
  | .grantExpired => "GrantExpired"
  | .grantNotYetValid => "GrantNotYetValid"
  | .grantRevoked => "GrantRevoked"
  | .untrustedChainRoot => "UntrustedChainRoot"
  | .delegationDepthExceeded => "DelegationDepthExceeded"
  | .negMalformed => "NegMalformed"
  | .nameMalformed => "NameMalformed"
  | .nameChainBroken => "NameChainBroken"
  | .unknownRole => "UnknownRole"
  | .unknownProfile => "UnknownProfile"
  | .malformedCriticalFlag => "MalformedCriticalFlag"
  | .unknownCriticalRisk => "UnknownCriticalRisk"
  | .referenceMismatch => "ReferenceMismatch"
  | .unknownPaymentFormat => "UnknownPaymentFormat"
  | .gwMalformed => "GwMalformed"
  | .unknownGatewayDecision => "UnknownGatewayDecision"
  | .unknownOrderingBasis => "UnknownOrderingBasis"
  | .orderingDisclosureMalformed => "OrderingDisclosureMalformed"
  | .foreignProfileMalformed => "ForeignProfileMalformed"
  | .payMalformed => "PayMalformed"
  | .uiMalformed => "UIMalformed"
  | .stageOutOfOrder => "StageOutOfOrder"
  | .taskStateError => "TaskStateError"
  | .inputGateBypass => "InputGateBypass"
  | .effectDeclarationMismatch => "EffectDeclarationMismatch"
  | .unauthenticatedPrincipal => "UnauthenticatedPrincipal"
  | .mappingError => "MappingError"
  | .legacyDisabled => "LegacyDisabled"
  | .legacyRefused => "LegacyRefused"
  | .legacyMalformed => "LegacyMalformed"
  | .legacyEffectNotAuthorized => "LegacyEffectNotAuthorized"
  | .signerMismatch => "SignerMismatch"
  | .descMalformed => "DescMalformed"
  | .nonNfc => "NonNFC"
  | .receiptUnsigned => "ReceiptUnsigned"
  | .consumeReceiptUnsigned => "ConsumeReceiptUnsigned"
  | .causalViolation => "CausalViolation"
  | .reconcileMismatch => "ReconcileMismatch"
  | .ledgerIo => "LedgerIo"
  | .inclusionProofInvalid => "InclusionProofInvalid"
  | .forkProofInvalid => "ForkProofInvalid"
  | .consumeForkInvalid => "ConsumeForkInvalid"
  | .gapDetected => "GapDetected"
  | .roomOpMismatch => "RoomOpMismatch"
  | .staleEpoch => "StaleEpoch"
  | .unauthorized => "Unauthorized"
  | .roleInvalid => "RoleInvalid"
  | .memberExists => "MemberExists"
  | .ownerExists => "OwnerExists"
  | .memberUnknown => "MemberUnknown"
  | .ownerImmutable => "OwnerImmutable"
  | .opUnknown => "OpUnknown"
  | .streamStateError => "StreamStateError"
  | .streamDigestMismatch => "StreamDigestMismatch"
  | .tooManyChunks => "TooManyChunks"
  | .nameForkProofInvalid => "NameForkProofInvalid"
  | .illegalTransition => "IllegalTransition"
  | .taskChainBroken => "TaskChainBroken"
  | .foreignCard => "ForeignCard"
  | .notOffer => "NotOffer"
  | .notAccept => "NotAccept"
  | .notDescended => "NotDescended"
  | .uiChainBroken => "UIChainBroken"
  | .unknownUIEventKind => "UnknownUIEventKind"
  | .actionSubstituted => "ActionSubstituted"
  | .uiNoConsent => "UINoConsent"
  | .freshnessSelfAsserted => "FreshnessSelfAsserted"
  | .refusalDetailLeak => "RefusalDetailLeak"
  | .unknownRefusalOutcome => "UnknownRefusalOutcome"
  | .annotationMalformed => "MalformedAnnotation"
  | .toolCallMalformed => "ToolCallMalformed"
  | .effectOutsideLattice => "EffectOutsideLattice"
  | .effectUnderDeclared => "EffectUnderDeclared"
  | .foreignToolNotJson => "ForeignToolNotJSON"
  | .foreignBodyNotJson => "ForeignBodyNotJSON"
  | .foreignCallMalformed => "ForeignCallMalformed"
  | .toolNameMismatch => "ToolNameMismatch"
  | .hazardNotCovered => "HazardNotCovered"
  | .hazardUnknown => "HazardUnknown"
  | .decisionMalformed => "DecisionMalformed"
  | .termDispositionMalformed => "TermDispositionMalformed"
  | .egMalformed => "EgMalformed"
  | .unknownEgressBinding => "UnknownEgressBinding"
  | .hazardMalformed => "HazardMalformed"
  | .principalExists => "PrincipalExists"
  | .principalUnknown => "PrincipalUnknown"
  | .rebindUnauthorized => "RebindUnauthorized"
  | .audienceMismatch => "AudienceMismatch"
  | .approvalDenied => "ApprovalDenied"
  | .keyPinViolation => "KeyPinViolation"
  | .anchorRequired => "AnchorRequired"
  | .circularAnchor => "CircularAnchor"
  | .unresolvedAnchor => "UnresolvedAnchor"
  | .incompleteBundle => "IncompleteBundle"
  | .receiptApprovalMismatch => "ReceiptApprovalMismatch"
  | .malformedSignatureInput => "MalformedSignatureInput"
  | .malformedReceipt => "MalformedReceipt"
  | .transformCycle => "TransformCycle"
  | .witnessRootMismatch => "WitnessRootMismatch"

/-- A raised exception: the built-in classes, the codec's two classes, each module's named error
with the kind and message it was raised with, and an exception of any other class by its name.
-/
inductive Exc where
  | typeError
  | valueError (msg : String)
  | keyError
  | overflowError
  | unicodeEncodeError
  | unicodeDecodeError
  | osError
  | structError
  | attributeError
  | recursionError
  | jsonDecodeError (msg : String)
  | nonCanonical (msg : String)
  | depthExceeded (msg : String)
  | envelopeError (kind : Kind) (msg : String)
  | approvalError (kind : Kind) (msg : String)
  | delegationError (kind : Kind) (msg : String)
  | mcpError (kind : Kind) (msg : String)
  | payError (kind : Kind) (msg : String)
  | namingError (kind : Kind) (msg : String)
  | negotiationError (kind : Kind) (msg : String)
  | contError (kind : Kind) (msg : String)
  | gatewayError (kind : Kind) (msg : String)
  | aguiError (kind : Kind) (msg : String)
  | policyError (kind : Kind) (msg : String)
  | channelsError (kind : Kind) (msg : String)
  | identityError (kind : Kind) (msg : String)
  | carriageError (kind : Kind) (msg : String)
  | mixedModeError (kind : Kind) (msg : String)
  | descriptionError (kind : Kind) (msg : String)
  | auditError (kind : Kind) (msg : String)
  | roomsError (kind : Kind) (msg : String)
  | streamError (kind : Kind) (msg : String)
  | deliveryError (kind : Kind) (msg : String)
  | hazardError (kind : Kind) (msg : String)
  | fingerprintCacheError (kind : Kind) (msg : String)
  | bundleError (kind : Kind) (msg : String)
  | receiptError (kind : Kind) (msg : String)
  | guardError (kind : Kind) (msg : String)
  | causalViolation (msg : String)
  | reconcileMismatch (msg : String)
  | other (name : String)
  deriving DecidableEq, Repr

/-- The `.kind` attribute, which the built-in classes do not have. -/
def Exc.kind? : Exc → Option Kind
  | .nonCanonical _ => some .nonCanonical
  | .depthExceeded _ => some .depthExceeded
  | .envelopeError kind _ | .approvalError kind _ | .delegationError kind _
  | .mcpError kind _ | .payError kind _ | .namingError kind _
  | .negotiationError kind _ | .contError kind _ | .gatewayError kind _
  | .aguiError kind _ | .policyError kind _ | .channelsError kind _
  | .identityError kind _ | .carriageError kind _ | .mixedModeError kind _
  | .descriptionError kind _ | .auditError kind _ | .roomsError kind _
  | .streamError kind _ | .deliveryError kind _ | .hazardError kind _
  | .fingerprintCacheError kind _ | .bundleError kind _ | .receiptError kind _
  | .guardError kind _ => some kind
  | .causalViolation _ => some .causalViolation
  | .reconcileMismatch _ => some .reconcileMismatch
  | .typeError | .valueError _ | .keyError | .overflowError | .unicodeEncodeError
  | .unicodeDecodeError | .osError | .structError | .attributeError | .recursionError
  | .jsonDecodeError _ | .other _ => none

/-- Whether `except ValueError` catches the exception: all classes here derive from it but some of
the built-in ones, the error of the guard and what has a class of its own.
-/
def Exc.isValueError : Exc → Bool
  | .typeError | .keyError | .overflowError | .osError | .structError | .attributeError
  | .recursionError | .guardError _ _ | .other _ => false
  | _ => true

abbrev Py := Except Exc

-----------------------------------------------------------------------------------------
-- Text
-----------------------------------------------------------------------------------------

/-- One code point of a `str`: a Unicode scalar value, or the lone surrogate `0xD800 + i`.
-/
inductive PyChar where
  | scalar (c : Char)
  | surrogate (i : Fin 0x800)
  deriving DecidableEq, Repr

abbrev PyStr := List PyChar

instance : LawfulBEq PyStr := inferInstanceAs (LawfulBEq (List PyChar))

/-- A `str` literal of the source, written by its characters. -/
def PyStr.lit (chars : List Char) : PyStr := chars.map .scalar

/-- The scalar values of a text, which has no others in the implementations with UTF-8 strings. -/
def PyStr.chars (s : PyStr) : List Char :=
  s.filterMap fun
    | .scalar c => some c
    | .surrogate _ => none

/-- The UTF-8 octets of such a text. -/
def PyStr.octets (s : PyStr) : Bytes := s.chars.flatMap String.utf8EncodeChar

@[simp]
theorem PyStr.chars_lit (chars : List Char) : (PyStr.lit chars).chars = chars := by
  simp [PyStr.lit, PyStr.chars, List.filterMap_map]

theorem PyStr.lit_injective : Function.Injective PyStr.lit := by
  intro s t same
  rw [← PyStr.chars_lit s, same, PyStr.chars_lit]

theorem PyStr.chars_append (s t : PyStr) : PyStr.chars (s ++ t) = s.chars ++ t.chars :=
  List.filterMap_append

/-- `str.encode("utf-8")`, which refuses a lone surrogate. -/
def PyStr.encode (s : PyStr) : Py Bytes := do
  let chars ← scalars s
  return chars.flatMap String.utf8EncodeChar
where
  scalars : PyStr → Py (List Char)
    | [] => return []
    | .scalar c :: rest => return c :: (← scalars rest)
    | .surrogate _ :: _ => throw .unicodeEncodeError

/-- `bytes.decode("utf-8")`, strict: no overlong form, surrogate or value above 0x10FFFF. -/
def PyStr.decode (data : Bytes) : Py PyStr :=
  match data.toByteArray.utf8Decode? with
  | some chars => return PyStr.lit chars.toList
  | none => throw .unicodeDecodeError

/-- A string has scalar values throughout exactly when it is a literal, by induction on it. -/
theorem PyStr.scalars_eq_ok {s : PyStr} {chars : List Char}
    : PyStr.encode.scalars s = .ok chars ↔ s = PyStr.lit chars := by
  induction s generalizing chars with
  | nil => cases chars <;> simp [PyStr.encode.scalars, PyStr.lit]
  | cons head rest ih =>
      cases head with
      | surrogate i => cases chars <;> simp [PyStr.encode.scalars, PyStr.lit]
      | scalar c =>
          simp only [PyStr.encode.scalars, bind_eq_ok, ih, pure_eq_ok, Except.ok.injEq]
          constructor
          · rintro ⟨tail, rfl, rfl⟩
            rfl
          · intro same
            cases chars with
            | nil => cases same
            | cons first tail =>
                obtain ⟨same, rest⟩ := List.cons.inj same
                obtain rfl := PyChar.scalar.inj same
                exact ⟨tail, rest, rfl⟩

/-- Encoding succeeds exactly on the literals of scalar values. -/
theorem PyStr.encode_eq_ok {s : PyStr} {data : Bytes}
    : s.encode = .ok data
      ↔ ∃ chars, s = PyStr.lit chars ∧ chars.flatMap String.utf8EncodeChar = data := by
  simp [PyStr.encode, bind_eq_ok, PyStr.scalars_eq_ok]

/-- Decoding what was encoded gives the text back, by the UTF-8 round trip. -/
theorem PyStr.decode_of_encode {s : PyStr} {data : Bytes} (encoded : s.encode = .ok data)
    : PyStr.decode data = .ok s := by
  obtain ⟨chars, rfl, rfl⟩ := PyStr.encode_eq_ok.mp encoded
  have round : (chars.flatMap String.utf8EncodeChar).toByteArray.utf8Decode?
      = some chars.toArray :=
    List.utf8Decode?_utf8Encode
  simp [PyStr.decode, round]

/-- Encoding what was decoded gives the octets back, by the UTF-8 round trip. -/
theorem PyStr.encode_of_decode {s : PyStr} {data : Bytes} (decoded : PyStr.decode data = .ok s)
    : s.encode = .ok data := by
  unfold PyStr.decode at decoded
  split at decoded
  · rename_i chars found
    obtain rfl := Except.ok.inj decoded
    refine PyStr.encode_eq_ok.mpr ⟨chars.toList, rfl, ?_⟩
    have round := ByteArray.utf8Encode_get_utf8Decode? (b := data.toByteArray)
      (h := by simp [found])
    simp only [found, Option.get_some] at round
    exact List.toByteArray_inj.mp round
  · cases decoded

-----------------------------------------------------------------------------------------
-- Integers
-----------------------------------------------------------------------------------------

/-- `bytes([n])`, which admits 0..255 only. -/
def byteOfInt (n : Int) : Py UInt8 :=
  if 0 ≤ n ∧ n < 256 then .ok (UInt8.ofNat n.toNat)
  else .error (.valueError "bytes must be in range(0, 256)")

/-- `n.to_bytes(width, "big")`, which refuses a negative or too large integer. -/
def intToBytes (width : Nat) (n : Int) : Py Bytes :=
  if 0 ≤ n ∧ n < 256 ^ width then .ok (toBigEndian width n.toNat) else .error .overflowError

end Naalp.Python
