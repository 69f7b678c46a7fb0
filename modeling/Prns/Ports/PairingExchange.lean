import Prns.Verified.Bytes
import Prns.Ports.RemoteControlRequests

/-!
# The pairing exchange

Model of `pairing/exchange`: the four messages by which a controller and a target pair, and
the transcript that both sides derive from them. The controller begins with a proof that
it knows the invitation code, the target answers with a signed offer, the controller
commits to the digest of the transcript, and the target completes with a second signature.

Hashes, signatures and the message authentication code are parameters. The digest, which
the source keeps as a field of the transcript, is here the function of the other fields
that it is computed by.
-/

namespace Prns.Ports.Pairing

open Verified
open RemoteControl
open RemoteControlRequestSet

/-- The cryptography that the exchange rests on. -/
structure PairingCrypto (Digest Signature : Type) where
  sha256 : List UInt8 → Digest
  digestBytes : Digest → List UInt8
  hmacSha256 : Digest → List UInt8 → Bytes 32
  ed25519Verify : Bytes 32 → List UInt8 → Signature → Bool
  deriveIdentityHash : IdentityPublicKeys → IdentityHash
  deriveDestinationHash : IdentityHash → Bytes 16

/-- The signing operations of an identity. -/
structure IdentitySigner (Signature : Type) where
  publicKeys : IdentityPublicKeys
  sign : List UInt8 → Signature

inductive RemoteControlPairingProtocolVersion where
  | v2
  | v3
  | v4
  deriving DecidableEq, Repr

def RemoteControlPairingProtocolVersion.wireValue : RemoteControlPairingProtocolVersion → UInt8
  | .v2 => 2
  | .v3 => 3
  | .v4 => 4

/-- `MAX_REMOTE_CONTROL_PAIRING_ATTEMPT_TIMEOUT`, in milliseconds. -/
def maxAttemptTimeout : Nat := 10 * 60 * 1000

structure RemoteControlPairingAttemptTimeout where
  duration : Nat
  pos : 0 < duration
  le_max : duration ≤ maxAttemptTimeout
  deriving DecidableEq

inductive RemoteControlPairingAttemptTimeoutError where
  | zero
  | tooLong (actual maximum : Nat)
  deriving DecidableEq, Repr

/-- `try_from`. -/
def RemoteControlPairingAttemptTimeout.ofDuration (duration : Nat) :
    Except RemoteControlPairingAttemptTimeoutError RemoteControlPairingAttemptTimeout :=
  if hlong : maxAttemptTimeout < duration then .error (.tooLong duration maxAttemptTimeout)
  else if hzero : duration = 0 then .error .zero
  else .ok ⟨duration, Nat.pos_of_ne_zero hzero, Nat.le_of_not_lt hlong⟩

def RemoteControlPairingAttemptTimeout.toWire (timeout : RemoteControlPairingAttemptTimeout) :
    List UInt8 :=
  leBytes 4 timeout.duration

abbrev LinkId : Type := Bytes 16

/-- The endpoint, by its destination hash, and the link of an exchange. -/
structure RemoteControlPairingContext where
  endpoint : Bytes 16
  linkId : LinkId
  deriving DecidableEq

/-! ## Transcripts -/

structure RemoteControlPairingTranscript where
  protocolVersion : RemoteControlPairingProtocolVersion
  context : RemoteControlPairingContext
  controller : RemoteControlControllerIdentity
  target : RemoteControlTargetIdentity
  permissions : RemoteControlPairingPermissions
  attemptTimeout : RemoteControlPairingAttemptTimeout
  deriving DecidableEq

/-- `V2_V3_REQUEST_KIND_CAP`. -/
def legacyRequestKindCap : Nat := 0x1C

/-- The wire values of the permitted requests. -/
def requestBytes (permissions : RemoteControlPairingPermissions) : List UInt8 :=
  permissions.permittedRequests.iter.map RemoteControlRequestKind.wireValue

/-- The wire values in an array of zeros, as many as find room. -/
def paddedRequestBytes (permissions : RemoteControlPairingPermissions) : List UInt8 :=
  (requestBytes permissions).take legacyRequestKindCap ++
    List.replicate (legacyRequestKindCap - (requestBytes permissions).length) 0

def permissionCount (permissions : RemoteControlPairingPermissions) : UInt8 :=
  UInt8.ofNat permissions.permittedRequests.len

/-- The permissions as the transcript of each version spells them; version 2 leaves the
authority out. -/
def permissionBytes (version : RemoteControlPairingProtocolVersion)
    (permissions : RemoteControlPairingPermissions) : List UInt8 :=
  match version with
  | .v2 => permissionCount permissions :: paddedRequestBytes permissions
  | .v3 =>
      permissions.authority.wireValue :: permissionCount permissions ::
        paddedRequestBytes permissions
  | .v4 =>
      permissions.authority.wireValue :: permissionCount permissions :: requestBytes permissions

/-- The bytes of a string constant. -/
def asciiBytes (text : String) : List UInt8 := text.toByteArray.data.toList

def pairingTranscriptDomain : List UInt8 :=
  asciiBytes "reticulum.remote.control.pairing.transcript.v1"

def pairingCompletionDomain : List UInt8 :=
  asciiBytes "reticulum.remote.control.pairing.completed.v1"

def pairingInvitationKeyDomain : List UInt8 :=
  asciiBytes "reticulum.remote.control.pairing.invitation.key.v1"

def pairingInvitationProofDomain : List UInt8 :=
  asciiBytes "reticulum.remote.control.pairing.invitation.proof.v1"

/-- What `pairing_transcript_digest` hashes. -/
def RemoteControlPairingTranscript.bytes (transcript : RemoteControlPairingTranscript) :
    List UInt8 :=
  pairingTranscriptDomain ++ [transcript.protocolVersion.wireValue] ++
    transcript.context.endpoint.val ++ transcript.context.linkId.val ++
    transcript.controller.publicKeys.publicKeyBytes ++
    transcript.target.publicKeys.publicKeyBytes ++
    permissionBytes transcript.protocolVersion transcript.permissions ++
    transcript.attemptTimeout.toWire

/-! ## The transcript is spelled without ambiguity

The versions spell the permissions differently, and the two older ones only some
permissions; within what a version can spell, the bytes determine the transcript. -/

/-- The request that the two older versions cannot spell. -/
def legacyRequest (version : RemoteControlPairingProtocolVersion)
    (permissions : RemoteControlPairingPermissions) : Option RemoteControlRequestKind :=
  if version = .v2 ∨ version = .v3 then
    permissions.permittedRequests.iter.find? fun request =>
      legacyRequestKindCap < request.wireValue.toNat
  else none

/-- The permissions are ones that the version can spell. -/
structure Spelled (version : RemoteControlPairingProtocolVersion)
    (permissions : RemoteControlPairingPermissions) : Prop where
  authority : version = .v2 → permissions.authority = .operator
  requests : legacyRequest version permissions = none

theorem length_requestBytes (permissions : RemoteControlPairingPermissions) :
    (requestBytes permissions).length = permissions.permittedRequests.len := by
  rw [requestBytes, List.length_map, length_iter]

variable {p q : RemoteControlPairingPermissions}

theorem requestBytes_inj
    (h : requestBytes p = requestBytes q) : p.permittedRequests = q.permittedRequests := by
  have hiter : p.permittedRequests.iter = q.permittedRequests.iter :=
    List.map_injective_iff.mpr (fun _ _ => RemoteControlRequestKind.wireValue_inj) h
  apply ext_supports
  intro kind
  rw [Bool.eq_iff_iff, ← mem_iter, ← mem_iter, hiter]

theorem permissionCount_inj (h : permissionCount p = permissionCount q) :
    p.permittedRequests.len = q.permittedRequests.len := by
  have hp := p.permittedRequests.len_le
  have hq := q.permittedRequests.len_le
  have hnat := congrArg UInt8.toNat h
  simp only [permissionCount, UInt8.toNat_ofNat'] at hnat
  omega

variable {version : RemoteControlPairingProtocolVersion}

theorem length_requestBytes_le {permissions : RemoteControlPairingPermissions}
    (hversion : version = .v2 ∨ version = .v3) (h : Spelled version permissions) :
    (requestBytes permissions).length ≤ legacyRequestKindCap := by
  have hnone := h.requests
  rw [legacyRequest, if_pos hversion, List.find?_eq_none] at hnone
  rw [length_requestBytes, permissions.permittedRequests.len_eq]
  calc RemoteControlRequestKind.all.countP (supportsIn permissions.permittedRequests.bits)
      ≤ RemoteControlRequestKind.all.countP fun kind =>
          decide (kind.wireValue.toNat ≤ legacyRequestKindCap) := by
        apply List.countP_mono_left
        intro kind _ hsupports
        have hsmall := hnone kind ((permissions.permittedRequests.mem_iter kind).mpr hsupports)
        simpa using hsmall
    _ ≤ legacyRequestKindCap := by decide

theorem paddedRequestBytes_inj (hversion : version = .v2 ∨ version = .v3) (hp : Spelled version p)
    (hq : Spelled version q) (hcount : permissionCount p = permissionCount q)
    (h : paddedRequestBytes p = paddedRequestBytes q) :
    p.permittedRequests = q.permittedRequests := by
  have hroomp := length_requestBytes_le hversion hp
  have hroomq := length_requestBytes_le hversion hq
  have hlen : (requestBytes p).length = (requestBytes q).length := by
    rw [length_requestBytes, length_requestBytes]
    exact permissionCount_inj hcount
  rw [paddedRequestBytes, paddedRequestBytes, List.take_of_length_le hroomp,
    List.take_of_length_le hroomq] at h
  exact requestBytes_inj (List.append_inj h hlen).1

theorem authority_wireValue_inj {a b : RemoteControlControllerAuthority}
    (h : a.wireValue = b.wireValue) : a = b := by
  revert h
  cases a <;> cases b <;> decide

theorem permissions_ext (hauthority : p.authority = q.authority)
    (hrequests : p.permittedRequests = q.permittedRequests) : p = q := by
  cases p
  cases q
  cases hauthority
  cases hrequests
  rfl

theorem permissionBytes_inj (hp : Spelled version p) (hq : Spelled version q)
    (h : permissionBytes version p = permissionBytes version q) : p = q := by
  cases version with
  | v2 =>
    obtain ⟨hcount, hbytes⟩ := List.cons.inj h
    apply permissions_ext
    · rw [hp.authority rfl, hq.authority rfl]
    · exact paddedRequestBytes_inj (Or.inl rfl) hp hq hcount hbytes
  | v3 =>
    obtain ⟨hauthority, hrest⟩ := List.cons.inj h
    obtain ⟨hcount, hbytes⟩ := List.cons.inj hrest
    apply permissions_ext (authority_wireValue_inj hauthority)
    exact paddedRequestBytes_inj (Or.inr rfl) hp hq hcount hbytes
  | v4 =>
    obtain ⟨hauthority, hrest⟩ := List.cons.inj h
    exact permissions_ext (authority_wireValue_inj hauthority)
      (requestBytes_inj (List.cons.inj hrest).2)

theorem length_publicKeyBytes (keys : IdentityPublicKeys) : keys.publicKeyBytes.length = 64 := by
  rw [IdentityPublicKeys.publicKeyBytes, List.length_append, keys.encryption.property,
    keys.signing.property]

theorem publicKeyBytes_inj {a b : IdentityPublicKeys}
    (h : a.publicKeyBytes = b.publicKeyBytes) : a = b := by
  obtain ⟨hencryption, hsigning⟩ :=
    List.append_inj h (a.encryption.property.trans b.encryption.property.symm)
  cases a
  cases b
  cases Subtype.ext hencryption
  cases Subtype.ext hsigning
  rfl

theorem toWire_inj {a b : RemoteControlPairingAttemptTimeout} (h : a.toWire = b.toWire) :
    a = b := by
  have hbound : ∀ timeout : RemoteControlPairingAttemptTimeout, timeout.duration < 256 ^ 4 :=
    fun timeout => Nat.lt_of_le_of_lt timeout.le_max (by decide)
  have hduration := congrArg ofLeBytes h
  rw [RemoteControlPairingAttemptTimeout.toWire, RemoteControlPairingAttemptTimeout.toWire,
    ofLeBytes_leBytes (hbound a), ofLeBytes_leBytes (hbound b)] at hduration
  cases a
  cases b
  cases hduration
  rfl

theorem RemoteControlPairingTranscript.bytes_inj {a b : RemoteControlPairingTranscript}
    (ha : Spelled a.protocolVersion a.permissions) (hb : Spelled b.protocolVersion b.permissions)
    (h : a.bytes = b.bytes) : a = b := by
  -- The timeout ends the bytes; what stands before the permissions has a fixed length, and
  -- is taken apart from its end.
  obtain ⟨h, htimeout⟩ := List.append_inj' h ((length_leBytes 4 _).trans (length_leBytes 4 _).symm)
  obtain ⟨h, hpermissions⟩ := List.append_inj h (by
    simp only [List.length_append, length_publicKeyBytes, a.context.endpoint.property,
      b.context.endpoint.property, a.context.linkId.property, b.context.linkId.property,
      List.length_singleton])
  obtain ⟨h, htarget⟩ := List.append_inj' h
    ((length_publicKeyBytes _).trans (length_publicKeyBytes _).symm)
  obtain ⟨h, hcontroller⟩ := List.append_inj' h
    ((length_publicKeyBytes _).trans (length_publicKeyBytes _).symm)
  obtain ⟨h, hlink⟩ := List.append_inj' h
    (a.context.linkId.property.trans b.context.linkId.property.symm)
  obtain ⟨h, hendpoint⟩ := List.append_inj' h
    (a.context.endpoint.property.trans b.context.endpoint.property.symm)
  have hversion : a.protocolVersion = b.protocolVersion := by
    have hwire := (List.cons.inj (List.append_inj' h rfl).2).1
    revert hwire
    cases a.protocolVersion <;> cases b.protocolVersion <;> decide
  obtain ⟨version', ⟨endpoint', link'⟩, ⟨controller'⟩, ⟨target'⟩, permissions', timeout'⟩ := b
  cases hversion
  cases Subtype.ext hlink
  cases Subtype.ext hendpoint
  cases publicKeyBytes_inj hcontroller
  cases publicKeyBytes_inj htarget
  cases permissionBytes_inj ha hb hpermissions
  cases toWire_inj htimeout
  rfl

section

variable {Digest Signature : Type} [DecidableEq Digest] (crypto : PairingCrypto Digest Signature)

/-- The digest of a transcript, which is also the id of the attempt. -/
def RemoteControlPairingTranscript.digest (transcript : RemoteControlPairingTranscript) : Digest :=
  crypto.sha256 transcript.bytes

/-! ## Begin

The controller proves that it knows the code of the invitation, for this endpoint and
under this identity. -/

structure RemoteControlPairingBegin where
  protocolVersion : RemoteControlPairingProtocolVersion
  controller : RemoteControlControllerIdentity
  invitationProof : Bytes 32
  deriving DecidableEq

/-- What the invitation proof authenticates. -/
def invitationMessage (endpoint : Bytes 16) (controller : RemoteControlControllerIdentity) :
    List UInt8 :=
  pairingInvitationProofDomain ++ endpoint.val ++ controller.publicKeys.publicKeyBytes

/-- `RemoteControlPairingInvitationCode::verifier`. -/
def invitationVerifier (code : Bytes 4) : Digest :=
  crypto.sha256 (pairingInvitationKeyDomain ++ code.val)

/-- `RemoteControlPairingInvitationVerifier::verify`. -/
def verifyInvitation (verifier : Digest) (endpoint : Bytes 16)
    (controller : RemoteControlControllerIdentity) (proof : Bytes 32) : Bool :=
  crypto.hmacSha256 verifier (invitationMessage endpoint controller) == proof

def RemoteControlPairingBegin.new (controller : RemoteControlControllerIdentity)
    (endpoint : Bytes 16) (invitationCode : Bytes 4) : RemoteControlPairingBegin where
  protocolVersion := .v4
  controller := controller
  invitationProof :=
    crypto.hmacSha256 (invitationVerifier crypto invitationCode)
      (invitationMessage endpoint controller)

/-! ## Offer, commit and completion -/

structure RemoteControlPairingOffer (Signature : Type) where
  protocolVersion : RemoteControlPairingProtocolVersion
  target : RemoteControlTargetIdentity
  permissions : RemoteControlPairingPermissions
  attemptTimeout : RemoteControlPairingAttemptTimeout
  signature : Signature

def RemoteControlPairingOffer.transcript (offer : RemoteControlPairingOffer Signature)
    (context : RemoteControlPairingContext) (controller : RemoteControlControllerIdentity) :
    RemoteControlPairingTranscript :=
  ⟨offer.protocolVersion, context, controller, offer.target, offer.permissions,
    offer.attemptTimeout⟩

inductive RemoteControlPairingOfferVerificationError where
  | protocolVersionMismatch (begin offer : RemoteControlPairingProtocolVersion)
  | invalidTargetSignature
  deriving DecidableEq, Repr

/-- `verify_controller`. -/
def RemoteControlPairingOffer.verifyController (offer : RemoteControlPairingOffer Signature)
    (context : RemoteControlPairingContext) (controller : RemoteControlControllerIdentity) :
    Except RemoteControlPairingOfferVerificationError RemoteControlPairingTranscript :=
  let transcript := offer.transcript context controller
  if crypto.ed25519Verify offer.target.publicKeys.signing
      (crypto.digestBytes (transcript.digest crypto)) offer.signature then
    .ok transcript
  else .error .invalidTargetSignature

inductive RemoteControlPairingPreparedOfferError where
  | authorityUnsupported (version : RemoteControlPairingProtocolVersion)
      (authority : RemoteControlControllerAuthority)
  | requestUnsupportedForVersion (version : RemoteControlPairingProtocolVersion)
      (request : RemoteControlRequestKind)
  deriving DecidableEq, Repr

/-- `RemoteControlPairingPreparedOffer::new`: the offer and its transcript. -/
def preparedOffer (signer : IdentitySigner Signature) (context : RemoteControlPairingContext)
    (begin : RemoteControlPairingBegin) (permissions : RemoteControlPairingPermissions)
    (attemptTimeout : RemoteControlPairingAttemptTimeout) :
    Except RemoteControlPairingPreparedOfferError
      (RemoteControlPairingOffer Signature × RemoteControlPairingTranscript) :=
  if begin.protocolVersion = .v2 ∧ permissions.authority ≠ .operator then
    .error (.authorityUnsupported begin.protocolVersion permissions.authority)
  else
    match legacyRequest begin.protocolVersion permissions with
    | some request => .error (.requestUnsupportedForVersion begin.protocolVersion request)
    | none =>
        let transcript : RemoteControlPairingTranscript :=
          ⟨begin.protocolVersion, context, begin.controller, ⟨signer.publicKeys⟩, permissions,
            attemptTimeout⟩
        .ok (⟨begin.protocolVersion, ⟨signer.publicKeys⟩, permissions, attemptTimeout,
          signer.sign (crypto.digestBytes (transcript.digest crypto))⟩, transcript)

structure RemoteControlPairingCommit (Digest : Type) where
  protocolVersion : RemoteControlPairingProtocolVersion
  transcript : Digest
  deriving DecidableEq

def RemoteControlPairingCommit.new (transcript : RemoteControlPairingTranscript) :
    RemoteControlPairingCommit Digest :=
  ⟨transcript.protocolVersion, transcript.digest crypto⟩

def RemoteControlPairingCommit.matches (commit : RemoteControlPairingCommit Digest)
    (transcript : RemoteControlPairingTranscript) : Bool :=
  commit.protocolVersion == transcript.protocolVersion &&
    commit.transcript == transcript.digest crypto

structure RemoteControlPairingCompleted (Digest Signature : Type) where
  protocolVersion : RemoteControlPairingProtocolVersion
  transcript : Digest
  signature : Signature

/-- `pairing_completion_signature_message`. -/
def completionMessage (transcript : Digest) : List UInt8 :=
  crypto.digestBytes (crypto.sha256 (pairingCompletionDomain ++ crypto.digestBytes transcript))

inductive RemoteControlPairingCompletionSigningError where
  | targetIdentityMismatch (expected found : IdentityHash)
  deriving DecidableEq

def RemoteControlPairingCompleted.signedBy (signer : IdentitySigner Signature)
    (transcript : RemoteControlPairingTranscript) :
    Except RemoteControlPairingCompletionSigningError
      (RemoteControlPairingCompleted Digest Signature) :=
  if signer.publicKeys ≠ transcript.target.publicKeys then
    .error (.targetIdentityMismatch (crypto.deriveIdentityHash transcript.target.publicKeys)
      (crypto.deriveIdentityHash signer.publicKeys))
  else
    .ok ⟨transcript.protocolVersion, transcript.digest crypto,
      signer.sign (completionMessage crypto (transcript.digest crypto))⟩

inductive RemoteControlPairingCompletedVerificationError (Digest : Type) where
  | protocolVersionMismatch (expected found : RemoteControlPairingProtocolVersion)
  | transcriptMismatch (expected found : Digest)
  | invalidTargetSignature
  deriving DecidableEq

/-- `verify`; `none` is success. -/
def RemoteControlPairingCompleted.verify
    (completed : RemoteControlPairingCompleted Digest Signature)
    (transcript : RemoteControlPairingTranscript) :
    Option (RemoteControlPairingCompletedVerificationError Digest) :=
  if completed.protocolVersion ≠ transcript.protocolVersion then
    some (.protocolVersionMismatch transcript.protocolVersion completed.protocolVersion)
  else if completed.transcript ≠ transcript.digest crypto then
    some (.transcriptMismatch (transcript.digest crypto) completed.transcript)
  else if crypto.ed25519Verify transcript.target.publicKeys.signing
      (completionMessage crypto completed.transcript) completed.signature then
    none
  else some .invalidTargetSignature

end

end Prns.Ports.Pairing
