import Mathlib.Data.List.InsertIdx
import Mathlib.Data.List.Nodup
import Prns.Verified.Bytes
import Prns.Ports.RemoteControlRequests

/-!
# Admission of remote control requests

Model of `resolve_admitted_remote_control_operation` in `runtime/remote_control.rs`, of the
request parser in front of it and of the grant tables it looks into. The requester's
grant and the requests the node supports decide which kinds are available; a request is
parsed, its kind is required to be available, and an operation on grants is then checked
against the table once more.

The requests that the host carries out differ only in their kind and in arguments that
admission never looks at. They are one constructor, and the parser of their arguments is
a parameter. So is the identity hash.
-/

namespace Prns.Ports.RemoteControl

open Verified

def RemoteControlRequestKind.handledByHost : RemoteControlRequestKind → Bool
  | .describe | .announceSelf | .appMessage | .watchInterfaces | .inventoryControllers
  | .authorizeController | .revokeController => false
  | _ => true

/-- The host's requests that consist of their header only. -/
def RemoteControlRequestKind.withoutArguments : RemoteControlRequestKind → Bool
  | .describeBuild | .describeNodeName | .describePower | .sleepRadios | .wakeRadios
  | .inspectWifiTransaction => true
  | _ => false

/-- The requests behind the feature `remote-control-wifi-host`. -/
def RemoteControlRequestKind.needsWifiHost : RemoteControlRequestKind → Bool
  | .setInterfaceWifiStation | .setStationUplink => true
  | .stageWifiCredentials | .activateWifiCredentials | .confirmWifiCredentials
  | .cancelWifiCredentials | .inspectWifiTransaction => true
  | _ => false

/-- The steps of a credential transaction, which the host ties to the controller. -/
def RemoteControlRequestKind.ofWifiTransaction : RemoteControlRequestKind → Bool
  | .stageWifiCredentials | .activateWifiCredentials | .confirmWifiCredentials
  | .cancelWifiCredentials | .inspectWifiTransaction => true
  | _ => false

/-- A request for the host; `arguments` is `none` for a header without a body. -/
structure HostRequest (Arguments : Type) where
  kind : RemoteControlRequestKind
  handled : kind.handledByHost = true
  arguments : Option Arguments
  deriving DecidableEq

inductive RemoteControlControllerPage where
  | first
  | after (cursor : IdentityHash)
  deriving DecidableEq

inductive RemoteControlRequest (Arguments : Type) where
  | describe
  | announceSelf
  | appMessage (payload : List UInt8)
  | watchInterfaces (streamId : Nat)
  | inventoryControllers (page : RemoteControlControllerPage)
  | authorizeController (controller : RemoteControlControllerIdentity)
      (permittedRequests : RemoteControlRequestSet)
  | revokeController (hash : IdentityHash)
  | host (request : HostRequest Arguments)

def RemoteControlRequest.kind {Arguments : Type} :
    RemoteControlRequest Arguments → RemoteControlRequestKind
  | .describe => .describe
  | .announceSelf => .announceSelf
  | .appMessage _ => .appMessage
  | .watchInterfaces _ => .watchInterfaces
  | .inventoryControllers _ => .inventoryControllers
  | .authorizeController _ _ => .authorizeController
  | .revokeController _ => .revokeController
  | .host request => request.kind

/-! ## Parsing -/

inductive RemoteControlRequestParseError where
  | truncated
  | unsupportedVersion (found : UInt8)
  | unknownRequestKind (found : UInt8)
  | malformed
  deriving DecidableEq, Repr

def wrongLength (body : List UInt8) : RemoteControlRequestParseError :=
  if body.isEmpty then .truncated else .malformed

def RemoteControlControllerPage.parse (bytes : List UInt8) :
    Except RemoteControlRequestParseError RemoteControlControllerPage :=
  match bytes with
  | [] => .error .truncated
  | tag :: rest =>
      if tag = 0x00 ∧ rest = [] then .ok .first
      else if h : tag = 0x01 ∧ rest.length = 16 then .ok (.after ⟨rest, h.2⟩)
      else .error .malformed

/-- The loop over the wire values, which have to ascend. -/
def parseOperatorRequests : List UInt8 → Option UInt8 → RemoteControlRequestSet →
    Except RemoteControlRequestParseError RemoteControlRequestSet
  | [], _, permittedRequests => .ok permittedRequests
  | wireValue :: requests, previous, permittedRequests =>
      match RemoteControlRequestKind.fromWire wireValue with
      | none => .error (.unknownRequestKind wireValue)
      | some request =>
          if request.requiresAdministrator || previous.any (fun previous => wireValue ≤ previous) ||
              !(permittedRequests.insert request).1 then
            .error .malformed
          else parseOperatorRequests requests (some wireValue) (permittedRequests.insert request).2

def parseOperatorRequestSet (body : List UInt8) :
    Except RemoteControlRequestParseError RemoteControlRequestSet :=
  match body with
  | [] => .error .truncated
  | count :: requests =>
      if requests.length ≠ count.toNat ∨ requests = [] then .error .malformed
      else parseOperatorRequests requests none .empty

/-- `parse_controller_public_keys` on the 64 bytes in front. -/
def parseControllerPublicKeys (bytes : List UInt8) (h : 64 ≤ bytes.length) :
    RemoteControlControllerIdentity where
  publicKeys :=
    { encryption := ⟨bytes.take 32, by rw [List.length_take]; omega⟩
      signing := ⟨(bytes.drop 32).take 32, by rw [List.length_take, List.length_drop]; omega⟩ }

section

variable {Arguments : Type}
  (parseArguments : RemoteControlRequestKind → List UInt8 →
    Except RemoteControlRequestParseError Arguments)

def parseAuthorizeController (body : List UInt8) :
    Except RemoteControlRequestParseError (RemoteControlRequest Arguments) :=
  if h : 64 ≤ body.length then
    (parseOperatorRequestSet (body.drop 64)).map fun permittedRequests =>
      .authorizeController (parseControllerPublicKeys body h) permittedRequests
  else .error (wrongLength body)

def parseRevokeController (body : List UInt8) :
    Except RemoteControlRequestParseError (RemoteControlRequest Arguments) :=
  if h : body.length = 16 then .ok (.revokeController ⟨body, h⟩)
  else .error (wrongLength body)

/-- `parse_stream_id`: two bytes, at most `STREAM_ID_MAX`. -/
def parseStreamId (body : List UInt8) : Option Nat :=
  if body.length = 2 ∧ ofBeBytes body ≤ 0x3fff then some (ofBeBytes body) else none

def headerOnly (body : List UInt8) (request : RemoteControlRequest Arguments) :
    Except RemoteControlRequestParseError (RemoteControlRequest Arguments) :=
  if body = [] then .ok request else .error .malformed

def parseBody (kind : RemoteControlRequestKind) (body : List UInt8) :
    Except RemoteControlRequestParseError (RemoteControlRequest Arguments) :=
  match kind with
  | .describe => headerOnly body .describe
  | .announceSelf => headerOnly body .announceSelf
  | .appMessage => if body.length ≤ 96 then .ok (.appMessage body) else .error .malformed
  | .watchInterfaces =>
      match parseStreamId body with
      | some streamId => .ok (.watchInterfaces streamId)
      | none => .error .malformed
  | .inventoryControllers =>
      (RemoteControlControllerPage.parse body).map .inventoryControllers
  | .authorizeController => parseAuthorizeController body
  | .revokeController => parseRevokeController body
  | kind =>
      if handled : kind.handledByHost = true then
        if kind.withoutArguments then headerOnly body (.host ⟨kind, handled, none⟩)
        else (parseArguments kind body).map fun arguments => .host ⟨kind, handled, some arguments⟩
      else .error .malformed

/-- `RemoteControlRequest::parse`; the only version is `0x01`. -/
def RemoteControlRequest.parse (bytes : List UInt8) :
    Except RemoteControlRequestParseError (RemoteControlRequest Arguments) :=
  match bytes with
  | version :: kind :: body =>
      if version ≠ 0x01 then .error (.unsupportedVersion version)
      else
        match RemoteControlRequestKind.fromWire kind with
        | none => .error (.unknownRequestKind kind)
        | some kind => parseBody parseArguments kind body
  | _ => .error .truncated

end

section

variable (deriveIdentityHash : IdentityPublicKeys → IdentityHash)

def RemoteControlControllerIdentity.identityHash (controller : RemoteControlControllerIdentity) :
    IdentityHash :=
  deriveIdentityHash controller.publicKeys

/-- The hash under which a grant is kept. -/
def grantHash (grant : RemoteControlControllerGrant) : IdentityHash :=
  grant.controller.identityHash deriveIdentityHash

def grantFor (grants : List RemoteControlControllerGrant) (identity : IdentityHash) :
    Option RemoteControlControllerGrant :=
  grants.find? fun grant => grantHash deriveIdentityHash grant == identity

inductive SetRemoteControlControllerGrantOutcome where
  | added
  | unchanged
  | updated (previous : RemoteControlControllerGrant)
  deriving DecidableEq

/-- `set_controller_grant` of the two tables: `none` is the heap's capacity, and the error
is `CapacityExhausted`. -/
def setControllerGrant (capacity : Option Nat) (grants : List RemoteControlControllerGrant)
    (grant : RemoteControlControllerGrant) :
    Except Unit SetRemoteControlControllerGrantOutcome × List RemoteControlControllerGrant :=
  match grants.findIdx? fun candidate =>
      grantHash deriveIdentityHash candidate == grantHash deriveIdentityHash grant with
  | some index =>
      let current := grants.getD index grant
      if current = grant then (.ok .unchanged, grants)
      else (.ok (.updated current), grants.set index grant)
  | none =>
      let insertAt := (grants.findIdx? fun candidate =>
        (grantHash deriveIdentityHash grant).val < (grantHash deriveIdentityHash candidate).val).getD
          grants.length
      if capacity.any (· ≤ grants.length) then (.error (), grants)
      else (.ok .added, grants.insertIdx insertAt grant)

inductive RevokeRemoteControlControllerOutcome where
  | revoked (grant : RemoteControlControllerGrant)
  | notFound
  deriving DecidableEq

def revokeController (grants : List RemoteControlControllerGrant)
    (controller : RemoteControlControllerIdentity) :
    RevokeRemoteControlControllerOutcome × List RemoteControlControllerGrant :=
  match grants.findIdx? fun grant =>
      grantHash deriveIdentityHash grant == controller.identityHash deriveIdentityHash with
  | none => (.notFound, grants)
  | some index =>
      match grants[index]? with
      | none => (.notFound, grants)
      | some grant => (.revoked grant, grants.eraseIdx index)

/-- The tables that setting and revoking grants leads to. -/
inductive ReachableGrants (capacity : Option Nat) : List RemoteControlControllerGrant → Prop
  | empty : ReachableGrants capacity []
  | set {grants : List RemoteControlControllerGrant} (grant : RemoteControlControllerGrant) :
      ReachableGrants capacity grants →
      ReachableGrants capacity (setControllerGrant deriveIdentityHash capacity grants grant).2
  | revoke {grants : List RemoteControlControllerGrant}
      (controller : RemoteControlControllerIdentity) :
      ReachableGrants capacity grants →
      ReachableGrants capacity (revokeController deriveIdentityHash grants controller).2

/-! ## Operations -/

inductive RemoteControlProtocolError where
  | malformedRequest
  | unsupportedVersion (found : UInt8)
  | unknownRequestKind (found : UInt8)
  | internalFailure (request : RemoteControlRequestKind)
  deriving DecidableEq, Repr

def RemoteControlProtocolError.ofParseError :
    RemoteControlRequestParseError → RemoteControlProtocolError
  | .truncated | .malformed => .malformedRequest
  | .unsupportedVersion found => .unsupportedVersion found
  | .unknownRequestKind found => .unknownRequestKind found

inductive RemoteControlAdmitError where
  | noGrant
  | kindNotPermitted
  | announceUnavailable
  deriving DecidableEq, Repr

inductive RemoteControlSelfAnnouncement where
  | unavailable
  | destination (destination : Bytes 16)
  deriving DecidableEq

inductive RemoteControlAuthorizeControllerOutcome where
  | failed
  | forbidden
  deriving DecidableEq, Repr

inductive RemoteControlRevokeControllerOutcome where
  | notFound
  | forbidden
  deriving DecidableEq, Repr

inductive RemoteControlControllerInventoryError where
  | nonAscending
  | capacityExhausted
  deriving DecidableEq, Repr

/-- The hashes of one page, and the cursor behind which the next one starts. -/
structure RemoteControlControllerInventory where
  hashes : List IdentityHash
  continuation : Option IdentityHash
  deriving DecidableEq

/-- `REMOTE_CONTROL_CONTROLLER_INVENTORY_PAGE_CAP`. -/
def inventoryPageCap : Nat := 4

/-- The loop of `from_grants`; `hashes` is the page so far. -/
def inventoryLoop (after : Option IdentityHash) :
    List RemoteControlControllerGrant → List IdentityHash →
    Except RemoteControlControllerInventoryError RemoteControlControllerInventory
  | [], hashes => .ok ⟨hashes, none⟩
  | grant :: grants, hashes =>
      let identity := grantHash deriveIdentityHash grant
      if after.any (fun after => identity.val ≤ after.val) then inventoryLoop after grants hashes
      else if hashes.length = inventoryPageCap then
        match hashes.getLast? with
        | none => .error .capacityExhausted
        | some last => .ok ⟨hashes, some last⟩
      else if hashes.getLast?.any (fun previous => identity.val ≤ previous.val) then
        .error .nonAscending
      else inventoryLoop after grants (hashes ++ [identity])

def RemoteControlControllerInventory.fromGrants (grants : List RemoteControlControllerGrant)
    (page : RemoteControlControllerPage) :
    Except RemoteControlControllerInventoryError RemoteControlControllerInventory :=
  match page with
  | .first => inventoryLoop deriveIdentityHash none grants []
  | .after cursor => inventoryLoop deriveIdentityHash (some cursor) grants []

/-- A command of the host, with the controller where the host needs to know it. -/
structure HostCommand (Arguments : Type) where
  request : HostRequest Arguments
  controller : Option IdentityHash
  deriving DecidableEq

inductive AdmittedRemoteControlOperation (Arguments : Type) where
  | host (command : HostCommand Arguments)
  | describe (availableRequests : RemoteControlRequestSet)
  | announceSelf (destination : Bytes 16)
  | appMessage (payload : List UInt8)
  | watchInterfaces (streamId : Nat)
  | appMessageReady (controller : IdentityHash) (payload : List UInt8)
  | inventoryControllers (page : RemoteControlControllerPage)
  | authorizeController (controller : RemoteControlControllerIdentity)
      (permittedRequests : RemoteControlRequestSet)
  | revokeController (hash : IdentityHash)
  | authorizeControllerGrant (grant : RemoteControlControllerGrant)
  | revokeControllerGrant (controller : RemoteControlControllerIdentity)
  | inventoryControllersReady (inventory : RemoteControlControllerInventory)
  | authorizeControllerReady (outcome : RemoteControlAuthorizeControllerOutcome)
  | revokeControllerReady (outcome : RemoteControlRevokeControllerOutcome)
  | wifiTransaction (request : HostRequest Arguments)
  | protocolError (error : RemoteControlProtocolError)
  deriving DecidableEq

variable {Arguments : Type}

/-- `require_available(..)?` in front of an operation. -/
def whenAvailable (availableRequests : RemoteControlRequestSet) (kind : RemoteControlRequestKind)
    (operation : Except RemoteControlAdmitError (AdmittedRemoteControlOperation Arguments)) :
    Except RemoteControlAdmitError (AdmittedRemoteControlOperation Arguments) :=
  if availableRequests.supports kind then operation else .error .kindNotPermitted

/-- `RemoteControlRequestEndpoint::resolve`; `wifiHost` is the feature of that name. -/
def resolve (wifiHost : Bool)
    (request : Except RemoteControlRequestParseError (RemoteControlRequest Arguments))
    (availableRequests : RemoteControlRequestSet)
    (selfAnnouncement : RemoteControlSelfAnnouncement) :
    Except RemoteControlAdmitError (AdmittedRemoteControlOperation Arguments) :=
  match request with
  -- the description is made of the same set, so its own check of the kind cannot fail
  | .ok .describe => whenAvailable availableRequests .describe (.ok (.describe availableRequests))
  | .ok .announceSelf =>
      whenAvailable availableRequests .announceSelf
        (match selfAnnouncement with
        | .unavailable => .error .announceUnavailable
        | .destination destination => .ok (.announceSelf destination))
  | .ok (.appMessage payload) =>
      whenAvailable availableRequests .appMessage (.ok (.appMessage payload))
  | .ok (.watchInterfaces streamId) =>
      whenAvailable availableRequests .watchInterfaces (.ok (.watchInterfaces streamId))
  | .ok (.inventoryControllers page) =>
      whenAvailable availableRequests .inventoryControllers (.ok (.inventoryControllers page))
  | .ok (.authorizeController controller permittedRequests) =>
      whenAvailable availableRequests .authorizeController
        (.ok (.authorizeController controller permittedRequests))
  | .ok (.revokeController hash) =>
      whenAvailable availableRequests .revokeController (.ok (.revokeController hash))
  | .ok (.host request) =>
      if request.kind.needsWifiHost && !wifiHost then .error .kindNotPermitted
      else
        whenAvailable availableRequests request.kind
          (if request.kind.ofWifiTransaction then .ok (.wifiTransaction request)
          else .ok (.host ⟨request, none⟩))
  | .error error => .ok (.protocolError (.ofParseError error))

def prepareControllerGrantOperation (grants : List RemoteControlControllerGrant)
    (requester : IdentityHash) (operation : AdmittedRemoteControlOperation Arguments) :
    AdmittedRemoteControlOperation Arguments :=
  match operation with
  | .inventoryControllers page =>
      match RemoteControlControllerInventory.fromGrants deriveIdentityHash grants page with
      | .ok inventory => .inventoryControllersReady inventory
      | .error _ => .protocolError (.internalFailure .inventoryControllers)
  | .authorizeController controller permittedRequests =>
      let target := controller.identityHash deriveIdentityHash
      if target = requester ∨
          (grantFor deriveIdentityHash grants target).any (fun grant =>
            grant.authority == .administrator) then
        .authorizeControllerReady .forbidden
      else
        match RemoteControlControllerGrant.new controller .operator permittedRequests with
        | .ok grant => .authorizeControllerGrant grant
        | .error _ => .authorizeControllerReady .failed
  | .revokeController hash =>
      if hash = requester then .revokeControllerReady .forbidden
      else
        match grantFor deriveIdentityHash grants hash with
        | none => .revokeControllerReady .notFound
        | some grant =>
            if grant.authority = .administrator then .revokeControllerReady .forbidden
            else .revokeControllerGrant grant.controller
  | operation => operation

def AdmittedRemoteControlOperation.prepareHost
    (operation : AdmittedRemoteControlOperation Arguments) (controller : IdentityHash) :
    AdmittedRemoteControlOperation Arguments :=
  match operation with
  | .appMessage payload => .appMessageReady controller payload
  | .wifiTransaction request => .host ⟨request, some controller⟩
  | operation => operation

variable (wifiHost : Bool)
  (parseArguments : RemoteControlRequestKind → List UInt8 →
    Except RemoteControlRequestParseError Arguments)

def resolveAdmittedRemoteControlOperation (grants : List RemoteControlControllerGrant)
    (supportedRequests : RemoteControlRequestSet)
    (selfAnnouncement : RemoteControlSelfAnnouncement) (controller : IdentityHash)
    (request : List UInt8) :
    Except RemoteControlAdmitError (AdmittedRemoteControlOperation Arguments) :=
  match grantFor deriveIdentityHash grants controller with
  | none => .error .noGrant
  | some grant =>
      match resolve wifiHost (RemoteControlRequest.parse parseArguments request)
          (supportedRequests.intersection grant.effectiveRequests) selfAnnouncement with
      | .error e => .error e
      | .ok operation =>
          .ok ((prepareControllerGrantOperation deriveIdentityHash grants controller
            operation).prepareHost controller)

end

variable {grants : List RemoteControlControllerGrant} {grant : RemoteControlControllerGrant}
   {kind : RemoteControlRequestKind}

section

variable {deriveIdentityHash : IdentityPublicKeys → IdentityHash}

def OneGrantEach (deriveIdentityHash : IdentityPublicKeys → IdentityHash)
    (grants : List RemoteControlControllerGrant) : Prop :=
  (grants.map (grantHash deriveIdentityHash)).Nodup

theorem oneGrantEach_of_reachable {capacity : Option Nat}
    (h : ReachableGrants deriveIdentityHash capacity grants) :
    OneGrantEach deriveIdentityHash grants := by
  induction h with
  | empty => exact List.nodup_nil
  | @set grants grant _ ih =>
    unfold setControllerGrant
    split
    · rename_i index hindex
      obtain ⟨hlt, hhash, -⟩ := List.findIdx?_eq_some_iff_getElem.mp hindex
      dsimp only
      split
      · exact ih
      · -- the grant goes where one of the same hash was
        unfold OneGrantEach
        rwa [List.map_set, ← beq_iff_eq.mp hhash, ← List.getElem_map (grantHash deriveIdentityHash)
          (h := by rwa [List.length_map]), List.set_getElem_self]
    · rename_i hnone
      split
      · exact ih
      have hnew : grantHash deriveIdentityHash grant ∉
          grants.map (grantHash deriveIdentityHash) := by
        intro hmem
        obtain ⟨other, hother, hhash⟩ := List.mem_map.mp hmem
        have hfalse := List.findIdx?_eq_none_iff.mp hnone other hother
        rw [hhash, beq_self_eq_true] at hfalse
        cases hfalse
      refine (((List.perm_insertIdx _ _ ?_).map _).nodup_iff).mpr (List.nodup_cons.mpr ⟨hnew, ih⟩)
      generalize hat : grants.findIdx? _ = at'
      cases at' with
      | none => exact Nat.le_refl _
      | some index => exact Nat.le_of_lt (List.findIdx?_eq_some_iff_getElem.mp hat).1
  | revoke controller _ ih =>
    unfold revokeController
    repeat' split
    · exact ih
    · exact ih
    · exact List.Nodup.sublist ((List.eraseIdx_sublist _ _).map _) ih

variable {identity : IdentityHash}

theorem grantFor_some (h : grantFor deriveIdentityHash grants identity = some grant) :
    grant ∈ grants ∧ grantHash deriveIdentityHash grant = identity := by
  have hfound := List.find?_some h
  exact ⟨List.mem_of_find?_eq_some h, beq_iff_eq.mp hfound⟩

theorem eq_of_grantFor (hone : OneGrantEach deriveIdentityHash grants)
    {other : RemoteControlControllerGrant}
    (h : grantFor deriveIdentityHash grants identity = some grant) (hother : other ∈ grants)
    (hhash : grantHash deriveIdentityHash other = identity) : other = grant := by
  obtain ⟨hmem, hgrant⟩ := grantFor_some h
  exact List.inj_on_of_nodup_map hone hother hmem (hhash.trans hgrant.symm)

theorem grantFor_of_mem (hone : OneGrantEach deriveIdentityHash grants) (hmem : grant ∈ grants)
    (hhash : grantHash deriveIdentityHash grant = identity) :
    grantFor deriveIdentityHash grants identity = some grant := by
  cases hfound : grantFor deriveIdentityHash grants identity with
  | none =>
    have hnone := List.find?_eq_none.mp hfound grant hmem
    exact absurd (beq_iff_eq.mpr hhash) hnone
  | some found => rw [eq_of_grantFor hone hfound hmem hhash]

theorem administrator_of_permits (h : grant.permits kind = true)
    (hkind : kind.requiresAdministrator = true) : grant.authority = .administrator := by
  unfold RemoteControlControllerGrant.permits permits at h
  rw [if_pos hkind] at h
  exact beq_iff_eq.mp h

end

/-! ## What is admitted -/

section

variable {Arguments : Type} {deriveIdentityHash : IdentityPublicKeys → IdentityHash}
  {wifiHost : Bool}
  {parseArguments : RemoteControlRequestKind → List UInt8 →
    Except RemoteControlRequestParseError Arguments}
  {request : RemoteControlRequest Arguments}

theorem kind_of_parseBody {body : List UInt8}
    (h : parseBody parseArguments kind body = .ok request) :
    request.kind = kind := by
  unfold parseBody parseAuthorizeController parseRevokeController headerOnly Except.map at h
  repeat' split at h
  all_goals cases h
  all_goals rfl

theorem kind_of_parse {bytes : List UInt8}
    (h : RemoteControlRequest.parse parseArguments bytes = .ok request) :
    ∃ body, bytes = 0x01 :: request.kind.wireValue :: body := by
  unfold RemoteControlRequest.parse at h
  repeat' split at h
  · cases h
  · cases h
  · rename_i version kind body hversion _ found hfound
    have hwire := List.find?_some hfound
    rw [kind_of_parseBody h, beq_iff_eq.mp hwire, not_not.mp hversion]
    exact ⟨body, rfl⟩
  · cases h

def resolvedKind : AdmittedRemoteControlOperation Arguments → Option RemoteControlRequestKind
  | .host command => some command.request.kind
  | .describe _ => some .describe
  | .announceSelf _ => some .announceSelf
  | .appMessage _ => some .appMessage
  | .watchInterfaces _ => some .watchInterfaces
  | .inventoryControllers _ => some .inventoryControllers
  | .authorizeController _ _ => some .authorizeController
  | .revokeController _ => some .revokeController
  | .wifiTransaction request => some request.kind
  | _ => none

variable {operation : AdmittedRemoteControlOperation Arguments} {requester : IdentityHash}

theorem resolve_request {availableRequests : RemoteControlRequestSet}
    {selfAnnouncement : RemoteControlSelfAnnouncement}
    (h : resolve wifiHost (.ok request) availableRequests selfAnnouncement = .ok operation) :
    availableRequests.supports request.kind = true ∧
      resolvedKind operation = some request.kind := by
  unfold resolve at h
  split at h
  all_goals rename_i heq; cases heq
  all_goals try (split at h; · cases h)
  all_goals
    unfold whenAvailable at h
    split_ifs at h with hsupports
  all_goals try split at h
  all_goals cases h
  all_goals exact ⟨hsupports, rfl⟩

theorem prepared_authorize (hkind : resolvedKind operation = some kind)
    (h : (prepareControllerGrantOperation deriveIdentityHash grants requester
      operation).prepareHost requester = .authorizeControllerGrant grant) :
    kind = .authorizeController ∧ grantHash deriveIdentityHash grant ≠ requester ∧
      (∀ held, grantFor deriveIdentityHash grants (grantHash deriveIdentityHash grant) =
        some held → held.authority = .operator) ∧
      grant.authority = .operator := by
  unfold prepareControllerGrantOperation at h
  split at h
  · split at h <;> exact nomatch h
  · rename_i controller permittedRequests
    cases hkind
    dsimp only at h
    split at h
    · exact nomatch h
    next hallowed =>
    split at h <;> cases h
    rename_i hnew
    have hfields : grant.controller = controller ∧ grant.authority = .operator := by
      unfold RemoteControlControllerGrant.new at hnew
      split at hnew <;> cases hnew
      exact ⟨rfl, rfl⟩
    rw [not_or] at hallowed
    rw [grantHash, hfields.1]
    refine ⟨rfl, hallowed.1, ?_, hfields.2⟩
    intro held hheld
    cases hauthority : held.authority with
    | operator => rfl
    | administrator => simp [hheld, hauthority] at hallowed
  · repeat' split at h
    all_goals exact nomatch h
  · cases operation <;> first | (cases h; done) | cases hkind

/-- A grant that is taken away. -/
theorem prepared_revoke {controller : RemoteControlControllerIdentity}
    (hkind : resolvedKind operation = some kind)
    (h : (prepareControllerGrantOperation deriveIdentityHash grants requester
      operation).prepareHost requester = .revokeControllerGrant controller) :
    kind = .revokeController ∧ controller.identityHash deriveIdentityHash ≠ requester ∧
      ∃ held, grantFor deriveIdentityHash grants (controller.identityHash deriveIdentityHash) =
        some held ∧ held.authority = .operator := by
  unfold prepareControllerGrantOperation at h
  split at h
  · split at h <;> exact nomatch h
  · dsimp only at h
    repeat' split at h
    all_goals exact nomatch h
  · rename_i hash
    cases hkind
    split at h
    · exact nomatch h
    next hother =>
    split at h
    · exact nomatch h
    next held hheld =>
    split at h <;> cases h
    rename_i hauthority
    have hhash : held.controller.identityHash deriveIdentityHash = hash := (grantFor_some hheld).2
    rw [hhash]
    refine ⟨rfl, hother, held, hheld, ?_⟩
    cases hcase : held.authority with
    | operator => rfl
    | administrator => exact absurd hcase hauthority
  · cases operation <;> first | (cases h; done) | cases hkind

/-- What is admitted beyond a protocol error: the requester has a grant, its only one,
which permits the kind named in the header, and the node supports the kind. A grant is
set or revoked only for an administrator and only for a controller that is neither the
requester nor an administrator, and what is set is an operator's grant. -/
theorem admission_within_grant (deriveIdentityHash : IdentityPublicKeys → IdentityHash)
    (wifiHost : Bool)
    (parseArguments : RemoteControlRequestKind → List UInt8 →
      Except RemoteControlRequestParseError Arguments)
    {capacity : Option Nat} {grants : List RemoteControlControllerGrant}
    (hreachable : ReachableGrants deriveIdentityHash capacity grants)
    (supportedRequests : RemoteControlRequestSet)
    (selfAnnouncement : RemoteControlSelfAnnouncement) (requester : IdentityHash)
    (bytes : List UInt8) {operation : AdmittedRemoteControlOperation Arguments}
    (hadmitted : resolveAdmittedRemoteControlOperation deriveIdentityHash wifiHost parseArguments
      grants supportedRequests selfAnnouncement requester bytes = .ok operation)
    (hreply : ∀ error, operation ≠ .protocolError error) :
    ∃ kind body grant, bytes = 0x01 :: kind.wireValue :: body ∧
      grant ∈ grants ∧ grantHash deriveIdentityHash grant = requester ∧
      (∀ other ∈ grants, grantHash deriveIdentityHash other = requester → other = grant) ∧
      supportedRequests.supports kind = true ∧ grant.permits kind = true ∧
      (∀ handed, operation = .authorizeControllerGrant handed → grant.authority = .administrator ∧
        grantHash deriveIdentityHash handed ≠ requester ∧
        (∀ held ∈ grants, grantHash deriveIdentityHash held = grantHash deriveIdentityHash handed →
          held.authority = .operator) ∧
        handed.authority = .operator ∧
        ∀ request, handed.permittedRequests.supports request = true →
          request.requiresAdministrator = false) ∧
      (∀ controller, operation = .revokeControllerGrant controller →
        grant.authority = .administrator ∧
        controller.identityHash deriveIdentityHash ≠ requester ∧
        ∀ held ∈ grants,
          grantHash deriveIdentityHash held = controller.identityHash deriveIdentityHash →
          held.authority = .operator) := by
  have hone := oneGrantEach_of_reachable hreachable
  unfold resolveAdmittedRemoteControlOperation at hadmitted
  split at hadmitted
  · cases hadmitted
  next grant hgrant =>
  cases hparse : RemoteControlRequest.parse parseArguments bytes with
  | error e =>
    rw [hparse] at hadmitted
    cases hadmitted
    exact absurd rfl (hreply _)
  | ok request =>
    rw [hparse] at hadmitted
    split at hadmitted <;> cases hadmitted
    rename_i resolved hresolved
    obtain ⟨body, hbytes⟩ := kind_of_parse hparse
    obtain ⟨hsupports, hkind⟩ := resolve_request hresolved
    rw [RemoteControlRequestSet.supports_intersection, Bool.and_eq_true] at hsupports
    have hpermits : grant.permits request.kind = true := by
      rw [← hsupports.2]
      exact (supports_effectiveRequests grant.checked request.kind).symm
    obtain ⟨hmem, hhash⟩ := grantFor_some hgrant
    refine ⟨request.kind, body, grant, hbytes, hmem, hhash,
      fun other hother h => eq_of_grantFor hone hgrant hother h, hsupports.1, hpermits,
      ?_, ?_⟩
    · intro handed hhanded
      obtain ⟨hauthorize, hself, hheld, hoperator⟩ := prepared_authorize hkind hhanded
      refine ⟨administrator_of_permits hpermits (by rw [hauthorize]; rfl), hself, ?_, hoperator, ?_⟩
      · intro held hmem' hsame
        exact hheld held (grantFor_of_mem hone hmem' hsame)
      intro request hrequest
      have hchecked := handed.checked
      rw [hoperator] at hchecked
      exact handed.permittedRequests.administratorRequest_none
        (administratorRequest_of_checked hchecked) hrequest
    · intro controller hcontroller
      obtain ⟨hrevoke, hself, found, hfound, hoperator⟩ := prepared_revoke hkind hcontroller
      refine ⟨administrator_of_permits hpermits (by rw [hrevoke]; rfl), hself, ?_⟩
      intro held hmem' hsame
      rw [eq_of_grantFor hone hfound hmem' hsame]
      exact hoperator

end

theorem length_sampleHash (keys : IdentityPublicKeys) : (keys.signing.val.take 16).length = 16 := by
  rw [List.length_take, keys.signing.property]
  rfl

def sampleHash (keys : IdentityPublicKeys) : IdentityHash :=
  ⟨keys.signing.val.take 16, length_sampleHash keys⟩

theorem length_fill (fill : UInt8) : (List.replicate 32 fill).length = 32 := List.length_replicate

def sampleController (fill : UInt8) : RemoteControlControllerIdentity :=
  ⟨⟨⟨List.replicate 32 fill, length_fill fill⟩, ⟨List.replicate 32 fill, length_fill fill⟩⟩⟩

def describeOnly : RemoteControlRequestSet := (RemoteControlRequestSet.empty.insert .describe).2

def sampleGrant (fill : UInt8) (authority : RemoteControlControllerAuthority) :
    RemoteControlControllerGrant :=
  ⟨sampleController fill, authority, describeOnly, by cases authority <;> decide⟩

/-- Arguments that are not looked at. -/
def sampleArguments (_ : RemoteControlRequestKind) (_ : List UInt8) :
    Except RemoteControlRequestParseError Unit :=
  .ok ()

/-- The request of an administrator to let the controller `2` describe the node. -/
def sampleAuthorization : List UInt8 := [0x01, 0x0f] ++ List.replicate 64 2 ++ [1, 1]

/-- An administrator hands out a grant. -/
theorem admission_within_grant_handed :
    ∃ kind body grant, sampleAuthorization = 0x01 :: kind.wireValue :: body ∧
      grant ∈ [sampleGrant 1 .administrator] ∧ grant.permits kind = true ∧
      grantHash sampleHash (sampleGrant 2 .operator) ≠
        (sampleController 1).identityHash sampleHash := by
  have hreachable : ReachableGrants sampleHash none [sampleGrant 1 .administrator] :=
    ReachableGrants.set (sampleGrant 1 .administrator) .empty
  have hadmitted : resolveAdmittedRemoteControlOperation sampleHash false
      sampleArguments [sampleGrant 1 .administrator]
      (describeOnly.insert .authorizeController).2 .unavailable
      ((sampleController 1).identityHash sampleHash) sampleAuthorization =
        .ok (.authorizeControllerGrant (sampleGrant 2 .operator)) := by
    decide
  obtain ⟨kind, body, grant, hbytes, hmem, -, -, -, hpermits, hhanded, -⟩ :=
    admission_within_grant sampleHash false sampleArguments hreachable _ _ _ _ hadmitted
      (fun _ h => by cases h)
  exact ⟨kind, body, grant, hbytes, hmem, hpermits, (hhanded _ rfl).2.1⟩

end Prns.Ports.RemoteControl
