import Prns.Ports.MessagePackRoundTrip
import Prns.Verified.Bytes
import Prns.Verified.TwoPages

/-!
# Records of the Wi-Fi credential store

The record of `wifi_configuration_store.rs`: a header with the generation, a commit
marker, and a sealed plaintext of fixed length that holds the confirmed credential, the
candidate of a transaction with its controller, and the next revision.

Sealing is a parameter with two laws: what was sealed opens to itself, and a sealed
plaintext has the length the source computes for it.
-/

namespace Prns.Ports.WifiStore

open Verified
open MessagePack (fromUtf8 fromUtf8_toList)

def ssidCap : Nat := 32
def passwordCap : Nat := 64
def magic : List UInt8 := [0x48, 0x57, 0x43, 0x31]
def schemaVersion : Nat := 1
def headerLen : Nat := 16
def commitOffset : Nat := headerLen
def commitLen : Nat := 16
def tokenOffset : Nat := commitOffset + commitLen
def commitMarker : List UInt8 :=
  [0x48, 0x4f, 0x50, 0x57, 0x49, 0x46, 0x49, 0x2d, 0x43, 0x4f, 0x4d, 0x4d, 0x49, 0x54, 0x31, 0x21]
def revisionLen : Nat := 4
def controllerLen : Nat := 16
def credentialLen : Nat := 1 + ssidCap + 1 + passwordCap
def plainLen : Nat :=
  1 + 8 + revisionLen + 1 + revisionLen + credentialLen + 1 + revisionLen + controllerLen +
    credentialLen
def sealedLen (plaintextLen : Nat) : Nat := 16 + (plaintextLen / 16 + 1) * 16 + 32
def tokenLen : Nat := sealedLen plainLen
def recordLen : Nat := tokenOffset + tokenLen

def stateFactory : UInt8 := 0
def stateConfirmed : UInt8 := 1
def stateStaged : UInt8 := 2
def stateAwaitingConfirmation : UInt8 := 3

def utf8 (text : String) : List UInt8 := text.toByteArray.data.toList

/-- `RemoteControlWifiStation`: its constructor is `parse`. -/
structure WifiStation where
  ssid : String
  password : String
  named : (utf8 ssid).length ≠ 0
  ssidFits : (utf8 ssid).length ≤ ssidCap
  passwordFits : (utf8 password).length ≤ passwordCap
  deriving DecidableEq

inductive WifiStationParseError where
  | emptySsid | ssidTooLong | passwordTooLong
  deriving DecidableEq, Repr

def WifiStation.parse (ssid password : String) : Except WifiStationParseError WifiStation :=
  if hempty : (utf8 ssid).length = 0 then .error .emptySsid
  else if hssid : ssidCap < (utf8 ssid).length then .error .ssidTooLong
  else if hpassword : passwordCap < (utf8 password).length then .error .passwordTooLong
  else .ok ⟨ssid, password, hempty, Nat.le_of_not_lt hssid, Nat.le_of_not_lt hpassword⟩

variable (station : WifiStation)

theorem WifiStation.parse_self : WifiStation.parse station.ssid station.password = .ok station := by
  unfold WifiStation.parse
  rw [dif_neg station.named, dif_neg (Nat.not_lt.mpr station.ssidFits),
    dif_neg (Nat.not_lt.mpr station.passwordFits)]

/-- `RemoteControlWifiCredentialRevision`. -/
structure Revision where
  get : UInt32
  ne_zero : get ≠ 0
  deriving DecidableEq

def Revision.new (value : UInt32) : Option Revision :=
  if h : value = 0 then none else some ⟨value, h⟩

variable (revision : Revision)

theorem Revision.new_get : Revision.new revision.get = some revision :=
  dif_neg revision.ne_zero

/-- `IdentityHash`. -/
structure Controller where
  bytes : List UInt8
  length_eq : bytes.length = controllerLen
  deriving DecidableEq

structure StoredCredential where
  revision : Revision
  station : WifiStation
  deriving DecidableEq

structure CandidateCredential where
  controller : Controller
  credential : StoredCredential
  deriving DecidableEq

inductive TransactionPhase where
  | staged | awaitingConfirmation
  deriving DecidableEq, Repr

structure StoredState where
  generation : UInt64
  nextRevision : UInt32
  confirmed : Option StoredCredential
  candidate : Option CandidateCredential
  phase : Option TransactionPhase
  deriving DecidableEq

def StoredState.factory : StoredState where
  generation := 0
  nextRevision := 1
  confirmed := none
  candidate := none
  phase := none

/-! ## The plaintext -/

def zeros (n : Nat) : List UInt8 := List.replicate n 0

def padded (bytes : List UInt8) (len : Nat) : List UInt8 := bytes ++ zeros (len - bytes.length)

/-- `write_station`. -/
def encodeStation (station : WifiStation) : List UInt8 :=
  UInt8.ofNat (utf8 station.ssid).length :: (padded (utf8 station.ssid) ssidCap ++
    UInt8.ofNat (utf8 station.password).length :: padded (utf8 station.password) passwordCap)

def readStation (bytes : List UInt8) : Option WifiStation :=
  let passwordLenOffset := 1 + ssidCap
  let ssidLen := (byteAt bytes 0).toNat
  let passwordLen := (byteAt bytes passwordLenOffset).toNat
  if bytes.length ≠ credentialLen then none
  else if ssidLen = 0 ∨ ssidCap < ssidLen ∨ passwordCap < passwordLen ∨
      (field bytes (1 + ssidLen) (passwordLenOffset - (1 + ssidLen))).any (· != 0) ∨
      (bytes.drop (passwordLenOffset + 1 + passwordLen)).any (· != 0) then none
  else do
    let ssid ← fromUtf8 (field bytes 1 ssidLen)
    let password ← fromUtf8 (field bytes (passwordLenOffset + 1) passwordLen)
    (WifiStation.parse ssid password).toOption

def revisionBytes (revision : Revision) : List UInt8 := beBytes revisionLen revision.get.toNat

def readRevision (bytes : List UInt8) : Option Revision :=
  Revision.new (UInt32.ofNat (ofBeBytes bytes))

/-- `write_credential`. -/
def encodeCredential (credential : StoredCredential) : List UInt8 :=
  revisionBytes credential.revision ++ encodeStation credential.station

def readCredential (bytes : List UInt8) : Option StoredCredential :=
  if bytes.length ≠ revisionLen + credentialLen then none
  else do
    let revision ← readRevision (bytes.take revisionLen)
    let station ← readStation (bytes.drop revisionLen)
    some { revision := revision, station := station }

def encodeConfirmed : Option StoredCredential → List UInt8
  | none => 0 :: zeros (revisionLen + credentialLen)
  | some credential => 1 :: encodeCredential credential

def readConfirmed (present : UInt8) (region : List UInt8) : Option (Option StoredCredential) :=
  if present = 0 ∧ region.all (· == 0) then some none
  else if present = 1 then (readCredential region).map some
  else none

def encodeCandidate : Option CandidateCredential → List UInt8
  | none => 0 :: zeros (revisionLen + controllerLen + credentialLen)
  | some candidate =>
    1 :: (revisionBytes candidate.credential.revision ++ (candidate.controller.bytes ++
      encodeStation candidate.credential.station))

def readController (bytes : List UInt8) : Option Controller :=
  if h : bytes.length = controllerLen then some ⟨bytes, h⟩ else none

def readCandidate (present : UInt8) (region : List UInt8) : Option (Option CandidateCredential) :=
  if present = 0 ∧ region.all (· == 0) then some none
  else if present = 1 then do
    let revision ← readRevision (region.take revisionLen)
    let controller ← readController (field region revisionLen controllerLen)
    let station ← readStation (region.drop (revisionLen + controllerLen))
    some (some
      { controller := controller, credential := { revision := revision, station := station } })
  else none

def encodeTag (state : StoredState) : Option UInt8 :=
  match state.candidate, state.phase, state.confirmed with
  | none, none, none => some stateFactory
  | none, none, some _ => some stateConfirmed
  | some _, some .staged, _ => some stateStaged
  | some _, some .awaitingConfirmation, _ => some stateAwaitingConfirmation
  | _, _, _ => none

def readPhase (tag : UInt8) (confirmed : Option StoredCredential)
    (candidate : Option CandidateCredential) : Option (Option TransactionPhase) :=
  if tag = stateFactory ∧ confirmed.isNone ∧ candidate.isNone then some none
  else if tag = stateConfirmed ∧ confirmed.isSome ∧ candidate.isNone then some none
  else if tag = stateStaged ∧ candidate.isSome then some (some .staged)
  else if tag = stateAwaitingConfirmation ∧ candidate.isSome then
    some (some .awaitingConfirmation)
  else none

def encodePlain (state : StoredState) : Option (List UInt8) :=
  (encodeTag state).map fun tag =>
    tag :: (beBytes 8 state.generation.toNat ++ (beBytes 4 state.nextRevision.toNat ++
      (encodeConfirmed state.confirmed ++ encodeCandidate state.candidate)))

def confirmedOffset : Nat := 13
def candidateOffset : Nat := confirmedOffset + 1 + revisionLen + credentialLen

def decodePlain (generation : UInt64) (plain : List UInt8) : Option StoredState :=
  let nextRevision := UInt32.ofNat (ofBeBytes (field plain 9 4))
  if plain.length ≠ plainLen ∨ UInt64.ofNat (ofBeBytes (field plain 1 8)) ≠ generation then none
  else if nextRevision = 0 then none
  else do
    let confirmed ← readConfirmed (byteAt plain confirmedOffset)
      (field plain (confirmedOffset + 1) (revisionLen + credentialLen))
    let candidate ← readCandidate (byteAt plain candidateOffset)
      (field plain (candidateOffset + 1) (revisionLen + controllerLen + credentialLen))
    let phase ← readPhase (byteAt plain 0) confirmed candidate
    some
      { generation := generation
        nextRevision := nextRevision
        confirmed := confirmed
        candidate := candidate
        phase := phase }

/-- `token_seal` and `token_open` under the key of the store. -/
structure Sealing where
  wrap : Vector UInt8 16 → List UInt8 → List UInt8
  unwrap : List UInt8 → Option (List UInt8)
  length_wrap : ∀ iv plain, plain.length = plainLen → (wrap iv plain).length = tokenLen
  unwrap_wrap : ∀ iv plain, plain.length = plainLen → unwrap (wrap iv plain) = some plain

def header (generation : UInt64) : List UInt8 :=
  magic ++ beBytes 2 schemaVersion ++ [0, 0] ++ beBytes 8 generation.toNat

section

variable (sealing : Sealing)

def encodeRecord (state : StoredState) (iv : Vector UInt8 16) : Option (List UInt8) := do
  let plain ← encodePlain state
  let token := sealing.wrap iv plain
  if token.length ≠ tokenLen then none
  else some (header state.generation ++ (List.replicate commitLen 0xFF ++ token))

def decodeRecord (bytes : List UInt8) : Option StoredState :=
  if field bytes 0 4 ≠ magic ∨ field bytes 4 2 ≠ beBytes 2 schemaVersion ∨
      field bytes 6 2 ≠ [0, 0] ∨ field bytes commitOffset commitLen ≠ commitMarker then none
  else do
    let plain ← sealing.unwrap (bytes.drop tokenOffset)
    if plain.length ≠ plainLen then none
    else decodePlain (UInt64.ofNat (ofBeBytes (field bytes 8 8))) plain

end

/-! ## Round trips -/

variable {bytes : List UInt8} {state : StoredState}

theorem length_padded {len : Nat} (h : bytes.length ≤ len) : (padded bytes len).length = len := by
  rw [padded, List.length_append, zeros, List.length_replicate]
  omega

theorem zeros_any (n : Nat) : (zeros n).any (· != 0) = false := by
  rw [List.any_eq_false]
  intro b hb
  rw [List.eq_of_mem_replicate hb]
  decide

theorem zeros_all (n : Nat) : (zeros n).all (· == 0) = true := by
  rw [List.all_eq_true]
  intro b hb
  rw [List.eq_of_mem_replicate hb]
  rfl

theorem length_encodeStation : (encodeStation station).length = credentialLen := by
  rw [encodeStation, List.length_cons, List.length_append, List.length_cons,
    length_padded station.ssidFits, length_padded station.passwordFits]
  rfl

theorem encodeStation_eq :
    encodeStation station = [UInt8.ofNat (utf8 station.ssid).length] ++ (utf8 station.ssid ++
      (zeros (ssidCap - (utf8 station.ssid).length) ++
        (UInt8.ofNat (utf8 station.password).length :: (utf8 station.password ++
          zeros (passwordCap - (utf8 station.password).length))))) := by
  simp only [encodeStation, padded, List.append_assoc, List.singleton_append]

theorem readStation_encodeStation : readStation (encodeStation station) = some station := by
  have hssidText : fromUtf8 (utf8 station.ssid) = some station.ssid := fromUtf8_toList _
  have hpasswordText : fromUtf8 (utf8 station.password) = some station.password := fromUtf8_toList _
  have hssid := station.ssidFits
  have hpassword := station.passwordFits
  have hnamed := station.named
  have hlen := length_encodeStation station
  have hencoded := encodeStation_eq station
  have hcap : ssidCap = 32 := rfl
  have hpasswordCap : passwordCap = 64 := rfl
  generalize encodeStation station = bytes at hlen hencoded ⊢
  generalize utf8 station.ssid = s at *
  generalize utf8 station.password = p at *
  have hzeros : ∀ n, (zeros n).length = n := fun n => List.length_replicate
  have hfirst : (byteAt bytes 0).toNat = s.length := by
    rw [hencoded]
    show (UInt8.ofNat s.length).toNat = s.length
    rw [UInt8.toNat_ofNat']
    omega
  have hsecond : (byteAt bytes (1 + ssidCap)).toNat = p.length := by
    rw [hencoded, ← List.append_assoc, ← List.append_assoc, byteAt_middle, UInt8.toNat_ofNat']
    · omega
    · simp only [List.length_append, List.length_singleton, hzeros]
      omega
  have hssidField : field bytes 1 s.length = s := by
    rw [hencoded]
    exact field_middle rfl rfl
  have hgap : field bytes (1 + s.length) (1 + ssidCap - (1 + s.length)) =
      zeros (ssidCap - s.length) := by
    rw [hencoded, ← List.append_assoc]
    apply field_middle
    · rw [List.length_append, List.length_singleton]
    · rw [hzeros]
      omega
  obtain ⟨front, hfront, hjoined⟩ : ∃ front : List UInt8, front.length = 1 + ssidCap + 1 ∧
      bytes = front ++ (p ++ zeros (passwordCap - p.length)) := by
    refine ⟨[UInt8.ofNat s.length] ++ s ++ zeros (ssidCap - s.length) ++ [UInt8.ofNat p.length],
      ?_, ?_⟩
    · simp only [List.length_append, List.length_singleton, hzeros]
      omega
    · rw [hencoded]
      simp only [List.append_assoc, List.cons_append, List.nil_append]
  have hpasswordField : field bytes (1 + ssidCap + 1) p.length = p := by
    rw [hjoined]
    exact field_middle hfront rfl
  have hrest : bytes.drop (1 + ssidCap + 1 + p.length) = zeros (passwordCap - p.length) := by
    rw [hjoined, ← List.append_assoc]
    apply List.drop_left'
    rw [List.length_append, hfront]
  unfold readStation
  dsimp only
  rw [hfirst, hsecond, if_neg (fun h => h hlen), hssidField, hgap, hpasswordField, hrest,
    zeros_any, zeros_any, if_neg, hssidText, hpasswordText]
  · show (WifiStation.parse station.ssid station.password).toOption = some station
    rw [station.parse_self]
    rfl
  rintro (h | h | h | h | h)
  · exact hnamed h
  · omega
  · omega
  · exact nomatch h
  · exact nomatch h

theorem length_revisionBytes : (revisionBytes revision).length = revisionLen := length_beBytes ..

theorem readRevision_revisionBytes : readRevision (revisionBytes revision) = some revision := by
  rw [readRevision, revisionBytes, ofBeBytes_beBytes revision.get.toNat_lt, UInt32.ofNat_toNat,
    revision.new_get]

theorem readConfirmed_encodeConfirmed (confirmed : Option StoredCredential) :
    ∃ present region, encodeConfirmed confirmed = present :: region ∧
      region.length = revisionLen + credentialLen ∧
      readConfirmed present region = some confirmed := by
  cases confirmed with
  | none =>
    refine ⟨0, zeros (revisionLen + credentialLen), rfl, List.length_replicate, ?_⟩
    exact if_pos ⟨rfl, zeros_all _⟩
  | some credential =>
    have hlen : (encodeCredential credential).length = revisionLen + credentialLen := by
      rw [encodeCredential, List.length_append, length_revisionBytes, length_encodeStation]
    refine ⟨1, encodeCredential credential, rfl, hlen, ?_⟩
    unfold readConfirmed readCredential
    rw [if_neg (fun h => absurd h.1 (by decide)), if_pos rfl, if_neg (fun h => h hlen),
      encodeCredential, List.take_left' (length_revisionBytes _),
      List.drop_left' (length_revisionBytes _), readRevision_revisionBytes,
      readStation_encodeStation]
    rfl

theorem readCandidate_encodeCandidate (candidate : Option CandidateCredential) :
    ∃ present region, encodeCandidate candidate = present :: region ∧
      region.length = revisionLen + controllerLen + credentialLen ∧
      readCandidate present region = some candidate := by
  cases candidate with
  | none =>
    refine ⟨0, zeros (revisionLen + controllerLen + credentialLen), rfl, List.length_replicate, ?_⟩
    exact if_pos ⟨rfl, zeros_all _⟩
  | some candidate =>
    have hcontroller := candidate.controller.length_eq
    have hrevision := length_revisionBytes candidate.credential.revision
    have hdrop : (revisionBytes candidate.credential.revision ++ (candidate.controller.bytes ++
        encodeStation candidate.credential.station)).drop (revisionLen + controllerLen) =
        encodeStation candidate.credential.station := by
      rw [← List.append_assoc]
      apply List.drop_left'
      rw [List.length_append, hrevision, hcontroller]
    refine ⟨1, _, rfl, ?_, ?_⟩
    · rw [List.length_append, List.length_append, hrevision, hcontroller, length_encodeStation,
        Nat.add_assoc]
    unfold readCandidate
    rw [if_neg (fun h => absurd h.1 (by decide)), if_pos rfl, List.take_left' hrevision,
      field_middle hrevision hcontroller, hdrop, readRevision_revisionBytes,
      readStation_encodeStation, readController, dif_pos hcontroller]
    rfl

theorem readPhase_encodeTag {tag : UInt8} (h : encodeTag state = some tag) :
    readPhase tag state.confirmed state.candidate = some state.phase := by
  obtain ⟨generation, nextRevision, confirmed, candidate, phase⟩ := state
  rcases confirmed with _ | credential <;> rcases candidate with _ | candidate <;>
    rcases phase with _ | _ | _ <;> cases h <;> rfl

theorem ofBeBytes_generation (generation : UInt64) :
    UInt64.ofNat (ofBeBytes (beBytes 8 generation.toNat)) = generation := by
  rw [ofBeBytes_beBytes (by simpa using generation.toNat_lt), UInt64.ofNat_toNat]

section

variable {plain : List UInt8}

theorem length_encodePlain (h : encodePlain state = some plain) : plain.length = plainLen := by
  obtain ⟨tag, -, rfl⟩ := Option.map_eq_some_iff.mp h
  obtain ⟨present, region, hconfirmed, hregion, -⟩ := readConfirmed_encodeConfirmed state.confirmed
  obtain ⟨present', region', hcandidate, hregion', -⟩ :=
    readCandidate_encodeCandidate state.candidate
  rw [hconfirmed, hcandidate]
  simp only [List.length_cons, List.length_append, length_beBytes, hregion, hregion']
  rfl

/-- **The plaintext is exact**: it decodes to the state it was made of. -/
theorem decodePlain_encodePlain (h : encodePlain state = some plain)
    (hnext : state.nextRevision ≠ 0) : decodePlain state.generation plain = some state := by
  have hlen := length_encodePlain h
  obtain ⟨tag, htag, rfl⟩ := Option.map_eq_some_iff.mp h
  obtain ⟨present, region, hconfirmed, hregion, hreadConfirmed⟩ :=
    readConfirmed_encodeConfirmed state.confirmed
  obtain ⟨present', region', hcandidate, hregion', hreadCandidate⟩ :=
    readCandidate_encodeCandidate state.candidate
  have hrevision : UInt32.ofNat (ofBeBytes (beBytes 4 state.nextRevision.toNat)) =
      state.nextRevision := by
    rw [ofBeBytes_beBytes (by simpa using state.nextRevision.toNat_lt), UInt32.ofNat_toNat]
  rw [hconfirmed, hcandidate] at hlen ⊢
  have hpresent' : byteAt (region ++ present' :: region') (revisionLen + credentialLen) =
      present' := byteAt_middle hregion
  have hregionField : (region ++ present' :: region').take (revisionLen + credentialLen) =
      region := List.take_left' hregion
  have hregionField' : field (region ++ present' :: region') (revisionLen + credentialLen + 1)
      (revisionLen + controllerLen + credentialLen) = region' := by
    rw [← List.singleton_append, ← List.append_assoc]
    exact field_last (by rw [List.length_append, hregion]; rfl) hregion'
  unfold decodePlain
  rw [if_neg]
  · show (if UInt32.ofNat (ofBeBytes (beBytes 4 state.nextRevision.toNat)) = 0 then none else do
      let confirmed ← readConfirmed present
        ((region ++ present' :: region').take (revisionLen + credentialLen))
      let candidate ← readCandidate
        (byteAt (region ++ present' :: region') (revisionLen + credentialLen))
        (field (region ++ present' :: region') (revisionLen + credentialLen + 1)
          (revisionLen + controllerLen + credentialLen))
      let phase ← readPhase tag confirmed candidate
      some (StoredState.mk state.generation
        (UInt32.ofNat (ofBeBytes (beBytes 4 state.nextRevision.toNat))) confirmed candidate
        phase)) = some state
    rw [hrevision, if_neg hnext, hpresent', hregionField, hregionField', hreadConfirmed,
      hreadCandidate]
    show (do
      let phase ← readPhase tag state.confirmed state.candidate
      some (StoredState.mk state.generation state.nextRevision state.confirmed state.candidate
        phase)) = some state
    rw [readPhase_encodeTag htag]
    rfl
  · rintro (hbad | hbad)
    · exact hbad hlen
    · exact hbad (ofBeBytes_generation _)

end

/-- A state that can be written: a candidate has a phase, and revisions are left. -/
structure WellFormed (state : StoredState) : Prop where
  nextRevision : state.nextRevision ≠ 0
  phase : state.candidate.isSome = state.phase.isSome

theorem wellFormed_factory : WellFormed StoredState.factory := ⟨by decide, rfl⟩

theorem encodeTag_isSome (h : WellFormed state) : ∃ tag, encodeTag state = some tag := by
  have hphase := h.phase
  obtain ⟨generation, nextRevision, confirmed, candidate, phase⟩ := state
  rcases confirmed with _ | credential <;> rcases candidate with _ | candidate <;>
    rcases phase with _ | _ | _ <;> first | exact ⟨_, rfl⟩ | exact nomatch hphase

section

variable {sealing : Sealing}

theorem wellFormed_of_decodeRecord (h : decodeRecord sealing bytes = some state) :
    WellFormed state := by
  unfold decodeRecord at h
  split_ifs at h
  simp only [Option.bind_eq_bind, Option.bind_eq_some_iff] at h
  obtain ⟨plain, -, hplain⟩ := h
  split_ifs at hplain
  unfold decodePlain at hplain
  dsimp only at hplain
  split_ifs at hplain with hframed hnext
  simp only [Option.bind_eq_bind, Option.bind_eq_some_iff, Option.some.injEq] at hplain
  obtain ⟨confirmed, -, candidate, -, phase, hphase, rfl⟩ := hplain
  refine ⟨hnext, ?_⟩
  unfold readPhase at hphase
  cases candidate <;> simp at hphase <;> split_ifs at hphase <;> grind

/-- **The record codec is exact**: a record can be made of every well-formed state, and
once it carries the marker it decodes to that state. -/
theorem encodeRecord_decodes (h : WellFormed state) (iv : Vector UInt8 16) :
    ∃ token : List UInt8, token.length = tokenLen ∧ encodeRecord sealing state iv =
        some (header state.generation ++ (List.replicate commitLen 0xFF ++ token)) ∧
      decodeRecord sealing (header state.generation ++ (commitMarker ++ token)) = some state := by
  obtain ⟨tag, htag⟩ := encodeTag_isSome h
  obtain ⟨plain, hplain⟩ : ∃ plain, encodePlain state = some plain :=
    ⟨_, by rw [encodePlain, htag, Option.map_some]⟩
  have hlen := length_encodePlain hplain
  have htoken := sealing.length_wrap iv plain hlen
  refine ⟨sealing.wrap iv plain, htoken, ?_, ?_⟩
  · rw [encodeRecord, hplain]
    exact if_neg (fun hne => hne htoken)
  unfold decodeRecord
  show (do
    let plain ← sealing.unwrap (sealing.wrap iv plain)
    if plain.length ≠ plainLen then none
    else decodePlain (UInt64.ofNat (ofBeBytes (beBytes 8 state.generation.toNat))) plain) = _
  rw [sealing.unwrap_wrap iv plain hlen, ofBeBytes_generation]
  show (if plain.length ≠ plainLen then none else decodePlain state.generation plain) = _
  rw [if_neg (fun hne => hne hlen), decodePlain_encodePlain hplain h.nextRevision]

end

end Prns.Ports.WifiStore
