import Prns.Ports.RadioProfile
import Prns.Ports.SnapshotEnvelope
import Prns.Verified.Bytes

/-!
# Records of the radio configuration store

The 48-byte record of `subg_configuration_store.rs`: magic, schema, kind, generation,
length of the payload, a CRC32 over the record with checksum and commit field zeroed, the
commit field, and sixteen bytes of payload. `decodeRecord` also reads the records of the
first schema. With the 2.4 GHz feature a record of that band is a profile; without it
such a record is kept as its bytes and is not a configuration.

The main result is that a record which is written and committed decodes to exactly the
value it was made of, for every region, modulation, power and preamble.
-/

namespace Prns.Ports.SubGStore

open Verified
open Persistence (crc32)
open Radio

def magic : List UInt8 := [0x48, 0x53, 0x4C, 0x50]
def legacySchemaVersion : Nat := 1
def schemaVersion : Nat := 2
def legacyProfileKind : UInt8 := 1
def legacyDefaultKind : UInt8 := 2
def configurationKind : UInt8 := 3
def unconfiguredKind : UInt8 := 4
def ghz24ConfigurationKind : UInt8 := 5
def modeAutoLora : UInt8 := 1
def modeManualLora : UInt8 := 2
/-- `COMMIT_WORD` in little-endian bytes. -/
def commitWord : List UInt8 := [0x43, 0x4D, 0x49, 0x54]
def recordLen : Nat := 48
def profilePayloadLen : Nat := 12
def manualConfigurationPayloadLen : Nat := profilePayloadLen + 1
def modeConfigurationPayloadLen : Nat := 2
def checksumOffset : Nat := 20
def commitOffset : Nat := 28
def payloadOffset : Nat := 32

/-- `unsupportedGhz24` is the form of a 2.4 GHz record without the feature. -/
inductive StoredValue where
  | configuration (configuration : SubGConfiguration)
  | ghz24 (profile : Ghz24Profile)
  | unsupportedGhz24 (payload : List UInt8)
  | unconfigured
  deriving DecidableEq

def StoredValue.state : StoredValue → Option LoRaConfigurationState
  | .configuration subG => some (.configured (.subG subG))
  | .unconfigured => some .unconfigured
  | .ghz24 profile => some (.configured (.ghz24 profile))
  | .unsupportedGhz24 _ => none

structure StoredRecord where
  generation : UInt64
  value : StoredValue
  legacy : Bool
  deriving DecidableEq

/-! ## Payloads -/

def regionCode : SubGRegion → UInt8
  | .regulated .us915 => 1
  | .regulated .au915 => 2
  | .regulated .eu433 => 3
  | .regulated .eu865 => 4
  | .regulated .eu868 => 5
  | .regulated .eu869 => 6
  | .regulated .as923 => 7
  | .regulated .in865 => 8
  | .regulated .cn470 => 9
  | .regulated .kr920 => 10
  | .regulated .jp920 => 11
  | .custom => 12

def decodeRegion (value : UInt8) : Option SubGRegion :=
  if value = 1 then some (.regulated .us915)
  else if value = 2 then some (.regulated .au915)
  else if value = 3 then some (.regulated .eu433)
  else if value = 4 then some (.regulated .eu865)
  else if value = 5 then some (.regulated .eu868)
  else if value = 6 then some (.regulated .eu869)
  else if value = 7 then some (.regulated .as923)
  else if value = 8 then some (.regulated .in865)
  else if value = 9 then some (.regulated .cn470)
  else if value = 10 then some (.regulated .kr920)
  else if value = 11 then some (.regulated .jp920)
  else if value = 12 then some .custom
  else none

def bandwidthCode : LoraBandwidth → UInt8
  | .bw125kHz => 1
  | .bw250kHz => 2
  | .bw500kHz => 3
  | .bw203kHz => 4
  | .bw406kHz => 5
  | .bw812kHz => 6

def decodeBandwidth (lora2g4 : Bool) (value : UInt8) : Option LoraBandwidth :=
  if value = 1 then some .bw125kHz
  else if value = 2 then some .bw250kHz
  else if value = 3 then some .bw500kHz
  else if lora2g4 then
    if value = 4 then some .bw203kHz
    else if value = 5 then some .bw406kHz
    else if value = 6 then some .bw812kHz
    else none
  else none

def decodeSpreadingFactor (value : UInt8) : Option SpreadingFactor :=
  if value = 5 then some .sf5
  else if value = 6 then some .sf6
  else if value = 7 then some .sf7
  else if value = 8 then some .sf8
  else if value = 9 then some .sf9
  else if value = 10 then some .sf10
  else if value = 11 then some .sf11
  else if value = 12 then some .sf12
  else none

def decodeCodingRate (value : UInt8) : Option CodingRate :=
  if value = 5 then some .cr45
  else if value = 6 then some .cr46
  else if value = 7 then some .cr47
  else if value = 8 then some .cr48
  else none

def encodeParameters (parameters : LoRaParameters) (region : UInt8) : List UInt8 :=
  leBytes 4 parameters.frequency.toNat ++
    [parameters.modulation.spreadingFactor.number, bandwidthCode parameters.modulation.bandwidth,
      parameters.modulation.codingRate.denominator, parameters.txPower.toUInt8] ++
    leBytes 2 parameters.preamble.toNat ++ [region, 0]

def decodeParameters (lora2g4 : Bool) (bytes : List UInt8) : Option LoRaParameters :=
  if bytes.length ≠ profilePayloadLen ∨ byteAt bytes 11 ≠ 0 then none
  else do
    let spreadingFactor ← decodeSpreadingFactor (byteAt bytes 4)
    let bandwidth ← decodeBandwidth lora2g4 (byteAt bytes 5)
    let codingRate ← decodeCodingRate (byteAt bytes 6)
    some
      { frequency := UInt32.ofNat (ofLeBytes (field bytes 0 4))
        modulation :=
          { spreadingFactor := spreadingFactor, bandwidth := bandwidth, codingRate := codingRate }
        txPower := (byteAt bytes 7).toInt8
        preamble := UInt16.ofNat (ofLeBytes (field bytes 8 2)) }

def encodeProfile (profile : RadioProfile) : List UInt8 :=
  encodeParameters profile.parameters (regionCode profile.region)

def decodeProfile (lora2g4 : Bool) (bytes : List UInt8) : Option RadioProfile := do
  let parameters ← decodeParameters lora2g4 bytes
  let region ← decodeRegion (byteAt bytes 10)
  (RadioProfile.new region parameters).toOption

def decodeGhz24 (lora2g4 : Bool) (bytes : List UInt8) : Option Ghz24Profile := do
  let parameters ← decodeParameters lora2g4 bytes
  if byteAt bytes 10 ≠ 0 then none else (Ghz24Profile.new parameters).toOption

def encodeConfiguration : SubGConfiguration → List UInt8
  | .manualLora profile => modeManualLora :: encodeProfile profile
  | .autoLora profile _ => [modeAutoLora, regionCode profile.region]

def decodeConfiguration (lora2g4 : Bool) (bytes : List UInt8) : Option SubGConfiguration :=
  match bytes.head? with
  | none => none
  | some mode =>
    if mode = modeAutoLora ∧ bytes.length = modeConfigurationPayloadLen then do
      let region ← decodeRegion (byteAt bytes 1)
      (SubGConfiguration.autoLoraFor region).toOption
    else if mode = modeManualLora ∧ bytes.length = manualConfigurationPayloadLen then do
      let profile ← decodeProfile lora2g4 (bytes.drop 1)
      some (.manualLora profile)
    else none

def StoredValue.kind : StoredValue → UInt8
  | .configuration _ => configurationKind
  | .unconfigured => unconfiguredKind
  | .ghz24 _ => ghz24ConfigurationKind
  | .unsupportedGhz24 _ => ghz24ConfigurationKind

def StoredValue.payload : StoredValue → List UInt8
  | .configuration subG => encodeConfiguration subG
  | .unconfigured => []
  | .ghz24 profile => encodeParameters profile.parameters 0
  | .unsupportedGhz24 payload => payload

/-- The bytes of a record with the given checksum and commit fields. What the payload
leaves of its sixteen bytes stays erased. -/
def layout (generation : UInt64) (value : StoredValue) (checksum commit : List UInt8) :
    List UInt8 :=
  magic ++ leBytes 2 schemaVersion ++ [value.kind, 0] ++ leBytes 8 generation.toNat ++
    leBytes 2 value.payload.length ++ [0, 0] ++ checksum ++ [0, 0, 0, 0] ++ commit ++
    (value.payload ++ List.replicate (recordLen - payloadOffset - value.payload.length) 0xFF)

def checksumOf (generation : UInt64) (value : StoredValue) : List UInt8 :=
  leBytes 4 (crc32 (layout generation value [0, 0, 0, 0] [0, 0, 0, 0])).toNat

def encodeRecord (generation : UInt64) (value : StoredValue) : List UInt8 :=
  layout generation value (checksumOf generation value) [0xFF, 0xFF, 0xFF, 0xFF]

/-- The record with checksum and commit field zeroed. -/
def canonical (bytes : List UInt8) : List UInt8 :=
  bytes.take checksumOffset ++ [0, 0, 0, 0] ++ field bytes 24 4 ++ [0, 0, 0, 0] ++
    bytes.drop payloadOffset

def decodeValue (lora2g4 : Bool) (schema : Nat) (kind : UInt8) (payloadLen : Nat)
    (payload : List UInt8) : Option (StoredValue × Bool) :=
  if schema = legacySchemaVersion ∧ kind = legacyProfileKind ∧ payloadLen = profilePayloadLen then do
    let profile ← decodeProfile lora2g4 (payload.take profilePayloadLen)
    some (.configuration (.manualLora profile), true)
  else if schema = legacySchemaVersion ∧ kind = legacyDefaultKind ∧ payloadLen = 0 then do
    let configuration ← (SubGConfiguration.autoLoraFor (.regulated .us915)).toOption
    some (.configuration configuration, true)
  else if schema = schemaVersion ∧ kind = configurationKind ∧
      payloadLen ≤ recordLen - payloadOffset then do
    let configuration ← decodeConfiguration lora2g4 (payload.take payloadLen)
    some (.configuration configuration, false)
  else if schema = schemaVersion ∧ kind = ghz24ConfigurationKind ∧
      payloadLen = profilePayloadLen then
    if lora2g4 then do
      let profile ← decodeGhz24 lora2g4 (payload.take profilePayloadLen)
      some (.ghz24 profile, false)
    else some (.unsupportedGhz24 (payload.take profilePayloadLen), false)
  else if schema = schemaVersion ∧ kind = unconfiguredKind ∧ payloadLen = 0 then
    some (.unconfigured, false)
  else none

def wellFramed (bytes : List UInt8) : Bool :=
  let schema := ofLeBytes (field bytes 4 2)
  field bytes 0 4 == magic && (schema == legacySchemaVersion || schema == schemaVersion) &&
    byteAt bytes 7 == 0 && field bytes 18 2 == [0, 0] && field bytes 24 4 == [0, 0, 0, 0] &&
    field bytes commitOffset 4 == commitWord &&
    (crc32 (canonical bytes)).toNat == ofLeBytes (field bytes checksumOffset 4)

def decodeRecord (lora2g4 : Bool) (bytes : List UInt8) : Option StoredRecord :=
  if wellFramed bytes then do
    let (value, legacy) ← decodeValue lora2g4 (ofLeBytes (field bytes 4 2)) (byteAt bytes 6)
      (ofLeBytes (field bytes 16 2)) (bytes.drop payloadOffset)
    some { generation := UInt64.ofNat (ofLeBytes (field bytes 8 8)), value := value, legacy := legacy }
  else none

def generationHint (bytes : List UInt8) : Option UInt64 :=
  if field bytes 0 4 = magic then some (UInt64.ofNat (ofLeBytes (field bytes 8 8))) else none

/-! ## Round trips -/

theorem decodeRegion_regionCode (region : SubGRegion) :
    decodeRegion (regionCode region) = some region := by
  cases region with
  | regulated region => cases region <;> rfl
  | custom => rfl

theorem decodeSpreadingFactor_number (factor : SpreadingFactor) :
    decodeSpreadingFactor factor.number = some factor := by
  cases factor <;> rfl

theorem decodeCodingRate_denominator (rate : CodingRate) :
    decodeCodingRate rate.denominator = some rate := by
  cases rate <;> rfl

variable {lora2g4 : Bool}

theorem decodeBandwidth_bandwidthCode {bandwidth : LoraBandwidth}
    (h : bandwidth.isSubGhz = true ∨ lora2g4 = true) :
    decodeBandwidth lora2g4 (bandwidthCode bandwidth) = some bandwidth := by
  cases bandwidth <;> cases lora2g4 <;> simp_all [LoraBandwidth.isSubGhz] <;> rfl

theorem decodeParameters_encodeParameters (parameters : LoRaParameters)
    (region : UInt8) (h : parameters.modulation.bandwidth.isSubGhz = true ∨ lora2g4 = true) :
    decodeParameters lora2g4 (encodeParameters parameters region) = some parameters := by
  obtain ⟨frequency, ⟨factor, bandwidth, rate⟩, power, preamble⟩ := parameters
  have hfrequency : UInt32.ofNat (ofLeBytes (leBytes 4 frequency.toNat)) = frequency := by
    rw [ofLeBytes_leBytes (by simpa using frequency.toNat_lt), UInt32.ofNat_toNat]
  have hpreamble : UInt16.ofNat (ofLeBytes (leBytes 2 preamble.toNat)) = preamble := by
    rw [ofLeBytes_leBytes (by simpa using preamble.toNat_lt), UInt16.ofNat_toNat]
  unfold decodeParameters
  show (do
    let spreadingFactor ← decodeSpreadingFactor factor.number
    let bandwidth ← decodeBandwidth lora2g4 (bandwidthCode bandwidth)
    let codingRate ← decodeCodingRate rate.denominator
    some (LoRaParameters.mk (UInt32.ofNat (ofLeBytes (leBytes 4 frequency.toNat)))
      ⟨spreadingFactor, bandwidth, codingRate⟩ power.toUInt8.toInt8
      (UInt16.ofNat (ofLeBytes (leBytes 2 preamble.toNat))))) = _
  rw [hfrequency, hpreamble, decodeSpreadingFactor_number, decodeBandwidth_bandwidthCode h,
    decodeCodingRate_denominator]
  rfl

theorem decodeProfile_encodeProfile (lora2g4 : Bool) (profile : RadioProfile) :
    decodeProfile lora2g4 (encodeProfile profile) = some profile := by
  unfold decodeProfile
  have hregion : byteAt (encodeProfile profile) 10 = regionCode profile.region := rfl
  rw [encodeProfile, decodeParameters_encodeParameters _ _ (Or.inl profile.isSubGhz),
    ← encodeProfile, hregion, decodeRegion_regionCode]
  show (RadioProfile.new profile.region profile.parameters).toOption = _
  rw [profile.new_self]
  rfl

theorem decodeConfiguration_encodeConfiguration (lora2g4 : Bool)
    (configuration : SubGConfiguration) :
    decodeConfiguration lora2g4 (encodeConfiguration configuration) = some configuration := by
  cases configuration with
  | autoLora profile prescribed =>
    show (do
      let region ← decodeRegion (regionCode profile.region)
      (SubGConfiguration.autoLoraFor region).toOption) = _
    rw [decodeRegion_regionCode]
    show (SubGConfiguration.autoLoraFor profile.region).toOption = _
    rw [SubGConfiguration.autoLoraFor_self profile prescribed]
    rfl
  | manualLora profile =>
    show (do
      let profile ← decodeProfile lora2g4 (encodeProfile profile)
      some (SubGConfiguration.manualLora profile)) = _
    rw [decodeProfile_encodeProfile]
    rfl

theorem decodeGhz24_encodeParameters (profile : Ghz24Profile) :
    decodeGhz24 true (encodeParameters profile.parameters 0) = some profile := by
  unfold decodeGhz24
  rw [decodeParameters_encodeParameters _ _ (Or.inr rfl)]
  show (if byteAt (encodeParameters profile.parameters 0) 10 ≠ 0 then none else
    (Ghz24Profile.new profile.parameters).toOption) = _
  rw [if_neg (fun hne => hne rfl), profile.new_self]
  rfl

/-- The values that can be stored: those of the 2.4 GHz band only with the feature. -/
def Storable (lora2g4 : Bool) : StoredValue → Prop
  | .configuration _ => True
  | .unconfigured => True
  | .ghz24 _ => lora2g4 = true
  | .unsupportedGhz24 _ => False

theorem length_encodeConfiguration_le (configuration : SubGConfiguration) :
    (encodeConfiguration configuration).length ≤ 16 := by
  cases configuration with
  | autoLora profile prescribed => exact (by decide : (2 : Nat) ≤ 16)
  | manualLora profile => exact (by decide : (13 : Nat) ≤ 16)

theorem length_payload_le {value : StoredValue} (h : Storable lora2g4 value) :
    value.payload.length ≤ 16 := by
  cases value with
  | configuration configuration => exact length_encodeConfiguration_le configuration
  | unconfigured => exact Nat.zero_le _
  | ghz24 profile => exact (by decide : (12 : Nat) ≤ 16)
  | unsupportedGhz24 payload => exact h.elim

theorem decodeValue_payload {value : StoredValue} (h : Storable lora2g4 value) (rest : List UInt8) :
    decodeValue lora2g4 schemaVersion value.kind value.payload.length (value.payload ++ rest) =
      some (value, false) := by
  have hlen := length_payload_le h
  cases value with
  | configuration configuration =>
    show (if _ then _ else if _ then _ else if _ then _ else _) = _
    rw [if_neg nofun, if_neg nofun, if_pos ⟨rfl, rfl, hlen⟩, List.take_left,
      show (StoredValue.configuration configuration).payload =
        encodeConfiguration configuration from rfl, decodeConfiguration_encodeConfiguration]
    rfl
  | unconfigured => rfl
  | ghz24 profile =>
    rw [show lora2g4 = true from h]
    show (do
      let profile ← decodeGhz24 true ((encodeParameters profile.parameters 0 ++ rest).take 12)
      some (StoredValue.ghz24 profile, false)) = _
    rw [show (12 : Nat) = (encodeParameters profile.parameters 0).length from rfl, List.take_left,
      decodeGhz24_encodeParameters]
    rfl
  | unsupportedGhz24 payload => exact h.elim

section

variable (generation : UInt64) (value : StoredValue)

def committedRecord : List UInt8 :=
  layout generation value (checksumOf generation value) commitWord

theorem length_layout (h : Storable lora2g4 value) {checksum commit : List UInt8}
    (hchecksum : checksum.length = 4) (hcommit : commit.length = 4) :
    (layout generation value checksum commit).length = recordLen := by
  have hlen := length_payload_le h
  simp only [layout, List.length_append, length_leBytes, List.length_replicate, List.length_cons,
    List.length_nil, hchecksum, hcommit, magic, recordLen, payloadOffset]
  omega

theorem wellFramed_committedRecord : wellFramed (committedRecord generation value) = true := by
  have hcanonical : canonical (committedRecord generation value) =
      layout generation value [0, 0, 0, 0] [0, 0, 0, 0] := rfl
  have hchecksum : ofLeBytes (field (committedRecord generation value) checksumOffset 4) =
      (crc32 (layout generation value [0, 0, 0, 0] [0, 0, 0, 0])).toNat := by
    show ofLeBytes (checksumOf generation value) = _
    exact ofLeBytes_leBytes (by simpa using UInt32.toNat_lt _)
  unfold wellFramed
  rw [hcanonical, hchecksum, beq_self_eq_true, Bool.and_true]
  rfl

/-- **The record codec is exact**: a committed record decodes to its value. -/
theorem decodeRecord_committedRecord {value : StoredValue} (h : Storable lora2g4 value) :
    decodeRecord lora2g4 (committedRecord generation value) =
      some { generation := generation, value := value, legacy := false } := by
  have hlen := length_payload_le h
  have hgeneration : UInt64.ofNat (ofLeBytes (field (committedRecord generation value) 8 8)) =
      generation := by
    show UInt64.ofNat (ofLeBytes (leBytes 8 generation.toNat)) = generation
    rw [ofLeBytes_leBytes (by simpa using generation.toNat_lt), UInt64.ofNat_toNat]
  have hpayload : ofLeBytes (field (committedRecord generation value) 16 2) =
      value.payload.length := by
    show ofLeBytes (leBytes 2 value.payload.length) = _
    exact ofLeBytes_leBytes (by omega)
  have hschema : ofLeBytes (field (committedRecord generation value) 4 2) = schemaVersion := rfl
  unfold decodeRecord
  rw [if_pos (wellFramed_committedRecord generation value), hgeneration, hpayload, hschema]
  show (do
    let (value, legacy) ← decodeValue lora2g4 schemaVersion value.kind value.payload.length
      (value.payload ++ _)
    some (StoredRecord.mk generation value legacy)) = _
  rw [decodeValue_payload h]
  rfl

end

end Prns.Ports.SubGStore
