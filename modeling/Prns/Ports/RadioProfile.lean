import Mathlib.Data.List.Basic

/-!
# Radio profiles

The LoRa parameters of a radio and the checks that admit them: the regions of
`subghz/regions`, the sub-GHz profile of `lora/profile.rs`, the 2.4 GHz profile of
`lora/band/ghz24.rs` and the sub-GHz configuration of `subghz/configuration.rs`. A
profile is built by a constructor that validates it, so it carries the proof that it
passed. Labels, duty cycles and defaults are left out.
-/

namespace Prns.Ports.Radio

inductive SpreadingFactor where
  | sf5 | sf6 | sf7 | sf8 | sf9 | sf10 | sf11 | sf12
  deriving DecidableEq, Repr

/-- `spreading_factor as u8`. -/
def SpreadingFactor.number : SpreadingFactor → UInt8
  | .sf5 => 5
  | .sf6 => 6
  | .sf7 => 7
  | .sf8 => 8
  | .sf9 => 9
  | .sf10 => 10
  | .sf11 => 11
  | .sf12 => 12

/-- The last three exist with the 2.4 GHz feature. -/
inductive LoraBandwidth where
  | bw125kHz | bw250kHz | bw500kHz | bw203kHz | bw406kHz | bw812kHz
  deriving DecidableEq, Repr

def LoraBandwidth.hz : LoraBandwidth → Nat
  | .bw125kHz => 125000
  | .bw250kHz => 250000
  | .bw500kHz => 500000
  | .bw203kHz => 203000
  | .bw406kHz => 406000
  | .bw812kHz => 812000

def LoraBandwidth.isSubGhz : LoraBandwidth → Bool
  | .bw125kHz | .bw250kHz | .bw500kHz => true
  | .bw203kHz | .bw406kHz | .bw812kHz => false

inductive CodingRate where
  | cr45 | cr46 | cr47 | cr48
  deriving DecidableEq, Repr

/-- `coding_rate as u8`. -/
def CodingRate.denominator : CodingRate → UInt8
  | .cr45 => 5
  | .cr46 => 6
  | .cr47 => 7
  | .cr48 => 8

structure Modulation where
  spreadingFactor : SpreadingFactor
  bandwidth : LoraBandwidth
  codingRate : CodingRate
  deriving DecidableEq, Repr

/-- `ManualLoRaParameters`: frequency in hertz, power in dBm, symbols of the preamble. -/
structure LoRaParameters where
  frequency : UInt32
  modulation : Modulation
  txPower : Int8
  preamble : UInt16
  deriving DecidableEq, Repr

structure FrequencyRange where
  minimum : Nat
  maximum : Nat
  deriving DecidableEq, Repr

def FrequencyRange.containsNominalChannel (range : FrequencyRange) (center : UInt32)
    (bandwidthHz : Nat) : Bool :=
  decide (range.minimum * 2 + bandwidthHz ≤ center.toNat * 2) &&
    decide (center.toNat * 2 + bandwidthHz ≤ range.maximum * 2)

inductive RegulatoryRegion where
  | us915 | au915 | eu433 | eu865 | eu868 | eu869 | as923 | in865 | cn470 | kr920 | jp920
  deriving DecidableEq, Repr

inductive SubGRegion where
  | regulated (region : RegulatoryRegion)
  | custom
  deriving DecidableEq, Repr

structure RegionalSubGSpec where
  frequencyRange : FrequencyRange
  maximumTxPower : Int8
  autoLora : Option LoRaParameters
  deriving DecidableEq, Repr

def us915AutoLoraParameters : LoRaParameters :=
  { frequency := 921500000
    modulation := { spreadingFactor := .sf7, bandwidth := .bw500kHz, codingRate := .cr45 }
    txPower := 22
    preamble := 18 }

def specification : RegulatoryRegion → RegionalSubGSpec
  | .us915 => ⟨⟨902000000, 928000000⟩, 22, some us915AutoLoraParameters⟩
  | .au915 => ⟨⟨915000000, 928000000⟩, 22, none⟩
  | .eu433 => ⟨⟨433050000, 434790000⟩, 12, none⟩
  | .eu865 => ⟨⟨865000000, 868000000⟩, 14, none⟩
  | .eu868 => ⟨⟨868000000, 868600000⟩, 14, none⟩
  | .eu869 => ⟨⟨869400000, 869650000⟩, 22, none⟩
  | .as923 => ⟨⟨920000000, 925000000⟩, 16, none⟩
  | .in865 => ⟨⟨865000000, 867000000⟩, 22, none⟩
  | .cn470 => ⟨⟨470000000, 510000000⟩, 19, none⟩
  | .kr920 => ⟨⟨920000000, 923000000⟩, 14, none⟩
  | .jp920 => ⟨⟨920800000, 927800000⟩, 16, none⟩

def customSubGSpec : RegionalSubGSpec := ⟨⟨150000000, 960000000⟩, 22, none⟩

def SubGRegion.spec : SubGRegion → RegionalSubGSpec
  | .regulated region => specification region
  | .custom => customSubGSpec

inductive RadioProfileError where
  | nominalChannelOutsideRegion (region : SubGRegion) (centerHz : UInt32) (bandwidthHz : Nat)
      (minimumHz maximumHz : Nat)
  | transmitPowerAboveRegionLimit (region : SubGRegion) (powerDbm maximumDbm : Int8)
  | emptyPreamble
  | bandwidthOutsideBand (bandwidth : LoraBandwidth)
  deriving DecidableEq, Repr

def validate (region : SubGRegion) (parameters : LoRaParameters) : Except RadioProfileError Unit :=
  let bandwidth := parameters.modulation.bandwidth
  let range := region.spec.frequencyRange
  if !bandwidth.isSubGhz then .error (.bandwidthOutsideBand bandwidth)
  else if !range.containsNominalChannel parameters.frequency bandwidth.hz then
    .error (.nominalChannelOutsideRegion region parameters.frequency bandwidth.hz range.minimum
      range.maximum)
  else if parameters.txPower > region.spec.maximumTxPower then
    .error (.transmitPowerAboveRegionLimit region parameters.txPower region.spec.maximumTxPower)
  else if parameters.preamble = 0 then .error .emptyPreamble
  else .ok ()

structure RadioProfile where
  region : SubGRegion
  parameters : LoRaParameters
  valid : validate region parameters = .ok ()
  deriving DecidableEq

def RadioProfile.new (region : SubGRegion) (parameters : LoRaParameters) :
    Except RadioProfileError RadioProfile :=
  match h : validate region parameters with
  | .error error => .error error
  | .ok () => .ok ⟨region, parameters, h⟩

variable (profile : RadioProfile)

theorem RadioProfile.new_self :
    RadioProfile.new profile.region profile.parameters = .ok profile := by
  unfold RadioProfile.new
  split
  · rename_i error h
    rw [profile.valid] at h
    cases h
  · rfl

theorem RadioProfile.isSubGhz : profile.parameters.modulation.bandwidth.isSubGhz = true := by
  have hvalid := profile.valid
  by_contra hnot
  rw [Bool.not_eq_true] at hnot
  rw [validate] at hvalid
  simp only [hnot, Bool.not_false, if_true] at hvalid
  cases hvalid

inductive SubGConfigurationError where
  | autoLoraUnavailable (region : SubGRegion)
  | invalidLoraProfile (error : RadioProfileError)
  deriving DecidableEq, Repr

/-- The profile that a region prescribes for automatic mode. -/
def autoProfile (region : SubGRegion) : Except SubGConfigurationError RadioProfile :=
  match region.spec.autoLora with
  | none => .error (.autoLoraUnavailable region)
  | some parameters =>
    match RadioProfile.new region parameters with
    | .error error => .error (.invalidLoraProfile error)
    | .ok profile => .ok profile

/-- An automatic configuration has the profile that its region prescribes: there is no
other constructor outside the crate. -/
inductive SubGConfiguration where
  | autoLora (profile : RadioProfile) (prescribed : autoProfile profile.region = .ok profile)
  | manualLora (profile : RadioProfile)
  deriving DecidableEq

theorem autoProfile_region {region : SubGRegion} {profile : RadioProfile}
    (h : autoProfile region = .ok profile) : profile.region = region := by
  unfold autoProfile at h
  split at h
  · cases h
  split at h
  · cases h
  rename_i found hnew
  cases h
  unfold RadioProfile.new at hnew
  split at hnew <;> cases hnew
  rfl

/-- `auto_lora_for`. -/
def SubGConfiguration.autoLoraFor (region : SubGRegion) :
    Except SubGConfigurationError SubGConfiguration :=
  match h : autoProfile region with
  | .error error => .error error
  | .ok profile => .ok (.autoLora profile (by rw [autoProfile_region h, h]))

theorem SubGConfiguration.autoLoraFor_self (prescribed : autoProfile profile.region = .ok profile) :
    autoLoraFor profile.region = .ok (.autoLora profile prescribed) := by
  unfold autoLoraFor
  split
  · rename_i error h
    rw [prescribed] at h
    cases h
  · rename_i found h
    rw [prescribed] at h
    cases h
    rfl

inductive Ghz24ProfileError where
  | channelOutsideBand
  | bandwidthOutsideBand
  | transmitPowerOutsideRange
  | preambleTooShort
  deriving DecidableEq, Repr

def ghz24Frequencies : FrequencyRange := ⟨2400000000, 2483500000⟩

def ghz24MinimumPreamble : SpreadingFactor → UInt16
  | .sf5 | .sf6 => 12
  | .sf7 | .sf8 | .sf9 | .sf10 | .sf11 | .sf12 => 8

def validateGhz24 (parameters : LoRaParameters) : Except Ghz24ProfileError Unit :=
  let modulation := parameters.modulation
  if modulation.bandwidth.isSubGhz then .error .bandwidthOutsideBand
  else if !ghz24Frequencies.containsNominalChannel parameters.frequency modulation.bandwidth.hz then
    .error .channelOutsideBand
  else if parameters.txPower < -18 ∨ parameters.txPower > 13 then .error .transmitPowerOutsideRange
  else if parameters.preamble < ghz24MinimumPreamble modulation.spreadingFactor then
    .error .preambleTooShort
  else .ok ()

structure Ghz24Profile where
  parameters : LoRaParameters
  valid : validateGhz24 parameters = .ok ()
  deriving DecidableEq

def Ghz24Profile.new (parameters : LoRaParameters) : Except Ghz24ProfileError Ghz24Profile :=
  match h : validateGhz24 parameters with
  | .error error => .error error
  | .ok () => .ok ⟨parameters, h⟩

theorem Ghz24Profile.new_self (profile : Ghz24Profile) :
    Ghz24Profile.new profile.parameters = .ok profile := by
  unfold Ghz24Profile.new
  split
  · rename_i error h
    rw [profile.valid] at h
    cases h
  · rfl

inductive LoRaConfiguration where
  | subG (configuration : SubGConfiguration)
  | ghz24 (profile : Ghz24Profile)
  deriving DecidableEq

inductive LoRaConfigurationState where
  | unconfigured
  | configured (configuration : LoRaConfiguration)
  deriving DecidableEq

end Prns.Ports.Radio
