import Nx508j.Lib.Memory

/-! # CDMA messages

`constructCdmaSms` puts a message of the framework into a structure of fixed size, with a count
beside each of its three arrays, and `cdmaNewSmsInd` makes a message of such a structure. Both look
at no more of an array than it has, but the counts are stored as they come. -/

namespace Nx508j.Ril

open Nx508j.Lib

/-- The sizes of the arrays. The count of digits has eight bits, that of the bearer data is an
    `int`. -/
structure CdmaSmsLimits where
  addressMax : Nat
  subaddressMax : Nat
  bearerDataMax : Nat
  addressMax_lt : addressMax < 0x100
  subaddressMax_lt : subaddressMax < 0x100
  bearerDataMax_lt : bearerDataMax < 0x80000000

/-! ## The messages -/

/-- `CdmaSmsAddress` -/
structure CdmaSmsAddress where
  digitMode : Int
  numberMode : Int
  numberType : Int
  numberPlan : Int
  digits : List UInt8
deriving DecidableEq, Repr

/-- `CdmaSmsSubaddress` -/
structure CdmaSmsSubaddress where
  subaddressType : Int
  odd : Bool
  digits : List UInt8
deriving DecidableEq, Repr

/-- `CdmaSmsMessage` of the framework. -/
structure CdmaSmsMessage where
  teleserviceId : Int
  isServicePresent : Bool
  serviceCategory : Int
  address : CdmaSmsAddress
  subAddress : CdmaSmsSubaddress
  bearerData : List UInt8
deriving DecidableEq, Repr

/-- An array with the count that is stored beside it. -/
structure CountedArray where
  count : Int
  bytes : List UInt8
deriving DecidableEq, Repr

/-- `RIL_CDMA_SMS_Address` -/
structure RilCdmaSmsAddress where
  digit_mode : Int
  number_mode : Int
  number_type : Int
  number_plan : Int
  digits : CountedArray
deriving DecidableEq, Repr

/-- `RIL_CDMA_SMS_Subaddress` -/
structure RilCdmaSmsSubaddress where
  subaddressType : Int
  odd : Nat
  digits : CountedArray
deriving DecidableEq, Repr

/-- `RIL_CDMA_SMS_Message` -/
structure RilCdmaSmsMessage where
  uTeleserviceID : Int
  bIsServicePresent : Nat
  uServicecategory : Int
  sAddress : RilCdmaSmsAddress
  sSubAddress : RilCdmaSmsSubaddress
  aBearerData : CountedArray
deriving DecidableEq, Repr

/-! ## Arrays -/

/-- `BOOL_TO_INT` -/
def boolToInt (b : Bool) : Nat := if b then 1 else 0

/-- A size as the count of digits, of type `unsigned char`. -/
def digitCount (size : Nat) : Int := (size % 0x100 : Nat)

/-- A size as `uBearerDataLen`, of type `int`. -/
def dataLen (size : Nat) : Int := (BitVec.ofNat 32 size).toInt

/-- `MIN(count, max)` -/
def digitLimit (count : Int) (max : Nat) : Int := if count < max then count else max

namespace CountedArray

/-- How many bytes are filled in where the count is `count`. -/
def filled (count : Int) (max : Nat) : Nat := (digitLimit count max).toNat

/-- The array of `max` zeros after the loop over the bytes of a vector. -/
def fill (max : Nat) (count : Int) (src : List UInt8) : CountedArray where
  count := count
  bytes := src.take (filled count max) ++ List.replicate (max - filled count max) 0

/-- `setToExternal` of an array. A negative size is fatal. -/
def setToExternal (max : Nat) (a : CountedArray) : Except Fault (List UInt8) :=
  if digitLimit a.count max < 0 then .error .outOfBounds
  else .ok (a.bytes.take (digitLimit a.count max).toNat)

end CountedArray

/-! ## To the vendor and back -/

section Convert

variable (lim : CdmaSmsLimits)

/-- `constructCdmaSms`, for a structure of zeros. -/
def constructCdmaSms (sms : CdmaSmsMessage) : RilCdmaSmsMessage where
  uTeleserviceID := sms.teleserviceId
  bIsServicePresent := boolToInt sms.isServicePresent
  uServicecategory := sms.serviceCategory
  sAddress :=
    { digit_mode := sms.address.digitMode
      number_mode := sms.address.numberMode
      number_type := sms.address.numberType
      number_plan := sms.address.numberPlan
      digits := .fill lim.addressMax (digitCount sms.address.digits.length) sms.address.digits }
  sSubAddress :=
    { subaddressType := sms.subAddress.subaddressType
      odd := boolToInt sms.subAddress.odd
      digits := .fill lim.subaddressMax (digitCount sms.subAddress.digits.length)
        sms.subAddress.digits }
  aBearerData := .fill lim.bearerDataMax (dataLen sms.bearerData.length) sms.bearerData

/-- `sendCdmaSms`: what is handed to the vendor, if there is memory for the request. -/
def sendCdmaSms (pRI : Bool) (sms : CdmaSmsMessage) : Option RilCdmaSmsMessage :=
  if pRI = false then none else some (constructCdmaSms lim sms)

/-- `writeSmsToRuim`, the same with a status. -/
def writeSmsToRuim (pRI : Bool) (status : Int) (sms : CdmaSmsMessage) :
    Option (Int × RilCdmaSmsMessage) :=
  if pRI = false then none else some (status, constructCdmaSms lim sms)

/-- The message of `cdmaNewSmsInd`. -/
def cdmaNewSms (rilMsg : RilCdmaSmsMessage) : Except Fault CdmaSmsMessage := do
  let digits ← rilMsg.sAddress.digits.setToExternal lim.addressMax
  let subDigits ← rilMsg.sSubAddress.digits.setToExternal lim.subaddressMax
  let bearerData ← rilMsg.aBearerData.setToExternal lim.bearerDataMax
  .ok
    { teleserviceId := rilMsg.uTeleserviceID
      isServicePresent := decide (rilMsg.bIsServicePresent ≠ 0)
      serviceCategory := rilMsg.uServicecategory
      address :=
        { digitMode := rilMsg.sAddress.digit_mode
          numberMode := rilMsg.sAddress.number_mode
          numberType := rilMsg.sAddress.number_type
          numberPlan := rilMsg.sAddress.number_plan
          digits }
      subAddress :=
        { subaddressType := rilMsg.sSubAddress.subaddressType
          odd := decide (rilMsg.sSubAddress.odd ≠ 0)
          digits := subDigits }
      bearerData }

/-! ## The property -/

/-- A count is at most the size of its array, and what was filled in. -/
def CountedArray.Counts (max : Nat) (a : CountedArray) : Prop :=
  a.count ≤ max ∧ a.count = CountedArray.filled a.count max

/-- **A structure holds a message**: its counts are right, and the message is made of it again. -/
structure RilCdmaSmsMessage.Holds (rcsm : RilCdmaSmsMessage) (sms : CdmaSmsMessage) : Prop where
  address : rcsm.sAddress.digits.Counts lim.addressMax
  subAddress : rcsm.sSubAddress.digits.Counts lim.subaddressMax
  bearerData : rcsm.aBearerData.Counts lim.bearerDataMax
  back : cdmaNewSms lim rcsm = .ok sms

/-- **The condition**: each vector has room in its array. -/
def CdmaSmsMessage.Fits (sms : CdmaSmsMessage) : Prop :=
  sms.address.digits.length ≤ lim.addressMax ∧ sms.subAddress.digits.length ≤ lim.subaddressMax ∧
    sms.bearerData.length ≤ lim.bearerDataMax

end Convert

namespace CountedArray

variable {max : Nat} {count : Int} {src : List UInt8}

theorem filled_le (max : Nat) (count : Int) : filled count max ≤ max := by
  unfold filled digitLimit
  split
  · omega
  · simp

theorem fill_of_le (hlen : src.length ≤ max) :
    (fill max src.length src).Counts max ∧
      (fill max src.length src).setToExternal max = .ok src := by
  have hlimit : digitLimit src.length max = src.length := by
    unfold digitLimit
    split
    · rfl
    · omega
  have hfilled : filled src.length max = src.length := by
    unfold filled
    rw [hlimit, Int.toNat_natCast]
  have hcount : (fill max src.length src).count = src.length := rfl
  have hbytes : (fill max src.length src).bytes =
      src ++ List.replicate (max - src.length) 0 := by
    unfold fill
    rw [hfilled, List.take_length]
  refine ⟨⟨?_, ?_⟩, ?_⟩
  · rw [hcount]
    omega
  · rw [hcount, hfilled]
  · unfold setToExternal
    rw [hcount, hbytes, hlimit, if_neg (by omega), Int.toNat_natCast, List.take_left]

theorem le_of_fill (h : (fill max count src).setToExternal max = .ok src) : src.length ≤ max := by
  unfold setToExternal at h
  split at h
  · cases h
  · have hback := Except.ok.inj h
    have hlen := congrArg List.length hback
    rw [List.length_take] at hlen
    have hle : (digitLimit (fill max count src).count max).toNat ≤ max := filled_le max count
    omega

end CountedArray

theorem digitCount_of_lt {size : Nat} (h : size < 0x100) : digitCount size = size := by
  unfold digitCount
  rw [Nat.mod_eq_of_lt h]

theorem dataLen_of_lt {size : Nat} (h : size < 0x80000000) : dataLen size = size := by
  unfold dataLen
  rw [BitVec.toInt_eq_toNat_of_lt] <;> rw [BitVec.toNat_ofNat] <;> omega

theorem cdmaNewSms_construct (lim : CdmaSmsLimits) {sms sms' : CdmaSmsMessage}
    (h : cdmaNewSms lim (constructCdmaSms lim sms) = .ok sms') :
    (CountedArray.fill lim.addressMax (digitCount sms.address.digits.length)
        sms.address.digits).setToExternal lim.addressMax = .ok sms'.address.digits ∧
      (CountedArray.fill lim.subaddressMax (digitCount sms.subAddress.digits.length)
        sms.subAddress.digits).setToExternal lim.subaddressMax = .ok sms'.subAddress.digits ∧
      (CountedArray.fill lim.bearerDataMax (dataLen sms.bearerData.length)
        sms.bearerData).setToExternal lim.bearerDataMax = .ok sms'.bearerData := by
  obtain ⟨digits, hdigits, h⟩ := bind_eq_ok h
  obtain ⟨subDigits, hsub, h⟩ := bind_eq_ok h
  obtain ⟨bearerData, hdata, h⟩ := bind_eq_ok h
  cases h
  exact ⟨hdigits, hsub, hdata⟩

theorem boolToInt_ne_zero (b : Bool) : decide (boolToInt b ≠ 0) = b := by
  cases b <;> rfl

theorem construct_holds_iff (lim : CdmaSmsLimits) (sms : CdmaSmsMessage) :
    (constructCdmaSms lim sms).Holds lim sms ↔ sms.Fits lim := by
  constructor
  · intro h
    obtain ⟨hdigits, hsub, hdata⟩ := cdmaNewSms_construct lim h.back
    exact ⟨CountedArray.le_of_fill hdigits, CountedArray.le_of_fill hsub,
      CountedArray.le_of_fill hdata⟩
  · rintro ⟨hdigits, hsub, hdata⟩
    have haddressMax := lim.addressMax_lt
    have hsubaddressMax := lim.subaddressMax_lt
    have hbearerDataMax := lim.bearerDataMax_lt
    have hdigitCount : digitCount sms.address.digits.length = sms.address.digits.length :=
      digitCount_of_lt (by omega)
    have hsubCount : digitCount sms.subAddress.digits.length = sms.subAddress.digits.length :=
      digitCount_of_lt (by omega)
    have hdataLen : dataLen sms.bearerData.length = sms.bearerData.length :=
      dataLen_of_lt (by omega)
    obtain ⟨haddress, hdigitsBack⟩ := CountedArray.fill_of_le hdigits
    obtain ⟨hsubAddress, hsubBack⟩ := CountedArray.fill_of_le hsub
    obtain ⟨hbearer, hdataBack⟩ := CountedArray.fill_of_le hdata
    rw [← hdigitCount] at haddress hdigitsBack
    rw [← hsubCount] at hsubAddress hsubBack
    rw [← hdataLen] at hbearer hdataBack
    refine ⟨haddress, hsubAddress, hbearer, ?_⟩
    unfold cdmaNewSms constructCdmaSms
    rw [hdigitsBack, hsubBack, hdataBack]
    change Except.ok _ = Except.ok _
    rw [boolToInt_ne_zero, boolToInt_ne_zero]

/-- **For every message**: what is handed to the vendor holds it just if each vector has room. No
    message is refused. -/
theorem cdma_sms_holds_iff (lim : CdmaSmsLimits) (sms : CdmaSmsMessage) :
    ((∀ pRI rcsm, sendCdmaSms lim pRI sms = some rcsm → rcsm.Holds lim sms) ∧
      ∀ pRI status status' rcsm, writeSmsToRuim lim pRI status sms = some (status', rcsm) →
        rcsm.Holds lim sms) ↔ sms.Fits lim := by
  rw [← construct_holds_iff]
  constructor
  · exact fun h => h.1 true _ rfl
  · refine fun h => ⟨fun pRI rcsm hsend => ?_, fun pRI status status' rcsm hwrite => ?_⟩
    · unfold sendCdmaSms at hsend
      split at hsend
      · cases hsend
      · cases hsend
        exact h
    · unfold writeSmsToRuim at hwrite
      split at hwrite
      · cases hwrite
      · obtain ⟨-, rfl⟩ := Prod.mk.inj (Option.some.inj hwrite)
        exact h

/-- Room for 36 digits, and for 255 bytes. -/
def smallLimits : CdmaSmsLimits where
  addressMax := 36
  subaddressMax := 36
  bearerDataMax := 255
  addressMax_lt := by decide
  subaddressMax_lt := by decide
  bearerDataMax_lt := by decide

/-- A message to an address of 37 digits. -/
def longAddress : CdmaSmsMessage where
  teleserviceId := 0
  isServicePresent := false
  serviceCategory := 0
  address :=
    { digitMode := 0, numberMode := 0, numberType := 0, numberPlan := 0
      digits := List.replicate 37 1 }
  subAddress := { subaddressType := 0, odd := false, digits := [] }
  bearerData := []

/-- It is handed to the vendor with a count of 37 beside an array of 36. -/
theorem long_address_sent : ∃ rcsm, sendCdmaSms smallLimits true longAddress = some rcsm ∧
    rcsm.sAddress.digits.count = 37 ∧ ¬ rcsm.Holds smallLimits longAddress :=
  ⟨_, rfl, rfl, fun h => absurd h.address.1 (by decide)⟩

end Nx508j.Ril
