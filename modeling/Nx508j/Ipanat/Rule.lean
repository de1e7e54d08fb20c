import Mathlib.Tactic

/-! # NAT rows, hashes and checksum deltas

The rows of the NAT rule table and of the index table, as `ipa_nat_drvi.h` lays them out in memory.
The hardware writes both tables by `IPA_IOC_NAT_DMA`, 16 little-endian bits at a byte offset, so each
row has a `writeHalf` that says which field a 16-bit word of the row belongs to.

Row numbers are `Nat` below `2 ^ 16`; `add16` and `sub16` are the wrapping `uint16_t` operations the
driver computes them with. -/

namespace Nx508j.Ipanat

/-! ## `uint16_t` arithmetic on row numbers -/

def add16 (a b : Nat) : Nat := (a + b) % 65536

def sub16 (a b : Nat) : Nat := (a + 65536 - b) % 65536

theorem add16_eq {a b : Nat} (h : a + b < 65536) : add16 a b = a + b :=
  Nat.mod_eq_of_lt h

theorem sub16_eq {a b : Nat} (h : b ≤ a) (ha : a < 65536) : sub16 a b = a - b := by
  unfold sub16
  omega

/-! ## Rows -/

/-- `struct ipa_nat_sw_rule`: the software view of the 32 bytes of a `struct ipa_nat_rule`. -/
structure IpaNatRule where
  privateIp : UInt32 := 0
  targetIp : UInt32 := 0
  nextIndex : Nat := 0
  publicPort : UInt16 := 0
  privatePort : UInt16 := 0
  targetPort : UInt16 := 0
  ipChksum : UInt16 := 0
  rsvd1 : Nat := 0
  redirect : Bool := false
  enable : Bool := false
  timeStamp : Nat := 0
  protocol : UInt8 := 0
  prevIndex : Nat := 0
  indxTblEntry : Nat := 0
  rsvd2 : Nat := 0
  tcpUdpChksum : UInt16 := 0
deriving DecidableEq, Repr

/-- `struct ipa_nat_sw_indx_tbl_rule`. -/
structure IpaNatIndxTblRule where
  tblEntry : Nat := 0
  nextIndex : Nat := 0
deriving DecidableEq, Repr

/-- `ipa_nat_ipv4_rule`: what a client of the driver asks for. -/
structure IpaNatIpv4Rule where
  targetIp : UInt32
  privateIp : UInt32
  targetPort : UInt16
  privatePort : UInt16
  publicPort : UInt16
  protocol : UInt8
deriving DecidableEq, Repr

/-- Replace the `k`-th 16-bit word of a rule row. The flag word (9) holds 14 reserved bits, the
    redirect and the enable bit; words 10 and 11 hold the 24-bit time stamp and the protocol. -/
def IpaNatRule.writeHalf (r : IpaNatRule) (k v : Nat) : IpaNatRule :=
  match k with
  | 0 => { r with privateIp := (r.privateIp &&& (0xFFFF0000 : UInt32)) ||| UInt32.ofNat v }
  | 1 => { r with privateIp := (r.privateIp &&& (0x0000FFFF : UInt32)) ||| (UInt32.ofNat v <<< 16) }
  | 2 => { r with targetIp := (r.targetIp &&& (0xFFFF0000 : UInt32)) ||| UInt32.ofNat v }
  | 3 => { r with targetIp := (r.targetIp &&& (0x0000FFFF : UInt32)) ||| (UInt32.ofNat v <<< 16) }
  | 4 => { r with nextIndex := v }
  | 5 => { r with publicPort := UInt16.ofNat v }
  | 6 => { r with privatePort := UInt16.ofNat v }
  | 7 => { r with targetPort := UInt16.ofNat v }
  | 8 => { r with ipChksum := UInt16.ofNat v }
  | 9 => { r with rsvd1 := v % 2 ^ 14, redirect := v.testBit 14, enable := v.testBit 15 }
  | 10 => { r with timeStamp := r.timeStamp / 2 ^ 16 * 2 ^ 16 + v }
  | 11 => { r with timeStamp := r.timeStamp % 2 ^ 16 + v % 2 ^ 8 * 2 ^ 16,
                   protocol := UInt8.ofNat (v / 2 ^ 8) }
  | 12 => { r with prevIndex := v }
  | 13 => { r with indxTblEntry := v }
  | 14 => { r with rsvd2 := v }
  | 15 => { r with tcpUdpChksum := UInt16.ofNat v }
  | _ => r

/-- Replace the `k`-th 16-bit word of an index row. -/
def IpaNatIndxTblRule.writeHalf (r : IpaNatIndxTblRule) (k v : Nat) : IpaNatIndxTblRule :=
  match k with
  | 0 => { r with tblEntry := v }
  | 1 => { r with nextIndex := v }
  | _ => r

/-! ## Constants of `ipa_nat_drvi.h` -/

def ipaNatTableEntrySize : Nat := 32
def ipaNatIndexTableEntrySize : Nat := 4

def ipaNatRuleFlagFieldOffset : Nat := 18
def ipaNatRuleNextFieldOffset : Nat := 8
def ipaNatRuleProtoFieldOffset : Nat := 22
def ipaNatIndexRuleNextFieldOffset : Nat := 2
def ipaNatIndexRuleNatIndexFieldOffset : Nat := 0

def ipaNatFlagEnableBitMask : Nat := 0x8000
def ipaNatFlagDisableBitMask : Nat := 0x0000
def ipaNatInvalidProtoFieldValue : Nat := 0xFF00
def ipaNatInvalidProtoFieldCmp : UInt8 := 0xFF
abbrev ipaNatInvalidNatEntry : Nat := 0

def ipprotoTcp : UInt8 := 6
def ipprotoUdp : UInt8 := 17

/-! ## Hashes -/

/-- The bucket a 16-bit hash selects: its bits under the mask `size`, and `size` itself for 0, as
    row 0 of a base table is unused. -/
def maskHash (hash size : UInt16) : Nat :=
  if hash &&& size = 0 then size.toNat else (hash &&& size).toNat

def dstHash (trgtIp : UInt32) (trgtPort publicPort : UInt16) (proto : UInt8) (size : UInt16) : Nat :=
  maskHash (trgtIp.toUInt16 ^^^ (trgtIp >>> 16).toUInt16 ^^^ trgtPort ^^^ publicPort
    ^^^ proto.toUInt16) size

def srcHash (privIp : UInt32) (privPort : UInt16) (trgtIp : UInt32) (trgtPort : UInt16)
    (proto : UInt8) (size : UInt16) : Nat :=
  maskHash (privIp.toUInt16 ^^^ (privIp >>> 16).toUInt16 ^^^ privPort ^^^ trgtIp.toUInt16
    ^^^ (trgtIp >>> 16).toUInt16 ^^^ trgtPort ^^^ proto.toUInt16) size

theorem maskHash_range (hash : UInt16) {k : Nat} (hk : 1 ≤ k) (hk' : k ≤ 15) :
    1 ≤ maskHash hash (UInt16.ofNat (2 ^ k) - 1) ∧
      maskHash hash (UInt16.ofNat (2 ^ k) - 1) < 2 ^ k := by
  have hpow : 2 ≤ 2 ^ k := by
    calc 2 = 2 ^ 1 := rfl
      _ ≤ 2 ^ k := Nat.pow_le_pow_right (by omega) hk
  have hpow' : 2 ^ k ≤ 2 ^ 15 := Nat.pow_le_pow_right (by omega) hk'
  have hsize : (UInt16.ofNat (2 ^ k) - 1).toNat = 2 ^ k - 1 := by
    have hof : (UInt16.ofNat (2 ^ k)).toNat = 2 ^ k :=
      UInt16.toNat_ofNat_of_lt' (by simp only [UInt16.size]; omega)
    rw [UInt16.toNat_sub_of_le]
    · rw [hof]; rfl
    · rw [UInt16.le_iff_toNat_le, hof]
      exact le_trans (by decide) hpow
  unfold maskHash
  split
  · rw [hsize]; omega
  · next hne =>
    have hpos : (hash &&& (UInt16.ofNat (2 ^ k) - 1)).toNat ≠ 0 := fun h0 =>
      hne (UInt16.toNat_inj.1 (h0.trans (by rfl)))
    have hle : (hash &&& (UInt16.ofNat (2 ^ k) - 1)).toNat ≤ 2 ^ k - 1 := by
      rw [UInt16.toNat_and, hsize]
      exact Nat.and_le_right
    omega

/-! ## Checksum deltas -/

/-- Add the carry out of the low 16 bits back in. -/
def foldCarry (cksum : UInt32) : UInt32 :=
  if cksum >>> 16 ≠ 0 then (cksum &&& (0x0000FFFF : UInt32)) + 1 else cksum

def ipaNatiCalcIpCksum (pubIpAddr privIpAddr : UInt32) : UInt16 :=
  let cksum := foldCarry ((pubIpAddr &&& (0xFFFF : UInt32)) + (pubIpAddr >>> 16))
  let privIpAddr := ~~~privIpAddr
  let cksum := foldCarry (cksum + (privIpAddr &&& (0xFFFF : UInt32)))
  let cksum := foldCarry (cksum + (privIpAddr >>> 16))
  cksum.toUInt16

def ipaNatiCalcTcpUdpCksum (pubIpAddr : UInt32) (pubPort : UInt16) (privIpAddr : UInt32)
    (privPort : UInt16) : UInt16 :=
  let cksum := foldCarry ((pubIpAddr &&& (0xFFFF : UInt32)) + (pubIpAddr >>> 16))
  let cksum := foldCarry (cksum + pubPort.toUInt32)
  let privIpAddr := ~~~privIpAddr
  let cksum := foldCarry (cksum + (privIpAddr &&& (0xFFFF : UInt32)))
  let cksum := foldCarry (cksum + (privIpAddr >>> 16))
  let privPort := ~~~privPort
  let cksum := foldCarry (cksum + privPort.toUInt32)
  cksum.toUInt16

end Nx508j.Ipanat
