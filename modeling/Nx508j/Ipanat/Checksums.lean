import Nx508j.Lib.OnesComplement
import Nx508j.Ipanat.Rule

/-! # Checksum deltas

What is put into a rule for the IP and the TCP/UDP checksum is a difference of one's-complement
sums: with it the hardware adjusts the checksum of a packet whose source it translates, without
looking at the rest of the packet. -/

namespace Nx508j.Ipanat

open Nx508j.Lib

/-! ## Words -/

/-- The 16-bit words of an address. -/
def addrWords (addr : UInt32) : List UInt16 := [addr.toUInt16, (addr >>> 16).toUInt16]

/-- The numbers that words stand for. -/
def wordVals (ws : List UInt16) : List Nat := ws.map UInt16.toNat

theorem wordVals_lt (ws : List UInt16) : ∀ w ∈ wordVals ws, w < 65536 := by
  intro w hw
  obtain ⟨x, -, rfl⟩ := List.mem_map.1 hw
  exact x.toNat_lt

theorem lowWord_eq (a : UInt32) : a &&& (0xFFFF : UInt32) = a.toUInt16.toUInt32 := by
  refine UInt32.toNat_inj.1 ?_
  rw [UInt32.toNat_and, UInt16.toNat_toUInt32, UInt32.toNat_toUInt16]
  exact Nat.and_two_pow_sub_one_eq_mod a.toNat 16

theorem toNat_highWord (a : UInt32) : (a >>> 16).toNat = a.toNat / 65536 := by
  rw [UInt32.toNat_shiftRight]
  exact Nat.shiftRight_eq_div_pow a.toNat 16

theorem highWord_eq (a : UInt32) : a >>> 16 = (a >>> 16).toUInt16.toUInt32 := by
  refine UInt32.toNat_inj.1 ?_
  have hlt := a.toNat_lt
  rw [UInt16.toNat_toUInt32, UInt32.toNat_toUInt16, toNat_highWord]
  omega

theorem sum_addrWords (a : UInt32) :
    (wordVals (addrWords a)).sum = a.toNat % 65536 + a.toNat / 65536 := by
  have hlt := a.toNat_lt
  simp only [wordVals, addrWords, List.map_cons, List.map_nil, List.sum_cons, List.sum_nil,
    UInt32.toNat_toUInt16, toNat_highWord]
  omega

theorem sum_addrWords_not (a : UInt32) :
    (wordVals (addrWords (~~~a))).sum + (wordVals (addrWords a)).sum = 2 * 65535 := by
  have hlt := a.toNat_lt
  rw [sum_addrWords, sum_addrWords, UInt32.toNat_not]
  simp only [UInt32.size]
  omega

/-! ## The accumulator -/

theorem toNat_foldCarry {c : UInt32} (h : c.toNat < 2 * 65536) :
    (foldCarry c).toNat = endAround 65536 c.toNat := by
  have hhigh : c >>> 16 = 0 ↔ c.toNat / 65536 = 0 := by
    rw [← UInt32.toNat_inj, toNat_highWord]
    rfl
  unfold foldCarry endAround
  by_cases hzero : c >>> 16 = 0
  · rw [if_neg (not_not.2 hzero)]
    have := hhigh.1 hzero
    omega
  · rw [if_pos hzero, lowWord_eq, UInt32.toNat_add, UInt16.toNat_toUInt32, UInt32.toNat_toUInt16]
    have := mt hhigh.2 hzero
    have hone : (1 : UInt32).toNat = 1 := rfl
    omega

/-- Words are added to `cksum` one by one, and after each the carry. -/
def accumulate (cksum : UInt32) : List UInt16 → UInt32
  | [] => cksum
  | w :: ws => accumulate (foldCarry (cksum + w.toUInt32)) ws

theorem toNat_foldCarry_add {c : UInt32} (hc : c.toNat < 65536) (w : UInt16) :
    (foldCarry (c + w.toUInt32)).toNat = endAround 65536 (c.toNat + w.toNat) := by
  have hw := w.toNat_lt
  have hsum : (c + w.toUInt32).toNat = c.toNat + w.toNat := by
    rw [UInt32.toNat_add, UInt16.toNat_toUInt32]
    omega
  rw [toNat_foldCarry (by omega), hsum]

theorem accumulate_spec {ws : List UInt16} {c : UInt32} (hc : c.toNat < 65536) :
    (accumulate c ws).toNat < 65536 ∧
      (accumulate c ws).toNat ≡ c.toNat + (wordVals ws).sum [MOD 65535] := by
  induction ws generalizing c with
  | nil => exact ⟨hc, rfl⟩
  | cons w ws ih =>
    have hstep := toNat_foldCarry_add hc w
    have hlt : (foldCarry (c + w.toUInt32)).toNat < 65536 := by
      rw [hstep]
      exact endAround_add_lt hc w.toNat_lt
    obtain ⟨hfit, hcongr⟩ := ih hlt
    refine ⟨hfit, hcongr.trans ?_⟩
    rw [hstep, show wordVals (w :: ws) = w.toNat :: wordVals ws from rfl, List.sum_cons,
      ← Nat.add_assoc]
    exact Nat.ModEq.add_right _ (endAround_modEq (by decide) _)

theorem foldCarry_word (w : UInt16) : foldCarry (0 + w.toUInt32) = w.toUInt32 := by
  refine UInt32.toNat_inj.1 ?_
  rw [toNat_foldCarry_add (by decide), UInt16.toNat_toUInt32]
  exact (congrArg _ (Nat.zero_add _)).trans (endAround_of_lt w.toNat_lt)

theorem accumulate_addr (c a : UInt32) (ws : List UInt16) : accumulate c (addrWords a ++ ws) =
    accumulate (foldCarry (foldCarry (c + (a &&& (0xFFFF : UInt32))) + (a >>> 16))) ws := by
  rw [lowWord_eq, highWord_eq]
  rfl

theorem accumulate_addr_zero (a : UInt32) (ws : List UInt16) : accumulate 0 (addrWords a ++ ws) =
    accumulate (foldCarry ((a &&& (0xFFFF : UInt32)) + (a >>> 16))) ws := by
  rw [accumulate_addr, lowWord_eq, foldCarry_word]

/-- What `ipa_nati_calc_ip_cksum` has in its 32 bits before it returns the low half. -/
def ipCksumAcc (pubIpAddr privIpAddr : UInt32) : UInt32 :=
  let cksum := foldCarry ((pubIpAddr &&& (0xFFFF : UInt32)) + (pubIpAddr >>> 16))
  let privIpAddr := ~~~privIpAddr
  let cksum := foldCarry (cksum + (privIpAddr &&& (0xFFFF : UInt32)))
  foldCarry (cksum + (privIpAddr >>> 16))

theorem ipCksumAcc_eq (pubIpAddr privIpAddr : UInt32) :
    ipCksumAcc pubIpAddr privIpAddr =
      accumulate 0 (addrWords pubIpAddr ++ addrWords (~~~privIpAddr)) := by
  rw [accumulate_addr_zero, ← List.append_nil (addrWords (~~~privIpAddr)), accumulate_addr]
  rfl

/-- What `ipa_nati_calc_tcp_udp_cksum` has in its 32 bits before it returns the low half. -/
def tcpUdpCksumAcc (pubIpAddr : UInt32) (pubPort : UInt16) (privIpAddr : UInt32)
    (privPort : UInt16) : UInt32 :=
  let cksum := foldCarry ((pubIpAddr &&& (0xFFFF : UInt32)) + (pubIpAddr >>> 16))
  let cksum := foldCarry (cksum + pubPort.toUInt32)
  let privIpAddr := ~~~privIpAddr
  let cksum := foldCarry (cksum + (privIpAddr &&& (0xFFFF : UInt32)))
  let cksum := foldCarry (cksum + (privIpAddr >>> 16))
  foldCarry (cksum + (~~~privPort).toUInt32)

theorem tcpUdpCksumAcc_eq (pubIpAddr : UInt32) (pubPort : UInt16) (privIpAddr : UInt32)
    (privPort : UInt16) : tcpUdpCksumAcc pubIpAddr pubPort privIpAddr privPort =
      accumulate 0 ((addrWords pubIpAddr ++ [pubPort]) ++
        (addrWords (~~~privIpAddr) ++ [~~~privPort])) := by
  rw [List.append_assoc, accumulate_addr_zero, List.singleton_append, accumulate, accumulate_addr]
  rfl

/-! ## The deltas -/

/-- **The property.** Of what the computation has before it returns the low half nothing is lost. Up
    to multiples of 65535 it is the difference of the words that are replaced; and a checksum of any
    packet that has the old words, in any place and order, becomes with it a checksum of the packet
    that has the new ones there. -/
structure IsDelta (acc : UInt32) (delta : UInt16) (old new : List UInt16) : Prop where
  fits : delta.toNat = acc.toNat
  diff : (delta.toNat : Int) ≡ (wordVals new).sum - (wordVals old).sum [ZMOD 65535]
  packet : ∀ packet packet' rest : List UInt16, packet.Perm (old ++ rest) →
    packet'.Perm (new ++ rest) → ∀ cksum : UInt16,
      cksum.toNat ≡ onesChecksum 65536 (wordVals packet) [MOD 65535] →
        adjust 65536 cksum.toNat delta.toNat ≡
          onesChecksum 65536 (wordVals packet') [MOD 65535]

theorem isDelta_of_accumulate {old new comp : List UInt16} {k : Nat}
    (hcomp : (wordVals comp).sum + (wordVals old).sum = k * 65535) {acc : UInt32}
    (hacc : acc = accumulate 0 (new ++ comp)) : IsDelta acc acc.toUInt16 old new := by
  obtain ⟨hlt, hcongr⟩ := @accumulate_spec (new ++ comp) 0 (by decide)
  rw [← hacc] at hlt hcongr
  have hfits : acc.toUInt16.toNat = acc.toNat := by
    rw [UInt32.toNat_toUInt16]
    exact Nat.mod_eq_of_lt hlt
  have hsum : (wordVals (new ++ comp)).sum = (wordVals new).sum + (wordVals comp).sum := by
    rw [wordVals, List.map_append, List.sum_append]
    rfl
  have hdiff : acc.toUInt16.toNat + (wordVals old).sum ≡ (wordVals new).sum [MOD 65535] := by
    rw [hfits]
    calc acc.toNat + (wordVals old).sum
        ≡ 0 + (wordVals (new ++ comp)).sum + (wordVals old).sum [MOD 65535] :=
          Nat.ModEq.add_right _ hcongr
      _ = (wordVals new).sum + k * 65535 := by omega
      _ ≡ (wordVals new).sum [MOD 65535] := by simp [Nat.ModEq]
  refine ⟨hfits, ?_, ?_⟩
  · have hint := (Int.natCast_modEq_iff.2 hdiff).sub_right ((wordVals old).sum : Int)
    simpa using hint
  · intro packet packet' rest hperm hperm' cksum hcksum
    have hperm := hperm.map UInt16.toNat
    have hperm' := hperm'.map UInt16.toNat
    rw [List.map_append] at hperm hperm'
    exact adjust_modEq (by decide) acc.toUInt16.toNat_lt hdiff (wordVals_lt packet)
      (wordVals_lt packet') hperm hperm' cksum.toNat_lt hcksum

/-- **Checksum deltas.** What is put into a rule are the differences that the translation of the
    source makes to the two checksums. -/
theorem cksum_deltas (pubIpAddr privIpAddr : UInt32) (pubPort privPort : UInt16) :
    IsDelta (ipCksumAcc pubIpAddr privIpAddr) (ipaNatiCalcIpCksum pubIpAddr privIpAddr)
        (addrWords privIpAddr) (addrWords pubIpAddr) ∧
      IsDelta (tcpUdpCksumAcc pubIpAddr pubPort privIpAddr privPort)
        (ipaNatiCalcTcpUdpCksum pubIpAddr pubPort privIpAddr privPort)
        (addrWords privIpAddr ++ [privPort]) (addrWords pubIpAddr ++ [pubPort]) := by
  refine ⟨isDelta_of_accumulate (sum_addrWords_not privIpAddr) (ipCksumAcc_eq ..), ?_⟩
  refine isDelta_of_accumulate (k := 3) ?_ (tcpUdpCksumAcc_eq ..)
  have haddr := sum_addrWords_not privIpAddr
  have hport := privPort.toNat_lt
  have hnot : (~~~privPort).toNat = 65535 - privPort.toNat := UInt16.toNat_not privPort
  simp only [wordVals, List.map_append, List.sum_append, List.map_cons, List.map_nil,
    List.sum_cons, List.sum_nil] at haddr ⊢
  omega

end Nx508j.Ipanat
