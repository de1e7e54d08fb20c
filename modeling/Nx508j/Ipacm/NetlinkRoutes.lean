import Mathlib.Algebra.Group.Nat.Defs
import Nx508j.Ipacm.NetlinkMsgs

/-! # Routes that come and go

A route is announced by `RTM_NEWROUTE` and taken back by `RTM_DELROUTE`, and both are posted with an
address and a mask. The branches for the two make their masks each in its own way, and the two agree
with the prefix length for few routes. -/

namespace Nx508j.Ipacm

open Nx508j.Lib

namespace Netlink

open NlM

/-! ## What a message says -/

/-- The mask of the first `len` of `bits` bits. -/
def prefixMask (bits len : Nat) : Nat := 2 ^ bits - 2 ^ (bits - len)

/-- The words of the mask of a v6 prefix, in host order. -/
def maskWords (len : Nat) : List Nat :=
  (List.range 4).map fun i => prefixMask 128 len / 2 ^ (96 - 32 * i) % 2 ^ 32

/-- The word at byte `i` in host order: the first byte is the highest. -/
def hostWord (bs : List UInt8) (i : Nat) : Nat :=
  0x1000000 * (bs.getD i 0).toNat + 0x10000 * (bs.getD (i + 1) 0).toNat +
    0x100 * (bs.getD (i + 2) 0).toNat + (bs.getD (i + 3) 0).toNat

/-- The words of a v6 address in host order. -/
def hostWords (bs : List UInt8) : List Nat := (List.range 4).map fun i => hostWord bs (4 * i)

theorem ntohl_word (bs : List UInt8) (i : Nat) : ntohl (word bs i) = hostWord bs i := by
  have h0 := (bs.getD i 0).toNat_lt
  have h1 := (bs.getD (i + 1) 0).toNat_lt
  have h2 := (bs.getD (i + 2) 0).toNat_lt
  have h3 := (bs.getD (i + 3) 0).toNat_lt
  unfold ntohl word hostWord
  omega

theorem copyAddrV6_eq (addr : SockaddrStorage) : copyAddrV6 addr = hostWords addr.data := by
  unfold copyAddrV6 hostWords
  simp only [ntohl_word]

/-- Behind a message the decoder goes on to read what it takes for attributes, up to `stop`. None of
    those from `o` on is a destination, an outgoing interface or a gateway. -/
inductive Skipped (m : Region UInt8) (stop : Nat) : Nat → Prop
  | done {o : Nat} (hsize : o + 2 ≤ m.size) (h : ¬ Accepted rtattrSize (le16 m o) (stop - o)) :
      Skipped m stop o
  | skip {o : Nat} (hsize : o + rtattrSize ≤ m.size)
      (h : Accepted rtattrSize (le16 m o) (stop - o))
      (htype : le16 m (o + 2) ∉ [rtaDst, rtaOif, rtaGateway])
      (hcopies : Copies m (o + rtattrSize) (copySize rtmNewroute (le16 m (o + 2))))
      (hnext : o + align4 (le16 m o) ≤ stop) (rest : Skipped m stop (o + align4 (le16 m o))) :
      Skipped m stop o

/-- The data is that of the route, in host order, with the mask of its prefix length. -/
def EventDataAddr.Is (d : EventDataAddr) (r : RouteInfo) : Prop :=
  d.ifIndex = r.oifIndex ∧
    if r.metainfo.rtmFamily = afInet6 then
      d.iptype = .v6 ∧ d.ipv6Addr = (hostWords r.dstAddr.data).map some ∧
        d.ipv6AddrMask = (maskWords r.metainfo.rtmDstLen).map some
    else
      d.iptype = .v4 ∧ d.ipv4Addr = some (hostWord r.dstAddr.data 0) ∧
        d.ipv4AddrMask = some (prefixMask 32 r.metainfo.rtmDstLen)

/-- Two messages are about the same route. -/
structure RouteInfo.Same (r r' : RouteInfo) : Prop where
  metainfo : r.metainfo = r'.metainfo
  paramMask : r.paramMask = r'.paramMask
  oifIndex : r.oifIndex = r'.oifIndex
  dstV6 : r.metainfo.rtmFamily = afInet6 → hostWords r.dstAddr.data = hostWords r'.dstAddr.data
  dstV4 : r.metainfo.rtmFamily = afInet → hostWord r.dstAddr.data 0 = hostWord r'.dstAddr.data 0

/-- The routes that the branches agree on: a default route made by hand, and a host route of the
    kernel (with a gateway only if the host is the one of all ones, as a gateway is posted with the
    address for a mask, and only when it comes). -/
structure RouteInfo.Clean (r : RouteInfo) : Prop where
  boot : r.boot → ¬ r.has ipaRtaParamDst ∧ r.metainfo.rtmDstLen = 0
  kernel : r.kernelV6 → (r.has ipaRtaParamDst → r.metainfo.rtmDstLen = 128) ∧
    (r.has ipaRtaParamGateway →
      r.has ipaRtaParamDst ∧ hostWords r.dstAddr.data = List.replicate 4 0xffffffff)

/-! ## The masks -/

theorem masks_of_length : ∀ len ≤ 128,
    (routeMask (fun i => i) len = (maskWords len).map some ↔ 32 ∣ len) ∧
      (routeMask (fun _ => 0) len = (maskWords len).map some ↔ len = 128) ∧
        (maskWords len = List.replicate 4 0 ↔ len = 0) := by
  decide +kernel

theorem maskWords_host : maskWords 128 = List.replicate 4 0xffffffff := by decide +kernel

theorem prefixMask_eq_zero : ∀ len ≤ 32, prefixMask 32 len = 0 ↔ len = 0 := by
  decide +kernel

theorem hostWord_zero (i : Nat) : hostWord (List.replicate ssDataSize 0) i = 0 := by
  have hzero : ∀ j, (List.replicate ssDataSize (0 : UInt8)).getD j 0 = 0 := by
    intro j
    rw [List.getD_eq_getElem?_getD, List.getElem?_replicate]
    split <;> rfl
  simp only [hostWord, hzero]
  rfl

theorem hostWords_zero : hostWords (List.replicate ssDataSize 0) = List.replicate 4 0 := by
  simp [hostWords, hostWord_zero, List.range_succ]

/-! ## The attributes -/

section Attrs

variable {m : Region UInt8} {stop o o' x : Nat} {info r : RouteInfo}

theorem decodeAttrs_stop {fuel rtah buflen : Nat} (hsize : rtah + 2 ≤ m.size)
    (h : ¬ Accepted rtattrSize (le16 m rtah) buflen) (info : RouteInfo) :
    decodeAttrs m (routeAttr m) (fuel + 1) rtah buflen info = .ok info := by
  rw [decodeAttrs]
  split
  · rfl
  · next hlong =>
    have hnot : ¬ (rtattrSize ≤ le16 m rtah ∧ le16 m rtah ≤ buflen) :=
      fun hacc => h ⟨by omega, hacc.1, hacc.2⟩
    unfold inside
    rw [if_pos hsize, ok_bind]
    exact if_neg hnot

theorem decodeAttrs_step {fuel rtah buflen : Nat} (hsize : rtah + 4 ≤ m.size)
    (h : Accepted rtattrSize (le16 m rtah) buflen) (halign : align4 (le16 m rtah) ≤ buflen)
    (info : RouteInfo) : decodeAttrs m (routeAttr m) (fuel + 1) rtah buflen info = (do
      let info ← routeAttr m (le16 m (rtah + 2)) (rtah + rtattrSize) info
      decodeAttrs m (routeAttr m) fuel (rtah + align4 (le16 m rtah))
        (buflen - align4 (le16 m rtah)) info) := by
  obtain ⟨hhdr, hacc⟩ := h
  rw [decodeAttrs, if_neg (by omega)]
  unfold inside
  rw [if_pos (by omega), if_pos (by omega : rtah + 2 + 2 ≤ m.size), ok_bind]
  rw [if_pos hacc, ok_bind]
  simp only [if_pos halign]

/-- Two answers of the decoder that no event tells apart. -/
structure RouteInfo.Alike (r r' : RouteInfo) : Prop where
  metainfo : r.metainfo = r'.metainfo
  oifIndex : r.oifIndex = r'.oifIndex
  dstAddr : r.dstAddr = r'.dstAddr
  has : (r.has ipaRtaParamDst ↔ r'.has ipaRtaParamDst) ∧
    (r.has ipaRtaParamGateway ↔ r'.has ipaRtaParamGateway)

theorem RouteInfo.Alike.refl (r : RouteInfo) : r.Alike r := ⟨rfl, rfl, rfl, .rfl, .rfl⟩

theorem RouteInfo.Alike.trans {r r' r'' : RouteInfo} (h : r.Alike r') (h' : r'.Alike r'') :
    r.Alike r'' :=
  ⟨h.metainfo.trans h'.metainfo, h.oifIndex.trans h'.oifIndex, h.dstAddr.trans h'.dstAddr,
    h.has.1.trans h'.has.1, h.has.2.trans h'.has.2⟩

theorem RouteInfo.Alike.of_mask {param : Nat}
    (hparam : param &&& ipaRtaParamDst = 0 ∧ param &&& ipaRtaParamGateway = 0)
    (hmetainfo : r.metainfo = info.metainfo) (hoif : r.oifIndex = info.oifIndex)
    (hdst : r.dstAddr = info.dstAddr) (hmask : r.paramMask = info.paramMask ||| param) :
    r.Alike info := by
  refine ⟨hmetainfo, hoif, hdst, ?_⟩
  unfold RouteInfo.has
  rw [hmask, Nat.and_or_distrib_right, Nat.and_or_distrib_right, hparam.1, hparam.2, Nat.or_zero,
    Nat.or_zero]
  exact ⟨.rfl, .rfl⟩

theorem routeAttr_alike {rtaType data : Nat} (htype : rtaType ∉ [rtaDst, rtaOif, rtaGateway])
    (h : routeAttr m rtaType data info = .ok r) : r.Alike info := by
  obtain ⟨hdst, hoif, hgateway⟩ : rtaType ≠ rtaDst ∧ rtaType ≠ rtaOif ∧ rtaType ≠ rtaGateway := by
    simpa using htype
  unfold routeAttr at h
  rw [if_neg hdst, if_neg hgateway, if_neg hoif] at h
  split at h
  · obtain ⟨addr, -, h⟩ := bind_eq_ok h
    cases h
    exact .of_mask (show ipaRtaParamSrc &&& _ = 0 ∧ _ by decide) rfl rfl rfl rfl
  split at h
  · obtain ⟨_, -, h⟩ := bind_eq_ok h
    cases h
    exact .of_mask (show ipaRtaParamIif &&& _ = 0 ∧ _ by decide) rfl rfl rfl rfl
  split at h
  · obtain ⟨_, -, h⟩ := bind_eq_ok h
    cases h
    exact .of_mask (show ipaRtaParamPriority &&& _ = 0 ∧ _ by decide) rfl rfl rfl rfl
  · cases h
    exact .refl _

theorem Skipped.decodeAttrs (h : Skipped m stop o) : ∀ {fuel : Nat} (info : RouteInfo),
    stop - o < fuel → ∃ r, decodeAttrs m (routeAttr m) fuel o (stop - o) info = .ok r ∧
      r.Alike info := by
  have hfour : rtattrSize = 4 := rfl
  induction h with
  | done hsize h =>
    intro fuel info hfuel
    obtain ⟨fuel, rfl⟩ : ∃ n, fuel = n + 1 := ⟨fuel - 1, by omega⟩
    exact ⟨info, decodeAttrs_stop hsize h info, .refl info⟩
  | @skip o hsize h htype hcopies hnext rest ih =>
    intro fuel info hfuel
    have halign := le_align4 (le16 m o)
    have hlen := h.2.1
    obtain ⟨fuel, rfl⟩ : ∃ n, fuel = n + 1 := ⟨fuel - 1, by omega⟩
    have hrest : stop - o - align4 (le16 m o) = stop - (o + align4 (le16 m o)) := by omega
    obtain ⟨info₁, hattr⟩ := (returns_routeAttr (.inl rfl) _ _ info).2 hcopies
    obtain ⟨r, hr, halike⟩ := @ih fuel info₁ (by omega)
    rw [decodeAttrs_step hsize h (by omega), hattr, ok_bind, hrest]
    exact ⟨r, hr, halike.trans (routeAttr_alike htype hattr)⟩

end Attrs

/-! ## The events -/

section Events

variable {env : Nat → Bool} {m : Region UInt8} {p len buflen : Nat} {r r' : RouteInfo} {s : NlState}

/-- A new route made by hand, as it is posted when no message came before. -/
def bootAdd (r : RouteInfo) : EventDataAddr :=
  if r.has ipaRtaParamDst then {
    iptype := .v4
    ifIndex := r.oifIndex
    ipv4Addr := some (hostWord r.dstAddr.data 0)
    ipv4AddrMask := some 0 }
  else if r.metainfo.rtmFamily = afInet6 then defaultV6 r
  else {
    iptype := .v4
    ifIndex := r.oifIndex
    ipv4Addr := some (hostWord r.dstAddr.data 0)
    ipv4AddrMask := some (hostWord r.dstAddr.data 0) }

def bootDel (r : RouteInfo) : EventDataAddr :=
  if r.has ipaRtaParamDst then { bootAdd r with ipv4AddrMask := some 0xffffffff } else bootAdd r

/-- A route of the kernel to a destination. -/
def kernelData (slot : Nat → Nat) (r : RouteInfo) : EventDataAddr where
  iptype := .v6
  ifIndex := r.oifIndex
  ipv6Addr := (hostWords r.dstAddr.data).map some
  ipv6AddrMask := routeMask slot r.metainfo.rtmDstLen

/-- What `RTM_NEWROUTE` posts if nothing fails. -/
def routeAdds (r : RouteInfo) : List EventDataAddr :=
  (if r.boot then [bootAdd r] else []) ++
    (if r.kernelV6 then
      (if r.has ipaRtaParamDst then [kernelData (fun i => i) r] else []) ++
        (if r.has ipaRtaParamGateway then [defaultV6 r] else [])
    else [])

/-- What `RTM_DELROUTE` posts if nothing fails. -/
def routeDels (r : RouteInfo) : List EventDataAddr :=
  (if r.boot then [bootDel r] else []) ++
    (if r.kernelV6 ∧ r.has ipaRtaParamDst then [kernelData (fun _ => 0) r] else [])

theorem not_kernelV6_of_boot (h : r.boot) : ¬ r.kernelV6 := by
  intro hkernel
  have := h.2.1.symm.trans hkernel.2.2.1
  exact absurd this (by decide)

end Events

/-! ## The two messages -/

section Match

variable {r r' : RouteInfo}

theorem RouteInfo.Same.has (h : r.Same r') (param : Nat) : r.has param ↔ r'.has param := by
  unfold RouteInfo.has
  rw [h.paramMask]

theorem RouteInfo.Same.boot (h : r.Same r') : r.boot ↔ r'.boot := by
  unfold RouteInfo.boot
  rw [h.metainfo]

theorem RouteInfo.Same.kernelV6 (h : r.Same r') : r.kernelV6 ↔ r'.kernelV6 := by
  unfold RouteInfo.kernelV6
  rw [h.metainfo]

/-- The mask of a route is no longer than an address of its family. -/
def RouteInfo.Fits (r : RouteInfo) : Prop :=
  r.metainfo.rtmFamily = afInet ∧ r.metainfo.rtmDstLen ≤ 32 ∨
    r.metainfo.rtmFamily = afInet6 ∧ r.metainfo.rtmDstLen ≤ 128

theorem bootAdd_is (hfits : r.Fits) (hsame : r.Same r') (hdst : ¬ r'.has ipaRtaParamDst)
    (hzero : r.dstAddr = {}) (hzero' : r'.dstAddr = {}) :
    (bootAdd r').Is r ↔ r.metainfo.rtmDstLen = 0 := by
  unfold bootAdd EventDataAddr.Is
  rw [if_neg hdst, ← hsame.metainfo]
  rcases hfits with ⟨hfamily, hlen⟩ | ⟨hfamily, hlen⟩
  · have hne : r.metainfo.rtmFamily ≠ afInet6 := by
      rw [hfamily]
      decide
    simp only [if_neg hne, hzero, hzero', hostWord_zero, hsame.oifIndex, true_and, Option.some.injEq]
    rw [eq_comm]
    exact prefixMask_eq_zero _ hlen
  · simp only [if_pos hfamily, defaultV6, copyAddrV6_eq, hzero, hzero', hostWords_zero,
      hsame.oifIndex, true_and]
    rw [eq_comm, List.map_inj_right fun _ _ => Option.some.inj]
    exact (masks_of_length _ hlen).2.2

theorem not_boot_dst (hfits : r.Fits) (hdst : r.has ipaRtaParamDst) (hdst' : r'.has ipaRtaParamDst)
    (hadd : (bootAdd r).Is r) : ¬ (bootDel r').Is r := by
  intro hdel
  unfold bootDel bootAdd EventDataAddr.Is at *
  simp only [if_pos hdst, if_pos hdst'] at hadd hdel
  rcases hfits with ⟨hfamily, -⟩ | ⟨hfamily, -⟩
  · have hne : r.metainfo.rtmFamily ≠ afInet6 := by
      rw [hfamily]
      decide
    rw [if_neg hne] at hadd hdel
    exact absurd (hadd.2.2.2.trans hdel.2.2.2.symm) (by decide)
  · rw [if_pos hfamily] at hadd
    cases hadd.2.1

theorem kernelData_is (hfamily : r.metainfo.rtmFamily = afInet6) (hsame : r.Same r')
    (slot : Nat → Nat) : (kernelData slot r').Is r ↔
      routeMask slot r.metainfo.rtmDstLen = (maskWords r.metainfo.rtmDstLen).map some := by
  unfold kernelData EventDataAddr.Is
  simp only [if_pos hfamily, hsame.oifIndex, hsame.dstV6 hfamily, ← hsame.metainfo, true_and]

theorem defaultV6_is (hfamily : r.metainfo.rtmFamily = afInet6) :
    (defaultV6 r).Is r ↔ hostWords r.dstAddr.data = maskWords r.metainfo.rtmDstLen := by
  unfold defaultV6 EventDataAddr.Is
  simp only [if_pos hfamily, copyAddrV6_eq, true_and]
  exact List.map_inj_right fun _ _ => Option.some.inj

/-- What is posted for the two messages if nothing fails. -/
def Agree (r r' : RouteInfo) : Prop := ∀ d ∈ routeAdds r, d.Is r ∧ ∃ d' ∈ routeDels r', d'.Is r

theorem agree_boot (hfits : r.Fits) (hsame : r.Same r') (hboot : r.boot)
    (hzero : ¬ r.has ipaRtaParamDst → r.dstAddr = {})
    (hzero' : ¬ r'.has ipaRtaParamDst → r'.dstAddr = {}) :
    Agree r r' ↔ ¬ r.has ipaRtaParamDst ∧ r.metainfo.rtmDstLen = 0 := by
  have hadds : routeAdds r = [bootAdd r] := by
    unfold routeAdds
    simp only [hboot, not_kernelV6_of_boot hboot, if_true, if_false, List.append_nil]
  have hdels : routeDels r' = [bootDel r'] := by
    have hboot' := hsame.boot.1 hboot
    unfold routeDels
    simp only [hboot', not_kernelV6_of_boot hboot', if_true, if_false, false_and, List.append_nil]
  unfold Agree
  simp only [hadds, hdels, List.mem_singleton, forall_eq, exists_eq_left]
  by_cases hdst : r.has ipaRtaParamDst
  · have hdst' := (hsame.has _).1 hdst
    exact iff_of_false (fun h => not_boot_dst hfits hdst hdst' h.1 h.2) fun h => h.1 hdst
  · have hdst' : ¬ r'.has ipaRtaParamDst := fun h => hdst ((hsame.has _).2 h)
    have hdel : bootDel r' = bootAdd r' := if_neg hdst'
    have hself : r.Same r := ⟨rfl, rfl, rfl, fun _ => rfl, fun _ => rfl⟩
    rw [hdel, bootAdd_is hfits hself hdst (hzero hdst) (hzero hdst),
      bootAdd_is hfits hsame hdst' (hzero hdst) (hzero' hdst'), and_self, and_iff_right hdst]

theorem agree_kernel (hfits : r.Fits) (hsame : r.Same r') (hkernel : r.kernelV6) :
    Agree r r' ↔ (r.has ipaRtaParamDst → r.metainfo.rtmDstLen = 128) ∧
      (r.has ipaRtaParamGateway →
        r.has ipaRtaParamDst ∧ hostWords r.dstAddr.data = List.replicate 4 0xffffffff) := by
  have hfamily : r.metainfo.rtmFamily = afInet6 := hkernel.1
  have hlen : r.metainfo.rtmDstLen ≤ 128 := by
    rcases hfits with ⟨hinet, -⟩ | ⟨-, hlen⟩
    · exact absurd (hinet.symm.trans hfamily) (by decide)
    · exact hlen
  have hboot : ¬ r.boot := fun h => not_kernelV6_of_boot h hkernel
  have hboot' : ¬ r'.boot := fun h => hboot (hsame.boot.2 h)
  have hself : r.Same r := ⟨rfl, rfl, rfl, fun _ => rfl, fun _ => rfl⟩
  have hadd := kernelData_is hfamily hself fun i => i
  rw [(masks_of_length _ hlen).1] at hadd
  have hdel := kernelData_is hfamily hsame fun _ => 0
  rw [(masks_of_length _ hlen).2.1] at hdel
  unfold Agree routeAdds routeDels
  simp only [hboot, hboot', hkernel, hsame.kernelV6.1 hkernel, ← hsame.has, if_true, if_false,
    true_and, List.nil_append]
  by_cases hdst : r.has ipaRtaParamDst
  · simp only [hdst, if_true, List.mem_append, List.mem_singleton, exists_eq_left, hdel,
      forall_true_left, true_and]
    constructor
    · intro h
      obtain ⟨-, h128⟩ := h _ (.inl rfl)
      refine ⟨h128, fun hgateway => ?_⟩
      have hmask := (h (defaultV6 r) (.inr (by simp [hgateway]))).1
      rw [defaultV6_is hfamily, h128] at hmask
      exact hmask.trans maskWords_host
    · rintro ⟨h128, hgateway⟩ d (rfl | hd)
      · exact ⟨hadd.2 ⟨4, h128⟩, h128⟩
      · split at hd
        · next hhas =>
          obtain rfl := List.mem_singleton.1 hd
          refine ⟨(defaultV6_is hfamily).2 ?_, h128⟩
          rw [h128, hgateway hhas, maskWords_host]
        · cases hd
  · by_cases hgateway : r.has ipaRtaParamGateway
    · simp [hdst, hgateway]
    · simp [hdst, hgateway]

theorem agree_iff (hfits : r.Fits) (hsame : r.Same r')
    (hzero : ¬ r.has ipaRtaParamDst → r.dstAddr = {})
    (hzero' : ¬ r'.has ipaRtaParamDst → r'.dstAddr = {}) : Agree r r' ↔ r.Clean := by
  by_cases hboot : r.boot
  · rw [agree_boot hfits hsame hboot hzero hzero']
    exact ⟨fun h => ⟨fun _ => h, fun hk => absurd hk (not_kernelV6_of_boot hboot)⟩,
      fun h => h.boot hboot⟩
  by_cases hkernel : r.kernelV6
  · rw [agree_kernel hfits hsame hkernel]
    exact ⟨fun h => ⟨fun hb => absurd hb hboot, fun _ => h⟩, fun h => h.kernel hkernel⟩
  · have hnone : routeAdds r = [] := by
      unfold routeAdds
      simp only [hboot, hkernel, if_false, List.append_nil]
    refine iff_of_true (fun d hd => ?_) ⟨fun h => absurd h hboot, fun h => absurd h hkernel⟩
    rw [hnone] at hd
    cases hd

end Match

theorem RouteInfo.Same.refl (r : RouteInfo) : r.Same r :=
  ⟨rfl, rfl, rfl, fun _ => rfl, fun _ => rfl⟩

end Netlink

end Nx508j.Ipacm
