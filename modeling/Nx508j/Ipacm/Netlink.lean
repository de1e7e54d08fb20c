import Nx508j.Lib.Tlv
import Nx508j.Lib.Memory

/-! # The netlink decoder

`ipa_nl_decode_nlmsg` walks over the messages of a received buffer, decodes those about links,
addresses, routes and neighbours, and posts events. Where the program would read past the received
bytes, or let the unsigned count of what is left go below zero, the model ends with a fault. -/

namespace Nx508j.Ipacm

open Nx508j.Lib

/-- Why a decoder of the model has no result. -/
inductive NlFault where
  | outside
  | wraps
  | diverges
deriving DecidableEq, Repr

namespace Netlink

/-! ## Reading the buffer -/

/-- The `k` bytes from `o` on were received. -/
def inside (m : Region UInt8) (o k : Nat) : Except NlFault Unit :=
  if o + k ≤ m.size then .ok () else .error .outside

/-- Two bytes in host order. -/
def le16 (m : Region UInt8) (o : Nat) : Nat := (m.get o).toNat + 256 * (m.get (o + 1)).toNat

/-- Four bytes in host order. -/
def le32 (m : Region UInt8) (o : Nat) : Nat := le16 m o + 65536 * le16 m (o + 2)

def bytes (m : Region UInt8) (o k : Nat) : List UInt8 := (List.range k).map fun i => m.get (o + i)

/-- `sizeof(struct nlmsghdr)`. -/
def nlmsghdrSize : Nat := 16

/-- `sizeof(struct rtattr)`. -/
def rtattrSize : Nat := 4

/-- The size of `__data` in `struct sockaddr_storage`. -/
def ssDataSize : Nat := 126

/-- The size of `sa_data` in `struct sockaddr`. -/
def saDataSize : Nat := 14

/-! ## The decoded messages -/

structure IfInfoMsg where
  ifiFamily : Nat := 0
  ifiIndex : Nat := 0
  ifiFlags : Nat := 0
  ifiChange : Nat := 0
deriving DecidableEq, Repr

structure IfAddrMsg where
  ifaFamily : Nat := 0
  ifaIndex : Nat := 0
deriving DecidableEq, Repr

structure NdMsg where
  ndmFamily : Nat := 0
  ndmIfindex : Nat := 0
deriving DecidableEq, Repr

structure RtMsg where
  rtmFamily : Nat := 0
  rtmDstLen : Nat := 0
  rtmTable : Nat := 0
  rtmProtocol : Nat := 0
  rtmScope : Nat := 0
  rtmType : Nat := 0
deriving DecidableEq, Repr

/-- `struct sockaddr_storage`. -/
structure SockaddrStorage where
  ssFamily : Nat := 0
  data : List UInt8 := List.replicate ssDataSize 0
deriving DecidableEq, Repr

/-- `ipa_nl_addr_info_t`. -/
structure AddrInfo where
  metainfo : IfAddrMsg := {}
  paramMask : Nat := 0
  prefixAddr : SockaddrStorage := {}
deriving DecidableEq, Repr

/-- `ipa_nl_neigh_info_t`. -/
structure NeighInfo where
  metainfo : NdMsg := {}
  paramMask : Nat := 0
  localAddr : SockaddrStorage := {}
  lladdrHwaddr : List UInt8 := List.replicate saDataSize 0
deriving DecidableEq, Repr

/-- `ipa_nl_route_info_t`. -/
structure RouteInfo where
  metainfo : RtMsg := {}
  paramMask : Nat := 0
  dstAddr : SockaddrStorage := {}
  srcAddr : SockaddrStorage := {}
  gatewayAddr : SockaddrStorage := {}
  iifIndex : Nat := 0
  oifIndex : Nat := 0
  priority : Nat := 0
deriving DecidableEq, Repr

/-- `ipa_nl_msg_t`, which is cleared for every buffer and shared by its messages. -/
structure NlMsg where
  type : Nat := 0
  linkEvent : Bool := false
  nlLinkInfo : IfInfoMsg := {}
  nlAddrInfo : AddrInfo := {}
  nlNeighInfo : NeighInfo := {}
  nlRouteInfo : RouteInfo := {}
deriving DecidableEq, Repr

/-! ## The attributes -/

def ifaAddress : Nat := 1
def ndaDst : Nat := 1
def ndaLladdr : Nat := 2
def rtaDst : Nat := 1
def rtaSrc : Nat := 2
def rtaIif : Nat := 3
def rtaOif : Nat := 4
def rtaGateway : Nat := 5
def rtaPriority : Nat := 6

def ipaNlaParamPrefixaddr : Nat := 0x0001
def ipaRtaParamDst : Nat := 0x0001
def ipaRtaParamSrc : Nat := 0x0002
def ipaRtaParamGateway : Nat := 0x0004
def ipaRtaParamIif : Nat := 0x0008
def ipaRtaParamOif : Nat := 0x0010
def ipaRtaParamPriority : Nat := 0x0080

/-- `IPACM_NL_COPY_ADDR`: all of `__data` is copied, whatever the length of the attribute. -/
def copyAddr (m : Region UInt8) (family data : Nat) : Except NlFault SockaddrStorage := do
  inside m data ssDataSize
  .ok ⟨family, bytes m data ssDataSize⟩

/-- The loops over the attributes: `RTA_OK`, the `switch` on `rta_type`, `RTA_NEXT`. -/
def decodeAttrs {α : Type} (m : Region UInt8) (attr : Nat → Nat → α → Except NlFault α) :
    Nat → Nat → Nat → α → Except NlFault α
  | 0, _, _, _ => .error .diverges
  | fuel + 1, rtah, buflen, info =>
    if buflen < rtattrSize then .ok info
    else do
      inside m rtah 2
      let rtaLen := le16 m rtah
      if rtattrSize ≤ rtaLen ∧ rtaLen ≤ buflen then
        inside m (rtah + 2) 2
        let info ← attr (le16 m (rtah + 2)) (rtah + rtattrSize) info
        if align4 rtaLen ≤ buflen then
          decodeAttrs m attr fuel (rtah + align4 rtaLen) (buflen - align4 rtaLen) info
        else .error .wraps
      else .ok info

/-- `ipa_nl_decode_rtm_link`. -/
def decodeRtmLink (m : Region UInt8) (buffer : Nat) : Except NlFault IfInfoMsg := do
  let data := buffer + nlmsghdrSize
  inside m data 16
  .ok {
    ifiFamily := (m.get data).toNat
    ifiIndex := le32 m (data + 4)
    ifiFlags := le32 m (data + 8)
    ifiChange := le32 m (data + 12) }

def addrAttr (m : Region UInt8) (rtaType data : Nat) (info : AddrInfo) :
    Except NlFault AddrInfo :=
  if rtaType = ifaAddress then do
    let addr ← copyAddr m info.metainfo.ifaFamily data
    .ok { info with prefixAddr := addr, paramMask := info.paramMask ||| ipaNlaParamPrefixaddr }
  else .ok info

/-- `ipa_nl_decode_rtm_addr`. -/
def decodeRtmAddr (m : Region UInt8) (buffer buflen : Nat) (info : AddrInfo) :
    Except NlFault AddrInfo := do
  let data := buffer + nlmsghdrSize
  inside m data 8
  let metainfo := { ifaFamily := (m.get data).toNat, ifaIndex := le32 m (data + 4) }
  decodeAttrs m (addrAttr m) (buflen + 1) (data + 8) (buflen - nlmsghdrSize)
    { info with metainfo := metainfo, paramMask := 0 }

def neighAttr (m : Region UInt8) (rtaType data : Nat) (info : NeighInfo) :
    Except NlFault NeighInfo :=
  if rtaType = ndaDst then do
    let addr ← copyAddr m info.metainfo.ndmFamily data
    .ok { info with localAddr := addr }
  else if rtaType = ndaLladdr then do
    inside m data saDataSize
    .ok { info with lladdrHwaddr := bytes m data saDataSize }
  else .ok info

/-- `ipa_nl_decode_rtm_neigh`. -/
def decodeRtmNeigh (m : Region UInt8) (buffer buflen : Nat) (info : NeighInfo) :
    Except NlFault NeighInfo := do
  let data := buffer + nlmsghdrSize
  inside m data 12
  let metainfo := { ndmFamily := (m.get data).toNat, ndmIfindex := le32 m (data + 4) }
  decodeAttrs m (neighAttr m) (buflen + 1) (data + 12) (buflen - nlmsghdrSize)
    { info with metainfo := metainfo, paramMask := 0 }

def routeAttr (m : Region UInt8) (rtaType data : Nat) (info : RouteInfo) :
    Except NlFault RouteInfo :=
  if rtaType = rtaDst then do
    let addr ← copyAddr m info.metainfo.rtmFamily data
    .ok { info with dstAddr := addr, paramMask := info.paramMask ||| ipaRtaParamDst }
  else if rtaType = rtaSrc then do
    let addr ← copyAddr m info.metainfo.rtmFamily data
    .ok { info with srcAddr := addr, paramMask := info.paramMask ||| ipaRtaParamSrc }
  else if rtaType = rtaGateway then do
    let addr ← copyAddr m info.metainfo.rtmFamily data
    .ok { info with gatewayAddr := addr, paramMask := info.paramMask ||| ipaRtaParamGateway }
  else if rtaType = rtaIif then do
    inside m data 4
    .ok { info with iifIndex := le32 m data, paramMask := info.paramMask ||| ipaRtaParamIif }
  else if rtaType = rtaOif then do
    inside m data 4
    .ok { info with oifIndex := le32 m data, paramMask := info.paramMask ||| ipaRtaParamOif }
  else if rtaType = rtaPriority then do
    inside m data 4
    .ok { info with priority := le32 m data, paramMask := info.paramMask ||| ipaRtaParamPriority }
  else .ok info

/-- `ipa_nl_decode_rtm_route`. -/
def decodeRtmRoute (m : Region UInt8) (buffer buflen : Nat) (info : RouteInfo) :
    Except NlFault RouteInfo := do
  let data := buffer + nlmsghdrSize
  inside m data 12
  let metainfo := {
    rtmFamily := (m.get data).toNat
    rtmDstLen := (m.get (data + 1)).toNat
    rtmTable := (m.get (data + 4)).toNat
    rtmProtocol := (m.get (data + 5)).toNat
    rtmScope := (m.get (data + 6)).toNat
    rtmType := (m.get (data + 7)).toNat }
  decodeAttrs m (routeAttr m) (buflen + 1) (data + 12) (buflen - nlmsghdrSize)
    { info with metainfo := metainfo, paramMask := 0 }

end Netlink

end Nx508j.Ipacm
