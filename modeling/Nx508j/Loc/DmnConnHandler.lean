import Nx508j.Lib.CString
import Nx508j.Loc.DmnConnGlue

/-! # The server of the connection daemon

`loc_api_server_proc` receives a message and calls the handler for its `ctrl_type`. The handlers are
told how long the message is, and do not look: they read the fields that its `ctrl_type` says it
has, whether or not they came, and copy strings up to a null byte, wherever it is. -/

namespace Nx508j.Loc

open Nx508j.Lib

/-! ## The message -/

namespace Abi

variable (abi : Abi)

/-- `sizeof(struct ctrl_msgbuf)` -/
def sizeofCtrlMsgbuf : Abi → Nat
  | .arm64 => 128
  | .arm => 112

/-- How many bytes the server has room for. -/
def msgbufsz : Nat := abi.sizeofCtrlMsgbuf + 256

-- where the fields are in `struct ctrl_msgbuf`; those of the union are in `ctrl_msg_if_request`

def ctrl_type : Nat := abi.sizeT + 8

def cmsg : Nat := abi.ctrl_type + abi.sizeT

def sender_id : Nat := abi.cmsg + 4

def ipv4_addr : Nat := abi.sender_id + 4

def ipv6_addr : Nat := abi.ipv4_addr + abi.sizeT

def ssid : Nat := abi.ipv6_addr + 16

/-- `SSID_BUF_SIZE` -/
def ssidBufSize : Nat := 33

def password : Nat := abi.ssid + ssidBufSize

end Abi

/-- The handlers that a `ctrl_type` calls; for the others nothing is done. -/
inductive IfHandler where
  | request
  | release
deriving DecidableEq, Repr

def IfHandler.of (ctrl_type : UInt8) : Option IfHandler :=
  if ctrl_type = 0xF0 then some .request
  else if ctrl_type = 0xF1 then some .release
  else none

inductive AGpsExtType where
  | supl
  | wifi
  | any
deriving DecidableEq, Repr

/-- `ctrl_if_req_type_e_type` -/
def AGpsExtType.of : Nat → Option AGpsExtType
  | 0 => some .supl
  | 1 => some .wifi
  | 2 => some .any
  | _ => none

inductive IfRequestSender where
  | quipc
  | msapm
  | msapu
  | gpsoneDaemon
deriving DecidableEq, Repr

/-- `ctrl_if_req_sender_id_e_type` -/
def IfRequestSender.of : Nat → Option IfRequestSender
  | 0 => some .quipc
  | 1 => some .msapm
  | 2 => some .msapu
  | 3 => some .gpsoneDaemon
  | _ => none

/-- `LocEngReqRelWifi` and `LocEngReqRelBIT`, as they are posted to the engine. -/
inductive LocEngReqRel where
  | wifi (type : AGpsExtType) (sender_id : IfRequestSender) (ssid password : List UInt8)
      (isReq : Bool)
  | bit (type : AGpsExtType) (ipv4 : BitVec 32) (ipv6 : List UInt8) (isReq : Bool)
deriving DecidableEq, Repr

/-- Who a message was posted for. -/
def LocEngReqRel.sender : LocEngReqRel → IfRequestSender
  | .wifi _ sender_id .. => sender_id
  | .bit .. => .gpsoneDaemon

/-! ## The handlers -/

/-- An integer, the lowest byte first. -/
def leNat (bytes : List UInt8) : Nat := bytes.foldr (fun b v => b.toNat + 256 * v) 0

/-- What the two handlers do alike. -/
def if_handler (abi : Abi) (isReq : Bool) (pmsg : Region UInt8) :
    Except Fault (Int × Option LocEngReqRel) := do
  let type ← pmsg.slice abi.cmsg 4
  match AGpsExtType.of (leNat type) with
  | none => .ok (-1, none)
  | some type => do
      let sender_id ← pmsg.slice abi.sender_id 4
      match IfRequestSender.of (leNat sender_id) with
      | none => .ok (-1, none)
      | some .gpsoneDaemon => do
          let ipv4 ← pmsg.slice abi.ipv4_addr abi.sizeT
          let ipv6 ← pmsg.slice abi.ipv6_addr 16
          .ok (0, some (.bit type (.ofNat 32 (leNat ipv4)) ipv6 isReq))
      | some sender_id => do
          let ssid ← pmsg.strlcpy abi.ssid Abi.ssidBufSize
          let password ← pmsg.strlcpy abi.password Abi.ssidBufSize
          .ok (0, some (.wifi type sender_id ssid password isReq))

def loc_eng_dmn_conn_loc_api_server_if_request_handler (abi : Abi) (loc_api_handle : Bool)
    (pmsg : Region UInt8) : Except Fault (Int × Option LocEngReqRel) :=
  if loc_api_handle = false then .ok (1, none) else if_handler abi true pmsg

/-- Here the handle is not looked at. -/
def loc_eng_dmn_conn_loc_api_server_if_release_handler (abi : Abi) (pmsg : Region UInt8) :
    Except Fault (Int × Option LocEngReqRel) :=
  if_handler abi false pmsg

/-- The `switch` over the type of a message: the handler that is called and what it posts. What a
    handler returns is not looked at. -/
def switch_ctrl_type (abi : Abi) (loc_api_handle : Bool) (pmsg : Region UInt8) :
    Except Fault (Option IfHandler × Option LocEngReqRel) := do
  let ctrl_type ← pmsg.read abi.ctrl_type
  match IfHandler.of ctrl_type with
  | none => .ok (none, none)
  | some .request => do
      let result ← loc_eng_dmn_conn_loc_api_server_if_request_handler abi loc_api_handle pmsg
      .ok (some .request, result.2)
  | some .release => do
      let result ← loc_eng_dmn_conn_loc_api_server_if_release_handler abi pmsg
      .ok (some .release, result.2)

/-- The bytes of the message that a handler is called with. -/
def Rcv.message (r : Rcv) : List UInt8 := (List.range r.ret.toNat).map r.mem

/-- What `loc_api_server_proc` returns and leaves in the pipe, the handler it called and for which
    message, and what was posted. -/
structure ServerProc where
  ret : Int
  pipe : Pipe
  dispatched : Option (IfHandler × List UInt8)
  posted : Option LocEngReqRel
deriving DecidableEq, Repr

/-- The buffer is what `malloc` gives, with what is mapped behind it. To post a message is to use
    the engine that `loc_api_handle` points to. -/
def loc_api_server_proc (abi : Abi) (loc_api_handle : Bool) (malloc : Option (Region UInt8))
    (p : Pipe) : Except Fault ServerProc :=
  match malloc with
  | none => .ok ⟨-1, p, none, none⟩
  | some p_cmsgbuf =>
    let r := loc_eng_dmn_conn_glue_msgrcv abi p p_cmsgbuf.get (.ofNat abi.bits abi.msgbufsz)
    if r.ret ≤ 0 then .ok ⟨-1, r.pipe, none, none⟩
    else do
      let (handler, posted) ← switch_ctrl_type abi loc_api_handle ⟨p_cmsgbuf.size, r.mem⟩
      if posted.isSome ∧ loc_api_handle = false then .error .outOfBounds
      else .ok ⟨0, r.pipe, handler.map (·, r.message), posted⟩

/-! ## The property -/

/-- A null byte ends the string in its field. -/
def Memory.Terminated (mem : Memory) (off : Nat) : Prop :=
  ∃ i < Abi.ssidBufSize, mem (off + i) = 0

/-- What is needed of a message from a sender has come, and its strings end. -/
def Rcv.Complete (abi : Abi) (r : Rcv) : IfRequestSender → Prop
  | .gpsoneDaemon => abi.ssid ≤ r.received
  | _ => abi.password + Abi.ssidBufSize ≤ r.received ∧ r.mem.Terminated abi.ssid ∧
      r.mem.Terminated abi.password

/-- **Only what was received is used**: whatever is mapped behind the bytes of the message, the same
    is done, and a message is posted only for one that is complete. -/
def Rcv.Uses (abi : Abi) (loc_api_handle : Bool) (r : Rcv) : Prop :=
  ∃ handler posted,
    (∀ size, r.received ≤ size →
      switch_ctrl_type abi loc_api_handle ⟨size, r.mem⟩ = .ok (handler, posted)) ∧
    ∀ msg, posted = some msg → r.Complete abi msg.sender

/-! ## The condition -/

/-- An integer of the message. -/
def Memory.int (mem : Memory) (off : Nat) : Nat := leNat ((List.range 4).map fun i => mem (off + i))

/-- **The condition** on an interface request or release: it has a type, and if that is one of the
    three it has a sender, and if that is one of the four it is complete for it. -/
def Rcv.IfFits (abi : Abi) (r : Rcv) : Prop :=
  abi.sender_id ≤ r.received ∧ ∀ type, AGpsExtType.of (r.mem.int abi.cmsg) = some type →
    abi.ipv4_addr ≤ r.received ∧
      ∀ sender, IfRequestSender.of (r.mem.int abi.sender_id) = some sender → r.Complete abi sender

/-- **The condition** on a message: it has a `ctrl_type`, and if that is a release, or a request
    with an engine, the condition for these holds. -/
def Rcv.Fits (abi : Abi) (loc_api_handle : Bool) (r : Rcv) : Prop :=
  abi.ctrl_type < r.received ∧ ∀ handler, IfHandler.of (r.mem abi.ctrl_type) = some handler →
    (handler = .request → loc_api_handle = true) → r.IfFits abi

/-! ## What is read -/

section Reads

variable {abi : Abi} {loc_api_handle : Bool} {mem : Memory} {size size' : Nat}

theorem if_handler_mono (isReq : Bool) {res : Int × Option LocEngReqRel} (hle : size ≤ size')
    (h : if_handler abi isReq ⟨size, mem⟩ = .ok res) :
    if_handler abi isReq ⟨size', mem⟩ = .ok res := by
  refine bind_ok_mono (fun _ ha => Region.slice_mono hle ha) (fun type h => ?_) h
  split at h
  · exact h
  · refine bind_ok_mono (fun _ ha => Region.slice_mono hle ha) (fun sender_id h => ?_) h
    split at h
    · exact h
    · refine bind_ok_mono (fun _ ha => Region.slice_mono hle ha) (fun ipv4 h => ?_) h
      exact bind_ok_mono (fun _ ha => Region.slice_mono hle ha) (fun ipv6 h => h) h
    · refine bind_ok_mono (fun _ ha => Region.strlcpy_mono hle ha) (fun ssid h => ?_) h
      exact bind_ok_mono (fun _ ha => Region.strlcpy_mono hle ha) (fun password h => h) h

theorem switch_ctrl_type_mono {res : Option IfHandler × Option LocEngReqRel} (hle : size ≤ size')
    (h : switch_ctrl_type abi loc_api_handle ⟨size, mem⟩ = .ok res) :
    switch_ctrl_type abi loc_api_handle ⟨size', mem⟩ = .ok res := by
  refine bind_ok_mono (fun _ ha => Region.read_mono hle ha) (fun ctrl_type h => ?_) h
  split at h
  · exact h
  · refine bind_ok_mono (fun a ha => ?_) (fun _ h => h) h
    unfold loc_eng_dmn_conn_loc_api_server_if_request_handler at ha ⊢
    by_cases hnull : loc_api_handle = false
    · rw [if_pos hnull] at ha ⊢
      exact ha
    · rw [if_neg hnull] at ha ⊢
      exact if_handler_mono true hle ha
  · exact bind_ok_mono (fun a ha => if_handler_mono false hle ha) (fun _ h => h) h

end Reads

theorem switch_ctrl_type_fst {abi : Abi} {loc_api_handle : Bool} {m : Region UInt8}
    {res : Option IfHandler × Option LocEngReqRel}
    (h : switch_ctrl_type abi loc_api_handle m = .ok res) :
    res.1 = IfHandler.of (m.get abi.ctrl_type) := by
  obtain ⟨ctrl_type, hread, h⟩ := bind_eq_ok h
  obtain ⟨-, rfl⟩ := Region.lt_of_read hread
  split at h
  · next hnone =>
    cases h
    exact hnone.symm
  · next hrequest =>
    obtain ⟨_, -, h⟩ := bind_eq_ok h
    cases h
    exact hrequest.symm
  · next hrelease =>
    obtain ⟨_, -, h⟩ := bind_eq_ok h
    cases h
    exact hrelease.symm

/-! ## What is posted -/

section Posts

variable {abi : Abi} {loc_api_handle : Bool} {m : Region UInt8} {Q : IfRequestSender → Prop}

/-- A part of a handler that returns, and posts only for senders with `Q`. -/
def Posts (Q : IfRequestSender → Prop) (x : Except Fault (Int × Option LocEngReqRel)) : Prop :=
  ∃ res, x = .ok res ∧ ∀ msg, res.2 = some msg → Q msg.sender

theorem posts_none (ret : Int) : Posts Q (.ok (ret, none)) := ⟨_, rfl, fun _ h => by cases h⟩

theorem posts_some {ret : Int} {msg : LocEngReqRel} :
    Posts Q (.ok (ret, some msg)) ↔ Q msg.sender := by
  constructor
  · rintro ⟨res, hres, hposts⟩
    cases hres
    exact hposts msg rfl
  · exact fun h => ⟨_, rfl, fun msg' hmsg => by rw [← Option.some.inj hmsg]; exact h⟩

theorem not_posts_error {f : Fault} : ¬ Posts Q (.error f) := by
  rintro ⟨_, h, -⟩
  cases h

theorem posts_slice {off n : Nat} {f : List UInt8 → Except Fault (Int × Option LocEngReqRel)} :
    Posts Q (m.slice off n >>= f) ↔
      off + n ≤ m.size ∧ Posts Q (f ((List.range n).map fun i => m.get (off + i))) := by
  by_cases hfits : off + n ≤ m.size
  · rw [Region.slice_ok hfits, ok_bind]
    exact (and_iff_right hfits).symm
  · rw [Region.slice_error hfits, error_bind]
    exact iff_of_false not_posts_error fun h => hfits h.1

/-- What a handler reads for a sender is there. -/
def Readable (abi : Abi) (m : Region UInt8) : IfRequestSender → Prop
  | .gpsoneDaemon => abi.ssid ≤ m.size
  | _ => (∃ i, abi.ssid + i < m.size ∧ m.get (abi.ssid + i) = 0) ∧
      ∃ i, abi.password + i < m.size ∧ m.get (abi.password + i) = 0

theorem posts_strings {type : AGpsExtType} {sender : IfRequestSender} {isReq : Bool} :
    Posts Q (do
      let ssid ← m.strlcpy abi.ssid Abi.ssidBufSize
      let password ← m.strlcpy abi.password Abi.ssidBufSize
      .ok (0, some (.wifi type sender ssid password isReq))) ↔
        ((∃ i, abi.ssid + i < m.size ∧ m.get (abi.ssid + i) = 0) ∧
          ∃ i, abi.password + i < m.size ∧ m.get (abi.password + i) = 0) ∧ Q sender := by
  rw [← Region.strlcpy_ok_iff (n := Abi.ssidBufSize),
    ← Region.strlcpy_ok_iff (n := Abi.ssidBufSize)]
  constructor
  · rintro ⟨res, hres, hposts⟩
    obtain ⟨ssid, hssid, hres⟩ := bind_eq_ok hres
    obtain ⟨password, hpassword, hres⟩ := bind_eq_ok hres
    cases hres
    exact ⟨⟨⟨ssid, hssid⟩, password, hpassword⟩, hposts _ rfl⟩
  · rintro ⟨⟨⟨ssid, hssid⟩, password, hpassword⟩, h⟩
    rw [hssid, ok_bind, hpassword, ok_bind]
    exact posts_some.2 h

theorem posts_addresses {type : AGpsExtType} {isReq : Bool} :
    Posts Q (do
      let ipv4 ← m.slice abi.ipv4_addr abi.sizeT
      let ipv6 ← m.slice abi.ipv6_addr 16
      .ok (0, some (.bit type (.ofNat 32 (leNat ipv4)) ipv6 isReq))) ↔
        abi.ssid ≤ m.size ∧ Q .gpsoneDaemon := by
  rw [posts_slice, posts_slice, posts_some]
  show abi.ipv6_addr ≤ m.size ∧ abi.ssid ≤ m.size ∧ Q .gpsoneDaemon ↔ _
  have hbefore : abi.ipv6_addr ≤ abi.ssid := Nat.le_add_right ..
  exact and_iff_right_of_imp fun h => Nat.le_trans hbefore h.1

theorem posts_sender (type : AGpsExtType) (isReq : Bool) (sender : Option IfRequestSender) :
    Posts Q (match (sender : Option IfRequestSender) with
      | none => .ok (-1, none)
      | some .gpsoneDaemon => do
          let ipv4 ← m.slice abi.ipv4_addr abi.sizeT
          let ipv6 ← m.slice abi.ipv6_addr 16
          .ok (0, some (.bit type (.ofNat 32 (leNat ipv4)) ipv6 isReq))
      | some sender => do
          let ssid ← m.strlcpy abi.ssid Abi.ssidBufSize
          let password ← m.strlcpy abi.password Abi.ssidBufSize
          .ok (0, some (.wifi type sender ssid password isReq))) ↔
      ∀ s, sender = some s → Readable abi m s ∧ Q s := by
  cases sender with
  | none => exact iff_of_true (posts_none _) fun s h => by cases h
  | some s =>
    have hone : (∀ s', some s = some s' → Readable abi m s' ∧ Q s') ↔ Readable abi m s ∧ Q s :=
      ⟨fun h => h s rfl, fun h s' hs => by rw [← Option.some.inj hs]; exact h⟩
    rw [hone]
    cases s with
    | gpsoneDaemon => exact posts_addresses
    | quipc | msapm | msapu => exact posts_strings

/-- What an interface request or release needs to be handled. -/
def IfPosts (abi : Abi) (m : Region UInt8) (Q : IfRequestSender → Prop) : Prop :=
  abi.sender_id ≤ m.size ∧ ∀ type, AGpsExtType.of (Memory.int m.get abi.cmsg) = some type →
    abi.ipv4_addr ≤ m.size ∧
      ∀ sender, IfRequestSender.of (Memory.int m.get abi.sender_id) = some sender →
        Readable abi m sender ∧ Q sender

theorem if_handler_iff (isReq : Bool) :
    Posts Q (if_handler abi isReq m) ↔ IfPosts abi m Q := by
  unfold if_handler IfPosts
  rw [posts_slice]
  refine and_congr_right fun _ => ?_
  show Posts Q (match AGpsExtType.of (Memory.int m.get abi.cmsg) with
    | none => _ | some type => _) ↔ _
  cases AGpsExtType.of (Memory.int m.get abi.cmsg) with
  | none => exact iff_of_true (posts_none _) fun type h => by cases h
  | some type =>
    rw [posts_slice]
    constructor
    · rintro ⟨hlen, h⟩ type' -
      exact ⟨hlen, (posts_sender type isReq _).1 h⟩
    · intro h
      obtain ⟨hlen, h⟩ := h type rfl
      exact ⟨hlen, (posts_sender type isReq _).2 h⟩

theorem dispatch_iff (handler : IfHandler) {x : Except Fault (Int × Option LocEngReqRel)} :
    (∃ res, (x >>= fun result => .ok (some handler, result.2)) =
        (Except.ok res : Except Fault (Option IfHandler × Option LocEngReqRel)) ∧
      ∀ msg, res.2 = some msg → Q msg.sender) ↔ Posts Q x := by
  constructor
  · rintro ⟨res, hres, hposts⟩
    obtain ⟨result, hx, hres⟩ := bind_eq_ok hres
    cases hres
    exact ⟨result, hx, hposts⟩
  · rintro ⟨result, hx, hposts⟩
    exact ⟨_, by rw [hx, ok_bind], hposts⟩

theorem switch_ctrl_type_iff :
    (∃ res, switch_ctrl_type abi loc_api_handle m = .ok res ∧
      ∀ msg, res.2 = some msg → Q msg.sender) ↔
      abi.ctrl_type < m.size ∧ ∀ handler, IfHandler.of (m.get abi.ctrl_type) = some handler →
        (handler = .request → loc_api_handle = true) → IfPosts abi m Q := by
  unfold switch_ctrl_type
  by_cases hlen : abi.ctrl_type < m.size
  · rw [Region.read_ok hlen, ok_bind, and_iff_right hlen]
    cases IfHandler.of (m.get abi.ctrl_type) with
    | none =>
      exact iff_of_true ⟨_, rfl, fun msg h => by cases h⟩ fun handler h => by cases h
    | some handler =>
      have hone : (∀ h', some handler = some h' → (h' = .request → loc_api_handle = true) →
          IfPosts abi m Q) ↔ ((handler = .request → loc_api_handle = true) → IfPosts abi m Q) :=
        ⟨fun h => h handler rfl, fun h h' hs => by rw [← Option.some.inj hs]; exact h⟩
      rw [hone]
      cases handler with
      | request =>
        rw [dispatch_iff, loc_eng_dmn_conn_loc_api_server_if_request_handler]
        cases loc_api_handle with
        | false => exact iff_of_true (posts_none _) fun h => by cases h rfl
        | true =>
          rw [if_neg (by decide), if_handler_iff]
          exact ⟨fun h _ => h, fun h => h fun _ => rfl⟩
      | release =>
        rw [dispatch_iff, loc_eng_dmn_conn_loc_api_server_if_release_handler, if_handler_iff]
        exact ⟨fun h _ => h, fun h => h fun h => by cases h⟩
  · rw [Region.read_error hlen, error_bind]
    exact iff_of_false (fun ⟨_, h, _⟩ => by cases h) fun h => hlen h.1

end Posts

/-! ## What was received -/

section Received

variable {abi : Abi} {loc_api_handle : Bool} {r : Rcv}

/-- The bytes of the message and nothing behind them. -/
def Rcv.bytes (r : Rcv) : Region UInt8 := ⟨r.received, r.mem⟩

theorem Rcv.Complete.readable {sender : IfRequestSender} (h : r.Complete abi sender) :
    Readable abi r.bytes sender := by
  have hstring : ∀ {off : Nat}, off + Abi.ssidBufSize ≤ r.received → r.mem.Terminated off →
      ∃ i, off + i < r.bytes.size ∧ r.bytes.get (off + i) = 0 := by
    rintro off hlen ⟨i, hi, hnul⟩
    exact ⟨i, show off + i < r.received by omega, hnul⟩
  cases sender with
  | gpsoneDaemon => exact h
  | quipc | msapm | msapu =>
    obtain ⟨hlen, hssid, hpassword⟩ := h
    have hbefore : abi.ssid + Abi.ssidBufSize ≤ r.received :=
      Nat.le_trans (Nat.le_add_right abi.password Abi.ssidBufSize) hlen
    exact ⟨hstring hbefore hssid, hstring hlen hpassword⟩

theorem ifFits_iff : r.IfFits abi ↔ IfPosts abi r.bytes (r.Complete abi) := by
  have hsender : ∀ sender, Readable abi r.bytes sender ∧ r.Complete abi sender ↔
      r.Complete abi sender := fun sender => and_iff_right_of_imp Rcv.Complete.readable
  unfold Rcv.IfFits IfPosts
  simp only [hsender]
  rfl

theorem fits_iff : r.Fits abi loc_api_handle ↔
    ∃ res, switch_ctrl_type abi loc_api_handle r.bytes = .ok res ∧
      ∀ msg, res.2 = some msg → r.Complete abi msg.sender := by
  refine Iff.trans ?_ switch_ctrl_type_iff.symm
  rw [← ifFits_iff]
  rfl

end Received

/-- **For every message that is delivered**, in whatever buffer: only what was received of it is
    used just if the condition holds. -/
theorem received_used_iff (abi : Abi) (loc_api_handle : Bool) (p : Pipe) (mem : Memory) :
    let r := loc_eng_dmn_conn_glue_msgrcv abi p mem (.ofNat abi.bits abi.msgbufsz)
    (0 < r.ret → r.Uses abi loc_api_handle) ↔ (0 < r.ret → r.Fits abi loc_api_handle) := by
  intro r
  refine imp_congr_right fun _ => ?_
  constructor
  · rintro ⟨handler, posted, hall, hcomplete⟩
    have hres := hall r.received (Nat.le_refl _)
    exact fits_iff.2 ⟨_, hres, hcomplete⟩
  · intro hfits
    obtain ⟨res, hres, hcomplete⟩ := fits_iff.1 hfits
    exact ⟨res.1, res.2, fun size hle => switch_ctrl_type_mono hle hres, hcomplete⟩

theorem posted_complete {abi : Abi} {loc_api_handle : Bool} {p : Pipe} {m : Region UInt8}
    {res : ServerProc} (h : loc_api_server_proc abi loc_api_handle (some m) p = .ok res) :
    let r := loc_eng_dmn_conn_glue_msgrcv abi p m.get (.ofNat abi.bits abi.msgbufsz)
    (0 < r.ret → r.Fits abi loc_api_handle) → r.received ≤ m.size →
      ∀ msg, res.posted = some msg → 0 < r.ret ∧ r.Complete abi msg.sender := by
  intro r hfits hsize msg hmsg
  unfold loc_api_server_proc at h
  dsimp only at h
  split at h
  · cases h
    cases hmsg
  · next hret =>
    have hdelivered : 0 < r.ret := Int.not_le.1 hret
    obtain ⟨_, hswitch, hcomplete⟩ := fits_iff.1 (hfits hdelivered)
    rw [switch_ctrl_type_mono hsize hswitch, ok_bind] at h
    split at h
    · cases h
    · cases h
      exact ⟨hdelivered, hcomplete msg hmsg⟩

/-- A request that ends behind its `ctrl_type`. -/
def seventeen : Pipe :=
  ⟨[17, 0, 0, 0, 0, 0, 0, 0, 0, 0, 0, 0, 0, 0, 0, 0, 0xF0], [some 8, some 9]⟩

/-- Its type is read from what was in the buffer before. -/
theorem not_received_used_seventeen :
    let r := loc_eng_dmn_conn_glue_msgrcv .arm64 seventeen (fun _ => 0)
      (.ofNat (Abi.bits .arm64) (Abi.msgbufsz .arm64))
    ¬ (0 < r.ret → r.Uses .arm64 true) := by
  intro r huses
  obtain ⟨handler, posted, hall, -⟩ := huses (by decide +kernel)
  have hreceived : r.received = 17 := by decide +kernel
  have herror : switch_ctrl_type .arm64 true ⟨17, r.mem⟩ = .error .outOfBounds := by
    decide +kernel
  have hok := hall 17 (Nat.le_of_eq hreceived)
  rw [herror] at hok
  cases hok

end Nx508j.Loc
