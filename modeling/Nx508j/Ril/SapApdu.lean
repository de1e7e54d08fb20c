import Nx508j.Lib.Varint
import Nx508j.Ril.RilSapSocket

/-! # Commands for the card

`SapImpl::apduReq` puts a command of any length into a request whose size nanopb keeps in a few
bytes, has the request encoded, and hands the encoding to the socket with its length in two bytes.
No length is checked on the way. -/

namespace Nx508j.Ril

open Nx508j.Lib

/-! ## nanopb -/

/-- `RIL_SIM_SAP_APDU_REQ_Type` -/
inductive SapApduType where
  | apdu
  | apdu7816
deriving DecidableEq, Repr

/-- `RIL_SIM_SAP_APDU_REQ`. A `command` that is `NULL` is `none`. -/
structure ApduReq where
  type : SapApduType
  command : Option (List UInt8)
deriving DecidableEq, Repr

def ApduReq.bytes (r : ApduReq) : List UInt8 := r.command.getD []

/-- How wide `pb_size_t` is. `PB_FIELD_32BIT` makes it four bytes wide. -/
inductive PbField where
  | field16
  | field32
deriving DecidableEq, Repr

/-- No size is as large. -/
def PbField.size : PbField → Nat
  | .field16 => 0x10000
  | .field32 => 0x100000000

/-- `pb_encode` and `pb_decode` for this message. Its size is known before it is encoded, and the
    buffer is as long. -/
structure Nanopb where
  encode : ApduReq → Option (List UInt8)
  decode : List UInt8 → Option ApduReq

/-- A request is decoded from its encoding, and not from a part of it. No more is decoded than a
    size can say. -/
structure Nanopb.Correct (pb : Nanopb) (field : PbField) : Prop where
  round_trip : ∀ {r bs}, r.bytes.length < field.size → pb.encode r = some bs →
    pb.decode bs = some r
  cut_off : ∀ {r r' bs n}, r.bytes.length < field.size → pb.encode r = some bs → n < bs.length →
    pb.decode (bs.take n) = some r' → ¬ (r'.type = r.type ∧ r'.bytes = r.bytes)
  sized : ∀ {r bs}, pb.decode bs = some r → r.bytes.length < field.size

/-! ## The request -/

/-- What a call meets: whether the client has set `sapCallback`, whether there is memory for each
    thing, and the socket of the slot with whether it has `uimFuncs`. -/
structure SapEnv where
  sapCallback : Bool := true
  msg : Bool := true
  command : Bool := true
  buffer : Bool := true
  payload : Bool := true
  currRequest : Bool := true
  socket : Option Bool := some true
deriving DecidableEq, Repr

/-- What comes of a request. -/
inductive SapOutcome where
  | failedResponse (id : MsgId) (token : Int)
  | onRequest (id : MsgId) (token : Int) (payload : List UInt8)
  /-- The socket returns, and nobody has the request. -/
  | dropped
deriving DecidableEq, Repr

section Request

variable (field : PbField) (pb : Nanopb) (env : SapEnv)

def sendFailedResponse (id : MsgId) (token : Int) : Except Fault SapOutcome :=
  if env.sapCallback then .ok (.failedResponse id token) else .error .outOfBounds

/-- `RilSapSocket::dispatchRequest` -/
def dispatchRequest (uimFuncs : Bool) (id : MsgId) (token : Int) (payload : List UInt8) :
    SapOutcome :=
  if env.currRequest ∧ uimFuncs then .onRequest id token payload else .dropped

def addPayloadAndDispatchRequest (id : MsgId) (token : Int) (reqLen : UInt16)
    (req : List UInt8) : Except Fault SapOutcome :=
  if env.payload = false then sendFailedResponse env id token
  else
    match env.socket with
    | none => sendFailedResponse env id token
    | some uimFuncs => .ok (dispatchRequest env uimFuncs id token (req.take reqLen.toNat))

/-- The request of a command. Its size is cut off. -/
def apduOf (type : SapApduType) (command : List UInt8) : ApduReq where
  type := type
  command := if command = [] then none else some (command.take (command.length % field.size))

def apduReq (token : Int) (type : SapApduType) (command : List UInt8) : Except Fault SapOutcome :=
  if env.msg = false then sendFailedResponse env .apdu token
  else if command ≠ [] ∧ env.command = false then sendFailedResponse env .apdu token
  else
    match pb.encode (apduOf field type command) with
    | none => sendFailedResponse env .apdu token
    | some buffer =>
      if env.buffer = false then sendFailedResponse env .apdu token
      else
        addPayloadAndDispatchRequest env .apdu token (UInt16.ofNat buffer.length) buffer

/-! ## The property -/

/-- A request is answered with a failure, or the vendor library gets what decodes to it. -/
def Answered (token : Int) (type : SapApduType) (command : List UInt8)
    (r : Except Fault SapOutcome) : Prop :=
  ∃ outcome, r = .ok outcome ∧
    (outcome = .failedResponse .apdu token ∨ ∃ payload req,
      outcome = .onRequest .apdu token payload ∧ pb.decode payload = some req ∧
        req.type = type ∧ req.bytes = command)

/-- Something fails before the socket has the request. -/
def ApduFails (type : SapApduType) (command : List UInt8) : Prop :=
  env.msg = false ∨ (command ≠ [] ∧ env.command = false) ∨
    pb.encode (apduOf field type command) = none ∨ env.buffer = false ∨ env.payload = false ∨
      env.socket = none

/-- If it does, there is somebody to tell. If not, the socket has memory and the vendor library, and
    the command and its encoding are as short as their sizes can say. -/
structure ApduFits (type : SapApduType) (command : List UInt8) : Prop where
  callback : ApduFails field pb env type command → env.sapCallback = true
  handed : ¬ ApduFails field pb env type command →
    env.currRequest = true ∧ env.socket = some true ∧ command.length < field.size ∧
      ∀ bytes, pb.encode (apduOf field type command) = some bytes → bytes.length < 0x10000

end Request

/-! ## The proof -/

section Proof

variable {field : PbField} {pb : Nanopb} {env : SapEnv} {token : Int} {type : SapApduType}
  {command : List UInt8}

theorem apduReq_of_fails (h : ApduFails field pb env type command) :
    apduReq field pb env token type command = sendFailedResponse env .apdu token := by
  unfold apduReq
  by_cases hmsg : env.msg = false
  · rw [if_pos hmsg]
  rw [if_neg hmsg]
  by_cases hcommand : command ≠ [] ∧ env.command = false
  · rw [if_pos hcommand]
  rw [if_neg hcommand]
  cases hencode : pb.encode (apduOf field type command) with
  | none => rfl
  | some bytes =>
    dsimp only
    by_cases hbuffer : env.buffer = false
    · rw [if_pos hbuffer]
    rw [if_neg hbuffer, addPayloadAndDispatchRequest]
    by_cases hpayload : env.payload = false
    · rw [if_pos hpayload]
    rw [if_neg hpayload]
    have hsocket : env.socket = none := by
      simpa [ApduFails, hmsg, hcommand, hencode, hbuffer, hpayload] using h
    rw [hsocket]

theorem apduReq_of_not_fails (token : Int) (h : ¬ ApduFails field pb env type command) :
    ∃ bytes uimFuncs, pb.encode (apduOf field type command) = some bytes ∧
      env.socket = some uimFuncs ∧
      apduReq field pb env token type command =
        .ok (dispatchRequest env uimFuncs .apdu token (bytes.take (bytes.length % 0x10000))) := by
  unfold ApduFails at h
  simp only [not_or] at h
  obtain ⟨hmsg, hcommand, hencode, hbuffer, hpayload, hsocket⟩ := h
  obtain ⟨bytes, hbytes⟩ := Option.ne_none_iff_exists'.1 hencode
  obtain ⟨uimFuncs, huim⟩ := Option.ne_none_iff_exists'.1 hsocket
  refine ⟨bytes, uimFuncs, hbytes, huim, ?_⟩
  unfold apduReq addPayloadAndDispatchRequest
  rw [if_neg hmsg, if_neg hcommand, hbytes]
  dsimp only
  rw [if_neg hbuffer, if_neg hpayload, huim, UInt16.toNat_ofNat']

theorem answered_failed :
    Answered pb token type command (sendFailedResponse env .apdu token) ↔
      env.sapCallback = true := by
  unfold sendFailedResponse
  cases env.sapCallback with
  | false => simp [Answered]
  | true => simp [Answered]

theorem apduOf_bytes (h : command.length < field.size) :
    (apduOf field type command).bytes = command := by
  unfold apduOf ApduReq.bytes
  by_cases hnil : command = []
  · rw [if_pos hnil, hnil]
    rfl
  · rw [if_neg hnil, Nat.mod_eq_of_lt h, List.take_length]
    rfl

theorem length_apduOf_bytes : (apduOf field type command).bytes.length < field.size := by
  have hpos : 0 < field.size := by cases field <;> decide
  unfold apduOf ApduReq.bytes
  by_cases hnil : command = []
  · rw [if_pos hnil]
    exact hpos
  · rw [if_neg hnil]
    have hmod := Nat.mod_lt command.length hpos
    simp only [Option.getD_some, List.length_take]
    omega

theorem answered_dispatched {uimFuncs : Bool} {payload : List UInt8} :
    Answered pb token type command (.ok (dispatchRequest env uimFuncs .apdu token payload)) ↔
      (env.currRequest = true ∧ uimFuncs = true) ∧
        ∃ req, pb.decode payload = some req ∧ req.type = type ∧ req.bytes = command := by
  unfold dispatchRequest
  by_cases hgoes : env.currRequest = true ∧ uimFuncs = true
  · rw [if_pos hgoes]
    constructor
    · rintro ⟨outcome, ⟨⟩, h⟩
      rcases h with h | ⟨payload', req, h, hreq⟩
      · cases h
      · cases h
        exact ⟨hgoes, req, hreq⟩
    · rintro ⟨-, req, hreq⟩
      exact ⟨_, rfl, .inr ⟨payload, req, rfl, hreq⟩⟩
  · rw [if_neg hgoes]
    constructor
    · rintro ⟨outcome, ⟨⟩, h⟩
      rcases h with h | ⟨payload', req, h, -⟩ <;> cases h
    · rintro ⟨h, -⟩
      exact absurd h hgoes

theorem decodes_iff (hpb : pb.Correct field) {bytes : List UInt8}
    (hencode : pb.encode (apduOf field type command) = some bytes) :
    (∃ req, pb.decode (bytes.take (bytes.length % 0x10000)) = some req ∧ req.type = type ∧
        req.bytes = command) ↔
      command.length < field.size ∧ bytes.length < 0x10000 := by
  constructor
  · rintro ⟨req, hdecode, htype, hbytes⟩
    have hlength : command.length < field.size := hbytes ▸ hpb.sized hdecode
    refine ⟨hlength, Nat.lt_of_not_le fun hlong => ?_⟩
    have hcut : bytes.length % 0x10000 < bytes.length :=
      Nat.lt_of_lt_of_le (Nat.mod_lt _ (by decide)) hlong
    refine hpb.cut_off length_apduOf_bytes hencode hcut hdecode ⟨htype, ?_⟩
    rw [hbytes, apduOf_bytes hlength]
  · rintro ⟨hlength, hshort⟩
    rw [Nat.mod_eq_of_lt hshort, List.take_length]
    exact ⟨_, hpb.round_trip length_apduOf_bytes hencode, rfl, apduOf_bytes hlength⟩

/-- **Commands for the card.** A request is answered with a failure or handed over as it is if and
    only if its lengths fit and there is somebody to answer or to hand it to. -/
theorem apduReq_iff (hpb : pb.Correct field) (env : SapEnv) (token : Int) (type : SapApduType)
    (command : List UInt8) :
    Answered pb token type command (apduReq field pb env token type command) ↔
      ApduFits field pb env type command := by
  by_cases hfails : ApduFails field pb env type command
  · rw [apduReq_of_fails hfails, answered_failed]
    exact ⟨fun h => ⟨fun _ => h, fun hnot => absurd hfails hnot⟩, fun h => h.callback hfails⟩
  obtain ⟨bytes, uimFuncs, hencode, hsocket, hreq⟩ := apduReq_of_not_fails token hfails
  rw [hreq, answered_dispatched, decodes_iff hpb hencode]
  constructor
  · rintro ⟨⟨hrecord, rfl⟩, hlength, hshort⟩
    refine ⟨fun h => absurd h hfails, fun _ => ⟨hrecord, hsocket, hlength, ?_⟩⟩
    intro bytes' hbytes'
    cases hencode.symm.trans hbytes'
    exact hshort
  · intro h
    obtain ⟨hrecord, huim, hlength, hshort⟩ := h.handed hfails
    cases hsocket.symm.trans huim
    exact ⟨⟨hrecord, rfl⟩, hlength, hshort bytes hencode⟩

end Proof

/-! ## An encoding -/

def SapApduType.toByte : SapApduType → UInt8
  | .apdu => 0
  | .apdu7816 => 1

def SapApduType.ofByte (b : UInt8) : Option SapApduType :=
  if b = 0 then some .apdu else if b = 1 then some .apdu7816 else none

@[simp] theorem SapApduType.ofByte_toByte (t : SapApduType) : ofByte t.toByte = some t := by
  cases t <;> rfl

/-- The two fields with their tags, the command behind its length. -/
def wire (field : PbField) : Nanopb where
  encode r := r.command.map fun command => 8 :: r.type.toByte :: 18 :: delimited command
  decode
    | 8 :: type :: 18 :: bs =>
      match SapApduType.ofByte type, readDelimited bs with
      | some type, some command =>
        if command.length < field.size then some ⟨type, some command⟩ else none
      | _, _ => none
    | _ => none

theorem wire_correct (field : PbField) : (wire field).Correct field where
  round_trip {r bs} hlength hencode := by
    obtain ⟨type, command⟩ := r
    cases command with
    | none => cases hencode
    | some command =>
      cases hencode
      have hlength' : command.length < field.size := hlength
      simp [wire, readDelimited_delimited, hlength']
  cut_off {r r' bs n} _ hencode hn hdecode := by
    obtain ⟨type, command⟩ := r
    cases command with
    | none => cases hencode
    | some command =>
      cases hencode
      match n with
      | 0 | 1 | 2 => cases hdecode
      | n + 3 =>
        have hn' : n < (delimited command).length := by simpa using hn
        simp [wire, readDelimited_take command hn'] at hdecode
  sized {r bs} hdecode := by
    dsimp only [wire] at hdecode
    split at hdecode
    · split at hdecode
      · split at hdecode
        · next hlength =>
          cases hdecode
          exact hlength
        · cases hdecode
      · cases hdecode
    · cases hdecode

/-- A command of two bytes. -/
theorem apduReq_iff_select :
    Answered (wire .field16) 7 .apdu [0, 0xa4]
        (apduReq .field16 (wire .field16) {} 7 .apdu [0, 0xa4]) ↔
      ApduFits .field16 (wire .field16) {} .apdu [0, 0xa4] :=
  apduReq_iff (wire_correct .field16) {} 7 .apdu [0, 0xa4]

theorem apduReq_of_length {command : List UInt8} (h : command.length = 0x10000) :
    apduReq .field16 (wire .field16) {} 7 .apdu command =
      .ok (.onRequest .apdu 7 [8, 0, 18, 0]) := by
  have hnil : command ≠ [] := by
    rintro rfl
    cases h
  have hreq : apduOf .field16 .apdu command = ⟨.apdu, some []⟩ := by
    unfold apduOf
    rw [if_neg hnil, h]
    rfl
  have hempty : delimited [] = [0] := by
    rw [delimited, List.length_nil, varint]
    rfl
  have hencode : (wire .field16).encode ⟨.apdu, some []⟩ = some [8, 0, 18, 0] := by
    show some (8 :: 0 :: 18 :: delimited []) = _
    rw [hempty]
  unfold apduReq
  rw [hreq, hencode, if_neg (by decide), if_neg (by simp)]
  rfl

/-- Such a request is not answered, and the vendor library gets an empty command. -/
theorem apduReq_cuts_off : ¬ ∀ field pb, pb.Correct field → ∀ env token type command,
    Answered pb token type command (apduReq field pb env token type command) := by
  intro h
  obtain ⟨command, hlength⟩ : ∃ command : List UInt8, command.length = 0x10000 :=
    ⟨_, List.length_replicate (a := 0)⟩
  have hanswered := h .field16 (wire .field16) (wire_correct _) {} 7 .apdu command
  rw [apduReq_of_length hlength] at hanswered
  obtain ⟨outcome, houtcome, h | ⟨payload, req, h, hdecode, -, hbytes⟩⟩ := hanswered
  · cases houtcome
    cases h
  cases houtcome
  cases h
  have hread : readDelimited [0] = some [] := by decide
  have hreq : req = ⟨.apdu, some []⟩ := by
    simpa [wire, hread, SapApduType.ofByte, PbField.size, eq_comm] using hdecode
  rw [hreq] at hbytes
  rw [← hbytes] at hlength
  cases hlength

end Nx508j.Ril
