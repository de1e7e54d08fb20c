import Nx508j.Loc.AgpsStateMachine

/-! # The location engine and its data connections

The engine has a state machine for each of its data connections, made by `createAgnssNifs` when the
AGPS interface is set up or when the emergency connection is asked for. The messages of
`loc_eng.cpp` that concern them are handled one after the other. A restart of the modem is seen as
`LocEngDown` and then `LocEngUp`, which empties the lists of two of the machines. -/

namespace Nx508j.Loc

open Nx508j.Lib

/-- `AGPS_TYPE_WIFI`. -/
def agpsTypeWifi : Int := 4

/-- `AGPS_TYPE_SUPL_ES`. -/
def agpsTypeSuplEs : Int := 5

/-- The machines that `loc_eng_data_s_type` points to. -/
inductive Nif where
  | agnss_nif
  | internet_nif
  | wifi_nif
  | ds_nif
deriving DecidableEq, Repr

/-- What the configuration and the adapter say about data connections. -/
structure GpsConf where
  /-- `CAPABILITIES` has `GPS_CAPABILITY_MSA` or `GPS_CAPABILITY_MSB`. -/
  agpsCapable : Bool
  mSupportsAgpsRequests : Bool
  useEmergencyPdnForEmergencySupl : Bool

/-- The part of `loc_eng_data_s_type` about data connections: the machines, with `none` for NULL, and
    whether `agps_status_cb` is set. -/
structure LocEng where
  nif : Nif → Option AgpsStateMachine := fun _ => none
  agps_status_cb : Bool := false

/-- What the outside answers while a message is handled. -/
structure LocEngAnswers where
  dataCall : Answers := {}
  /-- Whether `initDataServiceClient` returned 0. -/
  initDataServiceClient : Bool := true
deriving DecidableEq, Repr

/-- The messages, the set-up of the interface and the callback of the retry timer. -/
inductive LocEngMsg where
  | agpsInit
  | agnssNifInit
  | reqRelBIT (mType : Int) (mIPv4Addr : UInt32) (mIPv6Addr : Vector UInt8 16) (mIsReq : Bool)
  | suplEsOpened
  | suplEsClosed
  | requestSuplEs (mID : UInt32)
  | requestATL (mID : UInt32) (mType : Int)
  | releaseATL (mID : UInt32)
  | reqRelWifi (mType : Int) (mSenderId : UInt32) (mSSID mPassword : Option String) (mIsReq : Bool)
  | atlOpenSuccess (mAgpsType : Int) (mAPN : String) (mBearerType : Int)
  | atlClosed (mAgpsType : Int)
  | atlOpenFailed (mAgpsType : Int)
  | delayCallback
  | down
  | up
deriving DecidableEq, Repr

namespace LocEng

variable (w : StrayMemory) (conf : GpsConf)

def set (n : Nif) (m : AgpsStateMachine) (e : LocEng) : LocEng :=
  { e with nif := Function.update e.nif n (some m) }

/-- A machine is made if the pointer is NULL. -/
def create (n : Nif) (m : AgpsStateMachine) (e : LocEng) : LocEng :=
  match e.nif n with
  | none => e.set n m
  | some _ => e

def createAgnssNifs (answers : LocEngAnswers) (e : LocEng) : LocEng :=
  if conf.agpsCapable && conf.mSupportsAgpsRequests then
    let e := e.create .internet_nif (.init agpsTypeWwanAny false)
    let e := e.create .agnss_nif (.init agpsTypeSupl false)
    if conf.useEmergencyPdnForEmergencySupl && answers.initDataServiceClient then
      e.create .ds_nif .initDS
    else e
  else e

/-- The machine of a type of connection. The emergency one is made if it is not there. -/
def getAgpsStateMachine (answers : LocEngAnswers) (agpsType : Int) (e : LocEng) : LocEng × Nif :=
  if agpsType = agpsTypeWifi then (e, .wifi_nif)
  else if agpsType = agpsTypeInvalid ∨ agpsType = agpsTypeSupl then (e, .agnss_nif)
  else if agpsType = agpsTypeSuplEs then
    if conf.useEmergencyPdnForEmergencySupl then
      (if (e.nif .ds_nif).isNone then e.createAgnssNifs conf answers else e, .ds_nif)
    else (e, .agnss_nif)
  else (e, .internet_nif)

/-- A call through the pointer `n`. Through NULL it has no result. -/
def call (n : Nif) (c : AgpsCall) (e : LocEng) : Except Fault (LocEng × List Act) :=
  match e.nif n with
  | none => .error .outOfBounds
  | some m => do
      let (m', r) ← m.step w c
      .ok (e.set n m', r.acts)

/-- Calls through one pointer. -/
def calls (n : Nif) (cs : List AgpsCall) (e : LocEng) : Except Fault (LocEng × List Act) :=
  match cs with
  | [] => .ok (e, [])
  | c :: cs => do
      let (e', acts) ← e.call w n c
      let (e'', acts') ← calls n cs e'
      .ok (e'', acts ++ acts')

/-- `LocEngReleaseATL::proc` asks the machines that are there, and stops at the first one that knows
    the handle. -/
def releaseFrom (mID : UInt32) : List (Nif × SubscriberClass) → LocEng →
    Except Fault (LocEng × List Act)
  | [], e => .ok (e, [.atlCloseStatus mID false])
  | (n, cls) :: rest, e =>
    match e.nif n with
    | none => releaseFrom mID rest e
    | some m => do
        let (m', r) ← m.step w (.unsubscribeRsrc ⟨mID, cls⟩)
        if r.found.isSome then .ok (e.set n m', r.acts) else releaseFrom mID rest e

/-- `dropAllSubscribers` of a machine that is there. -/
def dropAll (n : Nif) (e : LocEng) : LocEng :=
  match e.nif n with
  | none => e
  | some m => e.set n m.dropAllSubscribers

/-- `loc_eng_handle_engine_up`. -/
def handleEngineUp (e : LocEng) : LocEng :=
  if e.agps_status_cb then (e.dropAll .agnss_nif).dropAll .internet_nif else e

/-- The `proc` of a message. -/
def proc (e : LocEng) (msg : LocEngMsg) (answers : LocEngAnswers) :
    Except Fault (LocEng × List Act) :=
  match msg with
  | .agpsInit => .ok ({ e with agps_status_cb := true }, [])
  | .agnssNifInit => .ok (e.createAgnssNifs conf answers, [])
  | .reqRelBIT mType mIPv4Addr mIPv6Addr mIsReq =>
    let (e, n) := e.getAgpsStateMachine conf answers mType
    let s : Subscriber := ⟨mIPv4Addr, .bit mIPv6Addr⟩
    e.call w n (if mIsReq then .subscribeRsrc s answers.dataCall else .unsubscribeRsrc s)
  | .suplEsOpened =>
    if (e.nif .ds_nif).isSome then e.call w .ds_nif (.onRsrcEvent .granted answers.dataCall)
    else .ok (e, [])
  | .suplEsClosed =>
    if (e.nif .ds_nif).isSome then e.call w .ds_nif (.onRsrcEvent .released answers.dataCall)
    else .ok (e, [])
  | .requestSuplEs mID =>
    if (e.nif .ds_nif).isSome && conf.useEmergencyPdnForEmergencySupl then
      e.call w .ds_nif (.subscribeRsrc ⟨mID, .ds false⟩ answers.dataCall)
    else if (e.nif .agnss_nif).isSome then
      e.call w .agnss_nif (.subscribeRsrc ⟨mID, .atl false⟩ answers.dataCall)
    else .ok (e, [.atlOpenStatus mID false none (-1) (-1)])
  | .requestATL mID mType =>
    let (e, n) := e.getAgpsStateMachine conf answers mType
    if (e.nif n).isSome then
      e.call w n (.subscribeRsrc ⟨mID, .atl (agpsTypeInvalid == mType)⟩ answers.dataCall)
    else .ok (e, [.atlOpenStatus mID false none (-1) mType])
  | .releaseATL mID =>
    e.releaseFrom w mID
      [(.agnss_nif, .atl false), (.internet_nif, .atl false), (.ds_nif, .ds false)]
  | .reqRelWifi mType mSenderId mSSID mPassword mIsReq =>
    if (e.nif .wifi_nif).isSome then
      let s : Subscriber := ⟨mSenderId, .wifi mSSID mPassword false⟩
      e.call w .wifi_nif
        (if mIsReq then .subscribeRsrc s answers.dataCall else .unsubscribeRsrc s)
    else .ok (e, [.atlOpenStatus mSenderId false none (-1) mType])
  | .atlOpenSuccess mAgpsType mAPN mBearerType =>
    let (e, n) := e.getAgpsStateMachine conf answers mAgpsType
    e.calls w n [.setBearer mBearerType, .setAPN (some mAPN),
      .onRsrcEvent .granted answers.dataCall]
  | .atlClosed mAgpsType =>
    let (e, n) := e.getAgpsStateMachine conf answers mAgpsType
    e.call w n (.onRsrcEvent .released answers.dataCall)
  | .atlOpenFailed mAgpsType =>
    let (e, n) := e.getAgpsStateMachine conf answers mAgpsType
    e.call w n (.onRsrcEvent .denied answers.dataCall)
  -- the timer is started by the emergency machine only
  | .delayCallback =>
    if (e.nif .ds_nif).isSome then e.call w .ds_nif .retryCallback else .ok (e, [])
  | .down => .ok (e, [])
  | .up => .ok (e.handleEngineUp, [])

def step (e : LocEng) (c : LocEngMsg × LocEngAnswers) : Except Fault (LocEng × List Act) :=
  e.proc w conf c.1 c.2

end LocEng

end Nx508j.Loc
