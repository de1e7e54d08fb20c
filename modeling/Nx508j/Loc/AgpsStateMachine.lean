import Mathlib.Data.List.Basic
import Nx508j.Lib.Memory

/-! # The state machines of the data connections

A state machine of `loc_eng_agps.cpp` shares one data connection between its subscribers. They are
objects on the heap, cloned from the one a caller passes, and the machine keeps their addresses in a
linked list with the newest at the head. An event of the connection, or of a subscriber, runs the
`onRsrcEvent` of the current state, which tells the subscribers, deletes some of them and returns the
next state. `DSStateMachine` is the machine of the emergency data call: the start of its call may
fail, and then it stays where it is and tries again later. -/

namespace Nx508j.Loc

open Nx508j.Lib Function

/-- `AgpsRsrcStatus`. -/
inductive AgpsRsrcStatus where
  | subscribe
  | unsubscribe
  | granted
  | released
  | denied
  | statusMax
deriving DecidableEq, Repr

/-- The two values of `AGpsStatusValue` that a machine sends. -/
inductive AGpsStatusValue where
  | requestAgpsDataConn
  | releaseAgpsDataConn
deriving DecidableEq, Repr

/-- The four states of a machine. -/
inductive AgpsState where
  | released
  | pending
  | acquired
  | releasing
deriving DecidableEq, Repr

/-- What the daemon is told about a data connection (`GPSONE_LOC_API_IF_…`). -/
inductive IfStatus where
  | requestSuccess
  | releaseSuccess
  | failure
deriving DecidableEq, Repr

/-- `LOC_ENG_IF_REQUEST_SENDER_ID_GPSONE_DAEMON`. -/
def senderIdGpsoneDaemon : UInt32 := 3

/-- `AGPS_TYPE_INVALID`. -/
def agpsTypeInvalid : Int := -1

/-- `AGPS_TYPE_SUPL`. -/
def agpsTypeSupl : Int := 1

/-- `AGPS_TYPE_WWAN_ANY`. -/
def agpsTypeWwanAny : Int := 3

/-- `AGPS_APN_BEARER_INVALID`. -/
def agpsApnBearerInvalid : Int := -1

/-- `INADDR_NONE`. -/
def inaddrNone : UInt32 := 0xffffffff

/-! ## Subscribers -/

/-- The class of a subscriber, with the members that are its own. -/
inductive SubscriberClass where
  | bit (mIPv6Addr : Vector UInt8 16)
  | atl (mBackwardCompatibleMode : Bool)
  | wifi (mSSID mPassword : Option String) (mIsInactive : Bool)
  | ds (mIsInactive : Bool)
deriving DecidableEq, Repr

/-- `Subscriber`: the identifier and the object of its class. -/
structure Subscriber where
  ID : UInt32
  cls : SubscriberClass
deriving DecidableEq, Repr

/-- The class alone. -/
inductive Kind where
  | bit
  | atl
  | wifi
  | ds
deriving DecidableEq, Repr

def SubscriberClass.kind : SubscriberClass → Kind
  | .bit _ => .bit
  | .atl _ => .atl
  | .wifi .. => .wifi
  | .ds _ => .ds

/-- What the program reads where it has no right to read. -/
structure StrayMemory where
  /-- The bytes that lie in the place of `mIPv6Addr` in an object of another class. -/
  overlay : Subscriber → Vector UInt8 16
  /-- What is found at the address of a deleted subscriber. -/
  junk : Nat → Subscriber

/-- Whether `strncmp` of the two arrays is 0: they agree up to the first zero byte. -/
def strncmpEq (a b : Vector UInt8 16) : Bool :=
  a.toList.takeWhile (· ≠ 0) == b.toList.takeWhile (· ≠ 0)

namespace Subscriber

variable (w : StrayMemory)

/-- `((BITSubscriber*)s)->mIPv6Addr`, whatever class `s` has. -/
def ipv6Addr (s : Subscriber) : Vector UInt8 16 :=
  match s.cls with
  | .bit mIPv6Addr => mIPv6Addr
  | _ => w.overlay s

def equals (self s : Subscriber) : Bool :=
  match self.cls with
  | .bit mIPv6Addr =>
    self.ID == s.ID && (inaddrNone != self.ID || strncmpEq mIPv6Addr (s.ipv6Addr w))
  | _ => self.ID == s.ID

def waitForCloseComplete (s : Subscriber) : Bool :=
  match s.cls with
  | .wifi .. => true
  | .ds _ => true
  | _ => false

def isInactive (s : Subscriber) : Bool :=
  match s.cls with
  | .wifi _ _ mIsInactive => mIsInactive
  | .ds mIsInactive => mIsInactive
  | _ => false

/-- The object after `mIsInactive = true`, for the classes that have it. -/
def inactive (s : Subscriber) : Subscriber :=
  match s.cls with
  | .wifi mSSID mPassword _ => { s with cls := .wifi mSSID mPassword true }
  | .ds _ => { s with cls := .ds true }
  | _ => s

/-- The copy starts active. -/
def clone (s : Subscriber) : Subscriber :=
  match s.cls with
  | .wifi mSSID mPassword _ => { s with cls := .wifi mSSID mPassword false }
  | .ds _ => { s with cls := .ds false }
  | _ => s

/-- `setWifiInfo`: the network's name and password, empty where there is none. -/
def wifiInfo (s : Subscriber) : String × String :=
  match s.cls with
  | .wifi mSSID mPassword _ => (mSSID.getD "", mPassword.getD "")
  | _ => ("", "")

end Subscriber

/-! ## Notifications -/

/-- A pointer to a subscriber: the object of the caller, or one that was cloned. -/
inductive SubscriberPtr where
  | caller (s : Subscriber)
  | cell (p : Nat)
deriving DecidableEq, Repr

/-- Whom a notification is for: `rcver` if it is not NULL, and the group `groupID` otherwise. -/
inductive Receiver where
  | rcver (s : SubscriberPtr)
  | broadcastAll
  | broadcastActive
  | broadcastInactive
deriving DecidableEq, Repr

structure Notification where
  receiver : Receiver
  rsrcStatus : AgpsRsrcStatus
  postNotifyDelete : Bool
deriving DecidableEq, Repr

/-! ## The machine -/

/-- `AGpsExtStatus`, the command to the connectivity service. -/
structure AGpsExtStatus where
  type : Int
  status : AGpsStatusValue
  /-- Whether `addr` has the family of the first active subscriber or is zero. -/
  addrInet6 : Bool
  ssid : String
  password : String
deriving DecidableEq, Repr

/-- What a machine does to the outside, and which subscriber it has told what. -/
inductive Act where
  | notified (s : Subscriber) (status : AgpsRsrcStatus)
  | requestRsrc (nifRequest : AGpsExtStatus)
  | openAndStartDataCall (ret : Int)
  | stopDataCall
  | serverDataConn (sender : UInt32) (status : IfStatus)
  | atlOpenStatus (handle : UInt32) (isSucc : Bool) (apn : Option String) (bearer type : Int)
  | atlCloseStatus (handle : UInt32) (isSucc : Bool)
  | closeDataCall
  | requestATL (connHandle : UInt32) (type : Int)
  | requestSuplES (connHandle : UInt32)
  | timerStart
deriving DecidableEq, Repr

/-- What the outside answers to a data call that is started: the result of `openAndStartDataCall`
    and whether `loc_timer_start` returned a handle. -/
structure Answers where
  ret : Int := 0
  timer : Bool := true
deriving DecidableEq, Repr

/-- `LOC_API_ADAPTER_ERR_SUCCESS`. -/
def errSuccess : Int := 0

/-- `LOC_API_ADAPTER_ERR_UNSUPPORTED`. -/
def errUnsupported : Int := 2

/-- `LOC_API_ADAPTER_ERR_ENGINE_BUSY`. -/
def errEngineBusy : Int := 6

/-- `DSStateMachine::MAX_START_DATA_CALL_RETRIES`. -/
def maxStartDataCallRetries : UInt8 := 4

/-- `AgpsStateMachine`, and with `isDS` the `DSStateMachine` derived from it. `heap` holds the
    subscribers from `clone` to `delete`, and the next one gets the address `next`. `log` and
    `touched` are records: what the machine did, and which objects on the heap a notification was
    passed to or compared with, with whether the object was there. -/
structure AgpsStateMachine where
  mSubscribers : List Nat := []
  mStatePtr : AgpsState := .released
  mType : Int
  mAPN : Option String := none
  mBearer : Int := agpsApnBearerInvalid
  mEnforceSingleSubscriber : Bool
  isDS : Bool := false
  mRetries : UInt8 := 0
  heap : Nat → Option Subscriber := fun _ => none
  next : Nat := 0
  log : List Act := []
  touched : List (Nat × Bool) := []

namespace AgpsStateMachine

variable (w : StrayMemory)

def put (a : Act) (m : AgpsStateMachine) : AgpsStateMachine := { m with log := m.log ++ [a] }

def touch (p : Nat) (m : AgpsStateMachine) : AgpsStateMachine :=
  { m with touched := m.touched ++ [(p, (m.heap p).isSome)] }

/-- The object at an address, or what is left of it. -/
def deref (m : AgpsStateMachine) (p : Nat) : Subscriber := (m.heap p).getD (w.junk p)

def load (m : AgpsStateMachine) : SubscriberPtr → Subscriber
  | .caller s => s
  | .cell p => m.deref w p

/-- `delete s`. -/
def delete (p : Nat) (m : AgpsStateMachine) : AgpsStateMachine :=
  { m with heap := update m.heap p none }

/-- `linked_list_add` of a clone. -/
def linkedListAdd (s : Subscriber) (m : AgpsStateMachine) : AgpsStateMachine :=
  { m with
    mSubscribers := m.next :: m.mSubscribers
    heap := update m.heap m.next (some s)
    next := m.next + 1 }

/-- `Subscriber::forMe`. -/
def forMe (m : AgpsStateMachine) (receiver : Receiver) (s : Subscriber) : Bool :=
  match receiver with
  | .rcver r => s.equals w (m.load w r)
  | .broadcastAll => true
  | .broadcastActive => !s.isInactive
  | .broadcastInactive => s.isInactive

/-- `linked_list_search` with `hasSubscriber`: the first subscriber the receiver stands for. -/
def find (m : AgpsStateMachine) (receiver : Receiver) : Option Nat :=
  m.mSubscribers.find? fun p => m.forMe w receiver (m.deref w p)

def hasSubscribers (m : AgpsStateMachine) : Bool := !m.mSubscribers.isEmpty

def hasActiveSubscribers (m : AgpsStateMachine) : Bool := (m.find w .broadcastActive).isSome

/-- `DSStateMachine::informStatus`. -/
def informStatus (status : AgpsRsrcStatus) (ID : UInt32) (m : AgpsStateMachine) :
    AgpsStateMachine :=
  match status with
  | .unsubscribe => m.put (.atlCloseStatus ID true)
  | .released => m.put .closeDataCall
  | .denied => { m with mRetries := 0 }.put (.requestATL ID agpsTypeSupl)
  | .granted => m.put (.atlOpenStatus ID true none agpsApnBearerInvalid agpsTypeInvalid)
  | _ => m

/-- What a subscriber does with a status that is for it: `none` in the `default` of its switch. -/
def tell (s : Subscriber) (status : AgpsRsrcStatus) (m : AgpsStateMachine) :
    Option AgpsStateMachine :=
  match s.cls with
  | .bit _ =>
    match status with
    | .unsubscribe => some (m.put (.serverDataConn senderIdGpsoneDaemon .releaseSuccess))
    | .released => some (m.put (.serverDataConn senderIdGpsoneDaemon .releaseSuccess))
    | .denied => some (m.put (.serverDataConn senderIdGpsoneDaemon .failure))
    | .granted => some (m.put (.serverDataConn senderIdGpsoneDaemon .requestSuccess))
    | _ => none
  | .atl mBackwardCompatibleMode =>
    let type := if mBackwardCompatibleMode then agpsTypeInvalid else m.mType
    match status with
    | .unsubscribe => some (m.put (.atlCloseStatus s.ID true))
    | .released => some (m.put (.atlCloseStatus s.ID true))
    | .denied => some (m.put (.atlOpenStatus s.ID false m.mAPN m.mBearer type))
    | .granted => some (m.put (.atlOpenStatus s.ID true m.mAPN m.mBearer type))
    | _ => none
  | .wifi .. =>
    -- `senderId` is the identifier the object was made with
    match status with
    | .unsubscribe => some m
    | .released => some (m.put (.serverDataConn s.ID .releaseSuccess))
    | .denied => some (m.put (.serverDataConn s.ID .failure))
    | .granted => some (m.put (.serverDataConn s.ID .requestSuccess))
    | _ => none
  | .ds _ =>
    match status with
    | .unsubscribe => some (m.informStatus .unsubscribe s.ID)
    | .released => some (m.informStatus .released s.ID)
    | .denied => some (m.informStatus .denied s.ID)
    | .granted => some (m.informStatus .granted s.ID)
    | _ => none

/-- `notifyRsrcStatus` of the subscriber `s`. -/
def notifyRsrcStatus (s : Subscriber) (n : Notification) (m : AgpsStateMachine) :
    AgpsStateMachine × Bool :=
  if m.forMe w n.receiver s then
    match (m.put (.notified s n.rsrcStatus)).tell s n.rsrcStatus with
    | some m' => (m', true)
    | none => (m, false)
  else (m, false)

/-- `notifySubscriber`, the callback of the search: `fromList` is at `p`, and the receiver's object
    is compared with it. -/
def notifySubscriber (n : Notification) (p : Nat) (m : AgpsStateMachine) :
    AgpsStateMachine × Bool :=
  let m := m.touch p
  let m := match n.receiver with
    | .rcver (.cell q) => m.touch q
    | _ => m
  let (m', notify) := m.notifyRsrcStatus w (m.deref w p) n
  (m', notify && n.postNotifyDelete)

/-- The loop of `linked_list_search`: it stops at the first element the callback accepts. -/
def linkedListSearch (equal : Nat → AgpsStateMachine → AgpsStateMachine × Bool) :
    List Nat → AgpsStateMachine → AgpsStateMachine × Option Nat
  | [], m => (m, none)
  | p :: ps, m =>
    match equal p m with
    | (m', true) => (m', some p)
    | (m', false) => linkedListSearch equal ps m'

/-- The loop of `notifySubscribers`, which takes out and deletes what the search finds until it
    finds nothing. -/
def notifyLoop (n : Notification) : Nat → AgpsStateMachine → AgpsStateMachine
  | 0, m => m
  | fuel + 1, m =>
    match linkedListSearch (notifySubscriber w n) m.mSubscribers m with
    | (m', none) => m'
    | (m', some p) =>
      notifyLoop n fuel ({ m' with mSubscribers := m'.mSubscribers.erase p }.delete p)

/-- Every turn of the loop but the last one takes a subscriber out. -/
def notifySubscribers (n : Notification) (m : AgpsStateMachine) : AgpsStateMachine :=
  if n.postNotifyDelete then m.notifyLoop w n (m.mSubscribers.length + 1)
  else (linkedListSearch (notifySubscriber w n) m.mSubscribers m).1

def addSubscriber (s : Subscriber) (m : AgpsStateMachine) : AgpsStateMachine :=
  match m.find w (.rcver (.caller s)) with
  | some _ => m
  | none => m.linkedListAdd s.clone

/-- `setInactive` of the subscriber at `p`, for the classes that wait for the close. -/
def setInactive (p : Nat) (m : AgpsStateMachine) : AgpsStateMachine :=
  let s := m.deref w p
  let m := { m with heap := update m.heap p (some s.inactive) }
  match s.cls with
  | .ds _ => m.informStatus .unsubscribe s.ID
  | _ => m

/-- `dataCallCb`. -/
def dataCallCb (answers : Answers) (action : AGpsStatusValue) (m : AgpsStateMachine) :
    AgpsStateMachine × Int :=
  match action with
  | .requestAgpsDataConn => (m.put (.openAndStartDataCall answers.ret), answers.ret)
  | .releaseAgpsDataConn => (m.put .stopDataCall, 0)

/-- The identifier of the first active subscriber, and -1 without one. -/
def connHandle (m : AgpsStateMachine) : UInt32 :=
  match m.find w .broadcastActive with
  | some p => (m.deref w p).ID
  | none => -1

/-- `DSStateMachine::sendRsrcRequest`. The handle of a timer that was started counts as an error. -/
def sendRsrcRequestDS (answers : Answers) (action : AGpsStatusValue) (m : AgpsStateMachine) :
    AgpsStateMachine × Int :=
  let connHandle := m.connHandle w
  let (m, ret) := m.dataCallCb answers action
  if ret = errEngineBusy then
    let m := { m with mRetries := m.mRetries + 1 }
    if m.mRetries > maxStartDataCallRetries then (m.informStatus .denied connHandle, ret)
    else (m.put .timerStart, if answers.timer then -1 else ret)
  else if ret = errUnsupported then (m.informStatus .denied connHandle, ret)
  else if ret = errSuccess then (m, ret)
  else if ret = -1 then (m.informStatus .denied connHandle, ret)
  else (m, ret)

/-- `sendRsrcRequest`: a request goes out if there is an active subscriber, and a release if there
    is none. -/
def sendRsrcRequest (answers : Answers) (action : AGpsStatusValue) (m : AgpsStateMachine) :
    AgpsStateMachine × Int :=
  if m.isDS then m.sendRsrcRequestDS w answers action
  else
    let s := m.find w .broadcastActive
    if s.isNone == (action == .releaseAgpsDataConn) then
      let info := match s with
        | some p => (m.deref w p).wifiInfo
        | none => ("", "")
      (m.put (.requestRsrc ⟨m.mType, action, s.isSome, info.1, info.2⟩), 0)
    else (m, 0)

/-! ## The states -/

/-- An event with its data: the object of the caller for a subscription, the listed one for its
    end. -/
inductive RsrcEvent where
  | subscribe (subscriber : Subscriber)
  | unsubscribe (subscriber : Nat)
  | granted
  | released
  | denied
deriving DecidableEq, Repr

/-- A subscriber leaves: it waits for the close, or it is told and deleted at once. -/
def leave (p : Nat) (m : AgpsStateMachine) : AgpsStateMachine :=
  if (m.deref w p).waitForCloseComplete then m.setInactive w p
  else m.notifySubscribers w ⟨.rcver (.cell p), .unsubscribe, true⟩

def releasedOnRsrcEvent (answers : Answers) (event : RsrcEvent) (m : AgpsStateMachine) :
    AgpsStateMachine × AgpsState :=
  match event with
  | .subscribe s =>
    let (m, ret) := (m.addSubscriber w s).sendRsrcRequest w answers .requestAgpsDataConn
    (m, if ret = 0 then .pending else .released)
  | .unsubscribe p =>
    ((m.notifyRsrcStatus w (m.deref w p) ⟨.rcver (.cell p), .unsubscribe, false⟩).1, .released)
  | _ => (m, .released)

/-- The end of a subscription in the pending and in the acquired state. -/
def unsubscribed (here : AgpsState) (p : Nat) (m : AgpsStateMachine) :
    AgpsStateMachine × AgpsState :=
  let m := m.leave w p
  if !m.hasSubscribers then ((m.sendRsrcRequest w {} .releaseAgpsDataConn).1, .released)
  else if !m.hasActiveSubscribers w then
    ((m.sendRsrcRequest w {} .releaseAgpsDataConn).1, .releasing)
  else (m, here)

def pendingOnRsrcEvent (event : RsrcEvent) (m : AgpsStateMachine) :
    AgpsStateMachine × AgpsState :=
  match event with
  | .subscribe s => (m.addSubscriber w s, .pending)
  | .unsubscribe p => m.unsubscribed w .pending p
  | .granted => (m.notifySubscribers w ⟨.broadcastActive, .granted, false⟩, .acquired)
  | .released => (m, .pending)
  | .denied => (m.notifySubscribers w ⟨.broadcastAll, .denied, true⟩, .released)

def acquiredOnRsrcEvent (event : RsrcEvent) (m : AgpsStateMachine) :
    AgpsStateMachine × AgpsState :=
  match event with
  | .subscribe s =>
    (((m.notifyRsrcStatus w s ⟨.rcver (.caller s), .granted, false⟩).1).addSubscriber w s,
      .acquired)
  | .unsubscribe p => m.unsubscribed w .acquired p
  | .granted => (m, .acquired)
  | .released => (m.notifySubscribers w ⟨.broadcastAll, .released, true⟩, .released)
  | .denied => (m, .acquired)

/-- `event` is `RSRC_DENIED` or `RSRC_RELEASED`. -/
def closed (answers : Answers) (event : AgpsRsrcStatus) (m : AgpsStateMachine) :
    AgpsStateMachine × AgpsState :=
  let m := m.notifySubscribers w ⟨.broadcastInactive, event, true⟩
  if m.hasActiveSubscribers w then
    ((m.sendRsrcRequest w answers .requestAgpsDataConn).1, .pending)
  else (m, .released)

def releasingOnRsrcEvent (answers : Answers) (event : RsrcEvent) (m : AgpsStateMachine) :
    AgpsStateMachine × AgpsState :=
  match event with
  | .subscribe s => (m.addSubscriber w s, .releasing)
  | .unsubscribe p =>
    let m := m.leave w p
    (m, if !m.hasSubscribers then .released else .releasing)
  | .denied => m.closed w answers .denied
  | .released => m.closed w answers .released
  | .granted => (m, .releasing)

/-- `mStatePtr = mStatePtr->onRsrcEvent(event, data)`. -/
def stateOnRsrcEvent (answers : Answers) (event : RsrcEvent) (m : AgpsStateMachine) :
    AgpsStateMachine :=
  let (m', next) := match m.mStatePtr with
    | .released => m.releasedOnRsrcEvent w answers event
    | .pending => m.pendingOnRsrcEvent w event
    | .acquired => m.acquiredOnRsrcEvent w event
    | .releasing => m.releasingOnRsrcEvent w answers event
  { m' with mStatePtr := next }

/-! ## The calls -/

def subscribeRsrc (answers : Answers) (s : Subscriber) (m : AgpsStateMachine) : AgpsStateMachine :=
  if m.mEnforceSingleSubscriber && m.hasSubscribers then
    (m.notifyRsrcStatus w s ⟨.broadcastAll, .denied, true⟩).1
  else m.stateOnRsrcEvent w answers (.subscribe s)

/-- Nothing happens if no subscriber is found. -/
def unsubscribeRsrc (s : Subscriber) (m : AgpsStateMachine) : AgpsStateMachine :=
  match m.find w (.rcver (.caller s)) with
  | some p => m.stateOnRsrcEvent w {} (.unsubscribe p)
  | none => m

/-- The three events of the connection. -/
def ofStatus : AgpsRsrcStatus → Option RsrcEvent
  | .granted => some .granted
  | .released => some .released
  | .denied => some .denied
  | _ => none

/-- `AgpsStateMachine::onRsrcEvent`, and the one of `DSStateMachine`, which takes a release that did
    not change the state for a denial. -/
def onRsrcEvent (answers : Answers) (event : AgpsRsrcStatus) (m : AgpsStateMachine) :
    AgpsStateMachine :=
  match ofStatus event with
  | none => m
  | some e =>
    let m' := m.stateOnRsrcEvent w answers e
    if m.isDS && event == .released && m'.mStatePtr == m.mStatePtr then
      m'.stateOnRsrcEvent w answers .denied
    else m'

/-- `DSStateMachine::retryCallback`. -/
def retryCallback (m : AgpsStateMachine) : AgpsStateMachine :=
  match m.find w .broadcastActive with
  | some p => m.put (.requestSuplES (m.deref w p).ID)
  | none => m

/-- `linked_list_flush` deletes every subscriber. -/
def dropAllSubscribers (m : AgpsStateMachine) : AgpsStateMachine :=
  m.mSubscribers.foldl (fun m p => { m with mSubscribers := m.mSubscribers.tail }.delete p) m

end AgpsStateMachine

/-- A call into a machine. -/
inductive AgpsCall where
  | subscribeRsrc (subscriber : Subscriber) (answers : Answers)
  | unsubscribeRsrc (subscriber : Subscriber)
  | onRsrcEvent (event : AgpsRsrcStatus) (answers : Answers)
  | retryCallback
  | setAPN (apn : Option String)
  | setBearer (bearer : Int)
deriving DecidableEq, Repr

/-- What a call did: its acts, the state it left the machine in, and for the end of a subscription
    the subscriber that was found. -/
structure AgpsReply where
  acts : List Act
  state : AgpsState
  found : Option Subscriber := none
deriving DecidableEq, Repr

namespace AgpsStateMachine

variable (w : StrayMemory)

def handle (call : AgpsCall) (m : AgpsStateMachine) : AgpsStateMachine :=
  match call with
  | .subscribeRsrc s answers => m.subscribeRsrc w answers s
  | .unsubscribeRsrc s => m.unsubscribeRsrc w s
  | .onRsrcEvent event answers => m.onRsrcEvent w answers event
  | .retryCallback => m.retryCallback w
  | .setAPN apn => { m with mAPN := apn }
  | .setBearer bearer => { m with mBearer := bearer }

/-- The listed subscriber that a call ends the subscription of. -/
def foundBy (call : AgpsCall) (m : AgpsStateMachine) : Option Subscriber :=
  match call with
  | .unsubscribeRsrc s => (m.find w (.rcver (.caller s))).map (m.deref w)
  | _ => none

/-- A call, with what it put into the log. -/
def step (m : AgpsStateMachine) (call : AgpsCall) : Except Fault (AgpsStateMachine × AgpsReply) :=
  let m' := { m with log := [] }.handle w call
  .ok (m', ⟨m'.log, m'.mStatePtr, m.foundBy w call⟩)

end AgpsStateMachine

/-- A machine as its constructor leaves it. -/
def AgpsStateMachine.init (mType : Int) (mEnforceSingleSubscriber : Bool) : AgpsStateMachine :=
  { mType := mType, mEnforceSingleSubscriber := mEnforceSingleSubscriber }

/-- The machine of the emergency data call. -/
def AgpsStateMachine.initDS : AgpsStateMachine :=
  { mType := agpsTypeInvalid, mEnforceSingleSubscriber := false, isDS := true }

end Nx508j.Loc
