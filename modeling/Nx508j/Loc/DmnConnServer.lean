import Mathlib.Data.List.Induction
import Nx508j.Loc.DmnConnHandler

/-! # The loop of the connection daemon's server

`thelper_main` calls `loc_api_server_proc` again and again and leaves its loop at the first result
that is negative. `loc_api_server_proc` says that it will retry after a message that it could not
receive, and returns -1. -/

namespace Nx508j.Loc

open Nx508j.Lib

/-! ## Frames -/

/-- The bytes of a `size_t`, the lowest first. -/
def Abi.leBytes (abi : Abi) (n : BitVec abi.bits) : List UInt8 :=
  (List.range abi.sizeT).map fun i => .ofNat (n.toNat / 256 ^ i)

/-- What a peer writes into the pipe at once: a size and, if that counts the size field, as many
    bytes as are missing. -/
structure Frame (abi : Abi) where
  msgsz : BitVec abi.bits
  rest : List UInt8
  whole : abi.sizeT ≤ msgsz.toNat → rest.length = msgsz.toNat - abi.sizeT

namespace Frame

variable {abi : Abi} (f : Frame abi)

def bytes : List UInt8 := abi.leBytes f.msgsz ++ f.rest

/-- The size counts the size field, and the server has room for it. -/
def WellFormed : Prop := abi.sizeT ≤ f.msgsz.toNat ∧ f.msgsz.toNat ≤ abi.msgbufsz

instance : Decidable f.WellFormed := inferInstanceAs (Decidable (_ ∧ _))

/-- The handler that the frame is for. -/
def request : Option (IfHandler × List UInt8) :=
  if f.WellFormed then ((f.bytes[abi.ctrl_type]?).bind IfHandler.of).map (·, f.bytes) else none

end Frame

/-! ## The loop -/

/-- How Linux answers the two reads for a message: with what is in the pipe as far as that goes, and
    with an error if more than `SSIZE_MAX` bytes are asked for. -/
def Pipe.ofStream (abi : Abi) (stream : List UInt8) : Pipe :=
  let msgsz := (Memory.store (fun _ => 0) 0 (stream.take abi.sizeT)).msgsz abi
  ⟨stream,
    [some stream.length, if msgsz.toNat < abi.sizeT then none else some stream.length]⟩

/-- What `malloc` gives: what was there before, and how much is mapped behind it. -/
structure Block where
  content : Memory
  behind : Nat

def Block.region (abi : Abi) (b : Block) : Region UInt8 := ⟨abi.msgbufsz + b.behind, b.content⟩

/-- The pipe and the thread of the server, with the calls of the handlers so far. -/
structure Server where
  stream : List UInt8 := []
  thread_exit : Bool := false
  crashed : Bool := false
  dispatched : List (IfHandler × List UInt8) := []
deriving DecidableEq, Repr

/-- The thread is still in its loop. -/
def Server.loops (s : Server) : Bool := !s.thread_exit && !s.crashed

/-- What the loop makes of a call of its procedure. -/
def Server.called (s : Server) : Except Fault ServerProc → Server
  | .error _ => { s with crashed := true }
  | .ok proc =>
    { s with
      stream := proc.pipe.stream
      thread_exit := decide (proc.ret < 0)
      dispatched := s.dispatched ++ proc.dispatched.toList }

/-- One turn of the loop in `thelper_main`. It waits while there is nothing in the pipe. -/
def Server.thelper_main (abi : Abi) (loc_api_handle : Bool) (s : Server) (malloc : Option Block) :
    Server :=
  if s.loops = false ∨ (malloc.isSome ∧ s.stream = []) then s
  else
    s.called (loc_api_server_proc abi loc_api_handle (malloc.map (Block.region abi))
      (.ofStream abi s.stream))

inductive ServerEvent (abi : Abi) where
  | write (f : Frame abi)
  | iteration (malloc : Option Block)

/-- The server, with the frames that wait in the pipe and those that it has dealt with. -/
structure ServerRun (abi : Abi) where
  server : Server := {}
  pending : List (Frame abi) := []
  taken : List (Frame abi) := []

namespace ServerRun

variable {abi : Abi} (loc_api_handle : Bool) (s : ServerRun abi)

/-- A turn of the loop deals with the frame that waits for longest. -/
def step : ServerEvent abi → ServerRun abi
  | .write f =>
    { s with
      server := { s.server with stream := s.server.stream ++ f.bytes }
      pending := s.pending ++ [f] }
  | .iteration malloc =>
    if s.server.loops = true ∧ malloc.isSome then
      { server := s.server.thelper_main abi loc_api_handle malloc
        pending := s.pending.tail
        taken := s.taken ++ s.pending.head?.toList }
    else { s with server := s.server.thelper_main abi loc_api_handle malloc }

def run (es : List (ServerEvent abi)) : ServerRun abi := es.foldl (step loc_api_handle) {}

/-- **The frames are served**: the thread is in its loop, the pipe holds the frames that wait, and
    the handlers were called just for the requests and releases among the others, once each and in
    order. -/
structure Serves : Prop where
  loops : s.server.loops = true
  stream : s.server.stream = s.pending.flatMap Frame.bytes
  dispatched : s.server.dispatched = s.taken.filterMap Frame.request

end ServerRun

/-! ## The condition -/

/-- What the buffer holds when a frame was received. -/
def Block.received {abi : Abi} (b : Block) (f : Frame abi) : Region UInt8 :=
  ⟨abi.msgbufsz + b.behind, (b.content.store 0 (abi.leBytes f.msgsz)).store abi.sizeT f.rest⟩

/-- **The condition** for a handler to return: if it posts a message then there is an engine, and if
    that is with strings, a null byte comes somewhere. -/
def IfHandler.Returns (abi : Abi) (loc_api_handle : Bool) (handler : IfHandler)
    (m : Region UInt8) : Prop :=
  (handler = .request → loc_api_handle = true) →
    ∀ type, AGpsExtType.of (Memory.int m.get abi.cmsg) = some type →
      ∀ sender, IfRequestSender.of (Memory.int m.get abi.sender_id) = some sender →
        loc_api_handle = true ∧ (sender ≠ .gpsoneDaemon →
          ∃ i, abi.password + i < m.size ∧ m.get (abi.password + i) = 0)

/-- **The condition** on a frame: it is well-formed, or its size is one less than that of the size
    field and nothing follows it; and if there is a handler for what is in the place of its
    `ctrl_type`, this was received and the handler returns. -/
def Frame.Fits {abi : Abi} (loc_api_handle : Bool) (b : Block) (f : Frame abi) : Prop :=
  (f.WellFormed ∨ (f.msgsz.toNat + 1 = abi.sizeT ∧ f.rest = [])) ∧
    ∀ handler, IfHandler.of ((b.received f).get abi.ctrl_type) = some handler →
      abi.ctrl_type < f.msgsz.toNat ∧ handler.Returns abi loc_api_handle (b.received f)

namespace ServerRun

variable {abi : Abi} (loc_api_handle : Bool) (s : ServerRun abi)

/-- **The condition** on a step: there is memory for the buffer, and the frame fits. -/
def Fits : ServerEvent abi → Prop
  | .write _ => True
  | .iteration none => False
  | .iteration (some b) => ∀ f, s.pending.head? = some f → f.Fits loc_api_handle b

end ServerRun

/-! ## The size of a frame -/

theorem foldr_digits (k n : Nat) :
    (List.range k).foldr (fun i v => n / 256 ^ i % 256 + 256 * v) 0 = n % 256 ^ k := by
  induction k generalizing n with
  | zero =>
    rw [pow_zero, Nat.mod_one]
    rfl
  | succ k ih =>
    have hnext : ∀ i, n / 256 ^ (i + 1) = n / 256 / 256 ^ i := fun i => by
      rw [pow_succ', Nat.div_div_eq_div_mul]
    rw [List.range_succ_eq_map, List.foldr_cons, List.foldr_map]
    simp only [hnext]
    rw [ih, pow_succ', Nat.mod_mul, pow_zero, Nat.div_one]

section Receive

variable {abi : Abi} (f : Frame abi) (later : List UInt8) (mem : Memory)

theorem Abi.leBytes_length (n : BitVec abi.bits) : (abi.leBytes n).length = abi.sizeT := by
  rw [leBytes, List.length_map, List.length_range]

theorem Abi.bits_pow (abi : Abi) : 256 ^ abi.sizeT = 2 ^ abi.bits := by
  rw [bits, pow_mul]
  rfl

theorem msgsz_leBytes (n : BitVec abi.bits) : (mem.store 0 (abi.leBytes n)).msgsz abi = n := by
  have hdigits : (List.range abi.sizeT).foldr
      (fun i v => (mem.store 0 (abi.leBytes n) i).toNat + 256 * v) 0 =
        (List.range abi.sizeT).foldr (fun i v => n.toNat / 256 ^ i % 256 + 256 * v) 0 := by
    refine List.foldr_ext _ _ _ fun i hi v => ?_
    have hlt := List.mem_range.1 hi
    simp [Memory.store, Abi.leBytes, hlt]
  rw [Memory.msgsz, hdigits, foldr_digits, Abi.bits_pow, Nat.mod_eq_of_lt n.isLt]
  exact BitVec.eq_of_toNat_eq (by rw [BitVec.toNat_ofNat, Nat.mod_eq_of_lt n.isLt])

/-- The answer to the second read. -/
def Frame.answer (f : Frame abi) (stream : List UInt8) : Option Nat :=
  if f.msgsz.toNat < abi.sizeT then none else some stream.length

theorem Pipe.ofStream_bytes : Pipe.ofStream abi (f.bytes ++ later) =
    Pipe.mk (f.bytes ++ later) [some (f.bytes ++ later).length, f.answer (f.bytes ++ later)] := by
  have htake : (f.bytes ++ later).take abi.sizeT = abi.leBytes f.msgsz := by
    rw [Frame.bytes, List.append_assoc, List.take_left' (Abi.leBytes_length f.msgsz)]
  rw [ofStream, htake, msgsz_leBytes]
  rfl

theorem Pipe.read_field : (Pipe.ofStream abi (f.bytes ++ later)).read abi.sizeT =
    (Pipe.mk (f.rest ++ later) [f.answer (f.bytes ++ later)], (abi.sizeT : Int),
      abi.leBytes f.msgsz) := by
  have hlen : (abi.leBytes f.msgsz).length = abi.sizeT := Abi.leBytes_length f.msgsz
  have hmin : min (f.bytes ++ later).length abi.sizeT = abi.sizeT := by
    rw [Frame.bytes, List.append_assoc, List.length_append, hlen]
    exact Nat.min_eq_right (Nat.le_add_right ..)
  have htake : (f.bytes ++ later).take abi.sizeT = abi.leBytes f.msgsz := by
    rw [Frame.bytes, List.append_assoc, List.take_left' hlen]
  have hdrop : (f.bytes ++ later).drop abi.sizeT = f.rest ++ later := by
    rw [Frame.bytes, List.append_assoc, List.drop_left' hlen]
  rw [ofStream_bytes]
  simp only [read, hmin, htake, hlen, hdrop]

theorem Pipe.read_rest (hcounts : abi.sizeT ≤ f.msgsz.toNat) :
    (Pipe.mk (f.rest ++ later) [f.answer (f.bytes ++ later)]).read f.rest.length =
      (Pipe.mk later [], (f.rest.length : Int), f.rest) := by
  have hanswer : f.answer (f.bytes ++ later) = some (f.bytes ++ later).length :=
    if_neg (Nat.not_lt.2 hcounts)
  have hmin : min (f.bytes ++ later).length f.rest.length = f.rest.length := by
    rw [Frame.bytes, List.length_append, List.length_append]
    omega
  rw [hanswer]
  simp only [read, hmin, List.take_left, List.drop_left]

theorem Pipe.read_overlong (hshort : f.msgsz.toNat < abi.sizeT) (sz : Nat) :
    (Pipe.mk (f.rest ++ later) [f.answer (f.bytes ++ later)]).read sz =
      (Pipe.mk (f.rest ++ later) [], -1, []) := by
  rw [Frame.answer, if_pos hshort]
  rfl

theorem ofInt_toInt_sizeT (abi : Abi) :
    BitVec.ofInt abi.bits (toInt abi.sizeT) = .ofNat abi.bits abi.sizeT := by
  cases abi <;> decide

theorem msgrcv_large (hlarge : abi.msgbufsz < f.msgsz.toNat) :
    (loc_eng_dmn_conn_glue_msgrcv abi (.ofStream abi (f.bytes ++ later)) mem
      (.ofNat abi.bits abi.msgbufsz)).ret = -1 := by
  have hlt : BitVec.ofNat abi.bits abi.msgbufsz < f.msgsz := by
    rw [BitVec.lt_def, BitVec.toNat_ofNat]
    exact Nat.lt_of_le_of_lt (Nat.mod_le ..) hlarge
  simp only [loc_eng_dmn_conn_glue_msgrcv, loc_eng_dmn_conn_glue_piperead, Pipe.read_field,
    ofInt_toInt_sizeT, ne_eq, not_true_eq_false, ↓reduceIte, msgsz_leBytes, hlt]

theorem msgrcv_wellFormed (b : Block) (hwell : f.WellFormed) :
    let r := loc_eng_dmn_conn_glue_msgrcv abi (.ofStream abi (f.bytes ++ later)) b.content
      (.ofNat abi.bits abi.msgbufsz)
    r.ret = f.msgsz.toNat ∧ r.pipe.stream = later ∧ r.mem = (b.received f).get := by
  obtain ⟨hcounts, hroom⟩ := hwell
  have hbuf : (BitVec.ofNat abi.bits abi.msgbufsz).toNat = abi.msgbufsz := by
    cases abi <;> decide
  have hnot : ¬ BitVec.ofNat abi.bits abi.msgbufsz < f.msgsz := by
    rw [BitVec.lt_def, hbuf]
    exact Nat.not_lt.2 hroom
  have hrest : (f.msgsz - .ofNat abi.bits abi.sizeT).toNat = f.rest.length := by
    rcases sub_sizeT abi f.msgsz with ⟨-, hsz⟩ | ⟨hshort, -⟩
    · rw [hsz, f.whole hcounts]
    · exact absurd hcounts (Nat.not_le.2 hshort)
  have hsmall : abi.msgbufsz ≤ 384 := by cases abi <;> decide
  have hlen := f.whole hcounts
  have htoInt : toInt f.msgsz.toNat = f.msgsz.toNat := by
    unfold toInt
    omega
  have hread := Pipe.read_rest f later hcounts
  simp only [loc_eng_dmn_conn_glue_msgrcv, loc_eng_dmn_conn_glue_piperead, Pipe.read_field,
    ofInt_toInt_sizeT, ne_eq, not_true_eq_false, ↓reduceIte, msgsz_leBytes, hnot, hrest, hread,
    Memory.msgsz_store, htoInt]
  exact ⟨trivial, trivial, rfl⟩

/-- Of a frame whose size does not count the size field only that is received. The result of the
    failed read is the expected one for one size. -/
theorem msgrcv_short (b : Block) (hshort : f.msgsz.toNat < abi.sizeT) :
    let r := loc_eng_dmn_conn_glue_msgrcv abi (.ofStream abi (f.bytes ++ later)) b.content
      (.ofNat abi.bits abi.msgbufsz)
    (r.ret = if f.msgsz.toNat + 1 = abi.sizeT then (f.msgsz.toNat : Int) else -1) ∧
      r.pipe.stream = f.rest ++ later ∧ r.mem = (b.content.store 0 (abi.leBytes f.msgsz)) := by
  have hbuf : (BitVec.ofNat abi.bits abi.msgbufsz).toNat = abi.msgbufsz := by
    cases abi <;> decide
  have hsizeT : abi.sizeT ≤ abi.msgbufsz ∧ abi.sizeT ≤ 8 := by cases abi <;> decide
  have hnot : ¬ BitVec.ofNat abi.bits abi.msgbufsz < f.msgsz := by
    rw [BitVec.lt_def, hbuf]
    omega
  have hstore : ∀ off, (b.content.store 0 (abi.leBytes f.msgsz)).store off [] =
      b.content.store 0 (abi.leBytes f.msgsz) := fun off => by
    funext i
    simp [Memory.store]
  have hexpected : toInt (-1) = toInt (f.msgsz - .ofNat abi.bits abi.sizeT).toNat ↔
      f.msgsz.toNat + 1 = abi.sizeT := by
    rw [BitVec.toNat_sub, BitVec.toNat_ofNat]
    unfold toInt
    cases abi
    · simp only [Abi.sizeT, Abi.bits] at hshort ⊢
      omega
    · simp only [Abi.sizeT, Abi.bits] at hshort ⊢
      omega
  have htoInt : toInt f.msgsz.toNat = f.msgsz.toNat := by
    unfold toInt
    omega
  simp only [loc_eng_dmn_conn_glue_msgrcv, loc_eng_dmn_conn_glue_piperead, Pipe.read_field,
    ofInt_toInt_sizeT, ne_eq, not_true_eq_false, ↓reduceIte, msgsz_leBytes, hnot, hstore,
    Pipe.read_overlong f later hshort, hexpected]
  split
  · exact ⟨rfl, rfl, rfl⟩
  · next heq => exact ⟨htoInt.trans (if_pos (not_not.1 heq)).symm, rfl, rfl⟩

end Receive

/-! ## A turn of the loop -/

section Turn

variable {abi : Abi} {loc_api_handle : Bool} {f : Frame abi} {b : Block} {s : Server}

theorem offsets_le (abi : Abi) : abi.ctrl_type < abi.msgbufsz ∧ abi.sender_id ≤ abi.msgbufsz ∧
    abi.ipv4_addr ≤ abi.msgbufsz ∧ abi.ssid ≤ abi.msgbufsz ∧ abi.sizeT ≤ abi.ctrl_type := by
  cases abi <;> decide

theorem returns_iff {m : Region UInt8} (hroom : abi.msgbufsz ≤ m.size) :
    (∃ res, switch_ctrl_type abi loc_api_handle m = .ok res ∧
      ∀ msg, res.2 = some msg → loc_api_handle = true) ↔
      ∀ handler, IfHandler.of (m.get abi.ctrl_type) = some handler →
        handler.Returns abi loc_api_handle m := by
  obtain ⟨hctrl, hsender, hipv4, hssid, -⟩ := offsets_le abi
  have hreadable : ∀ sender, Readable abi m sender ∧ loc_api_handle = true ↔
      loc_api_handle = true ∧ (sender ≠ .gpsoneDaemon →
        ∃ i, abi.password + i < m.size ∧ m.get (abi.password + i) = 0) := by
    intro sender
    cases sender with
    | gpsoneDaemon =>
      exact ⟨fun h => ⟨h.2, fun hne => absurd rfl hne⟩,
        fun h => ⟨Nat.le_trans hssid hroom, h.1⟩⟩
    | quipc | msapm | msapu =>
      refine ⟨fun h => ⟨h.2, fun _ => h.1.2⟩, fun h => ?_⟩
      obtain ⟨i, hi, hnul⟩ := h.2 (by decide)
      have hplace : abi.ssid + (Abi.ssidBufSize + i) = abi.password + i :=
        (Nat.add_assoc ..).symm
      exact ⟨⟨⟨Abi.ssidBufSize + i, hplace ▸ hi, hplace ▸ hnul⟩, i, hi, hnul⟩, h.1⟩
  refine (switch_ctrl_type_iff (Q := fun _ => loc_api_handle = true)).trans ?_
  simp only [IfPosts, IfHandler.Returns, hreadable, Nat.lt_of_lt_of_le hctrl hroom,
    Nat.le_trans hsender hroom, Nat.le_trans hipv4 hroom, true_and]

theorem Frame.bytes_length (f : Frame abi) : f.bytes.length = abi.sizeT + f.rest.length := by
  rw [bytes, List.length_append, Abi.leBytes_length]

theorem received_get {i : Nat} (hi : i < f.bytes.length) : (b.received f).get i = f.bytes[i] := by
  have hlen := Abi.leBytes_length f.msgsz
  show (b.content.store 0 (abi.leBytes f.msgsz)).store abi.sizeT f.rest i = _
  unfold Memory.store
  by_cases hfield : abi.sizeT ≤ i
  · have hrest : i - abi.sizeT < f.rest.length := by
      rw [f.bytes_length] at hi
      omega
    simp only [Frame.bytes, hfield, hrest, ↓reduceIte, List.getElem?_eq_getElem,
      Option.getD_some, List.getElem_append_right (hlen.symm ▸ hfield), hlen]
  · have hlt : i < (abi.leBytes f.msgsz).length := hlen.symm ▸ Nat.lt_of_not_le hfield
    simp only [Frame.bytes, hfield, hlt, ↓reduceIte, Nat.zero_le, Nat.sub_zero,
      List.getElem?_eq_getElem, Option.getD_some, List.getElem_append_left]

theorem Frame.WellFormed.length (h : f.WellFormed) : f.bytes.length = f.msgsz.toNat := by
  rw [f.bytes_length, f.whole h.1]
  exact Nat.add_sub_of_le h.1

theorem request_eq_iff (hframed : f.WellFormed ∨ (f.msgsz.toNat + 1 = abi.sizeT ∧ f.rest = [])) :
    (IfHandler.of ((b.received f).get abi.ctrl_type)).map
        (·, (List.range f.msgsz.toNat).map (b.received f).get) = f.request ↔
      ∀ handler, IfHandler.of ((b.received f).get abi.ctrl_type) = some handler →
        abi.ctrl_type < f.msgsz.toNat := by
  have hctrl := (offsets_le abi).2.2.2.2
  by_cases hreceived : abi.ctrl_type < f.msgsz.toNat
  · refine iff_of_true ?_ fun _ _ => hreceived
    have hwell : f.WellFormed := hframed.resolve_right fun h => by omega
    have hlen := hwell.length
    have hmessage : (List.range f.msgsz.toNat).map (b.received f).get = f.bytes := by
      refine List.ext_getElem (by rw [List.length_map, List.length_range, hlen]) fun i _ hi => ?_
      rw [List.getElem_map, List.getElem_range, received_get hi]
    have hlt : abi.ctrl_type < f.bytes.length := hlen.symm ▸ hreceived
    rw [Frame.request, if_pos hwell, hmessage, received_get hlt, List.getElem?_eq_getElem hlt]
    rfl
  · have hnone : f.request = none := by
      unfold Frame.request
      split
      · next hwell =>
        rw [List.getElem?_eq_none (by rw [hwell.length]; exact Nat.le_of_not_lt hreceived)]
        rfl
      · rfl
    rw [hnone, Option.map_eq_none_iff]
    constructor
    · rintro h handler hsome
      rw [h] at hsome
      cases hsome
    · intro h
      cases hof : IfHandler.of ((b.received f).get abi.ctrl_type) with
      | none => rfl
      | some handler => exact absurd (h handler hof) hreceived

theorem toList_inj {α : Type} {a b : Option α} (h : a.toList = b.toList) : a = b := by
  cases a <;> cases b <;> simp_all

@[simp] theorem loops_called_error (s : Server) (fault : Fault) :
    (s.called (.error fault)).loops = false := by
  simp [Server.called, Server.loops]

/-- What is left when a frame was received: the call of the handler. -/
theorem turn_received_iff {later : List UInt8} {r : Rcv}
    (hr : loc_eng_dmn_conn_glue_msgrcv abi (.ofStream abi s.stream) b.content
      (.ofNat abi.bits abi.msgbufsz) = r)
    (hloops : s.loops = true) (hne : s.stream ≠ []) (hpos : 0 < f.msgsz.toNat)
    (hret : r.ret = f.msgsz.toNat) (hpipe : r.pipe.stream = later)
    (hmem : r.mem = (b.received f).get)
    (hframed : f.WellFormed ∨ (f.msgsz.toNat + 1 = abi.sizeT ∧ f.rest = [])) :
    let s' := s.thelper_main abi loc_api_handle (some b)
    (s'.loops = true ∧ s'.stream = later ∧
      s'.dispatched = s.dispatched ++ f.request.toList) ↔ f.Fits loc_api_handle b := by
  intro s'
  have hnot : ¬ r.ret ≤ 0 := by omega
  have hcrashed : s.crashed = false := by
    rw [Server.loops, Bool.and_eq_true] at hloops
    exact Bool.not_eq_true' .. ▸ hloops.2
  have hmessage : r.message = (List.range f.msgsz.toNat).map (b.received f).get := by
    rw [Rcv.message, hret, hmem]
    rfl
  have hproc : loc_api_server_proc abi loc_api_handle (some (b.region abi))
      (.ofStream abi s.stream) = (do
        let res ← switch_ctrl_type abi loc_api_handle (b.received f)
        if res.2.isSome ∧ loc_api_handle = false then .error .outOfBounds
        else .ok ⟨0, r.pipe, res.1.map (·, r.message), res.2⟩) := by
    simp only [loc_api_server_proc, Block.region, hr, hnot, ↓reduceIte, hmem]
    rfl
  have hturn : s' = s.called (loc_api_server_proc abi loc_api_handle (some (b.region abi))
      (.ofStream abi s.stream)) := by
    show s.thelper_main abi loc_api_handle (some b) = _
    rw [Server.thelper_main, if_neg (by simp [hloops, hne])]
    rfl
  have hroom : abi.msgbufsz ≤ (b.received f).size := Nat.le_add_right ..
  have hfits : f.Fits loc_api_handle b ↔
      (∀ handler, IfHandler.of ((b.received f).get abi.ctrl_type) = some handler →
        abi.ctrl_type < f.msgsz.toNat) ∧
      ∀ handler, IfHandler.of ((b.received f).get abi.ctrl_type) = some handler →
        handler.Returns abi loc_api_handle (b.received f) := by
    rw [Frame.Fits, and_iff_right hframed]
    exact ⟨fun h => ⟨fun handler hof => (h handler hof).1, fun handler hof => (h handler hof).2⟩,
      fun h handler hof => ⟨h.1 handler hof, h.2 handler hof⟩⟩
  rw [hfits, ← returns_iff hroom, ← request_eq_iff hframed, ← hmessage]
  cases hswitch : switch_ctrl_type abi loc_api_handle (b.received f) with
  | error fault =>
    -- the handler reads past what is mapped
    rw [hproc, hswitch, error_bind] at hturn
    refine iff_of_false (fun h => ?_) fun h => ?_
    · rw [hturn, loops_called_error] at h
      cases h.1
    · obtain ⟨-, _, h, -⟩ := h
      cases h
  | ok res =>
    rw [hproc, hswitch, ok_bind] at hturn
    by_cases hnull : res.2.isSome ∧ loc_api_handle = false
    · -- the message is posted to no engine
      simp only [hnull, and_self, ↓reduceIte] at hturn
      refine iff_of_false (fun h => ?_) fun h => ?_
      · rw [hturn, loops_called_error] at h
        cases h.1
      · obtain ⟨-, res', hres', h⟩ := h
        cases hres'
        obtain ⟨msg, hmsg⟩ := Option.isSome_iff_exists.1 hnull.1
        rw [h msg hmsg] at hnull
        exact absurd hnull.2 (by decide)
    · simp only [hnull, ↓reduceIte] at hturn
      have hposts : ∃ res', (Except.ok res : Except Fault _) = .ok res' ∧
          ∀ msg, res'.2 = some msg → loc_api_handle = true := by
        refine ⟨res, rfl, fun msg hmsg => ?_⟩
        by_contra hfalse
        exact hnull ⟨by rw [hmsg]; rfl, by simpa using hfalse⟩
      rw [and_iff_left hposts, ← switch_ctrl_type_fst hswitch, hturn]
      simp only [Server.called, Server.loops, hcrashed, hpipe]
      constructor
      · rintro ⟨-, -, h⟩
        exact toList_inj (List.append_cancel_left h)
      · intro h
        rw [h]
        exact ⟨rfl, trivial, rfl⟩

theorem turn_error {malloc : Option Block} {res : ServerProc}
    (hloops : s.loops = true) (hwait : ¬ (malloc.isSome ∧ s.stream = []))
    (hproc : loc_api_server_proc abi loc_api_handle (malloc.map (Block.region abi))
      (.ofStream abi s.stream) = .ok res) (hret : res.ret < 0) :
    (s.thelper_main abi loc_api_handle malloc).loops = false := by
  rw [Server.thelper_main, if_neg (by simp [hloops, hwait]), hproc]
  simp [Server.called, Server.loops, hret]

theorem proc_pipe {m : Region UInt8} {p : Pipe} {res : ServerProc}
    (h : loc_api_server_proc abi loc_api_handle (some m) p = .ok res) :
    res.pipe = (loc_eng_dmn_conn_glue_msgrcv abi p m.get (.ofNat abi.bits abi.msgbufsz)).pipe := by
  unfold loc_api_server_proc at h
  dsimp only at h
  split at h
  · cases h
    rfl
  · obtain ⟨⟨handler, posted⟩, -, h⟩ := bind_eq_ok h
    split at h
    · cases h
    · cases h
      rfl

theorem turn_stream (hwait : ¬ ((some b).isSome ∧ s.stream = []))
    (hleft : (s.thelper_main abi loc_api_handle (some b)).loops = true) :
    (s.thelper_main abi loc_api_handle (some b)).stream =
      (loc_eng_dmn_conn_glue_msgrcv abi (.ofStream abi s.stream) b.content
        (.ofNat abi.bits abi.msgbufsz)).pipe.stream := by
  have hloops : ¬ (s.loops = false ∨ ((some b).isSome ∧ s.stream = [])) := by
    rintro (hfalse | h)
    · rw [Server.thelper_main, if_pos (.inl hfalse), hfalse] at hleft
      cases hleft
    · exact hwait h
  rw [Server.thelper_main, if_neg hloops] at hleft ⊢
  cases hproc : loc_api_server_proc abi loc_api_handle ((some b).map (Block.region abi))
      (.ofStream abi s.stream) with
  | error fault =>
    rw [hproc, loops_called_error] at hleft
    cases hleft
  | ok res =>
    have hpipe := proc_pipe hproc
    rw [Block.region] at hpipe
    rw [← hpipe]
    rfl

/-- The turn for a frame leaves the frames behind it, and calls the handler for it and no other,
    just if the condition holds. -/
theorem turn_iff {later : List UInt8} (hloops : s.loops = true)
    (hstream : s.stream = f.bytes ++ later) :
    let s' := s.thelper_main abi loc_api_handle (some b)
    (s'.loops = true ∧ s'.stream = later ∧
      s'.dispatched = s.dispatched ++ f.request.toList) ↔ f.Fits loc_api_handle b := by
  intro s'
  have hsizeT : 4 ≤ abi.sizeT ∧ abi.sizeT ≤ abi.msgbufsz := by cases abi <;> decide
  have hne : s.stream ≠ [] := by
    intro hnil
    have hlen := congrArg List.length (hstream.symm.trans hnil)
    rw [List.length_append, f.bytes_length, List.length_nil] at hlen
    omega
  have hwait : ¬ ((some b).isSome ∧ s.stream = []) := fun h => hne h.2
  have herror : (loc_eng_dmn_conn_glue_msgrcv abi (.ofStream abi s.stream) b.content
      (.ofNat abi.bits abi.msgbufsz)).ret = -1 → s'.loops = false := by
    intro hret
    have hproc : loc_api_server_proc abi loc_api_handle ((some b).map (Block.region abi))
        (.ofStream abi s.stream) = .ok ⟨-1, (loc_eng_dmn_conn_glue_msgrcv abi
          (.ofStream abi s.stream) b.content (.ofNat abi.bits abi.msgbufsz)).pipe, none, none⟩ := by
      simp only [Option.map_some, loc_api_server_proc, Block.region, hret]
      rfl
    exact turn_error hloops hwait hproc (show (-1 : Int) < 0 by decide)
  have hfalse : s'.loops = false → (f.WellFormed → False) →
      (f.msgsz.toNat + 1 = abi.sizeT → f.rest = [] → False) →
      ((s'.loops = true ∧ s'.stream = later ∧
        s'.dispatched = s.dispatched ++ f.request.toList) ↔ f.Fits loc_api_handle b) := by
    intro hleft hwell hone
    refine iff_of_false (fun h => ?_) fun h => h.1.elim hwell fun h => hone h.1 h.2
    rw [hleft] at h
    cases h.1
  rcases Nat.lt_or_ge abi.msgbufsz f.msgsz.toNat with hlarge | hroom
  · -- the frame is larger than the buffer
    refine hfalse (herror ?_) (fun h => Nat.not_lt.2 h.2 hlarge) fun h _ => by omega
    rw [hstream]
    exact msgrcv_large f later b.content hlarge
  rcases Nat.lt_or_ge f.msgsz.toNat abi.sizeT with hshort | hcounts
  · obtain ⟨hret, hpipe, hmem⟩ := msgrcv_short f later b hshort
    have hnotwell : ¬ f.WellFormed := fun h => Nat.not_lt.2 h.1 hshort
    by_cases hone : f.msgsz.toNat + 1 = abi.sizeT
    · rw [if_pos hone] at hret
      by_cases hrest : f.rest = []
      · -- the failed read looks complete, and nothing was to be read
        refine turn_received_iff (by rw [hstream]) hloops hne (by omega) hret ?_ ?_
          (.inr ⟨hone, hrest⟩)
        · rw [hpipe, hrest]
          rfl
        · rw [hmem, Block.received, hrest]
          funext i
          simp [Memory.store]
      · -- what follows the size stays in front of the later frames
        refine iff_of_false (fun h => ?_) fun h => h.1.elim hnotwell fun h => hrest h.2
        obtain ⟨hleft, hlater, -⟩ := h
        have hstays := turn_stream hwait hleft
        rw [hstream] at hstays
        rw [hstays, hpipe] at hlater
        exact hrest (List.append_left_eq_self.1 hlater)
    · rw [if_neg hone] at hret
      exact hfalse (herror (by rw [hstream]; exact hret)) hnotwell fun h _ => hone h
  · obtain ⟨hret, hpipe, hmem⟩ := msgrcv_wellFormed f later b ⟨hcounts, hroom⟩
    exact turn_received_iff (by rw [hstream]) hloops hne (by omega) hret hpipe hmem
      (.inl ⟨hcounts, hroom⟩)

end Turn

/-! ## Runs -/

namespace ServerRun

variable {abi : Abi} {loc_api_handle : Bool} {s : ServerRun abi}

theorem Serves.step_iff (h : s.Serves) (e : ServerEvent abi) :
    (s.step loc_api_handle e).Serves ↔ s.Fits loc_api_handle e := by
  obtain ⟨hloops, hstream, hdispatched⟩ := h
  cases e with
  | write f =>
    refine iff_of_true ⟨hloops, ?_, hdispatched⟩ trivial
    show s.server.stream ++ f.bytes = (s.pending ++ [f]).flatMap Frame.bytes
    rw [hstream, List.flatMap_append, List.flatMap_singleton]
  | iteration malloc =>
    cases malloc with
    | none =>
      -- without memory nothing is received
      have hleft : (s.server.thelper_main abi loc_api_handle none).loops = false :=
        turn_error hloops (fun h => by cases h.1) rfl (show (-1 : Int) < 0 by decide)
      refine iff_of_false (fun h => ?_) id
      have hstays := h.loops
      simp only [step, Option.isSome_none, Bool.false_eq_true, and_false, ↓reduceIte,
        hleft] at hstays
    | some b =>
      have hstep : s.step loc_api_handle (.iteration (some b)) =
          { server := s.server.thelper_main abi loc_api_handle (some b)
            pending := s.pending.tail
            taken := s.taken ++ s.pending.head?.toList } := by
        simp only [step, hloops, Option.isSome_some, and_self, ↓reduceIte]
      rw [hstep]
      cases hpending : s.pending with
      | nil =>
        -- the pipe is empty, and the thread waits
        have hempty : s.server.stream = [] := by rw [hstream, hpending]; rfl
        have hsame : s.server.thelper_main abi loc_api_handle (some b) = s.server := by
          rw [Server.thelper_main, if_pos (.inr ⟨rfl, hempty⟩)]
        refine iff_of_true ⟨?_, ?_, ?_⟩ fun f hf => ?_
        · rw [hsame]
          exact hloops
        · rw [hsame]
          exact hempty
        · rw [hsame, hdispatched]
          simp
        · rw [hpending] at hf
          cases hf
      | cons f later =>
        have hturn : _ ∧ _ ∧ _ ↔ f.Fits loc_api_handle b :=
          turn_iff hloops (hstream.trans (by rw [hpending, List.flatMap_cons]))
        have hfits : s.Fits loc_api_handle (.iteration (some b)) ↔
            f.Fits loc_api_handle b := by
          show (∀ f', s.pending.head? = some f' → f'.Fits loc_api_handle b) ↔ _
          rw [hpending]
          exact ⟨fun h => h f rfl, fun h f' hf => by rw [← Option.some.inj hf]; exact h⟩
        rw [hfits, ← hturn, hdispatched]
        have htaken : (s.taken ++ [f]).filterMap Frame.request =
            s.taken.filterMap Frame.request ++ f.request.toList := by
          rw [List.filterMap_append, List.filterMap_cons, List.filterMap_nil]
          cases f.request <;> rfl
        constructor
        · rintro ⟨hl, hs, hd⟩
          exact ⟨hl, hs, hd.trans htaken⟩
        · rintro ⟨hl, hs, hd⟩
          exact ⟨hl, hs, hd.trans htaken.symm⟩

/-- **For every list of events**: the frames are served all along just if the condition holds at
    every step. -/
theorem run_serves_iff (abi : Abi) (loc_api_handle : Bool) (es : List (ServerEvent abi)) :
    (∀ l, l <+: es → (run loc_api_handle l).Serves) ↔
      ∀ l e, l ++ [e] <+: es → (run loc_api_handle l).Fits loc_api_handle e := by
  induction es using List.reverseRecOn with
  | nil =>
    refine iff_of_true (fun l hl => ?_) fun l e hl => ?_
    · rw [List.prefix_nil.1 hl]
      exact ⟨rfl, rfl, rfl⟩
    · exact absurd (List.prefix_nil.1 hl) (by simp)
  | append_singleton es e ih =>
    have hrun : run loc_api_handle (es ++ [e]) =
        (run loc_api_handle es).step loc_api_handle e := by
      rw [run, List.foldl_append]
      rfl
    constructor
    · intro hall l e' hl
      rcases List.prefix_concat_iff.1 hl with heq | hl
      · obtain ⟨rfl, hcons⟩ := List.append_inj' heq rfl
        obtain rfl : e' = e := List.singleton_inj.1 hcons
        have hlast := hall (l ++ [e']) (List.prefix_refl _)
        rw [hrun] at hlast
        exact ((hall l (List.prefix_append ..)).step_iff e').1 hlast
      · exact ih.1 (fun l hl => hall l (hl.trans (List.prefix_append ..))) l e' hl
    · intro hfits l hl
      have hes := ih.2 fun l e' hl => hfits l e' (hl.trans (List.prefix_append ..))
      rcases List.prefix_concat_iff.1 hl with rfl | hl
      · rw [hrun]
        exact ((hes es (List.prefix_refl _)).step_iff e).2 (hfits es e (List.prefix_refl _))
      · exact hes l hl

/-- A frame that says it has three bytes. -/
def shortFrame : Frame .arm64 := ⟨3, [], fun h => absurd h (by decide)⟩

/-- The loop ends at it. -/
theorem not_served_short_frame :
    ¬ ∀ l, l <+: [ServerEvent.write shortFrame, .iteration (some ⟨fun _ => 0, 0⟩)] →
      (run true l).Serves := by
  intro hall
  have hloops := (hall _ (List.prefix_refl _)).loops
  have hleft : (run true [ServerEvent.write shortFrame,
      .iteration (some ⟨fun _ => 0, 0⟩)]).server.loops = false := by
    decide +kernel
  rw [hleft] at hloops
  cases hloops

end ServerRun

end Nx508j.Loc
