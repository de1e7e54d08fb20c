import Mathlib.Data.List.Basic
import Mathlib.Tactic.IntervalCases

/-! # Messages of the connection daemon

A message comes out of a pipe, and its first field says how long it is, itself included. The
receiver reads that field, compares it with the size of its buffer and then reads what is left of
the message. A read may bring less than it was asked for, and what it brings is written wherever the
buffer was said to be. -/

namespace Nx508j.Loc

/-- The two architectures that the library is built for. -/
inductive Abi where
  | arm64
  | arm
deriving DecidableEq, Repr

/-- `sizeof(size_t)` -/
def Abi.sizeT : Abi → Nat
  | .arm64 => 8
  | .arm => 4

/-- The bits of a `size_t`. -/
def Abi.bits (abi : Abi) : Nat := 8 * abi.sizeT

/-- The conversion of an integer to `int`. -/
def toInt (n : Int) : Int := (n + 2147483648) % 4294967296 - 2147483648

/-- The bytes that are still to come out of a pipe, and how many of them each `read` takes at most;
    `none` is an error. -/
structure Pipe where
  stream : List UInt8
  answers : List (Option Nat)
deriving DecidableEq, Repr

/-- `read`, with what it returns and the bytes it delivers. -/
def Pipe.read (p : Pipe) (sz : Nat) : Pipe × Int × List UInt8 :=
  match p.answers with
  | [] => (p, -1, [])
  | none :: answers => ({ p with answers }, -1, [])
  | some n :: answers =>
    let bytes := p.stream.take (min n sz)
    ({ stream := p.stream.drop bytes.length, answers }, bytes.length, bytes)

/-- The memory from the start of a buffer on. -/
abbrev Memory := Nat → UInt8

def Memory.store (mem : Memory) (off : Nat) (bytes : List UInt8) : Memory :=
  fun i => if off ≤ i then (bytes[i - off]?).getD (mem i) else mem i

/-- `pmsg->msgsz`, the lowest byte first. -/
def Memory.msgsz (abi : Abi) (mem : Memory) : BitVec abi.bits :=
  .ofNat abi.bits ((List.range abi.sizeT).foldr (fun i v => (mem i).toNat + 256 * v) 0)

/-- What receiving a message returns and leaves, where and for how many bytes the pipe was asked to
    write, and how many bytes came. -/
structure Rcv where
  ret : Int
  pipe : Pipe
  mem : Memory
  requests : List (Nat × Nat)
  received : Nat

def loc_eng_dmn_conn_glue_piperead (p : Pipe) (sz : Nat) : Pipe × Int × List UInt8 :=
  let (p, len, bytes) := p.read sz
  (p, toInt len, bytes)

def loc_eng_dmn_conn_glue_msgrcv (abi : Abi) (p : Pipe) (mem : Memory)
    (msgbufsz : BitVec abi.bits) : Rcv :=
  let (p, result, bytes) := loc_eng_dmn_conn_glue_piperead p abi.sizeT
  let mem := mem.store 0 bytes
  let requests := [(0, abi.sizeT)]
  let received := bytes.length
  -- the result is converted to the type of the size it is compared with
  if BitVec.ofInt abi.bits result ≠ .ofNat abi.bits abi.sizeT then
    ⟨-1, p, mem, requests, received⟩
  else if msgbufsz < mem.msgsz abi then ⟨-1, p, mem, requests, received⟩
  else
    let sz := (mem.msgsz abi - .ofNat abi.bits abi.sizeT).toNat
    let (p, result, bytes) := loc_eng_dmn_conn_glue_piperead p sz
    let mem := mem.store abi.sizeT bytes
    let requests := requests ++ [(abi.sizeT, sz)]
    let received := received + bytes.length
    if result ≠ toInt (mem.msgsz abi - .ofNat abi.bits abi.sizeT).toNat then
      ⟨-1, p, mem, requests, received⟩
    else ⟨toInt (mem.msgsz abi).toNat, p, mem, requests, received⟩

/-! ## What comes out of a pipe -/

section Read

variable {abi : Abi} {p : Pipe} {mem : Memory} {sz : Nat}

/-- The bytes of a read, and what is left in the pipe. -/
def Pipe.next (p : Pipe) (sz : Nat) : List UInt8 := (p.read sz).2.2

theorem Pipe.read_cases (p : Pipe) (sz : Nat) :
    (p.read sz).2.1 = -1 ∧ p.next sz = [] ∨
      (p.read sz).2.1 = (p.next sz).length ∧ (p.next sz).length ≤ sz := by
  unfold next read
  split
  · exact .inl ⟨rfl, rfl⟩
  · exact .inl ⟨rfl, rfl⟩
  · refine .inr ⟨rfl, ?_⟩
    rw [List.length_take]
    omega

theorem foldr_congr_range {n : Nat} {mem mem' : Memory} (h : ∀ i < n, mem' i = mem i) :
    (List.range n).foldr (fun i v => (mem' i).toNat + 256 * v) 0 =
      (List.range n).foldr (fun i v => (mem i).toNat + 256 * v) 0 := by
  refine List.foldr_ext _ _ _ fun i hi v => ?_
  rw [h i (List.mem_range.1 hi)]

theorem Memory.msgsz_store (abi : Abi) (mem : Memory) (bytes : List UInt8) :
    (mem.store abi.sizeT bytes).msgsz abi = mem.msgsz abi := by
  unfold msgsz
  rw [foldr_congr_range fun i hi => ?_]
  simp [store, Nat.not_le.2 hi]

theorem Pipe.field_complete (abi : Abi) (p : Pipe) :
    BitVec.ofInt abi.bits (toInt (p.read abi.sizeT).2.1) = .ofNat abi.bits abi.sizeT ↔
      (p.next abi.sizeT).length = abi.sizeT := by
  rcases p.read_cases abi.sizeT with ⟨hlen, hbytes⟩ | ⟨hlen, hle⟩
  · rw [hlen, hbytes]
    cases abi <;> decide
  · rw [hlen]
    generalize (p.next abi.sizeT).length = n at hle
    cases abi
    · have hn : n ≤ 8 := hle
      interval_cases n <;> decide
    · have hn : n ≤ 4 := hle
      interval_cases n <;> decide

end Read

theorem sub_sizeT (abi : Abi) (len : BitVec abi.bits) :
    abi.sizeT ≤ len.toNat ∧ (len - .ofNat abi.bits abi.sizeT).toNat = len.toNat - abi.sizeT ∨
      len.toNat < abi.sizeT ∧
        2 ^ abi.bits ≤ abi.sizeT + (len - .ofNat abi.bits abi.sizeT).toNat := by
  rw [BitVec.toNat_sub, BitVec.toNat_ofNat]
  cases abi
  · have hlt : len.toNat < 2 ^ 64 := len.isLt
    simp only [Abi.sizeT, Abi.bits]
    omega
  · have hlt : len.toNat < 2 ^ 32 := len.isLt
    simp only [Abi.sizeT, Abi.bits]
    omega

/-! ## What a receiver needs -/

/-- The pipe was asked to write inside of the buffer only, and what is returned is an error or the
    length of a message that has come as a whole. -/
structure Rcv.Good (abi : Abi) (r : Rcv) (msgbufsz : Nat) : Prop where
  inside : ∀ q ∈ r.requests, q.1 + q.2 ≤ msgbufsz
  complete : 0 ≤ r.ret → r.ret = r.received ∧ (r.mem.msgsz abi).toNat = r.received

/-- The length that the next message announces, if its size field comes at once. -/
def Pipe.announced (abi : Abi) (p : Pipe) (mem : Memory) : Option Nat :=
  if (p.next abi.sizeT).length = abi.sizeT then
    some ((mem.store 0 (p.next abi.sizeT)).msgsz abi).toNat
  else none

/-- The announced length counts the size field, and if it is so long that an `int` cannot hold it,
    it is taken for an error or the second read does not look complete. -/
def Pipe.Sound (abi : Abi) (p : Pipe) (mem : Memory) (msgbufsz : Nat) : Prop :=
  ∀ len ∈ p.announced abi mem, len ≤ msgbufsz → abi.sizeT ≤ len ∧
    (len < 4294967296 ∨ toInt len < 0 ∨
      toInt ((p.read abi.sizeT).1.read (len - abi.sizeT)).2.1 ≠ toInt (len - abi.sizeT : Nat))

section Receive

variable {abi : Abi} {p : Pipe} {mem : Memory} {msgbufsz : BitVec abi.bits}

theorem msgrcv_error (h : ∀ len ∈ p.announced abi mem, ¬ len ≤ msgbufsz.toNat) :
    (loc_eng_dmn_conn_glue_msgrcv abi p mem msgbufsz).ret = -1 ∧
      (loc_eng_dmn_conn_glue_msgrcv abi p mem msgbufsz).requests = [(0, abi.sizeT)] := by
  simp only [loc_eng_dmn_conn_glue_msgrcv, loc_eng_dmn_conn_glue_piperead, ne_eq,
    Pipe.field_complete]
  split
  · exact ⟨rfl, rfl⟩
  · next hfield =>
    have hlt : msgbufsz < (mem.store 0 (p.read abi.sizeT).2.2).msgsz abi := by
      rw [BitVec.lt_def]
      refine Nat.lt_of_not_le (h _ ?_)
      rw [Pipe.announced, if_pos (not_not.1 hfield)]
      rfl
    simp only [hlt, ↓reduceIte, and_self]

theorem msgrcv_read {len : BitVec abi.bits} (hlen : p.announced abi mem = some len.toNat)
    (hle : len.toNat ≤ msgbufsz.toNat) :
    let r := loc_eng_dmn_conn_glue_msgrcv abi p mem msgbufsz
    let sz := (len - .ofNat abi.bits abi.sizeT).toNat
    let rest := (p.read abi.sizeT).1
    r.requests = [(0, abi.sizeT), (abi.sizeT, sz)] ∧
      r.mem.msgsz abi = len ∧ r.received = abi.sizeT + (rest.next sz).length ∧
      r.ret = if toInt (rest.read sz).2.1 ≠ toInt sz then -1 else toInt len.toNat := by
  unfold Pipe.announced at hlen
  split at hlen
  · next hfield =>
    have hmsgsz : (mem.store 0 (p.next abi.sizeT)).msgsz abi = len :=
      BitVec.eq_of_toNat_eq (Option.some.inj hlen)
    have hmsgsz' : (mem.store 0 (p.read abi.sizeT).2.2).msgsz abi = len := hmsgsz
    have hnot : ¬ msgbufsz < len := by
      rw [BitVec.lt_def]
      exact Nat.not_lt.2 hle
    simp only [loc_eng_dmn_conn_glue_msgrcv, loc_eng_dmn_conn_glue_piperead, ne_eq,
      Pipe.field_complete, hfield, not_true_eq_false, ↓reduceIte, hmsgsz', hnot,
      Memory.msgsz_store]
    have hreceived : (p.read abi.sizeT).2.2.length = abi.sizeT := hfield
    split
    · exact ⟨rfl, by rw [Memory.msgsz_store, hmsgsz'], by rw [hreceived]; rfl, rfl⟩
    · exact ⟨rfl, by rw [Memory.msgsz_store, hmsgsz'], by rw [hreceived]; rfl, rfl⟩
  · cases hlen

end Receive

theorem loc_eng_dmn_conn_glue_msgrcv_iff (abi : Abi) (p : Pipe) (mem : Memory)
    (msgbufsz : BitVec abi.bits) (h : abi.sizeT ≤ msgbufsz.toNat) :
    (loc_eng_dmn_conn_glue_msgrcv abi p mem msgbufsz).Good abi msgbufsz.toNat ↔
      p.Sound abi mem msgbufsz.toNat := by
  by_cases herror : ∀ len ∈ p.announced abi mem, ¬ len ≤ msgbufsz.toNat
  · -- nothing that fits is announced, and that is an error
    obtain ⟨hret, hrequests⟩ := msgrcv_error herror
    refine ⟨fun _ len hlen hle => absurd hle (herror len hlen), fun _ => ⟨?_, ?_⟩⟩
    · rw [hrequests]
      rintro q hq
      obtain rfl := List.mem_singleton.1 hq
      simpa using h
    · rw [hret]
      intro hneg
      omega
  · obtain ⟨n, hn, hle⟩ : ∃ n, p.announced abi mem = some n ∧ n ≤ msgbufsz.toNat := by
      simpa using herror
    obtain ⟨len, rfl⟩ : ∃ len : BitVec abi.bits, len.toNat = n := by
      unfold Pipe.announced at hn
      split at hn
      · exact ⟨_, Option.some.inj hn⟩
      · cases hn
    obtain ⟨hrequests, hmsgsz, hreceived, hret⟩ := msgrcv_read hn hle
    have hsound : p.Sound abi mem msgbufsz.toNat ↔ abi.sizeT ≤ len.toNat ∧
        (len.toNat < 4294967296 ∨ toInt len.toNat < 0 ∨
          toInt ((p.read abi.sizeT).1.read (len.toNat - abi.sizeT)).2.1 ≠
            toInt (len.toNat - abi.sizeT : Nat)) := by
      refine ⟨fun hs => hs _ hn hle, fun hs len' hlen' _ => ?_⟩
      obtain rfl : len.toNat = len' := Option.some.inj (hn.symm.trans hlen')
      exact hs
    rw [hsound]
    rcases sub_sizeT abi len with ⟨hcounts, hsz⟩ | ⟨hshort, hwrap⟩
    · rw [hsz] at hrequests hreceived hret
      have hinside : ∀ q ∈ (loc_eng_dmn_conn_glue_msgrcv abi p mem msgbufsz).requests,
          q.1 + q.2 ≤ msgbufsz.toNat := by
        rw [hrequests]
        intro q hq
        rcases List.mem_cons.1 hq with rfl | hq
        · simpa using h
        · obtain rfl := List.mem_singleton.1 hq
          omega
      have hgood : (loc_eng_dmn_conn_glue_msgrcv abi p mem msgbufsz).Good abi msgbufsz.toNat ↔
          (0 ≤ (loc_eng_dmn_conn_glue_msgrcv abi p mem msgbufsz).ret →
            (loc_eng_dmn_conn_glue_msgrcv abi p mem msgbufsz).ret =
              (loc_eng_dmn_conn_glue_msgrcv abi p mem msgbufsz).received ∧
            len.toNat = (loc_eng_dmn_conn_glue_msgrcv abi p mem msgbufsz).received) :=
        ⟨fun hg hr => hmsgsz ▸ hg.complete hr, fun hc => ⟨hinside, fun hr => hmsgsz.symm ▸ hc hr⟩⟩
      rw [hgood, hret, hreceived]
      -- the rest came, or the read failed
      rcases (p.read abi.sizeT).1.read_cases (len.toNat - abi.sizeT) with ⟨hr, hn⟩ | ⟨hr, hn⟩
      · rw [hr, hn, List.length_nil]
        unfold toInt
        split <;> omega
      · rw [hr]
        unfold toInt
        split <;> omega
    · -- the second read is asked for more than the buffer holds
      refine ⟨fun hgood => ?_, fun hs => absurd hs.1 (Nat.not_le.2 hshort)⟩
      have hover := hgood.inside (abi.sizeT, (len - .ofNat abi.bits abi.sizeT).toNat) (by
        rw [hrequests]
        exact List.mem_cons_of_mem _ (List.mem_singleton.2 rfl))
      have hlt := msgbufsz.isLt
      omega

/-- A message of twelve bytes that comes in two reads. -/
def twelve : Pipe := ⟨[12, 0, 0, 0, 0, 0, 0, 0, 1, 2, 3, 4], [some 8, some 4]⟩

theorem loc_eng_dmn_conn_glue_msgrcv_twelve :
    (loc_eng_dmn_conn_glue_msgrcv .arm64 twelve (fun _ => 0) 300#64).Good .arm64 300 := by
  refine (loc_eng_dmn_conn_glue_msgrcv_iff .arm64 twelve (fun _ => 0) 300#64 (by decide)).2 ?_
  intro len hlen _
  have htwelve : twelve.announced .arm64 (fun _ => 0) = some 12 := by decide +kernel
  obtain rfl : 12 = len := Option.some.inj (htwelve.symm.trans hlen)
  exact ⟨by decide, .inl (by decide)⟩

/-- A message that says it has three bytes. -/
def three : Pipe := ⟨[3, 0, 0, 0, 0, 0, 0, 0], [some 8]⟩

/-- The pipe is asked for almost all of the address space. -/
theorem loc_eng_dmn_conn_glue_msgrcv_three :
    ¬ (loc_eng_dmn_conn_glue_msgrcv .arm64 three (fun _ => 0) 300#64).Good .arm64 300 := by
  intro hgood
  have hover := hgood.inside (8, 2 ^ 64 - 5) (by decide +kernel)
  revert hover
  decide

end Nx508j.Loc
