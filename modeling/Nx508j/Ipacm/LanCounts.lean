import Nx508j.Ipacm.LanPeers

/-! # Connection counts

What a client counts of its connections to another is what the events say: the new connections since
both were last there that no deletion took back. What is seen of a client before it is known waits in a
cache, which is small. -/

namespace Nx508j.Ipacm.Lan2Lan

open Nx508j.Lib Function

variable {ω : Type} {cfg : Config} {ops : Ifaces ω} {t : IpType}

/-! ## What the events say -/

/-- How many connections are open between the clients at two addresses. -/
abbrev Open := Ptr → Ptr → Nat

namespace Side

/-- The open connections after an input that finds the side as `s`, if nobody leaves. -/
def openThen (s : Side) (t : IpType) (n : Open) : Input → Open
  | .eventCallback (.lanToLanNewConnection conn) =>
    match s.find (srcKey conn), s.find (dstKey conn) with
    | some a, some b => fun p q => if p = a ∧ q = b ∨ p = b ∧ q = a then n p q + 1 else n p q
    | _, _ => n
  | .eventCallback (.lanToLanDelConnection conn) =>
    match s.find (srcKey conn), s.find (dstKey conn) with
    | some a, some b => fun p q => if p = a ∧ q = b ∨ p = b ∧ q = a then n p q - 1 else n p q
    | _, _ => n
  | .eventCallback (.lanClientActive data) => fun p q =>
    if s.replaced t data = some p ∨ s.replaced t data = some q then 0 else n p q
  | _ => n

/-- The open connections after an input that leaves the side as `s'`: a client that is not there has
    none. -/
def openAfter (s s' : Side) (t : IpType) (n : Open) (i : Input) : Open := fun p q =>
  if s'.mem p = none ∨ s'.mem q = none then 0 else s.openThen t n i p q

end Side

/-- The count of so many open connections. -/
def countOf (n : Nat) : Option Int := if n = 0 then none else some n

theorem countOf_inj {n m : Nat} (h : countOf n = countOf m) : n = m := by
  unfold countOf at h
  split at h <;> split at h
  · next hn hm => exact hn.trans hm.symm
  · cases h
  · cases h
  · exact Int.ofNat.inj (Option.some.inj h)

namespace Side

variable {s s' : Side} {w w' : ω} {n : Open} {i : Input} {p q : Ptr}

/-- The counts are those of the open connections. -/
def Agrees (s : Side) (n : Open) : Prop := ∀ p q, s.counted p q = countOf (n p q)

theorem Agrees.init : init.Agrees fun _ _ => 0 := fun _ _ => counted_of_dead rfl _

theorem Agrees.symm (hs : s.PeersOk) (hn : s.Agrees n) (p q : Ptr) : n p q = n q p := by
  refine countOf_inj ?_
  rw [← hn, ← hn, hs.symm]

theorem Agrees.of_live (hs' : s'.PeersOk)
    (h : ∀ p q, s'.mem p ≠ none → s'.mem q ≠ none →
      s'.counted p q = countOf (s.openThen t n i p q)) :
    s'.Agrees (s.openAfter s' t n i) := by
  intro p q
  unfold openAfter
  split
  · next hdead =>
    rcases hdead with hp | hq
    · exact counted_of_dead hp q
    · rw [hs'.symm]
      exact counted_of_dead hq p
  · next hlive =>
    obtain ⟨hp, hq⟩ := not_or.mp hlive
    exact h p q hp hq

/-! ### What an event does to the open connections -/

section Connection

variable {conn : ConnectionData} {a b : Ptr}

end Connection

/-- A client became active: the cached connections between it and clients of the table were posted. -/
def Announced (s s' : Side) (key : Key) : Prop :=
  ∃ p c, s'.find key = some p ∧ s'.mem p = some c ∧ c.isActive = true ∧
    s'.connection = s.connection.filter (fun conn => !s'.revives c.ip conn) ∧
    s'.posted = s.posted ++ (s.connection.filter (s'.revives c.ip)).map .lanToLanNewConnection

section

variable (hs : s.connection.length ≤ maxCacheConnection)
include hs

end

/-- The client at `p` lists the one at `q` with `n` connections. -/
def Lists (s : Side) (p q : Ptr) (n : Int) : Prop := ∃ c, s.mem p = some c ∧ ⟨q, n⟩ ∈ c.peer

theorem PeersOk.lists_iff (hs : s.PeersOk) {k : Int} : s.Lists p q k ↔ s.counted p q = some k := by
  constructor
  · rintro ⟨c, hc, hmem⟩
    have hrec := record_of_mem (hs.nodup p c hc) hmem
    rw [counted_of_mem hc, hrec]
    rfl
  · intro h
    obtain ⟨c, hc, h⟩ := Option.bind_eq_some_iff.mp h
    obtain ⟨⟨q', k'⟩, hrec, rfl⟩ := Option.map_eq_some_iff.mp h
    obtain rfl : q' = q := key_of_record hrec
    exact ⟨c, hc, mem_of_record hrec⟩

end Side

/-! ## Runs -/

section Runs

variable {w₀ : ω} {tr : List ((Input × Ifaces ω) × Unit)} {s : LanToLan × ω}

/-- A build with `CT_OPT`, with one private subnet. -/
def subnetConfig : Config :=
  ⟨true, fun i => if i = 0 then .wlanIf else .lanIf, [(0xc0a80000#32, 0xffff0000#32)]⟩

/-- Interfaces that refuse nothing. -/
def willing : Ifaces Unit := ⟨fun w _ _ => (some ⟨0, ⟨1, [0]⟩⟩, w)⟩

/-- A client with an IPv4 address. -/
def v4Client (addr : BitVec 32) (mac : Mac) (pIface : Iface) : LanClientData :=
  ⟨some .v4, addr, ⟨0, 0, 0, 0⟩, mac, some pIface⟩

/-- A connection between two IPv4 addresses. -/
def v4Connection (src dst : BitVec 32) : ConnectionData :=
  ⟨.v4, src, dst, ⟨0, 0, 0, 0⟩, ⟨0, 0, 0, 0⟩⟩

end Runs

end Nx508j.Ipacm.Lan2Lan
