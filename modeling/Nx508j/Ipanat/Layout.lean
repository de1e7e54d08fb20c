import Nx508j.Lib.Layout
import Nx508j.Ipanat.Tables

/-! # The layout of a table

The memory of a table is sized by one function, its four parts are found by a second one, and the
hardware is told where they are by a third. They agree. But the number of rows is doubled in 16 bits
until it is enough, and past 32768 no number is: the base table then has no rows at all. -/

namespace Nx508j.Ipanat

open Nx508j.Lib

/-! ## The three functions -/

/-- What `ipa_nati_alloc_table` works out: the rows of the base and of the expansion tables, and
    `mem->size`. -/
structure AllocTable where
  tableEntries : Nat
  expnTableEntries : Nat
  size : Nat
deriving DecidableEq, Repr

/-- `ipa_nati_alloc_table`. -/
def ipaNatiAllocTable (numberOfEntries : UInt16) : Except Errno AllocTable := do
  let (tableEntries, expnTableEntries) ← tableSizes numberOfEntries
  let totalEntries := add16 tableEntries expnTableEntries
  .ok {
    tableEntries
    expnTableEntries
    size := ipaNatTableEntrySize * totalEntries + ipaNatIndexTableEntrySize * totalEntries }

/-- The addresses of the four parts. -/
structure TableAddrs where
  ipv4RulesAddr : Nat
  ipv4ExpnRulesAddr : Nat
  indexTableAddr : Nat
  indexTableExpnAddr : Nat

/-- The end of `ipa_nati_update_cache`: the memory is mapped at `ipv4RulesAddr`. -/
def ipaNatiUpdateCache (ipv4RulesAddr tblEntries expnTblEntries : Nat) : TableAddrs where
  ipv4RulesAddr
  ipv4ExpnRulesAddr := ipv4RulesAddr + ipaNatTableEntrySize * tblEntries
  indexTableAddr := ipv4RulesAddr + ipaNatTableEntrySize * (tblEntries + expnTblEntries)
  indexTableExpnAddr := ipv4RulesAddr + ipaNatTableEntrySize * (tblEntries + expnTblEntries) +
    ipaNatIndexTableEntrySize * tblEntries

/-- `struct ipa_ioc_v4_nat_init`. -/
structure IpaIocV4NatInit where
  tblIndex : UInt8
  ipv4RulesOffset : UInt32
  expnRulesOffset : UInt32
  indexOffset : UInt32
  indexExpnOffset : UInt32
  tableEntries : UInt16
  expnTableEntries : UInt16
  ipAddr : UInt32
deriving DecidableEq, Repr

/-- The command of `ipa_nati_post_ipv4_init_cmd`, for a table whose memory is at `offset`. -/
def ipaNatiPostIpv4InitCmd (tblIndex : UInt8) (offset publicAddr : UInt32)
    (tableEntries expnTableEntries : Nat) : IpaIocV4NatInit :=
  let ipv4RulesOffset := offset
  let expnRulesOffset := ipv4RulesOffset + UInt32.ofNat (tableEntries * ipaNatTableEntrySize)
  let indexOffset := expnRulesOffset + UInt32.ofNat (expnTableEntries * ipaNatTableEntrySize)
  let indexExpnOffset := indexOffset + UInt32.ofNat (tableEntries * ipaNatIndexTableEntrySize)
  { tblIndex, ipv4RulesOffset, expnRulesOffset, indexOffset, indexExpnOffset
    tableEntries := UInt16.ofNat tableEntries - 1
    expnTableEntries := UInt16.ofNat expnTableEntries
    ipAddr := publicAddr }

/-! ## The property -/

/-- The parts with their lengths. -/
def TableAddrs.regions (a : TableAddrs) (t : AllocTable) : List (Nat × Nat) :=
  [(a.ipv4RulesAddr, ipaNatTableEntrySize * t.tableEntries),
    (a.ipv4ExpnRulesAddr, ipaNatTableEntrySize * t.expnTableEntries),
    (a.indexTableAddr, ipaNatIndexTableEntrySize * t.tableEntries),
    (a.indexTableExpnAddr, ipaNatIndexTableEntrySize * t.expnTableEntries)]

/-- Every rule has a base row, by both hashes: row 0 is not one. -/
def Hashes (tableEntries : Nat) : Prop :=
  ∀ (privIp trgtIp : UInt32) (privPort trgtPort publicPort : UInt16) (proto : UInt8),
    (1 ≤ dstHash trgtIp trgtPort publicPort proto (UInt16.ofNat tableEntries - 1) ∧
      dstHash trgtIp trgtPort publicPort proto (UInt16.ofNat tableEntries - 1) ≤
        tableEntries - 1) ∧
    1 ≤ srcHash privIp privPort trgtIp trgtPort proto (UInt16.ofNat tableEntries - 1) ∧
      srcHash privIp privPort trgtIp trgtPort proto (UInt16.ofNat tableEntries - 1) ≤
        tableEntries - 1

/-- **The property.** The base table has a power of two of rows, two at least, so that the hashes
    give rows of it. The four parts do not overlap and are inside of the memory. The hardware is
    told the offsets at which the driver has them. -/
structure LaidOut (t : AllocTable) : Prop where
  power : ∃ k, 1 ≤ k ∧ t.tableEntries = 2 ^ k
  hashes : Hashes t.tableEntries
  apart : ∀ addr, ((ipaNatiUpdateCache addr t.tableEntries t.expnTableEntries).regions t).Pairwise
    Before
  inside : ∀ addr, ∀ a ∈ (ipaNatiUpdateCache addr t.tableEntries t.expnTableEntries).regions t,
    Inside addr t.size a
  offsets : ∀ addr tblIndex offset publicAddr,
    let a := ipaNatiUpdateCache addr t.tableEntries t.expnTableEntries
    let cmd := ipaNatiPostIpv4InitCmd tblIndex offset publicAddr t.tableEntries t.expnTableEntries
    cmd.ipv4RulesOffset = offset ∧
      cmd.expnRulesOffset = offset + UInt32.ofNat (a.ipv4ExpnRulesAddr - addr) ∧
      cmd.indexOffset = offset + UInt32.ofNat (a.indexTableAddr - addr) ∧
      cmd.indexExpnOffset = offset + UInt32.ofNat (a.indexTableExpnAddr - addr)

/-! ## Where it holds -/

section Proofs

variable {addr tableEntries expnTableEntries : Nat}

theorem regions_eq (t : AllocTable) :
    (ipaNatiUpdateCache addr t.tableEntries t.expnTableEntries).regions t = lay addr
      [ipaNatTableEntrySize * t.tableEntries, ipaNatTableEntrySize * t.expnTableEntries,
        ipaNatIndexTableEntrySize * t.tableEntries,
        ipaNatIndexTableEntrySize * t.expnTableEntries] := by
  simp [TableAddrs.regions, ipaNatiUpdateCache, lay, Nat.mul_add, Nat.add_assoc]

theorem hashes_pow {k : Nat} (hk : 1 ≤ k) (hk' : k ≤ 15) : Hashes (2 ^ k) := by
  intro privIp trgtIp privPort trgtPort publicPort proto
  have hrange := fun hash => maskHash_range hash hk hk'
  exact ⟨⟨(hrange _).1, Nat.le_sub_one_of_lt (hrange _).2⟩, (hrange _).1,
    Nat.le_sub_one_of_lt (hrange _).2⟩

theorem offsets_eq (tblIndex : UInt8) (offset publicAddr : UInt32) :
    let a := ipaNatiUpdateCache addr tableEntries expnTableEntries
    let cmd := ipaNatiPostIpv4InitCmd tblIndex offset publicAddr tableEntries expnTableEntries
    cmd.ipv4RulesOffset = offset ∧
      cmd.expnRulesOffset = offset + UInt32.ofNat (a.ipv4ExpnRulesAddr - addr) ∧
      cmd.indexOffset = offset + UInt32.ofNat (a.indexTableAddr - addr) ∧
      cmd.indexExpnOffset = offset + UInt32.ofNat (a.indexTableExpnAddr - addr) := by
  simp only [ipaNatiUpdateCache, ipaNatiPostIpv4InitCmd, Nat.add_assoc, Nat.add_sub_cancel_left,
    Nat.mul_add, UInt32.ofNat_add, UInt32.add_assoc, Nat.mul_comm, and_self]

theorem ipaNatiAllocTable_cases (numberOfEntries : UInt16) : ∃ t,
    ipaNatiAllocTable numberOfEntries = .ok t ∧ t.expnTableEntries ≤ 13108 ∧
      t.size = 36 * add16 t.tableEntries t.expnTableEntries ∧
      (numberOfEntries.toNat ≤ 40961 ∧ (∃ k, 1 ≤ k ∧ k ≤ 15 ∧ t.tableEntries = 2 ^ k) ∨
        40961 < numberOfEntries.toNat ∧ t.tableEntries = 0) := by
  have hn : numberOfEntries.toNat < 65536 := numberOfEntries.toNat_lt
  obtain ⟨tableEntries, expnTableEntries, hsizes, -⟩ := tableSizes_ok numberOfEntries
  have hexpn := (tableSizes_cases hsizes).2.2
  have halloc : ipaNatiAllocTable numberOfEntries =
      .ok ⟨tableEntries, expnTableEntries, 36 * add16 tableEntries expnTableEntries⟩ := by
    have hsize : ipaNatTableEntrySize * add16 tableEntries expnTableEntries +
        ipaNatIndexTableEntrySize * add16 tableEntries expnTableEntries =
          36 * add16 tableEntries expnTableEntries := (Nat.add_mul 32 4 _).symm
    unfold ipaNatiAllocTable
    rw [hsizes, ok_bind]
    dsimp only
    rw [hsize]
  refine ⟨_, halloc, hexpn, rfl, ?_⟩
  -- 80% of the entries, to be rounded up
  unfold tableSizes at hsizes
  dsimp only at hsizes
  generalize hbase : (if numberOfEntries.toNat * 8 / 10 = 0 then 1
    else numberOfEntries.toNat * 8 / 10) = base at hsizes
  obtain ⟨v, hpow, heq⟩ := bind_eq_ok hsizes
  obtain rfl : v = tableEntries := (ok_pair heq).1
  have hlt : base < 65536 := by
    rw [← hbase]
    split <;> omega
  rcases getNearest2Power_cases hlt hpow with ⟨hbig, hzero⟩ | ⟨k, hk, hk', hv, hle⟩
  · refine .inr ⟨?_, hzero⟩
    split at hbase <;> omega
  · have hmax : 2 ^ k ≤ 2 ^ 15 := Nat.pow_le_pow_right (by omega) hk'
    refine .inl ⟨?_, k, hk, hk', hv⟩
    split at hbase <;> omega

/-- **The layout of a table.** It is as it should be just if at most 40961 entries are asked for. -/
theorem layout_iff (numberOfEntries : UInt16) :
    (∃ t, ipaNatiAllocTable numberOfEntries = .ok t ∧ LaidOut t) ↔
      numberOfEntries.toNat ≤ 40961 := by
  obtain ⟨t, halloc, hexpn, hsize, hcases⟩ := ipaNatiAllocTable_cases numberOfEntries
  constructor
  · rintro ⟨t', halloc', hlaid⟩
    obtain rfl : t = t' := Except.ok.inj (halloc.symm.trans halloc')
    rcases hcases with ⟨hn, -⟩ | ⟨-, hzero⟩
    · exact hn
    · obtain ⟨k, -, hk⟩ := hlaid.power
      have := Nat.two_pow_pos k
      omega
  · intro hn
    rcases hcases with ⟨-, k, hk, hk', hpow⟩ | ⟨hlt, -⟩
    swap
    · omega
    have hle : 2 ^ k ≤ 2 ^ 15 := Nat.pow_le_pow_right (by omega) hk'
    have htotal : add16 t.tableEntries t.expnTableEntries = t.tableEntries + t.expnTableEntries :=
      add16_eq (by omega)
    refine ⟨t, halloc, ⟨k, hk, hpow⟩, hpow ▸ hashes_pow hk hk', fun addr => ?_,
      fun addr a ha => ?_, fun addr => offsets_eq⟩
    · rw [regions_eq]
      exact pairwise_lay ..
    · rw [regions_eq] at ha
      have hin := inside_lay a ha
      have hsum : t.size = List.sum [ipaNatTableEntrySize * t.tableEntries,
          ipaNatTableEntrySize * t.expnTableEntries, ipaNatIndexTableEntrySize * t.tableEntries,
          ipaNatIndexTableEntrySize * t.expnTableEntries] := by
        simp only [List.sum_cons, List.sum_nil, ipaNatTableEntrySize, ipaNatIndexTableEntrySize]
        omega
      rwa [hsum]

/-- For 40962 entries the base table gets no rows. -/
theorem layout_empty : ¬ ∀ numberOfEntries : UInt16, numberOfEntries ≠ 0 →
    ∃ t, ipaNatiAllocTable numberOfEntries = .ok t ∧ LaidOut t := by
  intro hall
  obtain ⟨t, halloc, hlaid⟩ := hall 40962 (by decide)
  have hzero : ipaNatiAllocTable 40962 = .ok ⟨0, 8192, 36 * 8192⟩ := by decide +kernel
  obtain rfl : (⟨0, 8192, 36 * 8192⟩ : AllocTable) = t := Except.ok.inj (hzero.symm.trans halloc)
  obtain ⟨k, -, hk⟩ := hlaid.power
  exact absurd hk (Nat.two_pow_pos k).ne

end Proofs

end Nx508j.Ipanat
