import Nx508j.Ipanat.Cache
import Nx508j.Ipanat.Coupling
import Nx508j.Ipanat.Progress

/-! # A freshly added table

What `ipa_nat_add_ipv4_tbl` leaves in a slot that held no table: arrays of the lengths it computed
from the number of entries, all zero. Such a table satisfies every invariant, with no handle live. -/

namespace Nx508j.Ipanat

open Nx508j.Lib

/-! ## Sizes -/

theorem nearest2PowerLoop_eq {fuel number num j : Nat} (hnum : 1 ≤ num)
    (hlog : Nat.log 2 num < fuel) (hj : j + Nat.log 2 num ≤ 15) :
    nearest2PowerLoop fuel number num (2 ^ j) =
      if number ≠ 2 ^ (j + Nat.log 2 num) then 2 ^ (j + Nat.log 2 num) * 2 % 65536
      else 2 ^ (j + Nat.log 2 num) := by
  induction fuel generalizing num j with
  | zero => omega
  | succ fuel ih =>
    unfold nearest2PowerLoop
    by_cases h1 : num = 1
    · simp [h1]
    have hlog2 : Nat.log 2 num = Nat.log 2 (num / 2) + 1 := by
      rw [Nat.log_of_one_lt_of_le (by omega) (by omega)]
    have hpow : 2 ^ j * 2 % 65536 = 2 ^ (j + 1) := by
      rw [← Nat.pow_succ]
      refine Nat.mod_eq_of_lt ?_
      calc 2 ^ (j + 1) ≤ 2 ^ 15 := Nat.pow_le_pow_right (by omega) (by omega)
        _ < 65536 := by decide
    rw [if_neg h1, hpow, ih (by omega) (by omega) (by omega), hlog2, Nat.add_right_comm,
      Nat.add_assoc]

theorem getNearest2Power_cases {num v : Nat} (hnum : num < 65536)
    (h : getNearest2Power num = .ok v) :
    (32768 < num ∧ v = 0) ∨ ∃ k, 1 ≤ k ∧ k ≤ 15 ∧ v = 2 ^ k ∧ num ≤ v := by
  unfold getNearest2Power at h
  split at h
  · cases h
  · next h0 =>
    split at h
    · next h1 =>
      cases h
      exact Or.inr ⟨1, le_rfl, by omega, rfl, by omega⟩
    · next h1 =>
      cases h
      have hle := Nat.pow_log_le_self 2 (x := num) (by omega)
      have hlt := Nat.lt_pow_succ_log_self (b := 2) (by omega) num
      have hlog : Nat.log 2 num < 16 := Nat.log_lt_of_lt_pow (by omega) (by simpa using hnum)
      have hlog1 : 1 ≤ Nat.log 2 num := Nat.log_pos (by omega) (by omega)
      rw [show (1 : Nat) = 2 ^ 0 from rfl, nearest2PowerLoop_eq (by omega) hlog (by omega),
        Nat.zero_add]
      split
      · next hne =>
        by_cases h15 : Nat.log 2 num = 15
        · refine Or.inl ⟨?_, by rw [h15]; rfl⟩
          rw [h15] at hle hne
          omega
        · have hsucc : 2 ^ Nat.log 2 num * 2 = 2 ^ (Nat.log 2 num + 1) := (Nat.pow_succ ..).symm
          have hpow : 2 ^ (Nat.log 2 num + 1) ≤ 2 ^ 15 :=
            Nat.pow_le_pow_right (by omega) (by omega)
          refine Or.inr ⟨Nat.log 2 num + 1, by omega, by omega, ?_, ?_⟩
          · rw [hsucc, Nat.mod_eq_of_lt (by omega)]
          · rw [hsucc, Nat.mod_eq_of_lt (by omega)]
            exact hlt.le
      · next heq => exact Or.inr ⟨Nat.log 2 num, hlog1, by omega, rfl, by omega⟩

theorem getNearestEven_range {num : Nat} (h : num ≤ 13107) :
    2 ≤ getNearestEven num ∧ getNearestEven num ≤ 13108 := by
  unfold getNearestEven
  split
  · omega
  · split <;> omega

theorem tableSizes_cases {numberOfEntries : UInt16} {tableEntries expnTableEntries : Nat}
    (h : tableSizes numberOfEntries = .ok (tableEntries, expnTableEntries)) :
    (tableEntries = 0 ∨ ∃ k, 1 ≤ k ∧ k ≤ 15 ∧ tableEntries = 2 ^ k) ∧
      2 ≤ expnTableEntries ∧ expnTableEntries ≤ 13108 := by
  have hn : numberOfEntries.toNat < 65536 := numberOfEntries.toNat_lt
  unfold tableSizes at h
  dsimp only at h
  generalize hb : (if numberOfEntries.toNat * 8 / 10 = 0 then 1
    else numberOfEntries.toNat * 8 / 10) = base at h
  have hbase : base < 65536 := by
    rw [← hb]
    split <;> omega
  cases hp : getNearest2Power base with
  | error e => rw [hp] at h; cases h
  | ok v =>
    rw [hp] at h
    cases h
    refine ⟨?_, getNearestEven_range (by omega)⟩
    rcases getNearest2Power_cases hbase hp with ⟨-, rfl⟩ | ⟨k, hk, hk', hv, -⟩
    · exact Or.inl rfl
    · exact Or.inr ⟨k, hk, hk', hv⟩

/-! ## The table -/

namespace IpaNatIp4TableCache

/-- A valid table without a rule. -/
structure Fresh (t : IpaNatIp4TableCache) : Prop where
  valid : t.valid = true
  sized : t.Sized
  tblAddrOffset : t.tblAddrOffset = 0
  tableEntries : t.tableEntries = 0 ∨ ∃ k, 1 ≤ k ∧ k ≤ 15 ∧ t.tableEntries = 2 ^ k
  expnTableEntries : 2 ≤ t.expnTableEntries ∧ t.expnTableEntries ≤ 13108
  rule : ∀ x, t.rule x = {}
  indx : ∀ x, t.indx x = {}
  metaPrev : ∀ x, t.metaPrev x = 0
  ruleIdArray : ∀ i < t.rows, t.ruleIdArray.get i = 0

end IpaNatIp4TableCache

/-- No table exists: the only slot was never used or has been cleared. -/
structure IpaNatCache.Blank (c : IpaNatCache) : Prop where
  size : c.ip4Tbl.size = ipaNatMaxIp4Tbls
  slot : c.ip4Tbl.get 0 = .blank
  tableCnt : c.tableCnt = 0

theorem blank_init : IpaNatCache.init.Blank := ⟨rfl, rfl, rfl⟩

/-- `t` is the table that an `ipa_nat_add_ipv4_tbl` has just returned a handle for, with the tables
    at the start of the memory the kernel allocated. -/
def FreshlyAdded (t : IpaNatIp4TableCache) : Prop :=
  ∃ (c c' : IpaNatCache) (publicAddr : UInt32) (numberOfEntries : UInt16) (env : AddTblEnv)
    (tblHdl : Nat), c.Blank ∧ env.memOffset = 0 ∧
      ipaNatAddIpv4Tbl c publicAddr numberOfEntries env = .ok (c', .ok tblHdl) ∧
      c'.ip4Tbl.read (tblHdl - 1) = .ok t

theorem memset_whole {α : Type} {m m' : Region α} {n : Nat} {z : α} (h : m.memset n z = .ok m') :
    n ≤ m.size ∧ m'.size = m.size ∧ ∀ i < n, m'.get i = z := by
  unfold Region.memset at h
  split at h
  · next hn =>
    cases h
    exact ⟨hn, rfl, fun i hi => if_pos hi⟩
  · cases h

/-- The slot once it is filled in and cleared, if none of its arrays was there before. -/
theorem fresh_of_reset {t t' : IpaNatIp4TableCache} {publicAddr : UInt32} {env : AddTblEnv}
    {tableEntries expnTableEntries : Nat} (hblank : t = .blank) (ho : env.memOffset = 0)
    (hT : tableEntries = 0 ∨ ∃ k, 1 ≤ k ∧ k ≤ 15 ∧ tableEntries = 2 ^ k)
    (hE : 2 ≤ expnTableEntries ∧ expnTableEntries ≤ 13108)
    (hslot : updateSlot t publicAddr tableEntries expnTableEntries env = (t', .ok ()))
    {t₁ : IpaNatIp4TableCache} (hreset : ipaNatiResetTbl t' = .ok t₁) :
    t₁.Fresh ∧ t₁.tableEntries = tableEntries ∧ t₁.expnTableEntries = expnTableEntries ∧
      t₁.publicAddr = publicAddr := by
  subst hblank
  obtain ⟨rules, hr, h⟩ := bind_eq_ok hreset
  obtain ⟨expnRules, hre, h⟩ := bind_eq_ok h
  obtain ⟨indx, hi, h⟩ := bind_eq_ok h
  obtain ⟨indxExpn, hie, h⟩ := bind_eq_ok h
  cases h
  obtain ⟨hrn, hrs, hrz⟩ := memset_whole hr
  obtain ⟨hren, hres, hrez⟩ := memset_whole hre
  obtain ⟨hin, his, hiz⟩ := memset_whole hi
  obtain ⟨hien, hies, hiez⟩ := memset_whole hie
  unfold updateSlot mallocArray at hslot
  simp only [IpaNatIp4TableCache.blank, Region.size_fill, ↓reduceIte] at hslot
  by_cases hmeta : env.mallocMeta = true
  swap
  · -- without the first array the slot has no memory to clear
    simp only [hmeta, Bool.false_eq_true, ↓reduceIte, Prod.mk.injEq, and_true] at hslot
    subst hslot
    simp at hren
    omega
  by_cases hid : env.mallocRuleId = true
  swap
  · simp only [hmeta, hid, Bool.false_eq_true, ↓reduceIte, Prod.mk.injEq, and_true] at hslot
    subst hslot
    simp at hren
    omega
  by_cases hopen : env.openNat = true
  swap
  · simp [hmeta, hid, hopen] at hslot
  by_cases hmap : env.mmap = true
  swap
  · simp only [hmeta, hid, hopen, hmap, Bool.false_eq_true, ↓reduceIte, Prod.mk.injEq,
      and_true] at hslot
    subst hslot
    simp at hren
    omega
  simp only [hmeta, hid, hopen, hmap, ↓reduceIte, Prod.mk.injEq, and_true] at hslot
  subst hslot
  refine ⟨?_, rfl, rfl, rfl⟩
  constructor
  · rfl
  · exact ⟨hrs, hres, his, hies, rfl, rfl⟩
  · exact ho
  · exact hT
  · exact hE
  · intro x
    unfold IpaNatIp4TableCache.rule IpaNatIp4TableCache.rows
    dsimp only
    split
    · next hx => exact hrz x hx
    · split
      · exact hrez _ (by dsimp only; omega)
      · rfl
  · intro x
    unfold IpaNatIp4TableCache.indx IpaNatIp4TableCache.rows
    dsimp only
    split
    · next hx => exact hiz x hx
    · split
      · exact hiez _ (by dsimp only; omega)
      · rfl
  · intro x
    unfold IpaNatIp4TableCache.metaPrev
    split <;> rfl
  · exact fun i _ => rfl

theorem ipaNatAddIpv4Tbl_ok {c c' : IpaNatCache} (hc : c.Blank) {publicAddr : UInt32}
    {numberOfEntries : UInt16} {env : AddTblEnv} (ho : env.memOffset = 0) {tblHdl : Nat}
    (h : ipaNatAddIpv4Tbl c publicAddr numberOfEntries env = .ok (c', .ok tblHdl)) :
    tblHdl = 1 ∧ c'.tableCnt = 1 ∧ c'.ip4Tbl.size = ipaNatMaxIp4Tbls ∧ (c'.ip4Tbl.get 0).Fresh ∧
      tableSizes numberOfEntries =
        .ok ((c'.ip4Tbl.get 0).tableEntries, (c'.ip4Tbl.get 0).expnTableEntries) := by
  unfold ipaNatAddIpv4Tbl at h
  split at h
  · cases h
  cases hsz : tableSizes numberOfEntries with
  | error e => rw [hsz] at h; cases h
  | ok sz =>
    obtain ⟨tableEntries, expnTableEntries⟩ := sz
    rw [hsz] at h
    obtain ⟨⟨c₁, ret⟩, hadd, h⟩ := bind_eq_ok h
    obtain ⟨hT, hE⟩ := tableSizes_cases hsz
    obtain ⟨rfl, hret⟩ := ok_pair h
    cases ret with
    | error e => cases hret
    | ok v =>
      obtain rfl : v = tblHdl := by simpa [Except.mapError] using hret
      unfold ipaNatiAddIpv4Tbl at hadd
      split at hadd
      · simp at hadd
      split at hadd
      · simp at hadd
      obtain ⟨t, ht, hadd⟩ := bind_eq_ok hadd
      rw [hc.tableCnt] at ht hadd
      obtain ⟨-, rfl⟩ := Region.lt_of_read ht
      generalize hslot : updateSlot (c.ip4Tbl.get 0) publicAddr tableEntries
        expnTableEntries env = r at hadd
      obtain ⟨t', ret⟩ := r
      cases ret with
      | error e =>
        obtain ⟨m, -, hadd⟩ := bind_eq_ok hadd
        simp at hadd
      | ok u =>
        obtain ⟨t₁, hreset, hadd⟩ := bind_eq_ok hadd
        obtain ⟨m, hm, hadd⟩ := bind_eq_ok hadd
        obtain ⟨-, rfl⟩ := Region.lt_of_write hm
        split at hadd
        · obtain ⟨rfl, rfl⟩ : _ ∧ _ := by simpa using hadd
          obtain ⟨hfresh, h₁, h₂, -⟩ :=
            fresh_of_reset hc.slot ho hT hE hslot hreset
          rw [Region.get_set_self, h₁, h₂]
          exact ⟨rfl, rfl, hc.size, hfresh, rfl⟩
        · simp at hadd

theorem FreshlyAdded.fresh {t : IpaNatIp4TableCache} (h : FreshlyAdded t) : t.Fresh := by
  obtain ⟨c, c', publicAddr, n, env, tblHdl, hc, ho, hadd, hread⟩ := h
  obtain ⟨rfl, -, -, hfresh, -⟩ := ipaNatAddIpv4Tbl_ok hc ho hadd
  obtain ⟨-, rfl⟩ := Region.lt_of_read hread
  exact hfresh

namespace IpaNatIp4TableCache

namespace Fresh

variable {t : IpaNatIp4TableCache}

theorem layout (hf : t.Fresh) (hT : t.tableEntries ≠ 0) : t.Layout where
  sized := hf.sized
  tblAddrOffset := hf.tblAddrOffset
  tableEntries := hf.tableEntries.resolve_left hT
  expn_pos := by have := hf.expnTableEntries; omega
  expnTableEntries := by have := hf.expnTableEntries; omega

theorem not_ruleOcc (hf : t.Fresh) (x : Nat) : ¬ t.ruleOcc x := by
  unfold IpaNatIp4TableCache.ruleOcc
  rw [hf.rule]
  simp

theorem not_indxOcc (hf : t.Fresh) (y : Nat) : ¬ t.indxOcc y := by
  unfold IpaNatIp4TableCache.indxOcc
  rw [hf.indx]
  simp

theorem ruleThreaded (hf : t.Fresh) : t.RuleThreaded := by
  intro q hq
  unfold ruleNext at hq
  rw [hf.rule] at hq
  exact absurd rfl hq

theorem indxThreaded (hf : t.Fresh) : t.IndxThreaded := by
  intro q hq
  unfold indxNext at hq
  rw [hf.indx] at hq
  exact absurd rfl hq

theorem bounded (hf : t.Fresh) (hT : t.tableEntries ≠ 0) : t.Bounded where
  rule x := by rw [hf.rule]; exact (hf.layout hT).boundedRule_empty
  indx y := by rw [hf.indx]; exact (hf.layout hT).boundedIndx_empty
  metaPrev y := by rw [hf.metaPrev]; exact (hf.layout hT).rows_pos

theorem ids (hf : t.Fresh) : t.Ids := fun i hi hne => absurd (hf.ruleIdArray i hi) hne

theorem hdlInv (hf : t.Fresh) : t.HdlInv fun _ => none where
  pos _ _ h := by cases h
  lt _ _ h := by cases h
  id _ _ h := by cases h
  id_ne_zero _ _ h := by cases h
  stores _ _ h := by cases h
  protocol _ _ h := by cases h
  used i hi hne := absurd (hf.ruleIdArray i hi) hne
  inj _ _ _ _ h := by cases h
  covered x hx := absurd hx.1 (hf.not_ruleOcc x)

theorem natInv (hf : t.Fresh) (hT : t.tableEntries ≠ 0) (hT' : t.tableEntries ≤ 16384) :
    t.NatInv (fun _ => none) (fun _ => 0) id (fun _ => 0) id where
  small := ⟨hf.layout hT, hT'⟩
  ruleThreaded := hf.ruleThreaded
  ruleAnchored :=
    { occ_prev := fun x _ ho => absurd ho (hf.not_ruleOcc x)
      next_prev := fun x _ ho => absurd ho (hf.not_ruleOcc x)
      age_lt := fun x _ ho => absurd ho (hf.not_ruleOcc x)
      owner_eq := fun x _ ho => absurd ho (hf.not_ruleOcc x)
      owner_head := fun _ _ => rfl }
  indxThreaded := hf.indxThreaded
  indxAnchored :=
    { occ_prev := fun y _ ho => absurd ho (hf.not_indxOcc y)
      next_prev := fun y _ ho => absurd ho (hf.not_indxOcc y)
      age_lt := fun y _ ho => absurd ho (hf.not_indxOcc y)
      owner_eq := fun y _ ho => absurd ho (hf.not_indxOcc y)
      owner_head := fun _ _ => rfl }
  hdl := hf.hdlInv
  coupled :=
    { tblEntry := fun x hx => absurd hx.1 (hf.not_ruleOcc x)
      live := fun y hy => absurd hy (hf.not_indxOcc y)
      indxTblEntry := fun y hy => absurd hy (hf.not_indxOcc y) }
  dst x hx := absurd hx.1 (hf.not_ruleOcc x)
  src y hy := absurd hy (hf.not_indxOcc y)

end Fresh

end IpaNatIp4TableCache

end Nx508j.Ipanat
