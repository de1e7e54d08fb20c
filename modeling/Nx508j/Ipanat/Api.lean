import Nx508j.Ipanat.Failures

/-! # Calls of the driver

The functions of `ipa_nat_drv.c` as steps of the cache: tables come and go, and calls on rules name a
table and a rule by handles of 32 bits, which may be any. An invariant ties the handles that clients
hold to the slot of the table, whatever writes fail. -/

namespace Nx508j.Ipanat

open Nx508j.Lib Function

/-- A call that names a table, and a rule of it. -/
inductive HdlCall
  | addRule (tblHdl : UInt32) (clntRule : IpaNatIpv4Rule) (dma : AddDma)
  | delRule (tblHdl ruleHdl : UInt32) (ok : Bool)
  | queryTimestamp (tblHdl ruleHdl : UInt32)

/-- A call of the driver, with what the system answers. -/
inductive ApiCall
  | addTbl (publicAddr : UInt32) (numberOfEntries : UInt16) (env : AddTblEnv)
  | delTbl (tblHdl : UInt32) (env : DelTblEnv)
  | onHdl (call : HdlCall)

def hdlStep (c : IpaNatCache) : HdlCall → Except Fault (IpaNatCache × ApiRet)
  | .addRule tblHdl clntRule dma => ipaNatAddIpv4Rule c tblHdl clntRule dma
  | .delRule tblHdl ruleHdl ok => ipaNatDelIpv4Rule c tblHdl ruleHdl ok
  | .queryTimestamp tblHdl ruleHdl => ipaNatQueryTimestamp c tblHdl ruleHdl

def apiStep (c : IpaNatCache) : ApiCall → Except Fault (IpaNatCache × ApiRet)
  | .addTbl publicAddr numberOfEntries env => do
      let (c, ret) ← ipaNatAddIpv4Tbl c publicAddr numberOfEntries env
      .ok (c, printed c (UInt32.ofNat c.tableCnt) ret)
  | .delTbl tblHdl env => do
      let (c, ret) ← ipaNatDelIpv4Tbl c tblHdl env
      .ok (c, { ret := ret })
  | .onHdl call => hdlStep c call

/-! ## What clients hold -/

/-- The rule handles of the table after one more call. -/
def Live.afterApi (L : Live) : ApiCall × ApiRet → Live
  | (.delTbl _ _, { ret := .ok _, dump := _ }) => fun _ => none
  | (.onHdl (.addRule _ clntRule _), { ret := .ok h, dump := _ }) =>
    update L h (some clntRule)
  | (.onHdl (.delRule _ ruleHdl _), { ret := .ok _, dump := _ }) =>
    update L ruleHdl.toNat none
  | _ => L

/-- The rules added to the table there is and not yet deleted, each under its handle. -/
def apiLive (tr : List (ApiCall × ApiRet)) : Live := tr.foldl Live.afterApi fun _ => none

@[simp] theorem apiLive_snoc (tr : List (ApiCall × ApiRet)) (cr : ApiCall × ApiRet) :
    apiLive (tr ++ [cr]) = (apiLive tr).afterApi cr := by
  unfold apiLive
  rw [List.foldl_append]
  rfl

/-- Once the memory of a table is allocated, nothing else fails: what fails later leaves a slot
    that is marked valid and leads nowhere. -/
def AddTblEnv.Orderly (env : AddTblEnv) : Prop :=
  env.allocMem = true → env.memOffset = 0 ∧ env.mallocMeta = true ∧ env.mallocRuleId = true ∧
    env.openNat = true ∧ env.mmap = true ∧ env.initCmd = true

/-- Tables come and go whole. Rule calls may be made with anything, and any write of theirs may
    fail. -/
def ApiCall.Orderly : ApiCall → Prop
  | .addTbl _ _ env => env.Orderly
  | .delTbl _ env => env.close = true ∧ env.delCmd = true
  | .onHdl _ => True

/-! ## Every state calls can reach -/

/-- The slot of the only table there can be. -/
def IpaNatCache.slot (c : IpaNatCache) : IpaNatIp4TableCache := c.ip4Tbl.get 0

namespace IpaNatIp4TableCache

/-- What holds of the slot: a handle is live exactly if its element of `rule_id_array` is in use,
    and the slot is idle or holds a table in order. -/
structure Kept (t : IpaNatIp4TableCache) (L : Live) : Prop where
  live : ∀ h, L h ≠ none ↔ 1 ≤ h ∧ h ≤ t.rows ∧ t.ruleIdArray.get (h - 1) ≠ 0
  table : t.Idle ∨ t.valid = true ∧ t.Sound

variable {t t' : IpaNatIp4TableCache} {L : Live}

theorem Kept.none_of_idle (K : t.Kept L) (hi : t.Idle) (h : Nat) : L h = none := by
  by_contra hne
  obtain ⟨h1, h2, h3⟩ := (K.live h).1 hne
  exact h3 (hi.unused _ (by omega))

theorem blank_idle : IpaNatIp4TableCache.blank.Idle :=
  ⟨rfl, rfl, rfl, fun _ h => absurd h (Nat.not_lt_zero _)⟩

theorem kept_of_unused (htable : t.Idle ∨ t.valid = true ∧ t.Sound)
    (hids : ∀ i < t.rows, t.ruleIdArray.get i = 0) : t.Kept fun _ => none where
  live h := ⟨fun hne => absurd rfl hne, fun ⟨h1, h2, h3⟩ => absurd (hids _ (by omega)) h3⟩
  table := htable

theorem Fresh.kept (hf : t.Fresh) : t.Kept fun _ => none := by
  refine kept_of_unused ?_ hf.ruleIdArray
  by_cases hT : t.tableEntries = 0
  · exact Or.inl (hf.idle hT)
  · exact Or.inr ⟨hf.valid, hf.layout hT, hf.bounded hT, hf.ids⟩

theorem Kept.step (K : t.Kept L) {call : RuleCall} {r : Except Errno Nat}
    (h : ruleStep t call = .ok (t', r)) :
    t'.Kept (L.after (call, r)) ∧ t'.valid = t.valid ∧ (t.valid = false → t' = t) := by
  rcases K.table with hi | ⟨hv, S⟩
  · obtain ⟨rfl, rfl⟩ := hi.step h
    refine ⟨?_, rfl, fun _ => rfl⟩
    cases call <;> exact K
  have hd := S.layout.step S.bounded.ruleLinks h
  have S' := S.step h
  refine ⟨⟨?_, Or.inr ⟨hd.valid.trans hv, S'⟩⟩, hd.valid, fun hv' => by rw [hv] at hv'; cases hv'⟩
  intro h'
  rw [hd.rows]
  rcases ruleStep_cases S.layout S.bounded.ruleLinks h with
    ⟨rfl, err, rfl⟩ | ⟨c, dma, e, p, ie, ip, rfl, hs, his, hcase⟩ |
      ⟨ruleHdl, x, rfl, hof, -, rfl, hdel⟩
  · cases call <;> exact K.live h'
  · rcases hcase with ⟨err, rfl, rfl, -⟩ | ⟨i, -, rfl, hi, -, -, rfl⟩
    · rw [ruleIdArray_placed]
      exact K.live h'
    · obtain ⟨hb, hb'⟩ := S.layout.dstBucket_range c
      have hid : ruleId t e ≠ 0 := by
        have hrange := hs.range hb hb'
        have hne : e ≠ t.tableEntries := by
          cases hs with
          | base => omega
          | expn => omega
        intro h0
        refine (rowOf_ruleId S.layout hrange.2).2.1 (by omega) hne ?_
        rw [h0]
      change update L (i + 1) (some c) h' ≠ none ↔ _
      rw [ruleIdArray_setRuleId, Region.get_set, ruleIdArray_placed, update_apply]
      by_cases hh : h' = i + 1
      · subst hh
        simp only [↓reduceIte, Nat.add_sub_cancel]
        exact ⟨fun _ => ⟨by omega, by omega, hid⟩, fun _ => by simp⟩
      · rw [if_neg hh, K.live]
        split
        · next heq => exact ⟨fun hl => absurd hl.1 (by omega), fun hl => absurd hl.1 (by omega)⟩
        · exact Iff.rfl
  · have hpos := hof.pos
    change update L ruleHdl.toNat none h' ≠ none ↔ _
    rw [hdel.ruleIdArray, Region.get_set, update_apply]
    by_cases hh : h' = ruleHdl.toNat
    · subst hh
      simp
    · rw [if_neg hh, K.live]
      split
      · next heq => exact ⟨fun hl => absurd hl.1 (by omega), fun hl => absurd hl.1 (by omega)⟩
      · exact Iff.rfl

end IpaNatIp4TableCache

open IpaNatIp4TableCache

/-- What holds of the cache between calls. -/
structure ApiInv (c : IpaNatCache) (L : Live) : Prop where
  size : c.ip4Tbl.size = ipaNatMaxIp4Tbls
  slot : c.slot.Kept L
  occupied : c.slot.valid = true → c.tableCnt = 1
  vacant : c.slot.valid = false → c.slot = .blank ∧ c.tableCnt = 0

theorem apiInv_init : ApiInv .init fun _ => none where
  size := rfl
  slot := kept_of_unused (Or.inl blank_idle) fun _ h => absurd h (Nat.not_lt_zero _)
  occupied h := by cases h
  vacant _ := ⟨rfl, rfl⟩

variable {c c' : IpaNatCache} {L : Live}

theorem ApiInv.step_rule (I : ApiInv c L) {t' : IpaNatIp4TableCache} {call : RuleCall}
    {r : Except Errno Nat} (h : ruleStep c.slot call = .ok (t', r)) :
    ApiInv { c with ip4Tbl := c.ip4Tbl.set 0 t' } (L.after (call, r)) := by
  obtain ⟨K, hv, hsame⟩ := I.slot.step h
  have hslot : IpaNatCache.slot { c with ip4Tbl := c.ip4Tbl.set 0 t' } = t' :=
    Region.get_set_self ..
  constructor
  · exact I.size
  · rw [hslot]
    exact K
  · rw [hslot, hv]
    exact I.occupied
  · rw [hslot]
    intro hv'
    rw [hv] at hv'
    rw [hsame hv']
    exact I.vacant hv'

/-! ### A call on the slot -/

theorem IpaNatCache.onTable_eq {α : Type} {index : Nat} (h : index < c.ip4Tbl.size)
    (f : IpaNatIp4TableCache → Except Fault (IpaNatIp4TableCache × α)) :
    c.onTable index f = (f (c.ip4Tbl.get index)).map fun r =>
      ({ c with ip4Tbl := c.ip4Tbl.set index r.1 }, r.2) := by
  unfold IpaNatCache.onTable
  rw [Region.read_ok h, ok_bind]
  cases f (c.ip4Tbl.get index) with
  | error e => rfl
  | ok r =>
    rw [ok_bind]
    dsimp only
    rw [Region.write_ok h]
    rfl

/-- The cache with the slot replaced. -/
def IpaNatCache.setSlot (c : IpaNatCache) (t : IpaNatIp4TableCache) : IpaNatCache :=
  { c with ip4Tbl := c.ip4Tbl.set 0 t }

@[simp] theorem slot_setSlot (t : IpaNatIp4TableCache) : (c.setSlot t).slot = t :=
  Region.get_set_self ..

theorem hdlStep_addRule (hsize : c.ip4Tbl.size = ipaNatMaxIp4Tbls) (clntRule : IpaNatIpv4Rule)
    (dma : AddDma) : hdlStep c (.addRule 1 clntRule dma) =
      (ipaNatiAddIpv4Rule c.slot clntRule dma).map fun r => (c.setSlot r.1,
        printed (c.setSlot r.1) 1 (r.2.mapError fun _ => .einval)) := by
  have hlt : ((1 : UInt32) - 1).toNat < c.ip4Tbl.size := by
    rw [hsize]
    decide
  unfold hdlStep ipaNatAddIpv4Rule
  dsimp only
  rw [if_neg (by decide), IpaNatCache.onTable_eq hlt]
  change _ = (ipaNatiAddIpv4Rule (c.ip4Tbl.get ((1 : UInt32) - 1).toNat) clntRule dma).map _
  cases ipaNatiAddIpv4Rule (c.ip4Tbl.get ((1 : UInt32) - 1).toNat) clntRule dma <;> rfl

theorem hdlStep_delRule (hsize : c.ip4Tbl.size = ipaNatMaxIp4Tbls) {tblHdl ruleHdl : UInt32}
    (htbl : tblHdl ≠ 0) (hrule : ruleHdl ≠ 0) (hindex : (tblHdl - 1).toUInt8.toNat = 0)
    (ok : Bool) : hdlStep c (.delRule tblHdl ruleHdl ok) =
      (ipaNatiDelIpv4Rule c.slot ruleHdl ok).map fun r => (c.setSlot r.1,
        printed (c.setSlot r.1) tblHdl (r.2.map fun _ => 0)) := by
  have hlt : (tblHdl - 1).toUInt8.toNat < c.ip4Tbl.size := by
    rw [hsize, hindex]
    decide
  unfold hdlStep ipaNatDelIpv4Rule
  dsimp only
  rw [if_neg (by rw [not_or]; exact ⟨htbl, hrule⟩), IpaNatCache.onTable_eq hlt, hindex]
  change _ = (ipaNatiDelIpv4Rule (c.ip4Tbl.get 0) ruleHdl ok).map _
  cases ipaNatiDelIpv4Rule (c.ip4Tbl.get 0) ruleHdl ok <;> rfl

theorem hdlStep_queryTimestamp (hsize : c.ip4Tbl.size = ipaNatMaxIp4Tbls) (ruleHdl : UInt32) :
    hdlStep c (.queryTimestamp 1 ruleHdl) =
      (ipaNatiQueryTimestamp c.slot ruleHdl).map fun ret => (c, { ret := ret }) := by
  have hlt : ((1 : UInt32) - 1).toUInt8.toNat < c.ip4Tbl.size := by
    rw [hsize]
    decide
  unfold hdlStep ipaNatQueryTimestamp
  dsimp only
  rw [if_neg (by decide), Region.read_ok hlt, ok_bind]
  change _ = (ipaNatiQueryTimestamp (c.ip4Tbl.get ((1 : UInt32) - 1).toUInt8.toNat) ruleHdl).map _
  cases ipaNatiQueryTimestamp (c.ip4Tbl.get ((1 : UInt32) - 1).toUInt8.toNat) ruleHdl <;> rfl

/-- The call is refused for its handles, before any access. -/
def HdlCall.Refused : HdlCall → Prop
  | .addRule tblHdl _ _ => tblHdl ≠ 1
  | .delRule tblHdl ruleHdl _ => tblHdl = 0 ∨ ruleHdl = 0
  | .queryTimestamp tblHdl _ => tblHdl ≠ 1

theorem tblHdl_refused {tblHdl : UInt32} (h : tblHdl ≠ 1) :
    tblHdl = 0 ∨ ipaNatMaxIp4Tbls < tblHdl.toNat := by
  by_cases h0 : tblHdl.toNat = 0
  · exact Or.inl (UInt32.toNat_inj.1 h0)
  · have h1 : tblHdl.toNat ≠ 1 := fun h1 => h (UInt32.toNat_inj.1 h1)
    refine Or.inr ?_
    change 1 < tblHdl.toNat
    omega

theorem hdlStep_refused {call : HdlCall} (h : call.Refused) :
    hdlStep c call = .ok (c, { ret := .error .einval }) := by
  cases call with
  | addRule tblHdl clntRule dma => exact if_pos (tblHdl_refused h)
  | delRule tblHdl ruleHdl ok => exact if_pos h
  | queryTimestamp tblHdl ruleHdl => exact if_pos (tblHdl_refused h)

theorem hdlStep_delRule_index (hsize : c.ip4Tbl.size = ipaNatMaxIp4Tbls) {tblHdl ruleHdl : UInt32}
    (htbl : tblHdl ≠ 0) (hrule : ruleHdl ≠ 0) (hindex : (tblHdl - 1).toUInt8.toNat ≠ 0)
    (ok : Bool) : hdlStep c (.delRule tblHdl ruleHdl ok) = .error .outOfBounds := by
  have hread : c.ip4Tbl.read (tblHdl - 1).toUInt8.toNat = .error .outOfBounds := by
    refine if_neg ?_
    rw [hsize]
    change ¬ _ < 1
    omega
  unfold hdlStep ipaNatDelIpv4Rule IpaNatCache.onTable
  dsimp only
  rw [if_neg (by rw [not_or]; exact ⟨htbl, hrule⟩), hread]
  rfl

theorem ApiInv.step_hdl (I : ApiInv c L) {call : HdlCall} {r : ApiRet}
    (h : hdlStep c call = .ok (c', r)) : ApiInv c' (L.afterApi (.onHdl call, r)) := by
  by_cases href : call.Refused
  · rw [hdlStep_refused href] at h
    cases h
    cases call <;> exact I
  cases call with
  | addRule tblHdl clntRule dma =>
    obtain rfl : tblHdl = 1 := not_not.1 href
    rw [hdlStep_addRule I.size] at h
    cases hadd : ipaNatiAddIpv4Rule c.slot clntRule dma with
    | error e => rw [hadd] at h; cases h
    | ok a =>
      obtain ⟨t', ret⟩ := a
      rw [hadd] at h
      cases h
      have I' : ApiInv (c.setSlot t') (L.after (.add clntRule dma, ret)) := I.step_rule hadd
      cases ret <;> exact I'
  | delRule tblHdl ruleHdl ok =>
    obtain ⟨htbl, hrule⟩ : tblHdl ≠ 0 ∧ ruleHdl ≠ 0 := not_or.1 href
    by_cases hindex : (tblHdl - 1).toUInt8.toNat = 0
    · rw [hdlStep_delRule I.size htbl hrule hindex] at h
      cases hdel : ipaNatiDelIpv4Rule c.slot ruleHdl ok with
      | error e => rw [hdel] at h; cases h
      | ok a =>
        obtain ⟨t', ret⟩ := a
        rw [hdel] at h
        cases h
        have hstep : ruleStep c.slot (.del ruleHdl ok) =
            .ok (t', ret.map fun _ => 0) := by
          unfold ruleStep
          dsimp only
          rw [hdel]
          rfl
        have I' := I.step_rule hstep
        cases ret <;> exact I'
    · rw [hdlStep_delRule_index I.size htbl hrule hindex] at h
      cases h
  | queryTimestamp tblHdl ruleHdl =>
    obtain rfl : tblHdl = 1 := not_not.1 href
    rw [hdlStep_queryTimestamp I.size] at h
    cases hq : ipaNatiQueryTimestamp c.slot ruleHdl with
    | error e => rw [hq] at h; cases h
    | ok ret =>
      rw [hq] at h
      cases h
      exact I

/-! ### Tables come and go -/

/-- An addition of a table either leaves the tables as they were or, with everything that it needs,
    sets up a fresh one. -/
theorem ipaNatAddIpv4Tbl_cases {publicAddr : UInt32} {numberOfEntries : UInt16} {env : AddTblEnv}
    (henv : env.Orderly) {ret : Except Errno Nat}
    (h : ipaNatAddIpv4Tbl c publicAddr numberOfEntries env = .ok (c', ret)) :
    (c'.ip4Tbl = c.ip4Tbl ∧ c'.tableCnt = c.tableCnt ∧ ∃ err, ret = .error err) ∨
      env.memOffset = 0 ∧ c.tableCnt < c.ip4Tbl.size ∧ ∃ tblHdl, ret = .ok tblHdl := by
  unfold ipaNatAddIpv4Tbl at h
  split at h
  · cases h
    exact Or.inl ⟨rfl, rfl, _, rfl⟩
  cases hsz : tableSizes numberOfEntries with
  | error e =>
    rw [hsz] at h
    cases h
    exact Or.inl ⟨rfl, rfl, _, rfl⟩
  | ok sz =>
    obtain ⟨tableEntries, expnTableEntries⟩ := sz
    rw [hsz] at h
    obtain ⟨⟨c₁, ret₁⟩, hadd, h⟩ := bind_eq_ok h
    obtain ⟨rfl, rfl⟩ := ok_pair h
    unfold ipaNatiAddIpv4Tbl at hadd
    split at hadd
    · obtain ⟨rfl, rfl⟩ := ok_pair hadd
      exact Or.inl ⟨rfl, rfl, _, rfl⟩
    split at hadd
    · obtain ⟨rfl, rfl⟩ := ok_pair hadd
      exact Or.inl ⟨rfl, rfl, _, rfl⟩
    next halloc =>
    obtain ⟨ho, -, -, hopen, -, hinit⟩ := henv (by simpa using halloc)
    obtain ⟨t, ht, hadd⟩ := bind_eq_ok hadd
    obtain ⟨hlt, rfl⟩ := Region.lt_of_read ht
    have hslot : (updateSlot (c.ip4Tbl.get c.tableCnt) publicAddr tableEntries expnTableEntries
        env).2 = .ok () := by
      unfold updateSlot
      dsimp only
      split
      · rfl
      · split
        · rfl
        · rw [if_pos hopen]
    generalize updateSlot (c.ip4Tbl.get c.tableCnt) publicAddr tableEntries expnTableEntries
      env = u at hadd hslot
    obtain ⟨t', u⟩ := u
    subst hslot
    obtain ⟨t₁, -, hadd⟩ := bind_eq_ok hadd
    obtain ⟨m, -, hadd⟩ := bind_eq_ok hadd
    rw [if_pos hinit] at hadd
    obtain ⟨-, rfl⟩ : _ = c₁ ∧ Except.ok _ = ret₁ := by simpa using hadd
    exact Or.inr ⟨ho, hlt, _, rfl⟩

theorem ApiInv.congr (I : ApiInv c L) (htbl : c'.ip4Tbl = c.ip4Tbl)
    (hcnt : c'.tableCnt = c.tableCnt) : ApiInv c' L := by
  have hslot : c'.slot = c.slot := by
    unfold IpaNatCache.slot
    rw [htbl]
  constructor
  · rw [htbl]; exact I.size
  · rw [hslot]; exact I.slot
  · rw [hslot, hcnt]; exact I.occupied
  · rw [hslot, hcnt]; exact I.vacant

/-- **Every call keeps the invariant.** -/
theorem ApiInv.step (I : ApiInv c L) {call : ApiCall} (hord : call.Orderly) {r : ApiRet}
    (h : apiStep c call = .ok (c', r)) : ApiInv c' (L.afterApi (call, r)) := by
  cases call with
  | onHdl call => exact I.step_hdl h
  | addTbl publicAddr numberOfEntries env =>
    obtain ⟨⟨c₁, ret⟩, hadd, h⟩ := bind_eq_ok h
    obtain ⟨rfl, rfl⟩ := ok_pair h
    rcases ipaNatAddIpv4Tbl_cases hord hadd with ⟨htbl, hcnt, err, rfl⟩ | ⟨ho, hlt, v, rfl⟩
    · exact I.congr htbl hcnt
    -- there is a slot for it, so there was no table
    have hv : c.slot.valid = false := by
      by_contra hv
      rw [I.occupied (by simpa using hv), I.size] at hlt
      exact absurd hlt (by decide)
    obtain ⟨hblank, hcnt⟩ := I.vacant hv
    obtain ⟨-, hcnt', hsize', hfresh, -⟩ := ipaNatAddIpv4Tbl_ok ⟨I.size, hblank, hcnt⟩ ho hadd
    have hL : L = fun _ => none := by
      funext h'
      refine I.slot.none_of_idle ?_ h'
      rw [hblank]
      exact blank_idle
    have hfresh : c₁.slot.Fresh := hfresh
    change ApiInv c₁ L
    rw [hL]
    refine ⟨hsize', hfresh.kept, fun _ => hcnt', fun hv' => ?_⟩
    rw [hfresh.valid] at hv'
    cases hv'
  | delTbl tblHdl env =>
    obtain ⟨⟨c₁, ret⟩, hdel, h⟩ := bind_eq_ok h
    cases h
    unfold ipaNatDelIpv4Tbl at hdel
    split at hdel
    · cases hdel
      exact I
    obtain ⟨t, ht, hdel⟩ := bind_eq_ok hdel
    obtain ⟨hlt, rfl⟩ := Region.lt_of_read ht
    have hindex : (tblHdl - 1).toUInt8.toNat = 0 := by
      rw [I.size] at hlt
      change _ < 1 at hlt
      omega
    rw [hindex] at hdel
    split at hdel
    · next hv =>
      have hord : env.close = true ∧ env.delCmd = true := hord
      rw [if_pos hord] at hdel
      obtain ⟨m, hm, hdel⟩ := bind_eq_ok hdel
      obtain ⟨-, rfl⟩ := Region.lt_of_write hm
      cases hdel
      change ApiInv _ fun _ => none
      refine ⟨I.size, ?_, ?_, ?_⟩
      · change ((c.ip4Tbl.set 0 _).get 0).Kept _
        rw [Region.get_set_self]
        exact kept_of_unused (Or.inl blank_idle) fun _ h => absurd h (Nat.not_lt_zero _)
      · change ((c.ip4Tbl.set 0 _).get 0).valid = true → _
        rw [Region.get_set_self]
        exact fun h => by cases h
      · refine fun _ => ⟨Region.get_set_self .., ?_⟩
        rw [I.occupied hv]
    · cases hdel
      exact I

end Nx508j.Ipanat
