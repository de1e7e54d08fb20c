import Nx508j.Ipanat.Fresh

/-! # Runs of rule calls on one table

Additions and deletions in any order, from a freshly added table. What a client may conclude from
the answers it got is the map `live`: which handles it holds, and for which rules. -/

namespace Nx508j.Ipanat

open Nx508j.Lib Function

/-- A call on the rules of a table, with what becomes of its DMA writes. -/
inductive RuleCall
  | add (clntRule : IpaNatIpv4Rule) (dma : AddDma)
  | del (ruleHdl : UInt32) (ok : Bool)

/-- A call and what it returns: the handle of an addition, 0 for a deletion. -/
def ruleStep (t : IpaNatIp4TableCache) :
    RuleCall → Except Fault (IpaNatIp4TableCache × Except Errno Nat)
  | .add clntRule dma => ipaNatiAddIpv4Rule t clntRule dma
  | .del ruleHdl ok => do
      let (t, ret) ← ipaNatiDelIpv4Rule t ruleHdl ok
      .ok (t, ret.map fun _ => 0)

/-- The live handles after one more call. -/
def Live.after (L : Live) : RuleCall × Except Errno Nat → Live
  | (.add clntRule _, .ok h) => update L h (some clntRule)
  | (.del ruleHdl _, .ok _) => update L ruleHdl.toNat none
  | _ => L

/-- The rules added and not yet deleted in a run, each under the handle it was given. -/
def live (tr : List (RuleCall × Except Errno Nat)) : Live :=
  tr.foldl Live.after fun _ => none

@[simp] theorem live_snoc (tr : List (RuleCall × Except Errno Nat))
    (cr : RuleCall × Except Errno Nat) : live (tr ++ [cr]) = (live tr).after cr := by
  unfold live
  rw [List.foldl_append]
  rfl

namespace RuleCall

/-- Every ioctl of the call succeeds. -/
def AllOk : RuleCall → Prop
  | .add _ dma => dma = .allOk
  | .del _ ok => ok = true

/-- A rule to add is for TCP or UDP. -/
def TcpUdp : RuleCall → Prop
  | .add clntRule _ => clntRule.protocol = ipprotoTcp ∨ clntRule.protocol = ipprotoUdp
  | .del _ _ => True

/-- A rule to add does not have the protocol number that marks dead heads. -/
def Unreserved : RuleCall → Prop
  | .add clntRule _ => clntRule.protocol ≠ ipaNatInvalidProtoFieldCmp
  | .del _ _ => True

theorem TcpUdp.unreserved {call : RuleCall} (h : call.TcpUdp) : call.Unreserved := by
  cases call with
  | add c dma =>
    intro he
    rcases h with h | h
    · rw [h] at he
      cases he
    · rw [h] at he
      cases he
  | del => trivial

end RuleCall

/-! ## One call -/

namespace IpaNatIp4TableCache

variable {t t' : IpaNatIp4TableCache} {call : RuleCall} {r : Except Errno Nat}

theorem HandleOf.toNat_eq (hl : t.Layout) {ruleHdl : UInt32} {x : Nat}
    (hof : t.HandleOf ruleHdl.toUInt16.toNat x) (hslot : (ruleHdl - 1).toNat < t.rows) :
    ruleHdl.toUInt16.toNat = ruleHdl.toNat ∧ (ruleHdl - 1).toNat = ruleHdl.toNat - 1 := by
  have hrows := hl.rows_lt
  have hpos := hof.pos
  have hmod : ruleHdl.toUInt16.toNat = ruleHdl.toNat % 65536 := UInt32.toNat_toUInt16 ruleHdl
  have hle : (1 : UInt32) ≤ ruleHdl := by
    rw [UInt32.le_iff_toNat_le]
    change 1 ≤ ruleHdl.toNat
    omega
  have hsub : (ruleHdl - 1).toNat = ruleHdl.toNat - 1 := UInt32.toNat_sub_of_le _ _ hle
  omega

/-- **What a call can do**: nothing, with an error; place a rule, which then has a handle unless the
    last write fails or there is none left; or delete the rule of its handle. -/
theorem ruleStep_cases (hl : t.Layout) (hlinks : t.RuleLinks)
    (h : ruleStep t call = .ok (t', r)) :
    (t' = t ∧ ∃ err, r = .error err) ∨
      (∃ c dma e p ie ip, call = .add c dma ∧ t.RuleSlot (t.dstBucket c) e p ∧
        t.IndxSlot (t.srcBucket c) ie ip ∧
        ((∃ err, r = .error err ∧ t' = t.placed c e p ie ip dma ∧
            (dma.enable = false ∨ ∀ i < t.rows, t.ruleIdArray.get i ≠ 0)) ∨
          ∃ i, dma.enable = true ∧ r = .ok (i + 1) ∧ i < t.rows ∧ t.ruleIdArray.get i = 0 ∧
            (∀ j < i, t.ruleIdArray.get j ≠ 0) ∧
            t' = (t.placed c e p ie ip dma).setRuleId i (ruleId t e))) ∨
      ∃ ruleHdl x, call = .del ruleHdl true ∧ t.HandleOf ruleHdl.toNat x ∧
        (t.rule x).enable = true ∧ r = .ok 0 ∧ t.Deleted t' x (ruleHdl.toNat - 1) := by
  cases call with
  | add c dma =>
    rcases ipaNatiAddIpv4Rule_cases hl h with ⟨rfl, rfl, -⟩ | ⟨e, p, ie, ip, hs, his, hcase⟩
    · exact Or.inl ⟨rfl, _, rfl⟩
    · refine Or.inr (Or.inl ⟨c, dma, e, p, ie, ip, rfl, hs, his, ?_⟩)
      rcases hcase with ⟨hen, rfl, rfl⟩ | ⟨-, rfl, rfl, hfull⟩ | ⟨hen, i, rfl, hi, hi0, hb, rfl⟩
      · exact Or.inl ⟨_, rfl, rfl, Or.inl hen⟩
      · exact Or.inl ⟨_, rfl, rfl, Or.inr hfull⟩
      · exact Or.inr ⟨i, hen, rfl, hi, hi0, hb, rfl⟩
  | del ruleHdl ok =>
    obtain ⟨⟨t₁, ret⟩, hdel, h⟩ := bind_eq_ok h
    cases h
    rcases ipaNatiDelIpv4Rule_cases hl hlinks hdel with
      ⟨rfl, rfl, -⟩ | ⟨x, hof, -, henable, -, -, rfl, rfl, hslot, hd⟩
    · exact Or.inl ⟨rfl, _, rfl⟩
    · obtain ⟨hlow, hsub⟩ := hof.toNat_eq hl hslot
      rw [hlow] at hof
      rw [hsub] at hd
      exact Or.inr (Or.inr ⟨ruleHdl, x, rfl, hof, henable, rfl, hd⟩)

theorem Layout.step (hl : t.Layout) (hlinks : t.RuleLinks)
    (h : ruleStep t call = .ok (t', r)) : SameDims t t' := by
  rcases ruleStep_cases hl hlinks h with
    ⟨rfl, -⟩ | ⟨c, dma, e, p, ie, ip, -, -, -, ⟨-, -, rfl, -⟩ | ⟨i, -, -, -, -, -, rfl⟩⟩ |
      ⟨hdl, x, -, -, -, -, hd⟩
  · exact .refl _
  · exact sameDims_placed c e p ie ip dma
  · exact (sameDims_placed c e p ie ip dma).trans (sameDims_setRuleId i _)
  · exact hd.dims

/-! ### What a call keeps -/

theorem RuleThreaded.step (R : t.RuleThreaded) (hl : t.Layout)
    (hen : ∀ c dma, call = .add c dma → dma.enable = true)
    (h : ruleStep t call = .ok (t', r)) : t'.RuleThreaded := by
  rcases ruleStep_cases hl R.links h with
    ⟨rfl, -⟩ | ⟨c, dma, e, p, ie, ip, rfl, hs, -, hcase⟩ | ⟨hdl, x, -, -, -, -, hd⟩
  · exact R
  · have hR : (t.placed c e p ie ip dma).RuleThreaded := R.placed hl hs (hen c dma rfl)
    rcases hcase with ⟨-, -, rfl, -⟩ | ⟨i, -, -, -, -, -, rfl⟩
    · exact hR
    · exact hR
  · exact R.deleted hl hd

theorem IndxThreaded.step (X : t.IndxThreaded) (hs : t.Small) (hlinks : t.RuleLinks)
    (h : ruleStep t call = .ok (t', r)) : t'.IndxThreaded := by
  rcases ruleStep_cases hs.layout hlinks h with
    ⟨rfl, -⟩ | ⟨c, dma, e, p, ie, ip, rfl, hslot, hislot, hcase⟩ | ⟨hdl, x, -, -, -, -, hd⟩
  · exact X
  · obtain ⟨hb, hb'⟩ := hs.layout.dstBucket_range c
    have he := (hslot.range hb hb').1
    have hX : (t.placed c e p ie ip dma).IndxThreaded := X.placed hs hislot (by omega)
    rcases hcase with ⟨-, -, rfl, -⟩ | ⟨i, -, -, -, -, -, rfl⟩
    · exact hX
    · exact hX
  · exact X.deleted hs.layout hd

theorem Bounded.step (B : t.Bounded) (hl : t.Layout)
    (h : ruleStep t call = .ok (t', r)) : t'.Bounded := by
  rcases ruleStep_cases hl B.ruleLinks h with
    ⟨rfl, -⟩ | ⟨c, dma, e, p, ie, ip, -, hs, his, hcase⟩ | ⟨hdl, x, -, -, -, -, hd⟩
  · exact B
  · have hB := B.placed hl dma hs his
    rcases hcase with ⟨-, -, rfl, -⟩ | ⟨i, -, -, -, -, -, rfl⟩
    · exact hB
    · exact hB.setRuleId i _
  · exact B.deleted hl hd

theorem Ids.step (I : t.Ids) (hl : t.Layout) (hlinks : t.RuleLinks)
    (h : ruleStep t call = .ok (t', r)) : t'.Ids := by
  rcases ruleStep_cases hl hlinks h with
    ⟨rfl, -⟩ | ⟨c, dma, e, p, ie, ip, -, hs, his, hcase⟩ | ⟨hdl, x, -, -, -, -, hd⟩
  · exact I
  · rcases hcase with ⟨-, -, rfl, -⟩ | ⟨i, -, -, -, -, -, rfl⟩
    · exact I.placed_noHdl dma
    · exact I.placed hl dma hs
  · exact I.deleted hd

variable {L : Live} {age owner indxAge indxOwner : Nat → Nat}

theorem HdlInv.step (H : t.HdlInv L) (hl : t.Layout) (R : t.RuleThreaded) (hok : call.AllOk)
    (hp : call.Unreserved) (h : ruleStep t call = .ok (t', r)) : t'.HdlInv (L.after (call, r)) := by
  rcases ruleStep_cases hl R.links h with
    ⟨rfl, err, rfl⟩ | ⟨c, dma, e, p, ie, ip, rfl, hs, -, hcase⟩ | ⟨hdl, x, rfl, hof, -, rfl, hd⟩
  · cases call <;> exact H
  · obtain rfl : dma = .allOk := hok
    rcases hcase with ⟨err, -, -, hen | hfull⟩ | ⟨i, -, rfl, hi, hi0, hb, rfl⟩
    · cases hen
    · have := H.slot_lt hl le_rfl hfull
      omega
    · exact H.placed hl R hs rfl hp hi hi0 hb
  · obtain ⟨rfl, c, hc⟩ := H.live_of_handleOf hof
    exact H.deleted hc hd

/-- **A call whose writes succeed keeps the invariant.** -/
theorem NatInv.step (I : t.NatInv L age owner indxAge indxOwner) (hok : call.AllOk)
    (hp : call.Unreserved) (h : ruleStep t call = .ok (t', r)) :
    ∃ age' owner' indxAge' indxOwner',
      t'.NatInv (L.after (call, r)) age' owner' indxAge' indxOwner' := by
  have hl := I.small.layout
  rcases ruleStep_cases hl I.ruleThreaded.links h with
    ⟨rfl, err, rfl⟩ | ⟨c, dma, e, p, ie, ip, rfl, hs, his, hcase⟩ | ⟨hdl, x, rfl, hof, -, rfl, hd⟩
  · refine ⟨age, owner, indxAge, indxOwner, ?_⟩
    cases call <;> exact I
  · obtain rfl : dma = .allOk := hok
    rcases hcase with ⟨err, -, -, hen | hfull⟩ | ⟨i, -, rfl, hi, hi0, hb, rfl⟩
    · cases hen
    · have := I.hdl.slot_lt hl le_rfl hfull
      omega
    · exact I.placed hs his hp hi hi0 hb
  · obtain ⟨rfl, c, hc⟩ := I.hdl.live_of_handleOf hof
    exact ⟨_, _, _, _, I.deleted hc hd⟩

/-! ### A table without base rows -/

/-- A slot whose base array is empty and that has given out no handle: it holds no table, or one
    that was asked to be too large. -/
structure Idle (t : IpaNatIp4TableCache) : Prop where
  tableEntries : t.tableEntries = 0
  ipv4Rules : t.ipv4Rules.size = 0
  ruleIdArray : t.ruleIdArray.size = t.rows
  unused : ∀ i < t.rows, t.ruleIdArray.get i = 0

theorem Fresh.idle (hf : t.Fresh) (hT : t.tableEntries = 0) : t.Idle :=
  ⟨hT, hf.sized.ipv4Rules.trans hT, hf.sized.ruleIdArray, hf.ruleIdArray⟩

namespace Idle

variable (hi : t.Idle)

include hi

theorem add (c : IpaNatIpv4Rule) (dma : AddDma) :
    ipaNatiAddIpv4Rule t c dma = .error .outOfBounds := by
  have hread : t.ipv4Rules.read (t.dstBucket c) = .error .outOfBounds := by
    unfold Region.read
    rw [hi.ipv4Rules, if_neg (Nat.not_lt_zero _)]
  unfold ipaNatiAddIpv4Rule ipaNatiGenerateRule ipaNatiGenerateTblRule
  dsimp only
  rw [hread]
  rfl

theorem parse (h : Nat) : ipaNatiParseIpv4RuleHdl t h =
    if h = 0 ∧ t.rows ≠ 0 then .error .outOfBounds else .ok (false, 0) := by
  unfold ipaNatiParseIpv4RuleHdl
  split
  · next hle => rw [if_neg (by omega)]
  · next hlt =>
    split
    · next h0 => rw [if_pos (by omega)]
    · next h0 =>
      rw [if_neg (by omega), Region.read_ok (by rw [hi.ruleIdArray]; omega), ok_bind,
        hi.unused _ (by omega)]
      rfl

theorem del (ruleHdl : UInt32) (ok : Bool) : ipaNatiDelIpv4Rule t ruleHdl ok =
    if ruleHdl.toUInt16.toNat = 0 ∧ t.rows ≠ 0 then .error .outOfBounds
    else .ok (t, .error .einval) := by
  unfold ipaNatiDelIpv4Rule
  rw [hi.parse]
  split <;> rfl

theorem step (h : ruleStep t call = .ok (t', r)) : t' = t ∧ r = .error .einval := by
  cases call with
  | add c dma =>
    have hadd : ipaNatiAddIpv4Rule t c dma = .ok (t', r) := h
    rw [hi.add] at hadd
    cases hadd
  | del ruleHdl ok =>
    obtain ⟨⟨t₁, ret⟩, hdel, h⟩ := bind_eq_ok h
    rw [hi.del] at hdel
    split at hdel
    · cases hdel
    · cases hdel
      cases h
      exact ⟨rfl, rfl⟩

end Idle

/-! ### Calls return -/

theorem ruleStep_returns (hl : t.Layout) (B : t.Bounded) (I : t.Ids) (R : t.RuleThreaded)
    (X : t.IndxThreaded)
    (hhdl : ∀ ruleHdl ok, call = .del ruleHdl ok → 1 ≤ ruleHdl.toNat ∧ ruleHdl.toNat < 65536) :
    ∃ t' r, ruleStep t call = .ok (t', r) := by
  cases call with
  | add c dma =>
    obtain ⟨⟨t', r⟩, h, -⟩ := (ipaNatiAddIpv4Rule_ends hl B (Walks.of_threaded hl R X c) dma).exists_ok
    exact ⟨t', r, h⟩
  | del ruleHdl ok =>
    obtain ⟨hpos, hlt⟩ := hhdl ruleHdl ok rfl
    have hmod : ruleHdl.toUInt16.toNat = ruleHdl.toNat := by
      rw [UInt32.toNat_toUInt16]
      exact Nat.mod_eq_of_lt hlt
    obtain ⟨⟨t', r⟩, h, -⟩ := (ipaNatiDelIpv4Rule_ends (F := fun _ => False) hl B I
      (by rw [hmod]; omega) (Or.inl fun _ => hmod.symm)).exists_ok
    refine ⟨t', r.map fun _ => 0, ?_⟩
    unfold ruleStep
    dsimp only
    rw [h]
    rfl

end IpaNatIp4TableCache

end Nx508j.Ipanat
