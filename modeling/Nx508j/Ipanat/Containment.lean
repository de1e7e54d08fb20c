import Nx508j.Ipanat.Api

/-! # Calls with any handle

The handles of a call are checked in part: the table handle of a deletion is narrowed to 8 bits, its
rule handle to 16 bits for the parser but not for the slot it clears, and a handle that stands for no
row is refused by a deletion and read as row 0 by a query. Which calls stay inside the arrays, and
are refused if their handles are not live, is decided here for every state that calls can reach. -/

namespace Nx508j.Ipanat

open Nx508j.Lib

/-! ## What a call should do -/

/-- The handle is one of a table. -/
def IpaNatCache.TableLive (c : IpaNatCache) (tblHdl : UInt32) : Prop :=
  1 ≤ tblHdl.toNat ∧ tblHdl.toNat ≤ ipaNatMaxIp4Tbls ∧
    (c.ip4Tbl.get (tblHdl.toNat - 1)).valid = true

/-- The handles of the call are live, and a deletion clears the slot that its handle was parsed
    from. -/
def HdlCall.HandlesLive (c : IpaNatCache) (L : Live) : HdlCall → Prop
  | .addRule tblHdl _ _ => c.TableLive tblHdl
  | .delRule tblHdl ruleHdl _ => c.TableLive tblHdl ∧ L ruleHdl.toNat ≠ none ∧
      (ruleHdl - 1).toNat = ruleHdl.toUInt16.toNat - 1
  | .queryTimestamp tblHdl ruleHdl => c.TableLive tblHdl ∧ L ruleHdl.toNat ≠ none

/-- The call makes no access past an array, and goes through only with handles that are live. -/
structure HdlCall.Contained (c : IpaNatCache) (L : Live) (call : HdlCall) : Prop where
  inBounds : hdlStep c call ≠ .error .outOfBounds
  live : ∀ c' r v, hdlStep c call = .ok (c', r) → r.ret = .ok v → call.HandlesLive c L

/-- Nor does the printing of the table that it ends with. -/
structure HdlCall.Safe (c : IpaNatCache) (L : Live) (call : HdlCall) : Prop where
  contained : call.Contained c L
  dump : ∀ c' r, hdlStep c call = .ok (c', r) → r.dump ≠ .error .outOfBounds

/-! ## When it does -/

/-- An addition goes through: there is room, the rule is enabled, and a handle is left for it. -/
def IpaNatIp4TableCache.Adds (t : IpaNatIp4TableCache) (c : IpaNatIpv4Rule) (dma : AddDma) : Prop :=
  t.tableEntries ≠ 0 ∧ t.HasRoom c ∧ dma.enable = true ∧ ∃ i < t.rows, t.ruleIdArray.get i = 0

/-- The condition for a call to be contained. -/
def HdlCall.Proper (c : IpaNatCache) (L : Live) : HdlCall → Prop
  | .addRule tblHdl _ _ => tblHdl = 1 → c.slot.tableEntries ≠ 0
  | .delRule tblHdl ruleHdl ok => tblHdl ≠ 0 → ruleHdl ≠ 0 →
      (tblHdl - 1).toUInt8.toNat = 0 ∧ (c.slot.rows ≠ 0 → ruleHdl.toUInt16.toNat ≠ 0) ∧
        (c.slot.Deletes ruleHdl.toUInt16.toNat ok →
          tblHdl = 1 ∧ ruleHdl.toNat = ruleHdl.toUInt16.toNat)
  | .queryTimestamp tblHdl ruleHdl =>
    tblHdl = 1 → c.slot.valid = true → L ruleHdl.toNat ≠ none

/-- The condition for the table to be printed. -/
def HdlCall.Prints (c : IpaNatCache) : HdlCall → Prop
  | .addRule tblHdl clntRule dma => tblHdl = 1 ∧ c.slot.Adds clntRule dma
  | .delRule tblHdl ruleHdl ok => tblHdl = 1 ∧ c.slot.Deletes ruleHdl.toUInt16.toNat ok
  | .queryTimestamp _ _ => False

open IpaNatIp4TableCache

variable {c c' : IpaNatCache} {L : Live}

/-! ## What the calls come to -/

section Outcome

variable {call : HdlCall} {r : ApiRet}

theorem not_contained (h : hdlStep c call = .error .outOfBounds) : ¬ call.Contained c L :=
  fun hc => hc.inBounds h

theorem contained_iff (h : hdlStep c call = .ok (c', r)) :
    call.Contained c L ↔ ∀ v, r.ret = .ok v → call.HandlesLive c L := by
  constructor
  · exact fun hc v hv => hc.live _ _ v h hv
  · intro hl
    refine ⟨by rw [h]; simp, fun c₁ r₁ v h₁ hv => ?_⟩
    obtain ⟨rfl, rfl⟩ : c' = c₁ ∧ r = r₁ := by simpa [h] using h₁
    exact hl v hv

theorem step_safe_iff (h : hdlStep c call = .ok (c', r)) :
    call.Safe c L ↔ call.Contained c L ∧ r.dump ≠ .error .outOfBounds := by
  constructor
  · exact fun hs => ⟨hs.contained, hs.dump _ _ h⟩
  · rintro ⟨hc, hd⟩
    refine ⟨hc, fun c₁ r₁ h₁ => ?_⟩
    obtain ⟨rfl, rfl⟩ : c' = c₁ ∧ r = r₁ := by simpa [h] using h₁
    exact hd

/-- Both properties hold of the call under just the conditions given for them. -/
def HdlCall.Decided (c : IpaNatCache) (L : Live) (call : HdlCall) : Prop :=
  (call.Contained c L ↔ call.Proper c L) ∧ (call.Safe c L ↔ call.Proper c L ∧ ¬ call.Prints c)

theorem decided_of_fault (h : hdlStep c call = .error .outOfBounds) (hP : ¬ call.Proper c L) :
    call.Decided c L :=
  ⟨iff_of_false (not_contained h) hP,
    iff_of_false (fun hs => not_contained h hs.contained) fun hP' => hP hP'.1⟩

theorem decided_of_error {err : Errno} (h : hdlStep c call = .ok (c', { ret := .error err }))
    (hP : call.Proper c L) (hN : ¬ call.Prints c) : call.Decided c L := by
  have hc : call.Contained c L := (contained_iff h).2 fun v hv => by cases hv
  exact ⟨iff_of_true hc hP, iff_of_true ((step_safe_iff h).2 ⟨hc, by simp⟩) ⟨hP, hN⟩⟩

end Outcome

theorem forRows_ok {n : Nat} {f : Nat → Except Fault Unit} (hf : ∀ i < n, f i = .ok ()) :
    forRows n f = .ok () := by
  unfold forRows
  induction n with
  | zero => rfl
  | succ n ih =>
    rw [List.range_succ, List.foldlM_append, ih fun i hi => hf i (by omega)]
    simp [hf n (Nat.lt_succ_self n)]

theorem dump_outOfBounds (hsize : c.ip4Tbl.size = ipaNatMaxIp4Tbls) (hl : c.slot.Layout) :
    ipaNatDumpIpv4Table c 1 = .error .outOfBounds := by
  have hread : c.ip4Tbl.read ((1 : UInt32) - 1).toNat = .ok c.slot :=
    Region.read_ok (by rw [hsize]; decide)
  unfold ipaNatDumpIpv4Table
  rw [if_neg (by decide), hread, ok_bind, forRows_ok, ok_bind]
  · have hlast : forRows (c.slot.expnTableEntries + 1) (fun cnt => do
        let _ ← c.slot.ipv4ExpnRules.read cnt
        .ok ()) = .error .outOfBounds := by
      have hbefore : forRows c.slot.expnTableEntries (fun cnt => do
          let _ ← c.slot.ipv4ExpnRules.read cnt
          .ok ()) = .ok () := by
        refine forRows_ok fun i hi => ?_
        rw [Region.read_ok (by rwa [hl.sized.ipv4ExpnRules])]
        rfl
      have hpast : c.slot.ipv4ExpnRules.read c.slot.expnTableEntries = .error .outOfBounds := by
        unfold Region.read
        rw [hl.sized.ipv4ExpnRules, if_neg (Nat.lt_irrefl _)]
      unfold forRows at hbefore ⊢
      rw [List.range_succ, List.foldlM_append, hbefore]
      simp [hpast]
    rw [hlast]
    rfl
  · intro i hi
    rw [Region.read_ok (by rwa [hl.sized.ipv4Rules])]
    rfl

theorem tableLive_iff {tblHdl : UInt32} (hv : c.slot.valid = true) :
    c.TableLive tblHdl ↔ tblHdl = 1 := by
  constructor
  · rintro ⟨h1, h2, -⟩
    by_contra hne
    rcases tblHdl_refused hne with rfl | h3
    · cases h1
    · omega
  · rintro rfl
    exact ⟨by decide, by decide, hv⟩

namespace ApiInv

variable (I : ApiInv c L)

include I

theorem decided_addRule (tblHdl : UInt32) (clntRule : IpaNatIpv4Rule) (dma : AddDma) :
    (HdlCall.addRule tblHdl clntRule dma).Decided c L := by
  by_cases h1 : tblHdl = 1
  swap
  · have href : (HdlCall.addRule tblHdl clntRule dma).Refused := h1
    exact decided_of_error (hdlStep_refused href) (fun h => absurd h h1) fun h => h1 h.1
  subst h1
  have hstep := hdlStep_addRule I.size clntRule dma
  rcases I.slot.table with hi | ⟨hv, S⟩
  · rw [hi.add] at hstep
    exact decided_of_fault hstep fun h => h rfl hi.tableEntries
  have hl := S.layout
  have hT : c.slot.tableEntries ≠ 0 := by have := hl.two_le; omega
  have hP : (HdlCall.addRule 1 clntRule dma).Proper c L := fun _ => hT
  have hbounds : hdlStep c (.addRule 1 clntRule dma) ≠ .error .outOfBounds := by
    have hW := Walks.of_bounded (F := fun f => f = .diverges) hl S.bounded clntRule rfl
    have hne := (ipaNatiAddIpv4Rule_ends hl S.bounded hW dma).ne_error
      (f := .outOfBounds) (by simp)
    rw [hstep]
    cases hadd : ipaNatiAddIpv4Rule c.slot clntRule dma with
    | error e =>
      intro he
      obtain rfl : e = .outOfBounds := Except.error.inj he
      exact hne hadd
    | ok r => simp [Except.map]
  have hC : (HdlCall.addRule 1 clntRule dma).Contained c L :=
    ⟨hbounds, fun _ _ _ _ _ => (tableLive_iff hv).2 rfl⟩
  refine ⟨iff_of_true hC hP, ?_⟩
  constructor
  · rintro hs
    refine ⟨hP, ?_⟩
    rintro ⟨-, -, ⟨⟨e, p, hslot⟩, ie, ip, hislot⟩, hen, i, hi, hi0⟩
    -- with rows found the walks have ended, so the addition returns
    obtain ⟨⟨t', ret⟩, hadd, -⟩ := (ipaNatiAddIpv4Rule_ends (F := fun _ => False) hl S.bounded
      (Walks.of_slots hslot hislot) dma).exists_ok
    have hrule : ruleStep c.slot (.add clntRule dma) = .ok (t', ret) := hadd
    have hd := S.layout.step S.bounded.ruleLinks hrule
    rcases ipaNatiAddIpv4Rule_cases hl hadd with
      ⟨-, -, hgen⟩ | ⟨e, p, ie, ip, -, -, ⟨hen', -⟩ | ⟨-, -, -, hfull⟩ | ⟨-, j, rfl, -⟩⟩
    · exact HasRoom.generated hl ⟨⟨e, p, hslot⟩, ie, ip, hislot⟩ hgen
    · rw [hen] at hen'
      cases hen'
    · exact hfull i hi hi0
    · rw [hadd] at hstep
      refine hs.dump _ _ hstep ?_
      have hl' : (c.setSlot t').slot.Layout := by
        rw [slot_setSlot]
        exact hd.layout hl
      exact dump_outOfBounds I.size hl'
  · rintro ⟨-, hnot⟩
    refine ⟨hC, fun c' r hr => ?_⟩
    rw [hstep] at hr
    cases hadd : ipaNatiAddIpv4Rule c.slot clntRule dma with
    | error e => rw [hadd] at hr; cases hr
    | ok a =>
      obtain ⟨t', ret⟩ := a
      rw [hadd] at hr
      obtain ⟨-, rfl⟩ : _ = c' ∧ _ = r := by simpa [Except.map] using hr
      rcases ipaNatiAddIpv4Rule_cases hl hadd with
        ⟨-, rfl, -⟩ | ⟨e, p, ie, ip, hslot, hislot, ⟨-, rfl, -⟩ | ⟨-, rfl, -, -⟩ |
          ⟨hen, j, -, hj, hj0, -⟩⟩
      · simp [printed, Except.mapError]
      · simp [printed, Except.mapError]
      · simp [printed, Except.mapError]
      · exact absurd ⟨rfl, hT, ⟨⟨e, p, hslot⟩, ie, ip, hislot⟩, hen, j, hj, hj0⟩ hnot

theorem decided_deletes (S : c.slot.Sound) (hv : c.slot.valid = true) {tblHdl ruleHdl : UInt32}
    {ok : Bool} (htbl : tblHdl ≠ 0) (hrule : ruleHdl ≠ 0)
    (hindex : (tblHdl - 1).toUInt8.toNat = 0)
    (hdel : c.slot.Deletes ruleHdl.toUInt16.toNat ok)
    (hlow : ruleHdl.toNat = ruleHdl.toUInt16.toNat) :
    (HdlCall.delRule tblHdl ruleHdl ok).Decided c L := by
  have hl := S.layout
  have hstep := hdlStep_delRule I.size htbl hrule hindex ok
  obtain ⟨hok, x, hof, hen⟩ := hdel
  have hpos := hof.pos
  have hlt := hof.lt
  have hends : Ends (fun _ => False) (ipaNatiDelIpv4Rule c.slot ruleHdl ok) fun _ => True :=
    ipaNatiDelIpv4Rule_ends hl S.bounded S.ids (by omega) (Or.inl fun _ => hlow)
  obtain ⟨⟨t', ret⟩, hret, -⟩ := hends.exists_ok
  rw [hret] at hstep
  rcases ipaNatiDelIpv4Rule_cases hl S.bounded.ruleLinks hret with
    ⟨-, -, hno⟩ | ⟨y, -, -, -, -, -, -, rfl, -, hd⟩
  · rcases hno with hno | hno | hno
    · rw [hok] at hno
      cases hno
    · rw [hv] at hno
      cases hno
    · rw [hno x hof] at hen
      cases hen
  have hlive : L ruleHdl.toNat ≠ none :=
    (I.slot.live _).2 ⟨by omega, by omega, fun h0 => hof.ne_zero (by rw [← hlow, h0])⟩
  have hle : (1 : UInt32) ≤ ruleHdl := by
    rw [UInt32.le_iff_toNat_le]
    change 1 ≤ ruleHdl.toNat
    omega
  have hsub : (ruleHdl - 1).toNat = ruleHdl.toUInt16.toNat - 1 := by
    rw [UInt32.toNat_sub_of_le _ _ hle, hlow]
    rfl
  have hP : (HdlCall.delRule tblHdl ruleHdl ok).Proper c L ↔ tblHdl = 1 :=
    ⟨fun h => ((h htbl hrule).2.2 ⟨hok, x, hof, hen⟩).1,
      fun h _ _ => ⟨hindex, fun _ => by omega, fun _ => ⟨h, hlow⟩⟩⟩
  have hC : (HdlCall.delRule tblHdl ruleHdl ok).Contained c L ↔ tblHdl = 1 := by
    rw [contained_iff hstep, ← tableLive_iff hv]
    exact ⟨fun h => (h 0 rfl).1, fun h _ _ => ⟨h, hlive, hsub⟩⟩
  refine ⟨hC.trans hP.symm, ?_⟩
  rw [step_safe_iff hstep, hC, hP]
  constructor
  · rintro ⟨rfl, hdump⟩
    refine absurd ?_ hdump
    have hl' : (c.setSlot t').slot.Layout := by
      rw [slot_setSlot]
      exact hd.dims.layout hl
    exact dump_outOfBounds I.size hl'
  · rintro ⟨rfl, hN⟩
    exact absurd ⟨rfl, hok, x, hof, hen⟩ hN

theorem decided_delRule (tblHdl ruleHdl : UInt32) (ok : Bool) :
    (HdlCall.delRule tblHdl ruleHdl ok).Decided c L := by
  by_cases href : tblHdl = 0 ∨ ruleHdl = 0
  · have hcall : (HdlCall.delRule tblHdl ruleHdl ok).Refused := href
    refine decided_of_error (hdlStep_refused hcall) ?_ ?_
    · exact fun h0 h1 => absurd href (not_or.2 ⟨h0, h1⟩)
    · rintro ⟨rfl, -, x, hof, -⟩
      rcases href with h0 | rfl
      · cases h0
      · exact absurd hof.pos (by decide)
  obtain ⟨htbl, hrule⟩ := not_or.1 href
  by_cases hindex : (tblHdl - 1).toUInt8.toNat = 0
  swap
  · exact decided_of_fault (hdlStep_delRule_index I.size htbl hrule hindex ok)
      fun h => hindex (h htbl hrule).1
  have hstep := hdlStep_delRule I.size htbl hrule hindex ok
  rcases I.slot.table with hi | ⟨hv, S⟩
  · rw [hi.del] at hstep
    split at hstep
    · next h0 => exact decided_of_fault hstep fun h => (h htbl hrule).2.1 h0.2 h0.1
    · next h0 =>
      have hno : ¬ c.slot.Deletes ruleHdl.toUInt16.toNat ok := by
        rintro ⟨-, x, hof, -⟩
        have hpos := hof.pos
        have hlt := hof.lt
        exact hof.ne_zero (by rw [hi.unused _ (by omega)])
      exact decided_of_error hstep
        (fun _ _ => ⟨hindex, fun hr h => h0 ⟨h, hr⟩, fun h => absurd h hno⟩) fun h => hno h.2
  have hl := S.layout
  have hrows := hl.rows_pos
  by_cases h0 : ruleHdl.toUInt16.toNat = 0
  · -- the element before `rule_id_array`
    have hparse : ipaNatiDelIpv4Rule c.slot ruleHdl ok = .error .outOfBounds := by
      unfold ipaNatiDelIpv4Rule ipaNatiParseIpv4RuleHdl
      rw [if_neg (by omega), if_pos h0]
      rfl
    rw [hparse] at hstep
    exact decided_of_fault hstep fun h => (h htbl hrule).2.1 (by omega) h0
  by_cases hdel : c.slot.Deletes ruleHdl.toUInt16.toNat ok
  · by_cases hlow : ruleHdl.toNat = ruleHdl.toUInt16.toNat
    · exact I.decided_deletes S hv htbl hrule hindex hdel hlow
    · -- the rule is gone when its slot is looked for past the array
      refine decided_of_fault ?_ fun h => hlow ((h htbl hrule).2.2 hdel).2
      have hends : Ends (fun f => f = .outOfBounds) (ipaNatiDelIpv4Rule c.slot ruleHdl ok)
          fun _ => True :=
        ipaNatiDelIpv4Rule_ends hl S.bounded S.ids h0 (Or.inr rfl)
      cases hret : ipaNatiDelIpv4Rule c.slot ruleHdl ok with
      | error f =>
        rw [hret] at hends
        obtain rfl : f = .outOfBounds := hends
        rw [hstep, hret]
        rfl
      | ok r =>
        obtain ⟨t', ret⟩ := r
        obtain ⟨hok, x, hof, hen⟩ := hdel
        rcases ipaNatiDelIpv4Rule_cases hl S.bounded.ruleLinks hret with
          ⟨-, -, hno⟩ | ⟨y, hof', -, -, -, -, -, -, hslot, -⟩
        · rcases hno with hno | hno | hno
          · rw [hok] at hno
            cases hno
          · rw [hv] at hno
            cases hno
          · rw [hno x hof] at hen
            cases hen
        · exact absurd (hof'.toNat_eq hl hslot).1.symm hlow
  · have hends : Ends (fun _ => False) (ipaNatiDelIpv4Rule c.slot ruleHdl ok) fun _ => True :=
      ipaNatiDelIpv4Rule_ends hl S.bounded S.ids h0 (Or.inl fun h => absurd h hdel)
    obtain ⟨⟨t', ret⟩, hret, -⟩ := hends.exists_ok
    rw [hret] at hstep
    rcases ipaNatiDelIpv4Rule_cases hl S.bounded.ruleLinks hret with
      ⟨-, rfl, -⟩ | ⟨y, hof, -, hen, -, -, hok, -⟩
    · exact decided_of_error hstep (fun _ _ => ⟨hindex, fun _ => h0, fun h => absurd h hdel⟩)
        fun h => hdel h.2
    · exact absurd ⟨hok, y, hof, hen⟩ hdel

theorem queryTimestamp_ok (S : c.slot.Sound) (hv : c.slot.valid = true) {ruleHdl : UInt32}
    (h0 : ruleHdl.toUInt16.toNat ≠ 0) :
    ∃ v, hdlStep c (.queryTimestamp 1 ruleHdl) = .ok (c, { ret := .ok v }) := by
  have hl := S.layout
  have htwo := hl.two_le
  have hrow : ∃ b e, ipaNatiParseIpv4RuleHdl c.slot ruleHdl.toUInt16.toNat = .ok (b, e) ∧
      ∃ row, (c.slot.ruleTbl b).read e = .ok row := by
    have hzero : (c.slot.ruleTbl false).read 0 = .ok (c.slot.ipv4Rules.get 0) :=
      Region.read_ok (by
        change 0 < c.slot.ipv4Rules.size
        rw [hl.sized.ipv4Rules]
        omega)
    unfold ipaNatiParseIpv4RuleHdl
    split
    · exact ⟨_, _, rfl, _, hzero⟩
    · next hlt =>
      rw [Region.read_ok (by rw [hl.sized.ruleIdArray]; omega), ok_bind]
      refine ⟨_, _, rfl, ?_⟩
      by_cases hid : c.slot.ruleIdArray.get (ruleHdl.toUInt16.toNat - 1) = 0
      · rw [hid]
        exact ⟨_, hzero⟩
      · obtain ⟨x, hof⟩ := (S.ids.handleOf_iff hl (by omega) (by omega)).2 hid
        obtain ⟨hx, hbase⟩ := S.ids.row hl hof
        exact ⟨_, ruleTbl_read_ok hl.sized hbase hof.row hx⟩
  obtain ⟨b, e, hparse, row, hrow⟩ := hrow
  refine ⟨row.timeStamp, ?_⟩
  rw [hdlStep_queryTimestamp I.size]
  unfold ipaNatiQueryTimestamp
  rw [if_pos hv, hparse, ok_bind]
  dsimp only
  rw [hrow]
  rfl

theorem decided_queryTimestamp (tblHdl ruleHdl : UInt32) :
    (HdlCall.queryTimestamp tblHdl ruleHdl).Decided c L := by
  by_cases h1 : tblHdl = 1
  swap
  · have href : (HdlCall.queryTimestamp tblHdl ruleHdl).Refused := h1
    exact decided_of_error (hdlStep_refused href) (fun h => absurd h h1) id
  subst h1
  have hstep := hdlStep_queryTimestamp I.size ruleHdl
  by_cases hv : c.slot.valid = true
  swap
  · have hret : ipaNatiQueryTimestamp c.slot ruleHdl = .ok (.error .einval) := if_neg hv
    rw [hret] at hstep
    exact decided_of_error hstep (fun _ h => absurd h hv) id
  by_cases hlow : ruleHdl.toUInt16.toNat = 0 ∧ c.slot.rows ≠ 0
  · -- the element before `rule_id_array`
    have hret : ipaNatiQueryTimestamp c.slot ruleHdl = .error .outOfBounds := by
      unfold ipaNatiQueryTimestamp ipaNatiParseIpv4RuleHdl
      rw [if_pos hv, if_neg (by omega), if_pos hlow.1]
      rfl
    rw [hret] at hstep
    refine decided_of_fault hstep fun h => ?_
    obtain ⟨hpos, hle, hne⟩ := (I.slot.live _).1 (h rfl hv)
    rcases I.slot.table with hi | ⟨-, S⟩
    · exact hne (hi.unused _ (by omega))
    · have hrows := S.layout.rows_lt
      have hmod : ruleHdl.toUInt16.toNat = ruleHdl.toNat % 65536 := UInt32.toNat_toUInt16 ruleHdl
      omega
  rcases I.slot.table with hi | ⟨-, S⟩
  · have hret : ipaNatiQueryTimestamp c.slot ruleHdl = .error .outOfBounds := by
      unfold ipaNatiQueryTimestamp
      rw [if_pos hv, hi.parse, if_neg hlow, ok_bind]
      have hread : (c.slot.ruleTbl false).read 0 = .error .outOfBounds := by
        change (if 0 < c.slot.ipv4Rules.size then _ else _) = _
        rw [hi.ipv4Rules, if_neg (Nat.not_lt_zero _)]
      dsimp only
      rw [hread]
      rfl
    rw [hret] at hstep
    exact decided_of_fault hstep fun h => h rfl hv (I.slot.none_of_idle hi _)
  · have hrows := S.layout.rows_pos
    have h0 : ruleHdl.toUInt16.toNat ≠ 0 := by omega
    obtain ⟨v, hok⟩ := I.queryTimestamp_ok S hv h0
    have hC : (HdlCall.queryTimestamp 1 ruleHdl).Contained c L ↔
        (HdlCall.queryTimestamp 1 ruleHdl).Proper c L := by
      rw [contained_iff hok]
      exact ⟨fun h _ _ => (h v rfl).2, fun h _ _ => ⟨(tableLive_iff hv).2 rfl, h rfl hv⟩⟩
    refine ⟨hC, ?_⟩
    rw [step_safe_iff hok, hC]
    exact ⟨fun h => ⟨h.1, id⟩, fun h => ⟨h.1, by simp⟩⟩

end ApiInv

variable {tr : List (ApiCall × ApiRet)}

/-- **Calls with any handle**, in every state that calls can reach in which tables come and go whole.
    The call stays inside the arrays and is refused for handles that are not live if and only if the
    condition `Proper` holds; counting the reads that print the table, it does so if and only if
    besides the table is not printed. -/
theorem run_handle_calls (hrun : Run apiStep (fun _ call => call.Orderly) .init tr c)
    (call : HdlCall) : (call.Contained c (apiLive tr) ↔ call.Proper c (apiLive tr)) ∧
      (call.Safe c (apiLive tr) ↔ call.Proper c (apiLive tr) ∧ ¬ call.Prints c) := by
  have I : ApiInv c (apiLive tr) := by
    refine hrun.invariant (fun tr c => ApiInv c (apiLive tr)) apiInv_init ?_
    intro tr c call c' r I hord hstep
    rw [apiLive_snoc]
    exact I.step hord hstep
  cases call with
  | addRule tblHdl clntRule dma => exact I.decided_addRule tblHdl clntRule dma
  | delRule tblHdl ruleHdl ok => exact I.decided_delRule tblHdl ruleHdl ok
  | queryTimestamp tblHdl ruleHdl => exact I.decided_queryTimestamp tblHdl ruleHdl

theorem orderly_example : ∀ call ∈
    [ApiCall.addTbl 0 1 .allOk, .onHdl (.addRule 1 webRule .allOk)], call.Orderly := by
  intro call hcall
  simp only [List.mem_cons, List.not_mem_nil, or_false] at hcall
  rcases hcall with rfl | rfl
  · exact fun _ => ⟨rfl, rfl, rfl, rfl, rfl, rfl⟩
  · trivial

theorem run_handle_calls_example : ∃ c tr,
    exec apiStep .init [.addTbl 0 1 .allOk, .onHdl (.addRule 1 webRule .allOk)] = .ok (c, tr) ∧
      (HdlCall.queryTimestamp 1 1).Contained c (apiLive tr) := by
  obtain ⟨c, tr, hexec, hlive⟩ : ∃ c tr, exec apiStep .init
      [.addTbl 0 1 .allOk, .onHdl (.addRule 1 webRule .allOk)] = .ok (c, tr) ∧
        apiLive tr 1 = some webRule := ⟨_, _, rfl, rfl⟩
  refine ⟨c, tr, hexec, ?_⟩
  refine (run_handle_calls (Run.of_exec hexec orderly_example) _).1.2 fun _ _ => ?_
  change apiLive tr 1 ≠ none
  rw [hlive]
  simp

/-- A deletion with a handle that has the low 16 bits of a live one and others besides deletes that
    rule, and then writes past `rule_id_array`. -/
theorem run_handle_calls_wide : ¬ ∀ c tr, Run apiStep (fun _ call => call.Orderly) .init tr c →
    ∀ call : HdlCall, call.Contained c (apiLive tr) := by
  intro hall
  obtain ⟨c, tr, hexec, hfault⟩ : ∃ c tr, exec apiStep .init
      [.addTbl 0 1 .allOk, .onHdl (.addRule 1 webRule .allOk)] = .ok (c, tr) ∧
        hdlStep c (.delRule 1 0x10001 true) = .error .outOfBounds := ⟨_, _, rfl, rfl⟩
  exact (hall c tr (Run.of_exec hexec orderly_example) _).inBounds hfault

end Nx508j.Ipanat
