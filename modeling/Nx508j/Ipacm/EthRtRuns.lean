import Mathlib.Data.List.TakeWhile
import Nx508j.Ipacm.EthRtRules

/-! # Clients of the bridge come and go

A rule of a client is in a slot of one table. When the client is deleted the handles of its record
are passed one after the other, and the record goes if memory did not run out. What is kept between
the calls is that the driver's rules for a table are just those that are recorded there, each once,
and that handles of the driver are of one table only. -/

namespace Nx508j.Ipacm

open Nx508j.Lib Function

namespace EthRt

variable {x : EthRtIfaces} {s : EthRt}

/-! ## A client is deleted -/

variable {t : EthRtTable} {n : Nat}

/-- A handle of a table that is no handle of a rule was never given out. -/
theorem offer_eq (h : Kept x s) (hn : RealHdl n → n ∈ s.live t) : s.offer n = s :=
  if_neg fun hoff => hoff.2 (isLive_iff.2 ⟨t, hn (h.deleted n hoff.1)⟩)

theorem Kept.delete (h : Kept x s) (hn : n ∈ s.live t) :
    Kept x { s with live := fun t => (s.live t).erase n, deleted := n :: s.deleted } where
  macs := h.macs
  nonzero := h.nonzero
  slots t' m hm := h.slots t' m (List.mem_of_mem_erase hm)
  nodup t' := (h.nodup t').erase n
  apart t₁ t₂ m h₁ h₂ := h.apart t₁ t₂ m (List.mem_of_mem_erase h₁) (List.mem_of_mem_erase h₂)
  real t' m hm := h.real t' m (List.mem_of_mem_erase hm)
  deleted m hm := by
    rcases List.mem_cons.1 hm with rfl | hm
    · exact h.real t m hn
    · exact h.deleted m hm
  again := h.again
  absent := h.absent

/-- Rules of a table were deleted, and nothing else. -/
structure DeletedOf (t : EthRtTable) (s s' : EthRt) : Prop where
  info : s'.info = s.info
  others : ∀ t', t' ≠ t → s'.live t' = s.live t'
  live : ∀ n ∈ s'.live t, n ∈ s.live t

theorem DeletedOf.refl (t : EthRtTable) (s : EthRt) : DeletedOf t s s :=
  ⟨rfl, fun _ _ => rfl, fun _ hn => hn⟩

theorem DeletedOf.trans {s s₁ s₂ : EthRt} (h₁ : DeletedOf t s s₁) (h₂ : DeletedOf t s₁ s₂) :
    DeletedOf t s s₂ where
  info := h₂.info.trans h₁.info
  others t' hne := (h₂.others t' hne).trans (h₁.others t' hne)
  live n hn := h₁.live n (h₂.live n hn)

theorem DeletedOf.hdls {s' : EthRt} (h : DeletedOf t s s') (t' : EthRtTable) :
    s'.hdls t' = s.hdls t' := by
  unfold EthRt.hdls
  rw [h.info]

/-- **A handle is passed**: of the rules of the table just its rule goes, if the driver deletes
    it. -/
theorem Kept.deleteRoutingHdl (h : Kept x s) (hmem : n ∈ s.hdls t)
    (hn : RealHdl n → n ∈ s.live t) (a : DelHdlAnswer) :
    ∃ s', s.deleteRoutingHdl n a = (s', decide (a ≠ .noMemory)) ∧ Kept x s' ∧ DeletedOf t s s' ∧
      ∀ m ∈ s.live t, (m ∈ s'.live t ↔ (n = m → a ≠ .deleted)) := by
  have hoffer : s.offer n = s := offer_eq h hn
  unfold EthRt.deleteRoutingHdl
  rw [if_neg (h.nonzero t n hmem)]
  cases a with
  | noMemory =>
    exact ⟨s, by rw [hoffer]; rfl, h, .refl t s, fun m hm => iff_of_true hm fun _ => by decide⟩
  | failed =>
    exact ⟨s, by rw [hoffer]; rfl, h, .refl t s, fun m hm => iff_of_true hm fun _ => by decide⟩
  | deleted =>
    rw [hoffer]
    by_cases hl : n ∈ s.live t
    · rw [if_pos (isLive_iff.2 ⟨t, hl⟩)]
      refine ⟨_, rfl, h.delete hl, ⟨rfl, fun t' hne => ?_, fun m => List.mem_of_mem_erase⟩,
        fun m hm => ?_⟩
      · exact List.erase_of_not_mem fun hm => hne (h.apart t' t n hm hl)
      · refine ((h.nodup t).mem_erase_iff).trans ⟨fun hne heq => absurd heq.symm hne.1, fun hne => ?_⟩
        exact ⟨fun heq => hne heq.symm rfl, hm⟩
    · -- it is the handle of no rule
      have hnot : ∀ t', n ∉ s.live t' := fun t' hm => hl (hn (h.real t' n hm))
      have hislive : ¬ s.IsLive n := fun hm => (isLive_iff.1 hm).elim hnot
      have hsame : (fun t' => (s.live t').erase n) = s.live :=
        funext fun t' => List.erase_of_not_mem (hnot t')
      rw [if_neg hislive, hsame]
      exact ⟨s, rfl, h, .refl t s, fun m hm =>
        iff_of_true hm fun heq => absurd (heq ▸ hm) hl⟩

variable {d : Nat → DelHdlAnswer} {ps : List (Nat × Nat)}

/-- **The loop** over the handles of a record: it goes to the end unless memory runs out, and of the
    rules of the table just those go that the driver deletes before. -/
theorem Kept.deleteRoutingHdls (h : Kept x s)
    (hcount : ∀ n, (ps.map Prod.fst).count n ≤ (s.hdls t).count n)
    (hlive : ∀ p ∈ ps, RealHdl p.1 → p.1 ∈ s.live t) :
    ∃ s', EthRt.deleteRoutingHdls d ps s = (s', decide (∀ p ∈ ps, d p.2 ≠ .noMemory)) ∧
      Kept x s' ∧ DeletedOf t s s' ∧
      ∀ n ∈ s.live t, (n ∈ s'.live t ↔ ∀ p ∈ passed d ps, p.1 = n → d p.2 ≠ .deleted) := by
  induction ps generalizing s with
  | nil => exact ⟨s, rfl, h, .refl t s, fun n hn => iff_of_true hn fun p hp => by cases hp⟩
  | cons p ps ih =>
    have hone : ∀ n, (ps.map Prod.fst).count n ≤ (s.hdls t).count n := fun n =>
      (List.count_le_count_cons (a := n) (b := p.1)).trans (hcount n)
    have hmem : p.1 ∈ s.hdls t := by
      have hself := hcount p.1
      rw [List.map_cons, List.count_cons_self] at hself
      exact List.count_pos_iff.1 (by omega)
    obtain ⟨s₁, hstep, h₁, hof₁, hleft⟩ := h.deleteRoutingHdl hmem
      (hlive p List.mem_cons_self) (d p.2)
    rw [EthRt.deleteRoutingHdls, hstep]
    by_cases hno : d p.2 = .noMemory
    · have hfalse : ¬ ∀ q ∈ p :: ps, d q.2 ≠ .noMemory := fun hall =>
        hall p List.mem_cons_self hno
      have hnone : passed d (p :: ps) = [] := List.takeWhile_cons_of_neg (by simp [hno])
      rw [decide_eq_false (not_not.2 hno), decide_eq_false hfalse, hnone]
      refine ⟨s₁, rfl, h₁, hof₁, fun n hn => iff_of_true ((hleft n hn).2 fun _ => ?_) ?_⟩
      · rw [hno]
        decide
      · exact fun q hq => by cases hq
    · -- a rule of the table is not passed a second time
      have honce : ∀ q ∈ ps, RealHdl q.1 → q.1 ∈ s₁.live t := by
        intro q hq hreal
        have hl := hlive q (List.mem_cons_of_mem p hq) hreal
        refine (hleft q.1 hl).2 fun heq => ?_
        have hself := hcount p.1
        have hin : p.1 ∈ ps.map Prod.fst := List.mem_map.2 ⟨q, hq, heq.symm⟩
        rw [List.map_cons, List.count_cons_self, heq, h.slots t q.1 hl, ← heq] at hself
        have := List.count_pos_iff.2 hin
        omega
      obtain ⟨s₂, hloop, h₂, hof₂, hrest⟩ := ih h₁ (by rwa [hof₁.hdls]) honce
      have hiff : (∀ q ∈ p :: ps, d q.2 ≠ .noMemory) ↔ ∀ q ∈ ps, d q.2 ≠ .noMemory := by
        rw [List.forall_mem_cons]
        exact and_iff_right hno
      have hcons : passed d (p :: ps) = p :: passed d ps :=
        List.takeWhile_cons_of_pos (by simp [hno])
      rw [decide_eq_true hno, hcons]
      refine ⟨s₂, hloop.trans ?_, h₂, hof₁.trans hof₂, fun n hn => ?_⟩
      · rw [decide_eq_decide.2 hiff]
      · rw [List.forall_mem_cons, ← hleft n hn]
        exact ⟨fun hin => ⟨hof₂.live n hin, (hrest n (hof₂.live n hin)).1 hin⟩,
          fun hin => (hrest n hin.1).2 hin.2⟩

/-! ## A record is removed -/

section RemoveRecord

variable {t t' : EthRtTable} {mac : BitVec 48} {r : EthClientRtInfo}

@[simp] theorem removeRecord_info_self : (s.removeRecord t mac).info t =
    discard EthClientRtInfo.mac (s.info t) mac := update_self ..

theorem removeRecord_info_of_ne (hne : t' ≠ t) : (s.removeRecord t mac).info t' = s.info t' :=
  update_of_ne hne ..

theorem removeRecord_hdls_of_ne (hne : t' ≠ t) : (s.removeRecord t mac).hdls t' = s.hdls t' := by
  unfold hdls
  rw [removeRecord_info_of_ne hne]

theorem hdls_perm (hr : record EthClientRtInfo.mac (s.info t) mac = some r) :
    (s.hdls t).Perm (r.rt_rule_hdl ++ (s.removeRecord t mac).hdls t) := by
  unfold hdls
  rw [removeRecord_info_self]
  exact (perm_discard hr).flatMap_right _

theorem mem_of_removeRecord (hr : record EthClientRtInfo.mac (s.info t) mac = some r) {n : Nat}
    (hn : n ∈ (s.removeRecord t mac).hdls t') : n ∈ s.hdls t' := by
  rcases eq_or_ne t' t with rfl | hne
  · exact (hdls_perm hr).mem_iff.2 (List.mem_append_right _ hn)
  · rwa [removeRecord_hdls_of_ne hne] at hn

/-- A record is removed whose rules are gone, the others of the table being left. -/
theorem Inv.removeRecord {s₀ : EthRt} (h₀ : Inv x s₀) (h : Kept x s) (hof : DeletedOf t s₀ s)
    (hr : record EthClientRtInfo.mac (s.info t) mac = some r)
    (hgone : ∀ n ∈ s₀.live t, (n ∈ s.live t ↔ n ∉ r.rt_rule_hdl)) :
    Inv x (s.removeRecord t mac) where
  macs t' := by
    rcases eq_or_ne t' t with rfl | hne
    · rw [removeRecord_info_self]
      exact nodup_discard (h.macs t') mac
    · rw [removeRecord_info_of_ne hne]
      exact h.macs t'
  nonzero t' n hn := h.nonzero t' n (mem_of_removeRecord hr hn)
  slots t' n hn := by
    rcases eq_or_ne t' t with rfl | hne
    · have hcount := h.slots t' n hn
      have hnot : n ∉ r.rt_rule_hdl := (hgone n (hof.live n hn)).1 hn
      rwa [(hdls_perm hr).count_eq, List.count_append, List.count_eq_zero_of_not_mem hnot,
        Nat.zero_add] at hcount
    · rw [removeRecord_hdls_of_ne hne]
      exact h.slots t' n hn
  known t' n hn hreal := by
    have hold : n ∈ s₀.live t' := by
      have hin := mem_of_removeRecord hr hn
      rw [hof.hdls] at hin
      exact h₀.known t' n hin hreal
    rcases eq_or_ne t' t with rfl | hne
    · refine (hgone n hold).2 fun hin => ?_
      -- the handle would be in two slots
      have hcount := h₀.slots t' n hold
      rw [← hof.hdls, (hdls_perm hr).count_eq, List.count_append] at hcount
      have hone := List.count_pos_iff.2 hin
      have htwo := List.count_pos_iff.2 hn
      omega
    · exact (hof.others t' hne).symm ▸ hold
  nodup := h.nodup
  apart := h.apart
  real := h.real
  deleted := h.deleted
  again := h.again
  absent t' hnone := by
    rcases eq_or_ne t' t with rfl | hne
    · rw [removeRecord_info_self, h.absent t' hnone]
      rfl
    · rw [removeRecord_info_of_ne hne]
      exact h.absent t' hnone

end RemoveRecord

/-! ## The rules of a client -/

theorem mem_hdls_of_rulesOf {mac : BitVec 48} {p : Nat × Nat} (hp : p ∈ s.rulesOf t mac) :
    p.1 ∈ s.hdls t := by
  unfold rulesOf at hp
  split at hp
  · cases hp
  · next r hr =>
    have hfst : p.1 ∈ r.rt_rule_hdl := by
      rw [← List.zipIdx_map_fst 0 r.rt_rule_hdl]
      exact List.mem_map_of_mem hp
    exact List.mem_flatMap.2 ⟨r, mem_of_record hr, hfst⟩

/-- What a table of a client may become. -/
structure FamilyDeleted (t : EthRtTable) (mac : BitVec 48) (d : Nat → DelHdlAnswer) (s s' : EthRt)
    (res : DelRules) : Prop where
  info : ∀ t', t' ≠ t → s'.info t' = s.info t'
  live : ∀ t', t' ≠ t → s'.live t' = s.live t'
  notFound : res = .notFound ↔ mac ∉ (s.info t).map (·.mac)
  gone : res ≠ .failed → mac ∉ (s'.info t).map (·.mac)
  memory : res ≠ .failed → ∀ p ∈ s.rulesOf t mac, d p.2 ≠ .noMemory

theorem Inv.delFamily (h : Inv x s) {mac : BitVec 48} {d : IpFamily → Nat → DelHdlAnswer}
    (hclean : s.Clean t (s.rulesOf t mac) (d t.iptype)) :
    ∃ s' res, s.delFamily t mac d = (s', res) ∧ Inv x s' ∧
      FamilyDeleted t mac (d t.iptype) s s' res := by
  unfold EthRt.delFamily
  cases hr : record EthClientRtInfo.mac (s.info t) mac with
  | none =>
    have hmac : mac ∉ (s.info t).map (·.mac) := record_eq_none.1 hr
    have hrules : s.rulesOf t mac = [] := by
      unfold rulesOf
      rw [hr]
    refine ⟨s, _, rfl, h, fun _ _ => rfl, fun _ _ => rfl,
      iff_of_true rfl hmac, fun _ => hmac, fun _ p hp => ?_⟩
    rw [hrules] at hp
    cases hp
  | some r =>
    have hmac : mac ∈ (s.info t).map (·.mac) := by
      rw [← key_of_record hr]
      exact List.mem_map_of_mem (mem_of_record hr)
    have hrules : s.rulesOf t mac = r.rt_rule_hdl.zipIdx := by
      unfold rulesOf
      rw [hr]
    rw [hrules] at hclean
    have hfst : r.rt_rule_hdl.zipIdx.map Prod.fst = r.rt_rule_hdl := List.zipIdx_map_fst ..
    have hcount : ∀ n, (r.rt_rule_hdl.zipIdx.map Prod.fst).count n ≤ (s.hdls t).count n := by
      intro n
      rw [hfst, (hdls_perm hr).count_eq, List.count_append]
      exact Nat.le_add_right ..
    have hlive : ∀ p ∈ r.rt_rule_hdl.zipIdx, RealHdl p.1 → p.1 ∈ s.live t := by
      intro p hp
      exact h.known t p.1 (mem_hdls_of_rulesOf (by rwa [hrules]))
    obtain ⟨s', hloop, h', hof, hleft⟩ := h.toKept.deleteRoutingHdls hcount hlive
    dsimp only
    rw [hloop]
    by_cases hall : ∀ p ∈ r.rt_rule_hdl.zipIdx, d t.iptype p.2 ≠ .noMemory
    · rw [decide_eq_true hall]
      have hr' : record EthClientRtInfo.mac (s'.info t) mac = some r := by rwa [hof.info]
      have hpassed : passed (d t.iptype) r.rt_rule_hdl.zipIdx = r.rt_rule_hdl.zipIdx :=
        List.takeWhile_eq_self_iff.2 fun p hp => decide_eq_true (hall p hp)
      have hgone : ∀ n ∈ s.live t, (n ∈ s'.live t ↔ n ∉ r.rt_rule_hdl) := by
        intro n hn
        rw [hleft n hn, hpassed]
        constructor
        · intro hnone hin
          rw [← hfst] at hin
          obtain ⟨p, hp, rfl⟩ := List.mem_map.1 hin
          have hdel := hnone p hp rfl
          have hmem := hall p hp
          have hfail := hclean.goes hall p hp hn
          revert hdel hmem hfail
          cases d t.iptype p.2 <;> decide
        · rintro hnot p hp rfl
          exact absurd (hfst ▸ List.mem_map_of_mem hp) hnot
      refine ⟨_, _, rfl, h.removeRecord h' hof hr' hgone, fun t' hne => ?_, hof.others,
        iff_of_false (by decide) fun hnot => hnot hmac, fun _ => ?_, fun _ => ?_⟩
      · rw [removeRecord_info_of_ne hne, hof.info]
      · rw [removeRecord_info_self]
        exact record_eq_none.1 (record_discard_self (h'.macs t) mac)
      · rwa [hrules]
    · -- memory runs out, and the driver has all the rules
      have hout : ∃ p ∈ r.rt_rule_hdl.zipIdx, d t.iptype p.2 = .noMemory := by
        by_contra hnone
        exact hall fun p hp heq => hnone ⟨p, hp, heq⟩
      have hsame : ∀ t' n, n ∈ s.live t' → n ∈ s'.live t' := by
        intro t' n hn
        rcases eq_or_ne t' t with rfl | hne
        · exact (hleft n hn).2 fun p hp heq => hclean.memory hout p hp (heq ▸ hn)
        · exact (hof.others t' hne).symm ▸ hn
      have hinv : Inv x s' :=
        ⟨h', fun t' n hn hreal => hsame t' n (h.known t' n (hof.hdls t' ▸ hn) hreal)⟩
      rw [decide_eq_false hall]
      exact ⟨s', _, rfl, hinv, fun t' _ => congrFun hof.info t', hof.others,
        iff_of_false (by decide) fun hnot => hnot hmac, fun hne => absurd rfl hne,
        fun hne => absurd rfl hne⟩

/-- **The rules of a client are deleted.** -/
theorem Inv.delClientRtRule (h : Inv x s) {src : EthRtSrc} {mac : Option (BitVec 48)}
    {d : IpFamily → Nat → DelHdlAnswer} (hfits : ∀ m, mac = some m → s.DelFits src m d) :
    Inv x (s.delClientRtRule x src mac d).1 ∧
      ∀ m, mac = some m → (s.delClientRtRule x src mac d).2.2 = false →
        (s.delClientRtRule x src mac d).1.Gone src m := by
  unfold EthRt.delClientRtRule
  split
  · next hnone =>
    -- without TX properties the tables were never written
    refine ⟨h, fun m _ _ iptype => ?_⟩
    rw [h.absent ⟨src, iptype⟩ hnone]
    exact List.not_mem_nil
  · cases mac with
    | none => exact ⟨h, fun m hm => by cases hm⟩
    | some mac =>
      have hfits := hfits mac rfl
      obtain ⟨s₁, res₁, h₄, hinv₁, hdel₁⟩ := h.delFamily (d := d) hfits.v4
      dsimp only
      rw [h₄]
      have hsix : (⟨src, .v6⟩ : EthRtTable) ≠ ⟨src, .v4⟩ := fun heq => by cases heq
      have hfour : (⟨src, .v4⟩ : EthRtTable) ≠ ⟨src, .v6⟩ := fun heq => by cases heq
      cases res₁ with
      | notFound =>
        have hmac := hdel₁.notFound.1 rfl
        refine ⟨hinv₁, fun m hm _ iptype => ?_⟩
        cases hm
        cases iptype with
        | v4 => exact hdel₁.gone (by decide)
        | v6 =>
          rw [hdel₁.info _ hsix]
          exact fun hin => hmac (hfits.found hin)
      | failed => exact ⟨hinv₁, fun m _ hfalse => by cases hfalse⟩
      | deleted =>
        have hrules : s₁.rulesOf ⟨src, .v6⟩ mac = s.rulesOf ⟨src, .v6⟩ mac := by
          unfold rulesOf
          rw [hdel₁.info _ hsix]
        have hclean : s₁.Clean ⟨src, .v6⟩ (s₁.rulesOf ⟨src, .v6⟩ mac) (d .v6) := by
          have hv6 := hfits.v6 (hdel₁.memory (by decide))
          rw [hrules]
          exact ⟨hdel₁.live _ hsix ▸ hv6.memory, hdel₁.live _ hsix ▸ hv6.goes⟩
        obtain ⟨s₂, res₂, h₆, hinv₂, hdel₂⟩ := hinv₁.delFamily (d := d) hclean
        dsimp only
        rw [h₆]
        have hgone : res₂ ≠ .failed → s₂.Gone src mac := by
          intro hne iptype
          cases iptype with
          | v4 =>
            rw [hdel₂.info _ hfour]
            exact hdel₁.gone (by decide)
          | v6 => exact hdel₂.gone hne
        cases res₂ with
        | failed => exact ⟨hinv₂, fun m _ hfalse => by cases hfalse⟩
        | notFound | deleted =>
          refine ⟨hinv₂, fun m hm _ => ?_⟩
          cases hm
          exact hgone (by decide)

/-! ## Runs -/

/-- **A step** that meets the condition. -/
theorem Inv.step (h : Inv x s) {c : Call} (hfits : s.Fits c) :
    Inv x (s.step x c) ∧ s.Deletes x c := by
  cases c with
  | addWlan mac src iptype a | addUsb mac iptype a => exact ⟨h.addClientRtRule _ mac a, trivial⟩
  | delWlan mac src d => exact h.delClientRtRule hfits
  | delUsb mac d => exact h.delClientRtRule hfits

theorem Inv.run (h : Inv x s) {calls : List Call} (hfits : s.AllFit x calls) {pre : List Call}
    (hpre : pre <+: calls) : Inv x (pre.foldl (EthRt.step x) s) ∧
      ∀ c, pre ++ [c] <+: calls → (pre.foldl (EthRt.step x) s).Fits c := by
  induction calls generalizing s pre with
  | nil =>
    obtain rfl := List.prefix_nil.1 hpre
    exact ⟨h, fun c hc => absurd (List.prefix_nil.1 hc) (List.cons_ne_nil c [])⟩
  | cons c₀ calls ih =>
    obtain ⟨hfirst, hrest⟩ := hfits
    cases pre with
    | nil =>
      refine ⟨h, fun c hc => ?_⟩
      obtain rfl := (List.cons_prefix_cons.1 hc).1
      exact hfirst
    | cons c₁ pre =>
      obtain ⟨rfl, hrec⟩ := List.cons_prefix_cons.1 hpre
      obtain ⟨hinv, hnext⟩ := ih (h.step hfirst).1 hrest hrec
      exact ⟨hinv, fun c hc => hnext c (List.cons_prefix_cons.1 hc).2⟩

/-- **For all calls** that meet the condition: the rules are recorded all along, and a call that
    deletes a client does so. -/
theorem run_recorded (x : EthRtIfaces) (calls : List Call) (hfits : AllFit x {} calls) :
    ∀ pre, pre <+: calls →
      (run x pre).Recorded ∧ ∀ c, pre ++ [c] <+: calls → (run x pre).Deletes x c := by
  intro pre hpre
  obtain ⟨hinv, hnext⟩ := (Inv.start x).run hfits hpre
  exact ⟨hinv.recorded, fun c hc => (hinv.step (hnext c hc)).2⟩

/-- The driver gives the handles from some number on, if it can. -/
def addFrom (k : Nat) (ioctl : Bool) : EthRtAdd where
  ioctl := ioctl
  rules live n :=
    if ∀ i ∈ List.range n, RealHdl (k + i) ∧ ∀ t ∈ EthRtTable.all, k + i ∉ live t then
      (List.range n).map fun i => some (k + i)
    else List.replicate n none
  rules_spec live n := by
    split
    · next hgood =>
      have hsome : ((List.range n).map fun i => some (k + i)).filterMap id =
          (List.range n).map (k + ·) := by
        rw [List.filterMap_map]
        exact congrFun List.filterMap_eq_map (List.range n)
      refine ⟨by rw [List.length_map, List.length_range], ?_, fun h hh => ?_⟩
      · rw [hsome]
        exact List.nodup_range.map fun i j hij => Nat.add_left_cancel hij
      · rw [hsome] at hh
        obtain ⟨i, hi, rfl⟩ := List.mem_map.1 hh
        exact ⟨(hgood i hi).1, fun t => (hgood i hi).2 t (mem_all t)⟩
    · have hnone : (List.replicate n (none : Option Nat)).filterMap id = [] := by
        rw [List.filterMap_replicate_of_none rfl]
      rw [hnone]
      exact ⟨List.length_replicate, List.nodup_nil, fun h hh => by cases hh⟩

/-- Rules of one family or two for each client of the WLAN. -/
def wlanOnly (fs : List IpFamily) : EthRtIfaces := ⟨some fs, none⟩

/-- A client is added for both families, and deleted. -/
def addedAndDeleted : List Call :=
  [.addWlan (some 5) .wlan .v4 (addFrom 1 true), .addWlan (some 5) .wlan .v6 (addFrom 2 true),
    .delWlan (some 5) .wlan fun _ _ => .deleted]

theorem run_recorded_added :
    AllFit (wlanOnly [.v4, .v6]) {} addedAndDeleted ∧
      (run (wlanOnly [.v4, .v6]) addedAndDeleted).Recorded := by
  have hclean : ∀ s t ps, Clean s t ps fun _ => .deleted := fun s t ps =>
    ⟨fun hout => (hout.elim fun _ h => nomatch h.2), fun _ _ _ _ => nofun⟩
  have hfits : AllFit (wlanOnly [.v4, .v6]) {} addedAndDeleted := by
    refine ⟨trivial, trivial, fun m hm => ?_, trivial⟩
    cases hm
    exact ⟨by decide, hclean _ _ _, fun _ => hclean _ _ _⟩
  exact ⟨hfits, (run_recorded _ addedAndDeleted hfits _ (List.prefix_refl _)).1⟩

/-- The ioctl fails when a client is added for IPv4, so that it is recorded for IPv6 only. -/
theorem not_gone_of_v6_only :
    ¬ ∀ x calls, ∀ pre, pre <+: calls →
      (run x pre).Recorded ∧ ∀ c, pre ++ [c] <+: calls → (run x pre).Deletes x c := by
  intro hall
  obtain ⟨-, hdel⟩ := hall (wlanOnly [.v4, .v6])
    [.addWlan (some 5) .wlan .v4 (addFrom 1 false), .addWlan (some 5) .wlan .v6 (addFrom 2 true),
      .delWlan (some 5) .wlan fun _ _ => .deleted]
    [.addWlan (some 5) .wlan .v4 (addFrom 1 false), .addWlan (some 5) .wlan .v6 (addFrom 2 true)]
    ⟨[.delWlan (some 5) .wlan fun _ _ => .deleted], rfl⟩
  have hgone := hdel (.delWlan (some 5) .wlan fun _ _ => .deleted) (List.prefix_refl _) 5 rfl
    (by decide) .v6
  exact hgone (by decide)

-- memory runs out after the first of two rules, and the client is deleted once more
example : (run (wlanOnly [.v4, .v4]) [.addWlan (some 5) .wlan .v4 (addFrom 1 true),
    .delWlan (some 5) .wlan fun _ i => if i = 0 then .deleted else .noMemory,
    .delWlan (some 5) .wlan fun _ _ => .deleted]).again = [1] := by
  decide

end EthRt

end Nx508j.Ipacm
