import Nx508j.Ipacm.WanDown

/-! # The dependencies of a backhaul interface

An interface adds a dependency of its transmit resource for each default route and for each family
of a client, and deletes one for each default route that goes and one more when it is closed as a
station. The deletes never run ahead of the adds while it lives, but they come out even at the end
only if the clients had as many as are deleted for them. -/

namespace Nx508j.Ipacm

open Nx508j.Lib

/-! ## The calls -/

/-- The calls of `AddRmDepend` less those of `DelRmDepend`. -/
def rmBalance (l : List RmCall) : Int :=
  l.count .addEmbms + l.count .addRoute + l.count .addClient - l.count .del

/-- At every point, no more was deleted than added. -/
def RmNonneg (l : List RmCall) : Prop := ∀ p, p <+: l → 0 ≤ rmBalance p

theorem rmBalance_append (l l' : List RmCall) :
    rmBalance (l ++ l') = rmBalance l + rmBalance l' := by
  simp only [rmBalance, List.count_append]
  omega

theorem RmNonneg.concat {l : List RmCall} {c : RmCall} (h : RmNonneg l)
    (hc : 0 ≤ rmBalance (l ++ [c])) : RmNonneg (l ++ [c]) := by
  intro p hp
  rcases List.prefix_concat_iff.1 hp with rfl | hp
  · exact hc
  · exact h p hp

theorem RmNonneg.dels {l ds : List RmCall} (h : RmNonneg l) (hds : ∀ c ∈ ds, c = .del)
    (hend : 0 ≤ rmBalance (l ++ ds)) : RmNonneg (l ++ ds) := by
  induction ds using List.reverseRecOn with
  | nil => simpa using h
  | append_singleton ds c ih =>
    obtain rfl : c = .del := hds c (by simp)
    rw [← List.append_assoc] at hend ⊢
    refine RmNonneg.concat (ih (fun c hc => hds c (by simp [hc])) ?_) hend
    rw [rmBalance_append] at hend
    have hone : rmBalance [.del] = -1 := by decide
    omega

theorem rmBalance_dels {ds : List RmCall} (hds : ∀ c ∈ ds, c = .del) :
    rmBalance ds = -(ds.length : Int) := by
  have hrep : ds = List.replicate ds.length .del := List.eq_replicate_iff.2 ⟨rfl, hds⟩
  rw [hrep]
  simp [rmBalance, List.count_replicate]

namespace Wan

variable {a : WanAnswers} {e : WanEvent} {w : Wan} {s : WanStatics} {f : IpFamily}

theorem length_activeFamilies (w : Wan) :
    w.activeFamilies.length = (w.active .v4).toNat + (w.active .v6).toNat := by
  cases h₄ : w.active .v4 <;> cases h₆ : w.active .v6 <;> simp [activeFamilies, h₄, h₆]

/-- The calls of a live interface: the default routes that it has are those that were added and not
    deleted. -/
structure Settled (w : Wan) : Prop where
  nonneg : RmNonneg w.rm
  routes : w.rm.count .addRoute = w.rm.count .del + w.activeFamilies.length

/-- The dependencies that no route takes back. -/
def others (w : Wan) : Nat := w.rm.count .addEmbms + w.rm.count .addClient

theorem Settled.balance (h : w.Settled) : rmBalance w.rm = w.others + w.activeFamilies.length := by
  have := h.routes
  simp only [rmBalance, others]
  omega

end Wan

theorem WanChange.settled {a : WanAnswers} {e : WanEvent} {w₀ : Wan} {x y : Wan × WanStatics}
    (h : WanChange a e w₀ x y) (hx : x.1.Settled) : y.1.Settled := by
  have hbal := hx.balance
  have hroutes := hx.routes
  cases h with
  | @raise w s f p dl hon hdown hc hdl =>
    have hone : rmBalance [.addRoute] = 1 := by decide
    refine ⟨hx.nonneg.concat ?_, ?_⟩
    · rw [rmBalance_append, hbal, hone]
      omega
    · rw [Wan.length_activeFamilies] at hroutes ⊢
      simp only [List.count_append, hroutes]
      cases f <;> simp [hdown] <;> omega
  | @lower w s f dl hup hdl =>
    have hone : rmBalance [.del] = -1 := by decide
    have hpos : 0 < w.activeFamilies.length :=
      List.length_pos_of_mem (Wan.mem_activeFamilies.2 hup)
    refine ⟨hx.nonneg.concat ?_, ?_⟩
    · rw [rmBalance_append, hbal, hone]
      dsimp only
      omega
    · rw [Wan.length_activeFamilies] at hroutes ⊢
      simp only [List.count_append, hroutes]
      cases f <;> simp [hup] <;> omega
  | clientRoute htx =>
    have hone : rmBalance [.addClient] = 1 := by decide
    refine ⟨hx.nonneg.concat ?_, ?_⟩
    · rw [rmBalance_append, hbal, hone]
      omega
    · rw [List.count_append, List.count_append]
      simpa [Wan.activeFamilies] using hroutes
  | _ => exact ⟨hx.nonneg, hx.routes⟩

theorem WanChanges.settled {a : WanAnswers} {e : WanEvent} {w₀ : Wan} {x y : Wan × WanStatics}
    (h : WanChanges a e w₀ x y) (hx : x.1.Settled) : y.1.Settled := by
  induction h with
  | refl => exact hx
  | tail _ step ih => exact step.settled ih

/-- The interface deleted as often as it added, and never more. -/
def DownReport.Balanced (r : DownReport) : Prop := RmNonneg r.rm ∧ rmBalance r.rm = 0

namespace Wan

variable {a : WanAnswers} {w : Wan} {s : WanStatics}

/-- As many dependencies are left as a link-down event deletes: of a station one for its clients, if
    it has transmit properties; of a modem interface those of the routes, if it is the default
    gateway, and none for its clients or for eMBMS. -/
def ReleasesAll (w : Wan) (embmsIf : Bool) : Prop :=
  if w.m_is_sta_mode ≠ .q6Wan then w.others = if w.tx_prop = none then 0 else 1
  else if w.ip_type = .null then w.others = 0
  else if embmsIf = true then
    w.others + w.activeFamilies.length = if w.tx_prop = none then 0 else 1
  else w.others = 0 ∧ (w.is_default_gateway = false → w.activeFamilies = [])

instance (w : Wan) (embmsIf : Bool) : Decidable (w.ReleasesAll embmsIf) := by
  unfold ReleasesAll
  infer_instance

theorem Settled.closes (hw : w.Settled) {ds : List RmCall} (hds : ∀ c ∈ ds, c = .del)
    (hlen : w.others + w.activeFamilies.length = ds.length) :
    RmNonneg (w.rm ++ ds) ∧ rmBalance (w.rm ++ ds) = 0 := by
  have hend : rmBalance (w.rm ++ ds) = 0 := by
    rw [rmBalance_append, hw.balance, rmBalance_dels hds]
    omega
  exact ⟨hw.nonneg.dels hds (Int.le_of_eq hend.symm), hend⟩

theorem releases_dels (w : Wan) : ∀ c ∈ w.releases, c = .del := by
  intro c hc
  obtain ⟨f, -, rfl⟩ := List.mem_map.1 hc
  rfl

theorem goDown_balanced {embmsIf : Bool} (ha : a.Succeeds) (hc : w.Consistent) (hw : w.Settled)
    (hrel : w.ReleasesAll embmsIf) :
    RmNonneg (w.goDown a s embmsIf).1.rm ∧ rmBalance (w.goDown a s embmsIf).1.rm = 0 := by
  have hlen : w.releases.length = w.activeFamilies.length := List.length_map _
  unfold goDown
  unfold ReleasesAll at hrel
  by_cases hmode : w.m_is_sta_mode = .q6Wan
  · rw [if_pos hmode]
    rw [if_neg (not_not.2 hmode)] at hrel
    by_cases hnull : w.ip_type = .null
    · rw [if_pos hnull] at hrel
      have hres : w.handle_down_evt_ex a s embmsIf = (w, s) := by simp [handle_down_evt_ex, hnull]
      have hidle : w.activeFamilies = [] := by
        refine List.eq_nil_iff_forall_not_mem.2 ?_
        intro f hf
        have := hc.active_has f (mem_activeFamilies.1 hf)
        simp [hnull] at this
      rw [hres]
      simpa using hw.closes (List.forall_mem_nil _) (by simp [hrel, hidle])
    · rw [if_neg hnull] at hrel
      cases embmsIf with
      | true =>
        rw [if_pos rfl] at hrel
        simp only [handle_down_evt_ex, hnull, if_true, if_false]
        by_cases htx : w.tx_prop = none
        · rw [if_pos htx] at hrel ⊢
          simpa using hw.closes (List.forall_mem_nil _) (by simpa using hrel)
        · rw [if_neg htx] at hrel ⊢
          exact hw.closes (by simp) (by simpa using hrel)
      | false =>
        rw [if_neg (by decide)] at hrel
        obtain ⟨gw, posted, heq, -⟩ := handle_down_evt_ex_eq (s := s) ha hc hnull
        rw [heq]
        split
        · exact hw.closes w.releases_dels (by omega)
        · next hgw =>
          refine hw.closes (by simp) ?_
          rw [hrel.1, hrel.2 (Bool.eq_false_of_not_eq_true hgw)]
          rfl
  · rw [if_neg hmode]
    rw [if_pos hmode] at hrel
    obtain ⟨gw, heq⟩ := handle_down_evt_eq (s := s) ha hc
    rw [heq]
    rw [List.append_assoc]
    refine hw.closes ?_ ?_
    · intro c hc
      rcases List.mem_append.1 hc with hc | hc
      · split at hc
        · cases hc
        · exact List.mem_singleton.1 hc
      · exact w.releases_dels c hc
    · rw [hrel, List.length_append, hlen]
      split <;> rfl

end Wan

namespace WanWorld

variable {s s' : WanWorld} {i : WanInput} {reports : List DownReport}

/-- Every interface that the event closes deletes what is left. -/
def DownsFit (s : WanWorld) (i : WanInput) : Prop :=
  s.Succeeds i ∧ ∀ w ∈ s.instances, w.closesOn i.event = true →
    w.ReleasesAll (s.table i w.ipa_if_num)

instance (s : WanWorld) (i : WanInput) : Decidable (s.DownsFit i) := by
  unfold DownsFit
  infer_instance

/-- **One step.** -/
theorem step_settled (hc : s.Consistent) (hs : ∀ w ∈ s.instances, w.Settled) (hm : s.DownsFit i)
    (h : s.step i = .ok (s', reports)) :
    (∀ w ∈ s'.instances, w.Settled) ∧ ∀ r ∈ reports, r.Balanced := by
  have hend := step_induct (I := fun done _ reports _ =>
      (∀ d ∈ done, d.Settled) ∧ ∀ r ∈ reports, r.Balanced) hc hm.1 ?_ ?_ h
      ⟨by simp, by simp⟩
  · rcases hend with ⟨-, rfl, rfl | ⟨iface, mode, props, embms, table, -, rfl⟩⟩ | ⟨st, hend, -⟩
    · exact ⟨hs, by simp⟩
    · refine ⟨?_, by simp⟩
      rcases create_cases { s with embmsIf := table } iface mode props embms with
        heq | ⟨-, rm, on, hrm, heq⟩
      · rw [heq]
        exact hs
      · rw [heq]
        intro w hw
        rcases List.mem_append.1 hw with hw | hw
        · exact hs w hw
        obtain rfl := List.mem_singleton.1 hw
        have hnil : RmNonneg [] := by
          intro p hp
          rw [List.prefix_nil.1 hp]
          decide
        rcases hrm with rfl | ⟨rfl, -, -⟩
        · exact ⟨hnil, by simp [Wan.activeFamilies]⟩
        · exact ⟨hnil.concat (by decide), by simp [Wan.activeFamilies]⟩
    · exact hend
  · rintro done w rest reports st w' st' hsuf hcw haw ⟨hdone, hrep⟩ hcl hev hch
    refine ⟨?_, hrep⟩
    intro d hd
    rcases List.mem_append.1 hd with hd | hd
    · exact hdone d hd
    · obtain rfl := List.mem_singleton.1 hd
      exact hch.settled (hs w (hsuf.subset List.mem_cons_self))
  · rintro done w rest reports st r st' hsuf hcw haw ⟨hdone, hrep⟩ hcl hr
    have hw : w ∈ s.instances := hsuf.subset List.mem_cons_self
    obtain ⟨h₁, -⟩ := Prod.mk.inj hr
    obtain rfl := AfterEvent.closed.inj h₁
    refine ⟨hdone, ?_⟩
    intro r hr
    rcases List.mem_append.1 hr with hr | hr
    · exact hrep r hr
    · obtain rfl := List.mem_singleton.1 hr
      exact Wan.goDown_balanced haw hcw (hs w hw) (hm.2 w hw hcl)

/-! ## Runs -/

/-- **Runs whose steps meet the condition.** No interface ever deletes more dependencies than it
    added, and each one that is closed deleted all of them. -/
theorem run_depends {tr : List (WanInput × List DownReport)} (run : Run step DownsFit {} tr s) :
    (∀ w ∈ s.instances, RmNonneg w.rm) ∧ ∀ x ∈ tr, ∀ r ∈ x.2, r.Balanced := by
  have hinv : s.Consistent ∧ (∀ w ∈ s.instances, w.Settled) ∧ ∀ x ∈ tr, ∀ r ∈ x.2, r.Balanced := by
    refine run.invariant (fun tr s => s.Consistent ∧ (∀ w ∈ s.instances, w.Settled) ∧
      ∀ x ∈ tr, ∀ r ∈ x.2, r.Balanced) ⟨consistent_init, by simp, by simp⟩ ?_
    rintro tr s i s' reports ⟨hc, hs, htr⟩ hm hstep
    obtain ⟨hs', hrep⟩ := step_settled hc hs hm hstep
    refine ⟨step_consistent hc hm.1 hstep, hs', ?_⟩
    intro x hx
    rcases List.mem_append.1 hx with hx | hx
    · exact htr x hx
    · rw [List.mem_singleton.1 hx]
      exact hrep
  exact ⟨fun w hw => (hinv.2.1 w hw).nonneg, hinv.2.2⟩

/-- A station with a default route and one client, and a modem interface with a default route. -/
def bothRelease : List WanInput :=
  [.answered (.linkUp 1 .wlanWan { tx_prop := some [.v4] }), .answered (.addrAdd 1 .v4 10 0),
    .answered (.neigh 1 7 .v4 11 0), .answered (.routeAdd .v4 1 true), .answered (.wlanLinkDown 1),
    .answered (.linkUp 2 .q6Wan modemProps), .answered (.addrAdd 2 .v4 12 0),
    .answered (.routeAdd .v4 2 true), .answered (.linkDown 2)]

/-- The theorem at a run in which both are closed. -/
theorem run_depends_both :
    ∃ tr s, Run step DownsFit {} tr s ∧
      (tr.map fun x => x.2.map fun r => r.rm.length).flatten = [4, 2] ∧
      (∀ w ∈ s.instances, RmNonneg w.rm) ∧ ∀ x ∈ tr, ∀ r ∈ x.2, r.Balanced := by
  have hend : (exec step {} bothRelease).toOption.map
      (fun x => (x.2.map fun y => y.2.map fun r => r.rm.length).flatten) = some [4, 2] := by
    decide +kernel
  have hall : allMeet step (fun s i => decide (s.DownsFit i)) {} bothRelease = true := by
    decide +kernel
  obtain ⟨s, tr, hexec, hend⟩ := exec_of_map hend
  have run := Run.of_exec_of_allMeet (C := DownsFit)
    (fun _ _ _ h => of_decide_eq_true h) hexec hall
  exact ⟨tr, s, run, by simpa using hend, (run_depends run).1,
    (run_depends run).2⟩

/-- A station that never had a client. -/
def noClient : List WanInput :=
  [.answered (.linkUp 1 .wlanWan { tx_prop := some [.v4] }), .answered (.wlanLinkDown 1)]

/-- It deletes a dependency that it never added. -/
theorem run_deletesTooOften :
    ∃ tr s, Run step Succeeds {} tr s ∧ ∃ x ∈ tr, ∃ r ∈ x.2, r.rm = [.del] ∧ ¬ RmNonneg r.rm := by
  have hend : (exec step {} noClient).toOption.map
      (fun x => (x.2.map fun y => y.2.map fun r => r.rm).flatten) = some [[.del]] := by
    decide +kernel
  have hall : allMeet step (fun s i => decide (s.Succeeds i)) {} noClient = true := by
    decide +kernel
  obtain ⟨s, tr, hexec, hend⟩ := exec_of_map hend
  have hrms : (tr.map fun y => y.2.map fun r => r.rm).flatten = [[.del]] := hend
  have hmem : [RmCall.del] ∈ (tr.map fun y => y.2.map fun r => r.rm).flatten := by simp [hrms]
  obtain ⟨l, hl, hin⟩ := List.mem_flatten.1 hmem
  obtain ⟨x, hx, rfl⟩ := List.mem_map.1 hl
  obtain ⟨r, hr, hrm⟩ := List.mem_map.1 hin
  refine ⟨tr, s, Run.of_exec_of_allMeet (C := Succeeds)
    (fun _ _ _ h => of_decide_eq_true h) hexec hall, x, hx, r, hr, hrm, ?_⟩
  intro h
  have := h [.del] (hrm ▸ List.prefix_refl _)
  exact absurd this (by decide)

end WanWorld

end Nx508j.Ipacm
