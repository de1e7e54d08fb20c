import Nx508j.Ipacm.RmDepend

/-! # The dependencies in the kernel

A row is set up while both of its resources are up. What a row adds in the kernel is what it deletes
there, as long as no call changes the bypass flag of a row that is set up. -/

namespace Nx508j.Ipacm

open Nx508j.Lib

/-! ## Which resources are up -/

namespace RmOp

/-- The additions of a resource less its deletions. -/
def balance (rm : IpaRmResourceName) : List RmOp → Int
  | [] => 0
  | .add rm1 _ :: ops => balance rm ops + if rm1 = rm then 1 else 0
  | .del rm1 :: ops => balance rm ops - if rm1 = rm then 1 else 0

/-- The resource was added and not deleted since then. A deletion of `IPA_RM_RESOURCE_Q6_CONS` that
    leaves a balance of one does not count. -/
def IsUp (ops : List RmOp) (rm1 : IpaRmResourceName) : Prop :=
  ∃ i rxBypassIpa, ops[i]? = some (.add rm1 rxBypassIpa) ∧
    ∀ j, i < j → ops[j]? = some (.del rm1) →
      rm1 = .q6Cons ∧ balance .q6Cons (ops.take (j + 1)) = 1

variable {ops : List RmOp} {rm1 rm1' : IpaRmResourceName} {rxBypassIpa : Bool}

theorem balance_append (rm : IpaRmResourceName) (ops ops' : List RmOp) :
    balance rm (ops ++ ops') = balance rm ops + balance rm ops' := by
  induction ops with
  | nil => exact (Int.zero_add _).symm
  | cons op ops ih =>
    cases op with
    | add rm1 _ | del rm1 =>
      rw [List.cons_append, balance, balance, ih]
      omega

theorem getElem?_snoc (ops : List RmOp) (op : RmOp) (i : Nat) : (ops ++ [op])[i]? =
    if i < ops.length then ops[i]? else if i = ops.length then some op else none := by
  split
  · next hi => exact List.getElem?_append_left hi
  split
  · next hi => rw [hi, List.getElem?_concat_length]
  · next hlt hne => exact List.getElem?_eq_none (by simp; omega)

theorem lt_of_getElem? {op : RmOp} {i : Nat} (h : ops[i]? = some op) : i < ops.length :=
  (List.getElem?_eq_some_iff.1 h).1

theorem isUp_snoc_add : IsUp (ops ++ [.add rm1' rxBypassIpa]) rm1 ↔ IsUp ops rm1 ∨ rm1' = rm1 := by
  constructor
  · rintro ⟨i, b, hi, hsince⟩
    rw [getElem?_snoc] at hi
    split at hi
    · next hlt =>
      refine .inl ⟨i, b, hi, fun j hij hj => ?_⟩
      have hjlt := lt_of_getElem? hj
      have h := hsince j hij (by rw [getElem?_snoc, if_pos hjlt]; exact hj)
      rwa [List.take_append_of_le_length hjlt] at h
    split at hi
    · injection hi with hi
      injection hi with hrm
      exact .inr hrm
    · cases hi
  · rintro (⟨i, b, hi, hsince⟩ | rfl)
    · refine ⟨i, b, ?_, fun j hij hj => ?_⟩
      · rw [getElem?_snoc, if_pos (lt_of_getElem? hi)]
        exact hi
      · rw [getElem?_snoc] at hj
        split at hj
        · next hjlt =>
          rw [List.take_append_of_le_length hjlt]
          exact hsince j hij hj
        split at hj <;> cases hj
    · refine ⟨ops.length, rxBypassIpa, ?_, fun j hij hj => ?_⟩
      · rw [List.getElem?_concat_length]
      · rw [getElem?_snoc, if_neg (by omega), if_neg (by omega)] at hj
        cases hj

theorem isUp_snoc_del : IsUp (ops ++ [.del rm1']) rm1 ↔ IsUp ops rm1 ∧
    (rm1' = rm1 → rm1 = .q6Cons ∧ balance .q6Cons (ops ++ [.del rm1']) = 1) := by
  constructor
  · rintro ⟨i, b, hi, hsince⟩
    have hilt : i < ops.length := by
      rw [getElem?_snoc] at hi
      split at hi
      · assumption
      · split at hi <;> cases hi
    rw [getElem?_snoc, if_pos hilt] at hi
    refine ⟨⟨i, b, hi, fun j hij hj => ?_⟩, ?_⟩
    · have hjlt := lt_of_getElem? hj
      have h := hsince j hij (by rw [getElem?_snoc, if_pos hjlt]; exact hj)
      rwa [List.take_append_of_le_length hjlt] at h
    · rintro rfl
      have h := hsince ops.length hilt (List.getElem?_concat_length ..)
      rwa [List.take_of_length_le (by simp)] at h
  · rintro ⟨⟨i, b, hi, hsince⟩, hlast⟩
    have hilt := lt_of_getElem? hi
    refine ⟨i, b, ?_, fun j hij hj => ?_⟩
    · rw [getElem?_snoc, if_pos hilt]
      exact hi
    · rw [getElem?_snoc] at hj
      split at hj
      · next hjlt =>
        rw [List.take_append_of_le_length hjlt]
        exact hsince j hij hj
      split at hj
      · next hlen =>
        injection hj with hj
        injection hj with hrm
        rw [List.take_of_length_le (by simp; omega)]
        exact hlast hrm
      · cases hj

end RmOp

/-! ## The rows of a run -/

open RmConfig IpaRmClient RmOp

theorem initRow_ne {i : Nat} (hi : i < ipaMaxPrivateSubnetEntries) :
    (initRow i).producerRm1 ≠ (initRow i).consumerRm1 ∧
      (initRow i).producerRm1 ≠ .q6Cons := by
  revert i
  decide

theorem initRow_owns {i j : Nat} (hi : i < ipaMaxPrivateSubnetEntries)
    (hj : j < ipaMaxPrivateSubnetEntries) (hij : i ≠ j) {dep : IpaIocRmDependency}
    (h : (initRow j).owns dep = true) : (initRow i).owns dep = false := by
  have hrows : ∀ i < ipaMaxPrivateSubnetEntries, ∀ j < ipaMaxPrivateSubnetEntries, i ≠ j →
      (initRow i).owns (initRow j).dep1 = false ∧ (initRow i).owns (initRow j).dep2 = false := by
    decide
  rcases of_decide_eq_true h with rfl | rfl
  · exact (hrows i hi j hj hij).1
  · exact (hrows i hi j hj hij).2

/-- The rows have the names of `Init`, and their flags say which resources are up. -/
structure RowsLevel (s : RmConfig) (ops : List RmOp) : Prop where
  names : ∀ i < ipaMaxPrivateSubnetEntries, (s.ipaRmTbl.get i).names = (initRow i).names
  level : ∀ i < ipaMaxPrivateSubnetEntries, (s.ipaRmTbl.get i).Level
    (IsUp ops (initRow i).producerRm1) (IsUp ops (initRow i).consumerRm1)
  balance : s.ipaRmA2Check = balance .q6Cons ops

namespace RowsLevel

variable {s s' : RmConfig} {ops : List RmOp} {op : RmOp} {calls : List RmIoctl} {i : Nat}

theorem ne (h : RowsLevel s ops) (hi : i < ipaMaxPrivateSubnetEntries) :
    (s.ipaRmTbl.get i).producerRm1 ≠ (s.ipaRmTbl.get i).consumerRm1 := by
  rw [producerRm1_of_names (h.names i hi), consumerRm1_of_names (h.names i hi)]
  exact (initRow_ne hi).1

theorem init : RowsLevel RmConfig.init [] := by
  have hdown : ∀ rm1, ¬ IsUp [] rm1 := by
    rintro rm1 ⟨i, b, hi, -⟩
    cases hi
  have hflags : ∀ i < ipaMaxPrivateSubnetEntries, (initRow i).producer1Up = false ∧
      (initRow i).consumer1Up = false ∧ (initRow i).rmSet = false := by decide
  refine ⟨fun i _ => rfl, fun i hi => ?_, rfl⟩
  obtain ⟨hp, hc, hset⟩ := hflags i hi
  exact ⟨iff_of_false (Bool.eq_false_iff.1 hp) (hdown _),
    iff_of_false (Bool.eq_false_iff.1 hc) (hdown _),
    iff_of_false (Bool.eq_false_iff.1 hset) fun h => hdown _ h.1⟩

theorem add (h : RowsLevel s ops) (rm1 : IpaRmResourceName) (rxBypassIpa : Bool) :
    RowsLevel (s.addRmDepend rm1 rxBypassIpa).1 (ops ++ [.add rm1 rxBypassIpa]) := by
  refine ⟨fun i hi => ?_, fun i hi => ?_, ?_⟩
  · rw [addRmDepend_row s rm1 rxBypassIpa hi, add_names _ (h.ne hi), h.names i hi]
  · have hlevel := (h.level i hi).add (h.ne hi) rm1 rxBypassIpa
    rw [producerRm1_of_names (h.names i hi), consumerRm1_of_names (h.names i hi)] at hlevel
    rw [addRmDepend_row s rm1 rxBypassIpa hi]
    exact hlevel.imp isUp_snoc_add.symm isUp_snoc_add.symm
  · unfold addRmDepend
    rw [balance_append, h.balance]
    simp only [RmOp.balance]
    split <;> simp

theorem del (h : RowsLevel s ops) (rm1 : IpaRmResourceName) :
    RowsLevel (s.delRmDepend rm1).1 (ops ++ [.del rm1]) := by
  have hbalance : (s.delRmDepend rm1).1.ipaRmA2Check = RmOp.balance .q6Cons (ops ++ [.del rm1]) := by
    unfold delRmDepend
    rw [balance_append, h.balance]
    simp only [RmOp.balance]
    split <;> simp
    rfl
  refine ⟨fun i hi => ?_, fun i hi => ?_, hbalance⟩
  · rw [delRmDepend_row s rm1 hi, del_names _ (h.ne hi), h.names i hi]
  · have hlevel := (h.level i hi).del (h.ne hi) rm1 (s.delRmDepend rm1).1.ipaRmA2Check
    rw [producerRm1_of_names (h.names i hi), consumerRm1_of_names (h.names i hi),
      ← delRmDepend_row s rm1 hi, hbalance] at hlevel
    refine hlevel.imp ?_ isUp_snoc_del.symm
    rw [isUp_snoc_del]
    refine and_congr_right fun _ => ⟨fun hne heq => absurd heq hne, fun himp heq => ?_⟩
    exact (initRow_ne hi).2 (himp heq).1

theorem step (h : RowsLevel s ops) (hstep : rmStep s op = .ok (s', calls)) :
    RowsLevel s' (ops ++ [op]) := by
  cases op with
  | add rm1 rxBypassIpa =>
    rw [(rmStep_add hstep).1]
    exact h.add rm1 rxBypassIpa
  | del rm1 =>
    rw [(rmStep_del hstep).1]
    exact h.del rm1

end RowsLevel

/-! ## The requests of a run -/

/-- The requests of all calls, in order. -/
def rmCalls (tr : List (RmOp × List RmIoctl)) : List RmIoctl := tr.flatMap (·.2)

/-- The dependencies that the kernel has, if it had none at the start. -/
def outstanding (tr : List (RmOp × List RmIoctl)) : Finset IpaIocRmDependency :=
  held ∅ (rmCalls tr)

/-- The requests that are about row `i`. -/
def rowCalls (i : Nat) (tr : List (RmOp × List RmIoctl)) : List RmIoctl :=
  (rmCalls tr).filter fun call => (initRow i).owns call.item

/-- An addition does not change the bypass flag of a row that is set up. -/
def RmOp.KeepsBypass (s : RmConfig) : RmOp → Prop
  | .add rm1 rxBypassIpa => ∀ i < ipaMaxPrivateSubnetEntries,
      rm1 = (s.ipaRmTbl.get i).producerRm1 → (s.ipaRmTbl.get i).rmSet = true →
        rxBypassIpa = (s.ipaRmTbl.get i).rxBypassIpa
  | .del _ => True

instance (s : RmConfig) : DecidablePred (RmOp.KeepsBypass s)
  | .add _ _ => inferInstanceAs (Decidable (∀ _ < _, _))
  | .del _ => inferInstanceAs (Decidable True)

/-- **The kernel has what the rows say.** The requests about a row are sessions that added and then
    deleted the same dependencies, and a last one if the row is set up. -/
structure RowsExact (s : RmConfig) (tr : List (RmOp × List RmIoctl)) : Prop where
  sessions : ∀ i < ipaMaxPrivateSubnetEntries,
    Sessions (s.ipaRmTbl.get i).current (rowCalls i tr)
  rows : ∀ i < ipaMaxPrivateSubnetEntries,
    (outstanding tr).filter (fun dep => (initRow i).owns dep = true) =
      (s.ipaRmTbl.get i).current.toFinset
  outstanding : ∀ dep, dep ∈ outstanding tr ↔
    ∃ i < ipaMaxPrivateSubnetEntries, dep ∈ (s.ipaRmTbl.get i).current

variable {s s' : RmConfig} {op : RmOp} {calls : List RmIoctl} {tr : List (RmOp × List RmIoctl)}
  {f : IpaRmClient → IpaRmClient × List RmIoctl} {tbl : Region IpaRmClient}

theorem rmCalls_snoc (tr : List (RmOp × List RmIoctl)) (op : RmOp) (calls : List RmIoctl) :
    rmCalls (tr ++ [(op, calls)]) = rmCalls tr ++ calls := by
  simp [rmCalls]

theorem rowCalls_snoc (i : Nat) (tr : List (RmOp × List RmIoctl)) (op : RmOp)
    (calls : List RmIoctl) : rowCalls i (tr ++ [(op, calls)]) =
      rowCalls i tr ++ calls.filter fun call => (initRow i).owns call.item := by
  unfold rowCalls
  rw [rmCalls_snoc, List.filter_append]

theorem filter_forRows (howned : ∀ j < ipaMaxPrivateSubnetEntries, ∀ call ∈ (f (tbl.get j)).2,
      (initRow j).owns call.item = true) {i : Nat} (hi : i < ipaMaxPrivateSubnetEntries) :
    (forRows f tbl).2.filter (fun call => (initRow i).owns call.item) = (f (tbl.get i)).2 := by
  have hself : (f (tbl.get i)).2.filter (fun call => (initRow i).owns call.item) =
      (f (tbl.get i)).2 := List.filter_eq_self.2 (howned i hi)
  have hother : ∀ j < ipaMaxPrivateSubnetEntries, i ≠ j →
      (f (tbl.get j)).2.filter (fun call => (initRow i).owns call.item) = [] := by
    intro j hj hij
    refine List.filter_eq_nil_iff.2 fun call hcall => ?_
    rw [initRow_owns hi hj hij (howned j hj call hcall)]
    exact Bool.false_ne_true
  rw [forRows_eq, List.filter_append, List.filter_append]
  obtain rfl | rfl | rfl : i = 0 ∨ i = 1 ∨ i = 2 := by
    unfold ipaMaxPrivateSubnetEntries at hi
    omega
  · rw [hself, hother 1 (by decide) (by decide), hother 2 (by decide) (by decide)]
    simp
  · rw [hself, hother 0 (by decide) (by decide), hother 2 (by decide) (by decide)]
    simp
  · rw [hself, hother 0 (by decide) (by decide), hother 1 (by decide) (by decide)]
    simp

theorem rmStep_cases {ops : List RmOp} (hrows : RowsLevel s ops) (hkeep : op.KeepsBypass s)
    (hstep : rmStep s op = .ok (s', calls)) :
    ∃ f, calls = (forRows f s.ipaRmTbl).2 ∧ ∀ j < ipaMaxPrivateSubnetEntries,
      s'.ipaRmTbl.get j = (f (s.ipaRmTbl.get j)).1 ∧
      Turn (s.ipaRmTbl.get j) (f (s.ipaRmTbl.get j)).1 (f (s.ipaRmTbl.get j)).2 ∧
      ∀ call ∈ (f (s.ipaRmTbl.get j)).2, (initRow j).owns call.item = true := by
  cases op with
  | add rm1 rxBypassIpa =>
    obtain ⟨rfl, rfl⟩ := rmStep_add hstep
    refine ⟨(·.add rm1 rxBypassIpa), addRmDepend_calls s rm1 rxBypassIpa, fun j hj => ?_⟩
    have hturn := add_turn (hrows.ne hj) (hkeep j hj)
    refine ⟨addRmDepend_row s rm1 rxBypassIpa hj, hturn, ?_⟩
    have howned := hturn.owned (add_names _ (hrows.ne hj) rm1 rxBypassIpa)
    rwa [owns_of_names (hrows.names j hj)] at howned
  | del rm1 =>
    obtain ⟨rfl, rfl⟩ := rmStep_del hstep
    refine ⟨(·.del rm1 (s.delRmDepend rm1).1.ipaRmA2Check), delRmDepend_calls s rm1,
      fun j hj => ?_⟩
    have hturn := del_turn (hrows.ne hj) rm1 (s.delRmDepend rm1).1.ipaRmA2Check
    refine ⟨delRmDepend_row s rm1 hj, hturn, ?_⟩
    have howned := hturn.owned (del_names _ (hrows.ne hj) rm1 _)
    rwa [owns_of_names (hrows.names j hj)] at howned

theorem rmStep_turn {ops : List RmOp} (hrows : RowsLevel s ops) (hkeep : op.KeepsBypass s)
    (hstep : rmStep s op = .ok (s', calls)) {i : Nat} (hi : i < ipaMaxPrivateSubnetEntries) :
    Turn (s.ipaRmTbl.get i) (s'.ipaRmTbl.get i)
      (calls.filter fun call => (initRow i).owns call.item) := by
  obtain ⟨f, rfl, hf⟩ := rmStep_cases hrows hkeep hstep
  rw [(hf i hi).1, filter_forRows (fun j hj => (hf j hj).2.2) hi]
  exact (hf i hi).2.1

theorem rmStep_owned {ops : List RmOp} (hrows : RowsLevel s ops) (hkeep : op.KeepsBypass s)
    (hstep : rmStep s op = .ok (s', calls)) :
    ∀ call ∈ calls, ∃ i < ipaMaxPrivateSubnetEntries, (initRow i).owns call.item = true := by
  obtain ⟨f, rfl, hf⟩ := rmStep_cases hrows hkeep hstep
  intro call hcall
  rw [forRows_eq, List.mem_append, List.mem_append] at hcall
  rcases hcall with (hcall | hcall) | hcall
  · exact ⟨0, by decide, (hf 0 (by decide)).2.2 call hcall⟩
  · exact ⟨1, by decide, (hf 1 (by decide)).2.2 call hcall⟩
  · exact ⟨2, by decide, (hf 2 (by decide)).2.2 call hcall⟩

/-! ## Runs -/

theorem run_rowsLevel (hrun : Run rmStep (fun _ _ => True) RmConfig.init tr s) :
    RowsLevel s (tr.map Prod.fst) := by
  refine hrun.invariant (fun tr s => RowsLevel s (tr.map Prod.fst)) .init ?_
  intro tr s op s' calls hrows _ hstep
  rw [List.map_append]
  exact hrows.step hstep

theorem run_sessions (hrun : Run rmStep (fun s op => op.KeepsBypass s) RmConfig.init tr s) :
    (∀ i < ipaMaxPrivateSubnetEntries, Sessions (s.ipaRmTbl.get i).current (rowCalls i tr)) ∧
    ∀ call ∈ rmCalls tr, ∃ i < ipaMaxPrivateSubnetEntries,
      (initRow i).owns call.item = true := by
  refine (hrun.invariant (fun tr s => RowsLevel s (tr.map Prod.fst) ∧
    (∀ i < ipaMaxPrivateSubnetEntries, Sessions (s.ipaRmTbl.get i).current (rowCalls i tr)) ∧
    ∀ call ∈ rmCalls tr, ∃ i < ipaMaxPrivateSubnetEntries,
      (initRow i).owns call.item = true) ?_ ?_).2
  · refine ⟨.init, fun i hi => ?_, fun call hcall => nomatch hcall⟩
    have hset : (initRow i).current = [] := by
      revert i
      decide
    exact hset.symm ▸ Sessions.nil
  · rintro tr s op s' calls ⟨hrows, hsessions, howned⟩ hkeep hstep
    refine ⟨?_, fun i hi => ?_, fun call hcall => ?_⟩
    · rw [List.map_append]
      exact hrows.step hstep
    · rw [rowCalls_snoc]
      exact (rmStep_turn hrows hkeep hstep hi).sessions (hsessions i hi)
    · rw [rmCalls_snoc, List.mem_append] at hcall
      rcases hcall with hcall | hcall
      · exact howned call hcall
      · exact rmStep_owned hrows hkeep hstep call hcall

theorem run_rowsExact (hrun : Run rmStep (fun s op => op.KeepsBypass s) RmConfig.init tr s) :
    RowsExact s tr := by
  obtain ⟨hsessions, howned⟩ := run_sessions hrun
  have hrows : ∀ i < ipaMaxPrivateSubnetEntries,
      (outstanding tr).filter (fun dep => (initRow i).owns dep = true) =
        (s.ipaRmTbl.get i).current.toFinset := by
    intro i hi
    unfold outstanding
    rw [held_filter (initRow i).owns, Finset.filter_empty]
    exact (hsessions i hi).held_eq
  refine ⟨hsessions, hrows, fun dep => ⟨fun hdep => ?_, ?_⟩⟩
  · obtain ⟨i, hi, hown⟩ : ∃ i < ipaMaxPrivateSubnetEntries, (initRow i).owns dep = true := by
      rcases mem_of_mem_held hdep with hnil | hitem
      · exact absurd hnil (Finset.notMem_empty dep)
      · obtain ⟨call, hcall, rfl⟩ := List.mem_map.1 hitem
        exact howned call hcall
    refine ⟨i, hi, ?_⟩
    rw [← List.mem_toFinset, ← hrows i hi]
    exact Finset.mem_filter.2 ⟨hdep, hown⟩
  · rintro ⟨i, hi, hdep⟩
    rw [← List.mem_toFinset, ← hrows i hi] at hdep
    exact (Finset.mem_filter.1 hdep).1

/-- **The dependencies.** In every run a row is set up just while its two resources are up, and the
    counter is the balance of `IPA_RM_RESOURCE_Q6_CONS`. If no addition changed the bypass flag of a
    row that was set up, the kernel has what the rows say, and each row deleted what it had added. -/
theorem run_rm_depend (hrun : Run rmStep (fun _ _ => True) RmConfig.init tr s) :
    RowsLevel s (tr.map Prod.fst) ∧
    (Run rmStep (fun s op => op.KeepsBypass s) RmConfig.init tr s → RowsExact s tr) :=
  ⟨run_rowsLevel hrun, run_rowsExact⟩

/-- USB comes up twice and the modem once: the row of the two is set up once. -/
theorem run_rm_depend_usb : ∃ s tr, RowsLevel s (tr.map Prod.fst) ∧ RowsExact s tr ∧
    tr.map Prod.fst = [.add .usbProd false, .add .q6Cons false, .add .usbProd false] ∧
    outstanding tr = {⟨.usbProd, .q6Cons⟩, ⟨.q6Prod, .usbCons⟩} := by
  obtain ⟨s, tr, hkeep, hops, hkernel⟩ : ∃ s tr,
      Run rmStep (fun s op => op.KeepsBypass s) RmConfig.init tr s ∧
      tr.map Prod.fst = [.add .usbProd false, .add .q6Cons false, .add .usbProd false] ∧
      outstanding tr = {⟨.usbProd, .q6Cons⟩, ⟨.q6Prod, .usbCons⟩} :=
    ⟨_, _, .cons rfl (by decide) (.cons rfl (by decide) (.cons rfl (by decide) .nil)), rfl,
      by decide⟩
  obtain ⟨hlevel, hexact⟩ := run_rm_depend (hkeep.imp fun _ _ _ => trivial)
  exact ⟨s, tr, hlevel, hexact hkeep, hops, hkernel⟩

/-- No count is kept: one deletion of a resource that was added twice tears its rows down. And a flag
    that changes while the row is set up leaves the first dependency behind. -/
theorem run_rm_depend_uncounted :
    (¬ ∀ s tr, Run rmStep (fun _ _ => True) RmConfig.init tr s →
      ∀ i < ipaMaxPrivateSubnetEntries, 0 < balance (initRow i).producerRm1 (tr.map Prod.fst) →
        0 < balance (initRow i).consumerRm1 (tr.map Prod.fst) →
          (s.ipaRmTbl.get i).rmSet = true) ∧
    ¬ ∀ s tr, Run rmStep (fun _ _ => True) RmConfig.init tr s →
      ∀ i < ipaMaxPrivateSubnetEntries, (s.ipaRmTbl.get i).rmSet = false →
        (outstanding tr).filter (fun dep => (initRow i).owns dep = true) = ∅ := by
  constructor
  · intro hall
    obtain ⟨s, tr, hexec, hprod, hcons, hset⟩ : ∃ s tr, exec rmStep RmConfig.init
        [.add .usbProd false, .add .q6Cons false, .add .usbProd false, .del .usbProd] =
          .ok (s, tr) ∧
        0 < balance .usbProd (tr.map Prod.fst) ∧ 0 < balance .q6Cons (tr.map Prod.fst) ∧
        (s.ipaRmTbl.get 1).rmSet = false := ⟨_, _, rfl, by decide, by decide, by decide⟩
    have h := hall s tr (Run.of_exec hexec (by simp)) 1 (by decide) hprod hcons
    rw [hset] at h
    cases h
  · intro hall
    obtain ⟨s, tr, hexec, hset, hleft⟩ : ∃ s tr, exec rmStep RmConfig.init
        [.add .usbProd false, .add .q6Cons false, .add .usbProd true, .del .usbProd] =
          .ok (s, tr) ∧ (s.ipaRmTbl.get 1).rmSet = false ∧
        (outstanding tr).filter (fun dep => (initRow 1).owns dep = true) ≠ ∅ :=
      ⟨_, _, rfl, by decide, by decide⟩
    exact hleft (hall s tr (Run.of_exec hexec (by simp)) 1 (by decide) hset)

end Nx508j.Ipacm
