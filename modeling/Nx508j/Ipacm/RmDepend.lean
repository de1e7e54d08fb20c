import Nx508j.Lib.Ledger
import Nx508j.Lib.Memory

/-! # The resource manager dependencies of the configuration

`IPACM_Config` keeps a table of pairs of resources. When both resources of a row are up it adds the
two dependencies of the row in the kernel, and when one of them goes down it deletes them. There is
no count of the additions: a resource is up or down. Only `IPA_RM_RESOURCE_Q6_CONS`, which the
default routes of both address families name, is counted, and one deletion of it is let pass. -/

namespace Nx508j.Ipacm

open Nx508j.Lib

/-- `ipa_rm_resource_name`: the resources the table names, and the others. -/
inductive IpaRmResourceName where
  | q6Prod
  | usbProd
  | wlanProd
  | hsicProd
  | q6Cons
  | usbCons
  | wlanCons
  | other (code : Nat)
deriving DecidableEq, Repr

/-- `struct ipa_ioc_rm_dependency`. -/
structure IpaIocRmDependency where
  resourceName : IpaRmResourceName
  dependsOnName : IpaRmResourceName
deriving DecidableEq, Repr

/-- The requests to the kernel: `IPA_IOC_RM_ADD_DEPENDENCY` takes a dependency and
    `IPA_IOC_RM_DEL_DEPENDENCY` drops it. -/
abbrev RmIoctl := Entry IpaIocRmDependency

/-- `ipa_rm_client`, a row of the table. -/
structure IpaRmClient where
  producerRm1 : IpaRmResourceName
  consumerRm1 : IpaRmResourceName
  producerRm2 : IpaRmResourceName
  consumerRm2 : IpaRmResourceName
  producer1Up : Bool := false
  consumer1Up : Bool := false
  rmSet : Bool := false
  rxBypassIpa : Bool := false
deriving DecidableEq, Repr

/-- `IPA_MAX_PRIVATE_SUBNET_ENTRIES`, which bounds the loops over the table. -/
def ipaMaxPrivateSubnetEntries : Nat := 3

/-- `IPA_MAX_RM_ENTRY`. -/
def ipaMaxRmEntry : Nat := 6

namespace IpaRmClient

def dep1 (row : IpaRmClient) : IpaIocRmDependency := ⟨row.producerRm1, row.consumerRm1⟩

def dep2 (row : IpaRmClient) : IpaIocRmDependency := ⟨row.producerRm2, row.consumerRm2⟩

/-- The dependencies that a row adds or deletes: the first is skipped for a producer that bypasses
    the IPA. -/
def deps (row : IpaRmClient) : List IpaIocRmDependency :=
  if row.rxBypassIpa then [row.dep2] else [row.dep1, row.dep2]

/-- Set up the dependencies if the other side is up too. -/
def setUp (row : IpaRmClient) (otherUp : Bool) : IpaRmClient × List RmIoctl :=
  if otherUp = true ∧ row.rmSet = false then ({ row with rmSet := true }, row.deps.map .take)
  else (row, [])

/-- Delete the dependencies if they are set up. -/
def tearDown (row : IpaRmClient) : IpaRmClient × List RmIoctl :=
  if row.rmSet = true then ({ row with rmSet := false }, row.deps.map .drop)
  else (row, [])

/-- The body of the loop of `AddRmDepend`. -/
def add (row : IpaRmClient) (rm1 : IpaRmResourceName) (rxBypassIpa : Bool) :
    IpaRmClient × List RmIoctl :=
  let (row, calls) :=
    if rm1 = row.producerRm1 then
      let row := { row with producer1Up := true, rxBypassIpa := rxBypassIpa }
      row.setUp row.consumer1Up
    else (row, [])
  if rm1 = row.consumerRm1 then
    let row := { row with consumer1Up := true }
    let (row, more) := row.setUp row.producer1Up
    (row, calls ++ more)
  else (row, calls)

/-- The body of the loop of `DelRmDepend`, after the counter was decremented. -/
def del (row : IpaRmClient) (rm1 : IpaRmResourceName) (ipaRmA2Check : Int) :
    IpaRmClient × List RmIoctl :=
  let (row, calls) :=
    if rm1 = row.producerRm1 then
      let (row, calls) := row.tearDown
      ({ row with producer1Up := false, rxBypassIpa := false }, calls)
    else (row, [])
  if rm1 = row.consumerRm1 then
    -- `continue`: the other default route still needs the row
    if row.consumerRm1 = .q6Cons ∧ ipaRmA2Check = 1 then (row, calls)
    else
      let (row, more) := row.tearDown
      ({ row with consumer1Up := false }, calls ++ more)
  else (row, calls)

end IpaRmClient

/-- The part of `IPACM_Config` that is about the resource manager. -/
structure RmConfig where
  ipaRmTbl : Region IpaRmClient
  ipaRmA2Check : Int

namespace RmConfig

/-- The rows that `Init` fills in; `memset` has cleared the table before. -/
def initRow : Nat → IpaRmClient
  | 0 => ⟨.wlanProd, .q6Cons, .q6Prod, .wlanCons, false, false, false, false⟩
  | 1 => ⟨.usbProd, .q6Cons, .q6Prod, .usbCons, false, false, false, false⟩
  | 2 => ⟨.wlanProd, .usbCons, .usbProd, .wlanCons, false, false, false, false⟩
  | _ => ⟨.other 0, .other 0, .other 0, .other 0, false, false, false, false⟩

def init : RmConfig where
  ipaRmTbl := ⟨ipaMaxRmEntry, initRow⟩
  ipaRmA2Check := 0

/-- The loop over the rows. -/
def forRows (f : IpaRmClient → IpaRmClient × List RmIoctl) (tbl : Region IpaRmClient) :
    Region IpaRmClient × List RmIoctl :=
  (List.range ipaMaxPrivateSubnetEntries).foldl (fun (tbl, calls) i =>
    let (row, more) := f (tbl.get i)
    (tbl.set i row, calls ++ more)) (tbl, [])

/-- `AddRmDepend`, with the requests it makes. They all succeed. -/
def addRmDepend (s : RmConfig) (rm1 : IpaRmResourceName) (rxBypassIpa : Bool) :
    RmConfig × List RmIoctl :=
  let ipaRmA2Check := if rm1 = .q6Cons then s.ipaRmA2Check + 1 else s.ipaRmA2Check
  let (ipaRmTbl, calls) := forRows (·.add rm1 rxBypassIpa) s.ipaRmTbl
  (⟨ipaRmTbl, ipaRmA2Check⟩, calls)

/-- `DelRmDepend`, with the requests it makes. They all succeed. -/
def delRmDepend (s : RmConfig) (rm1 : IpaRmResourceName) : RmConfig × List RmIoctl :=
  let ipaRmA2Check := if rm1 = .q6Cons then s.ipaRmA2Check - 1 else s.ipaRmA2Check
  let (ipaRmTbl, calls) := forRows (·.del rm1 ipaRmA2Check) s.ipaRmTbl
  (⟨ipaRmTbl, ipaRmA2Check⟩, calls)

end RmConfig

/-- A call of the interface. -/
inductive RmOp where
  | add (rm1 : IpaRmResourceName) (rxBypassIpa : Bool)
  | del (rm1 : IpaRmResourceName)
deriving DecidableEq, Repr

/-- A call, with the requests it made as its result. -/
def rmStep (s : RmConfig) : RmOp → Except Fault (RmConfig × List RmIoctl)
  | .add rm1 rxBypassIpa => .ok (s.addRmDepend rm1 rxBypassIpa)
  | .del rm1 => .ok (s.delRmDepend rm1)

/-! ## The loop -/

namespace RmConfig

theorem forRows_eq (f : IpaRmClient → IpaRmClient × List RmIoctl) (tbl : Region IpaRmClient) :
    forRows f tbl = (((tbl.set 0 (f (tbl.get 0)).1).set 1 (f (tbl.get 1)).1).set 2
        (f (tbl.get 2)).1,
      (f (tbl.get 0)).2 ++ (f (tbl.get 1)).2 ++ (f (tbl.get 2)).2) := by
  have hrange : List.range ipaMaxPrivateSubnetEntries = [0, 1, 2] := rfl
  unfold forRows
  rw [hrange]
  rfl

variable {i : Nat} (s : RmConfig)

/-- Each row for itself. -/
theorem forRows_get (f : IpaRmClient → IpaRmClient × List RmIoctl) (tbl : Region IpaRmClient)
    (hi : i < ipaMaxPrivateSubnetEntries) :
    (forRows f tbl).1.get i = (f (tbl.get i)).1 := by
  rw [forRows_eq]
  obtain rfl | rfl | rfl : i = 0 ∨ i = 1 ∨ i = 2 := by
    unfold ipaMaxPrivateSubnetEntries at hi
    omega
  · simp [Region.get_set]
  · simp [Region.get_set]
  · simp

theorem rmStep_add {s s' : RmConfig} {rm1 : IpaRmResourceName} {rxBypassIpa : Bool}
    {calls : List RmIoctl} (h : rmStep s (.add rm1 rxBypassIpa) = .ok (s', calls)) :
    s' = (s.addRmDepend rm1 rxBypassIpa).1 ∧ calls = (s.addRmDepend rm1 rxBypassIpa).2 := by
  rw [Except.ok.inj h]
  exact ⟨rfl, rfl⟩

theorem rmStep_del {s s' : RmConfig} {rm1 : IpaRmResourceName} {calls : List RmIoctl}
    (h : rmStep s (.del rm1) = .ok (s', calls)) :
    s' = (s.delRmDepend rm1).1 ∧ calls = (s.delRmDepend rm1).2 := by
  rw [Except.ok.inj h]
  exact ⟨rfl, rfl⟩

theorem addRmDepend_row (rm1 : IpaRmResourceName) (rxBypassIpa : Bool)
    (hi : i < ipaMaxPrivateSubnetEntries) : (s.addRmDepend rm1 rxBypassIpa).1.ipaRmTbl.get i =
      ((s.ipaRmTbl.get i).add rm1 rxBypassIpa).1 :=
  forRows_get (·.add rm1 rxBypassIpa) s.ipaRmTbl hi

theorem addRmDepend_calls (rm1 : IpaRmResourceName) (rxBypassIpa : Bool) :
    (s.addRmDepend rm1 rxBypassIpa).2 = (forRows (·.add rm1 rxBypassIpa) s.ipaRmTbl).2 :=
  rfl

theorem delRmDepend_row (rm1 : IpaRmResourceName) (hi : i < ipaMaxPrivateSubnetEntries) :
    (s.delRmDepend rm1).1.ipaRmTbl.get i =
      ((s.ipaRmTbl.get i).del rm1 (s.delRmDepend rm1).1.ipaRmA2Check).1 :=
  forRows_get (·.del rm1 (s.delRmDepend rm1).1.ipaRmA2Check) s.ipaRmTbl hi

theorem delRmDepend_calls (rm1 : IpaRmResourceName) : (s.delRmDepend rm1).2 =
    (forRows (·.del rm1 (s.delRmDepend rm1).1.ipaRmA2Check) s.ipaRmTbl).2 :=
  rfl

end RmConfig

/-! ## What a call does to a row -/

namespace IpaRmClient

variable {row row' : IpaRmClient} {rm1 : IpaRmResourceName} {rxBypassIpa : Bool} {a2 : Int}
  {calls es : List RmIoctl}

/-- The names of a row, which no call writes. -/
def names (row : IpaRmClient) :
    IpaRmResourceName × IpaRmResourceName × IpaRmResourceName × IpaRmResourceName :=
  (row.producerRm1, row.consumerRm1, row.producerRm2, row.consumerRm2)

/-- The dependency is one of the two of the row. -/
def owns (row : IpaRmClient) (dep : IpaIocRmDependency) : Bool :=
  decide (dep = row.dep1 ∨ dep = row.dep2)

/-- The dependencies of the row that should be in the kernel. -/
def current (row : IpaRmClient) : List IpaIocRmDependency :=
  if row.rmSet = true then row.deps else []

theorem producerRm1_of_names (h : row'.names = row.names) : row'.producerRm1 = row.producerRm1 :=
  congrArg (·.1) h

theorem consumerRm1_of_names (h : row'.names = row.names) : row'.consumerRm1 = row.consumerRm1 :=
  congrArg (·.2.1) h

theorem dep1_of_names (h : row'.names = row.names) : row'.dep1 = row.dep1 := by
  unfold dep1
  rw [producerRm1_of_names h, consumerRm1_of_names h]

theorem owns_of_names (h : row'.names = row.names) : row'.owns = row.owns := by
  have hdep2 : row'.dep2 = row.dep2 := by
    have hp : row'.producerRm2 = row.producerRm2 := congrArg (·.2.2.1) h
    have hc : row'.consumerRm2 = row.consumerRm2 := congrArg (·.2.2.2) h
    unfold dep2
    rw [hp, hc]
  funext dep
  unfold owns
  rw [dep1_of_names h, hdep2]

/-- A row owns its dependencies. -/
theorem owns_of_mem_deps {dep : IpaIocRmDependency} (h : dep ∈ row.deps) : row.owns dep = true := by
  unfold deps at h
  unfold owns
  split at h
  · rw [List.mem_singleton] at h
    simp [h]
  · rw [List.mem_pair] at h
    simpa using h

/-- A call lets the dependencies of a row be, sets them up or tears them down. -/
inductive Turn (row row' : IpaRmClient) : List RmIoctl → Prop
  | stay (hset : row'.rmSet = row.rmSet) (hdeps : row.rmSet = true → row'.deps = row.deps) :
      Turn row row' []
  | setUp (hset : row.rmSet = false) (hset' : row'.rmSet = true) :
      Turn row row' (row'.deps.map .take)
  | tearDown (hset : row.rmSet = true) (hset' : row'.rmSet = false) :
      Turn row row' (row.deps.map .drop)

/-- A turn goes on with the sessions of the row. -/
theorem Turn.sessions (h : Turn row row' calls) (hes : Sessions row.current es) :
    Sessions row'.current (es ++ calls) := by
  cases h with
  | stay hset hdeps =>
    rw [List.append_nil]
    unfold current at hes ⊢
    rw [hset]
    split at hes
    · next h =>
      rw [if_pos h, hdeps h]
      exact hes
    · next h =>
      rw [if_neg h]
      exact hes
  | setUp hset hset' =>
    unfold current at hes ⊢
    rw [hset, if_neg Bool.false_ne_true] at hes
    rw [hset', if_pos rfl]
    exact hes.take row'.deps
  | tearDown hset hset' =>
    unfold current at hes ⊢
    rw [hset, if_pos rfl] at hes
    rw [hset', if_neg Bool.false_ne_true]
    exact hes.drop

theorem Turn.owned (h : Turn row row' calls) (hnames : row'.names = row.names) :
    ∀ e ∈ calls, row.owns e.item = true := by
  cases h with
  | stay hset hdeps =>
    intro e he
    cases he
  | setUp hset hset' =>
    intro e he
    obtain ⟨dep, hdep, rfl⟩ := List.mem_map.1 he
    rw [← owns_of_names hnames]
    exact owns_of_mem_deps hdep
  | tearDown hset hset' =>
    intro e he
    obtain ⟨dep, hdep, rfl⟩ := List.mem_map.1 he
    exact owns_of_mem_deps hdep

/-! ### The body of `AddRmDepend` -/

theorem setUp_names (row : IpaRmClient) (otherUp : Bool) :
    (row.setUp otherUp).1.names = row.names := by
  unfold setUp
  split <;> rfl

/-- The producer of the row comes up. -/
theorem add_producer (h : row.producerRm1 ≠ row.consumerRm1) : row.add row.producerRm1 rxBypassIpa =
      setUp { row with producer1Up := true, rxBypassIpa := rxBypassIpa } row.consumer1Up := by
  have hc := consumerRm1_of_names (setUp_names
    { row with producer1Up := true, rxBypassIpa := rxBypassIpa } row.consumer1Up)
  unfold add
  rw [if_pos rfl]
  dsimp only
  rw [hc, if_neg h]

/-- The consumer comes up. -/
theorem add_consumer (h : row.producerRm1 ≠ row.consumerRm1) : row.add row.consumerRm1 rxBypassIpa =
      setUp { row with consumer1Up := true } row.producer1Up := by
  unfold add
  rw [if_neg h.symm]
  dsimp only
  rw [if_pos rfl]
  simp

/-- Other resources do not matter. -/
theorem add_other (hp : rm1 ≠ row.producerRm1) (hc : rm1 ≠ row.consumerRm1) :
    row.add rm1 rxBypassIpa = (row, []) := by
  unfold add
  rw [if_neg hp]
  exact if_neg hc

/-! ### The body of `DelRmDepend` -/

theorem tearDown_names (row : IpaRmClient) : row.tearDown.1.names = row.names := by
  unfold tearDown
  split <;> rfl

theorem del_producer (h : row.producerRm1 ≠ row.consumerRm1) : row.del row.producerRm1 a2 =
      ({ row.tearDown.1 with producer1Up := false, rxBypassIpa := false }, row.tearDown.2) := by
  have hc := consumerRm1_of_names (tearDown_names row)
  unfold del
  rw [if_pos rfl]
  dsimp only
  rw [hc, if_neg h]

/-- The modem as a consumer may be spared. -/
theorem del_spared (h : row.producerRm1 ≠ row.consumerRm1) (hcons : row.consumerRm1 = .q6Cons) :
    row.del row.consumerRm1 1 = (row, []) := by
  unfold del
  rw [if_neg h.symm]
  dsimp only
  rw [if_pos rfl]
  exact if_pos ⟨hcons, rfl⟩

theorem del_consumer (h : row.producerRm1 ≠ row.consumerRm1)
    (hspared : ¬ (row.consumerRm1 = .q6Cons ∧ a2 = 1)) : row.del row.consumerRm1 a2 =
      ({ row.tearDown.1 with consumer1Up := false }, row.tearDown.2) := by
  unfold del
  rw [if_neg h.symm]
  dsimp only
  rw [if_pos rfl, if_neg hspared]
  simp

theorem del_other (hp : rm1 ≠ row.producerRm1) (hc : rm1 ≠ row.consumerRm1) :
    row.del rm1 a2 = (row, []) := by
  unfold del
  rw [if_neg hp]
  exact if_neg hc

/-! ### Both bodies -/

/-- Dependencies are added once both are up. -/
theorem setUp_turn {otherUp : Bool} (hset : row'.rmSet = row.rmSet)
    (hdeps : row.rmSet = true → row'.deps = row.deps) :
    Turn row (row'.setUp otherUp).1 (row'.setUp otherUp).2 := by
  unfold setUp
  split
  · next h => exact .setUp (hset ▸ h.2) rfl
  · exact .stay hset hdeps

/-- They are deleted when one goes. -/
theorem tearDown_turn (hset' : row'.rmSet = false) : Turn row row' row.tearDown.2 := by
  unfold tearDown
  split
  · next h => exact .tearDown h hset'
  · next h => exact .stay (by rw [hset', Bool.eq_false_iff.2 h]) fun h' => absurd h' h

theorem tearDown_rmSet (row : IpaRmClient) : row.tearDown.1.rmSet = false := by
  unfold tearDown
  split
  · rfl
  · next h => exact Bool.eq_false_iff.2 h

theorem add_names (row : IpaRmClient) (hne : row.producerRm1 ≠ row.consumerRm1)
    (rm1 : IpaRmResourceName) (rxBypassIpa : Bool) :
    (row.add rm1 rxBypassIpa).1.names = row.names := by
  by_cases hp : rm1 = row.producerRm1
  · rw [hp, add_producer hne, setUp_names]
    rfl
  by_cases hc : rm1 = row.consumerRm1
  · rw [hc, add_consumer hne, setUp_names]
    rfl
  rw [add_other hp hc]

theorem del_names (row : IpaRmClient) (hne : row.producerRm1 ≠ row.consumerRm1)
    (rm1 : IpaRmResourceName) (a2 : Int) : (row.del rm1 a2).1.names = row.names := by
  by_cases hp : rm1 = row.producerRm1
  · rw [hp, del_producer hne]
    exact tearDown_names row
  by_cases hc : rm1 = row.consumerRm1
  · by_cases hspared : row.consumerRm1 = .q6Cons ∧ a2 = 1
    · rw [hc, hspared.2, del_spared hne hspared.1]
    · rw [hc, del_consumer hne hspared]
      exact tearDown_names row
  rw [del_other hp hc]

/-- The body of `AddRmDepend` in one row. -/
theorem add_turn (hne : row.producerRm1 ≠ row.consumerRm1)
    (hkeep : rm1 = row.producerRm1 → row.rmSet = true → rxBypassIpa = row.rxBypassIpa) :
    Turn row (row.add rm1 rxBypassIpa).1 (row.add rm1 rxBypassIpa).2 := by
  by_cases hp : rm1 = row.producerRm1
  · rw [hp, add_producer hne]
    refine setUp_turn rfl fun hset => ?_
    rw [hkeep hp hset]
    rfl
  by_cases hc : rm1 = row.consumerRm1
  · rw [hc, add_consumer hne]
    exact setUp_turn rfl fun _ => rfl
  rw [add_other hp hc]
  exact .stay rfl fun _ => rfl

/-- The body of `DelRmDepend` in one row. -/
theorem del_turn (hne : row.producerRm1 ≠ row.consumerRm1) (rm1 : IpaRmResourceName) (a2 : Int) :
    Turn row (row.del rm1 a2).1 (row.del rm1 a2).2 := by
  by_cases hp : rm1 = row.producerRm1
  · rw [hp, del_producer hne]
    exact tearDown_turn (tearDown_rmSet row)
  by_cases hc : rm1 = row.consumerRm1
  · by_cases hspared : row.consumerRm1 = .q6Cons ∧ a2 = 1
    · rw [hc, hspared.2, del_spared hne hspared.1]
      exact .stay rfl fun _ => rfl
    · rw [hc, del_consumer hne hspared]
      exact tearDown_turn (tearDown_rmSet row)
  rw [del_other hp hc]
  exact .stay rfl fun _ => rfl

/-- The flags of a row say whether its two resources are up, and it is set up if both are. -/
structure Level (row : IpaRmClient) (producerUp consumerUp : Prop) : Prop where
  producer : row.producer1Up = true ↔ producerUp
  consumer : row.consumer1Up = true ↔ consumerUp
  set : row.rmSet = true ↔ producerUp ∧ consumerUp

variable {P C : Prop}

theorem Level.imp {P' C' : Prop} (h : row.Level P C) (hP : P ↔ P') (hC : C ↔ C') :
    row.Level P' C' :=
  ⟨h.producer.trans hP, h.consumer.trans hC, h.set.trans (and_congr hP hC)⟩

theorem Level.setUp {otherUp : Bool} (hp : row.producer1Up = true ↔ P)
    (hc : row.consumer1Up = true ↔ C) (hset : row.rmSet = true → P ∧ C)
    (hother : otherUp = true ↔ P ∧ C) : (row.setUp otherUp).1.Level P C := by
  unfold IpaRmClient.setUp
  split
  · next h => exact ⟨hp, hc, iff_of_true rfl (hother.1 h.1)⟩
  · next h =>
    refine ⟨hp, hc, hset, fun hPC => ?_⟩
    by_contra hset'
    exact h ⟨hother.2 hPC, Bool.eq_false_iff.2 hset'⟩

/-- What is up after it. -/
theorem Level.add (h : row.Level P C) (hne : row.producerRm1 ≠ row.consumerRm1)
    (rm1 : IpaRmResourceName) (rxBypassIpa : Bool) :
    (row.add rm1 rxBypassIpa).1.Level (P ∨ rm1 = row.producerRm1) (C ∨ rm1 = row.consumerRm1) := by
  by_cases hp : rm1 = row.producerRm1
  · have hc : rm1 ≠ row.consumerRm1 := hp ▸ hne
    rw [hp, add_producer hne]
    refine Level.setUp (iff_of_true rfl (.inr rfl)) (h.consumer.trans (by simp [hne])) ?_ ?_
    · intro hset
      exact ⟨.inr rfl, .inl (h.set.1 hset).2⟩
    · rw [h.consumer]
      simp [hne]
  by_cases hc : rm1 = row.consumerRm1
  · rw [hc, add_consumer hne]
    refine Level.setUp (h.producer.trans (by simp [hne.symm])) (iff_of_true rfl (.inr rfl)) ?_ ?_
    · intro hset
      exact ⟨.inl (h.set.1 hset).1, .inr rfl⟩
    · rw [h.producer]
      simp [hne.symm]
  rw [add_other hp hc]
  exact h.imp (by simp [hp]) (by simp [hc])

theorem tearDown_ups (row : IpaRmClient) : row.tearDown.1.producer1Up = row.producer1Up ∧
    row.tearDown.1.consumer1Up = row.consumer1Up := by
  unfold tearDown
  split <;> exact ⟨rfl, rfl⟩

/-- And what is up then. -/
theorem Level.del (h : row.Level P C) (hne : row.producerRm1 ≠ row.consumerRm1)
    (rm1 : IpaRmResourceName) (a2 : Int) : (row.del rm1 a2).1.Level (P ∧ rm1 ≠ row.producerRm1)
      (C ∧ (rm1 = row.consumerRm1 → row.consumerRm1 = .q6Cons ∧ a2 = 1)) := by
  obtain ⟨hup, hcup⟩ := tearDown_ups row
  by_cases hp : rm1 = row.producerRm1
  · rw [hp, del_producer hne]
    refine ⟨by simp, ?_, by simp [tearDown_rmSet]⟩
    simp [hcup, h.consumer, hne]
  by_cases hc : rm1 = row.consumerRm1
  · by_cases hspared : row.consumerRm1 = .q6Cons ∧ a2 = 1
    · rw [hc, hspared.2, del_spared hne hspared.1]
      exact h.imp (by simp [hne.symm]) (by simp [hspared.1])
    · rw [hc, del_consumer hne hspared]
      refine ⟨?_, by simpa using fun _ => hspared, by simp [tearDown_rmSet, hspared]⟩
      simp [hup, h.producer, hne.symm]
  rw [del_other hp hc]
  exact h.imp (by simp [hp]) (by simp [hc])

end IpaRmClient

end Nx508j.Ipacm
