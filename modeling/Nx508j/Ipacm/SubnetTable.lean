import Nx508j.Ipacm.Config

/-! # The table of private subnets

The table starts with the subnets of the configuration file, which may have any masks; the subnets
that are added later are /24. What was recorded and not deleted is kept beside the table, so that
the two can be compared. -/

namespace Nx508j.Ipacm

open Nx508j.Lib

variable {table : List PrivateSubnet} {a : BitVec 32} (e : PrivateSubnet)

/-- The mask of a /24. -/
def subnetMask24 : BitVec 32 := (~~~ 0#32 >>> 8) <<< 8

/-! ## Deleting an entry -/

/-- From the first entry of an address on, the masks are all the same. -/
def SameMasksFrom (table : List PrivateSubnet) (a : BitVec 32) : Prop :=
  match table.dropWhile (·.subnet_addr ≠ a) with
  | [] => True
  | e :: l => ∀ f ∈ l, f.subnet_mask = e.subnet_mask

instance decidableSameMasksFrom (table : List PrivateSubnet) (a : BitVec 32) :
    Decidable (SameMasksFrom table a) :=
  match h : table.dropWhile (·.subnet_addr ≠ a) with
  | [] => .isTrue (by rw [SameMasksFrom, h]; trivial)
  | e :: l => decidable_of_iff (∀ f ∈ l, f.subnet_mask = e.subnet_mask) (by rw [SameMasksFrom, h])

/-- The loop that moves the addresses down. -/
def movedDown (table : List PrivateSubnet) (e : PrivateSubnet) : List PrivateSubnet :=
  (table.map (·.subnet_addr)).zipWith (fun a f => ⟨a, f.subnet_mask⟩) (e :: table)

theorem del_cons_self (h : e.subnet_addr = a) :
    (DelPrivateSubnet (e :: table) a).private_subnet_table = movedDown table e := by
  simp [DelPrivateSubnet, movedDown, List.findIdx?_cons, h]

theorem del_cons_ne (h : e.subnet_addr ≠ a) :
    (DelPrivateSubnet (e :: table) a).private_subnet_table =
      e :: (DelPrivateSubnet table a).private_subnet_table := by
  unfold DelPrivateSubnet
  rw [List.findIdx?_cons, if_neg (by simpa using h)]
  cases table.findIdx? (·.subnet_addr = a) with
  | none => rfl
  | some i => rfl

theorem movedDown_eq_iff :
    movedDown table e = table ↔ ∀ f ∈ table, f.subnet_mask = e.subnet_mask := by
  induction table generalizing e with
  | nil => simp [movedDown]
  | cons f table ih =>
    have hcons : movedDown (f :: table) e = ⟨f.subnet_addr, e.subnet_mask⟩ :: movedDown table f :=
      rfl
    rw [hcons, List.cons.injEq, ih, List.forall_mem_cons]
    have hhead : (⟨f.subnet_addr, e.subnet_mask⟩ : PrivateSubnet) = f ↔
        f.subnet_mask = e.subnet_mask := by
      cases f
      simp [eq_comm]
    rw [hhead]
    refine and_congr_right fun hf => ?_
    rw [hf]

theorem del_eq_iff : (DelPrivateSubnet table a).private_subnet_table =
    table.eraseP (·.subnet_addr = a) ↔ SameMasksFrom table a := by
  induction table with
  | nil => exact iff_of_true rfl trivial
  | cons e table ih =>
    unfold SameMasksFrom at ih ⊢
    by_cases h : e.subnet_addr = a
    · rw [del_cons_self e h, List.eraseP_cons_of_pos (by simpa using h),
        List.dropWhile_cons_of_neg (by simpa using h)]
      exact movedDown_eq_iff e
    · rw [del_cons_ne e h, List.eraseP_cons_of_neg (by simpa using h),
        List.dropWhile_cons_of_pos (by simpa using h), List.cons.injEq, ih]
      exact and_iff_right rfl

/-! ## Runs -/

inductive SubnetCall where
  | add (ip_addr : BitVec 32)
  | del (ip_addr : BitVec 32)
deriving DecidableEq, Repr

/-- The table, and the pairs that were recorded and not deleted. -/
structure SubnetRecord where
  private_subnet_table : List PrivateSubnet
  recorded : List PrivateSubnet
deriving DecidableEq, Repr

namespace SubnetRecord

variable (s : SubnetRecord)

/-- After the configuration file was read. -/
def start (cfg : IpacmConf) : SubnetRecord :=
  ⟨cfg.private_subnet_entries, cfg.private_subnet_entries⟩

/-- A call, and what it returns. An address that is new is recorded with the mask of a /24 if there
    is room. -/
def step (s : SubnetRecord) : SubnetCall → Except Fault (SubnetRecord × Bool)
  | .add ip_addr =>
    let c := AddPrivateSubnet s.private_subnet_table ip_addr
    .ok ({ private_subnet_table := c.private_subnet_table
           recorded :=
             if s.recorded.all (·.subnet_addr ≠ ip_addr) ∧
                 s.recorded.length < ipaMaxPrivateSubnetEntries then
               s.recorded ++ [⟨ip_addr, subnetMask24⟩]
             else s.recorded }, c.ret)
  | .del ip_addr =>
    let c := DelPrivateSubnet s.private_subnet_table ip_addr
    .ok ({ private_subnet_table := c.private_subnet_table
           recorded := s.recorded.eraseP (·.subnet_addr = ip_addr) }, c.ret)

/-- **The property.** The table has the pairs that were recorded, and an address is private if it is
    in one of them. -/
structure Kept : Prop where
  pairs : s.private_subnet_table = s.recorded
  isPrivate : ∀ ip_addr, isPrivateSubnet s.private_subnet_table ip_addr = true ↔
    ∃ e ∈ s.recorded, e.subnet_mask &&& ip_addr = e.subnet_addr

/-- **When it holds.** From the entry that is deleted on, the masks are the same. -/
def Meets : SubnetCall → Prop
  | .add _ => True
  | .del ip_addr => SameMasksFrom s.private_subnet_table ip_addr

instance decidableMeets (s : SubnetRecord) : (call : SubnetCall) → Decidable (s.Meets call)
  | .add _ => instDecidableTrue
  | .del ip_addr => decidableSameMasksFrom s.private_subnet_table ip_addr

end SubnetRecord

theorem isPrivateSubnet_iff (ip_addr : BitVec 32) : isPrivateSubnet table ip_addr = true ↔
    ∃ e ∈ table, e.subnet_mask &&& ip_addr = e.subnet_addr := by
  refine List.any_eq_true.trans (exists_congr fun e => and_congr_right fun _ => ?_)
  rw [decide_eq_true_iff, eq_comm]

namespace SubnetRecord

variable {s s' : SubnetRecord} {call : SubnetCall} {ret : Bool}

theorem kept_iff : s.Kept ↔ s.private_subnet_table = s.recorded := by
  refine ⟨Kept.pairs, fun h => ⟨h, fun ip_addr => ?_⟩⟩
  rw [isPrivateSubnet_iff, h]

theorem step_kept_iff (h : s.Kept) (hstep : s.step call = .ok (s', ret)) :
    s'.Kept ↔ s.Meets call := by
  have heq := h.pairs
  cases call with
  | add ip_addr =>
    cases hstep
    refine iff_of_true (kept_iff.2 ?_) trivial
    unfold AddPrivateSubnet
    rw [← heq]
    have hall : s.private_subnet_table.all (·.subnet_addr ≠ ip_addr) = true ↔
        ¬ s.private_subnet_table.any (·.subnet_addr = ip_addr) = true := by simp
    by_cases hthere : s.private_subnet_table.any (·.subnet_addr = ip_addr) = true
    · rw [if_pos hthere, if_neg fun hboth => hall.1 hboth.1 hthere]
    · rw [if_neg hthere]
      by_cases hroom : s.private_subnet_table.length < ipaMaxPrivateSubnetEntries
      · rw [if_pos hroom, if_pos ⟨hall.2 hthere, hroom⟩]
        rfl
      · rw [if_neg hroom, if_neg fun hboth => hroom hboth.2]
  | del ip_addr =>
    cases hstep
    rw [kept_iff]
    rw [← heq]
    exact del_eq_iff

/-- In every run in which the masks from a deleted entry on are the same, the pairs are kept; and
    for the next call that is exactly the condition. -/
theorem run_subnetsKept {cfg : IpacmConf} {tr : List (SubnetCall × Bool)}
    (run : Run step Meets (start cfg) tr s) :
    s.Kept ∧ ∀ call s' ret, s.step call = .ok (s', ret) → (s'.Kept ↔ s.Meets call) := by
  have hkept : s.Kept := by
    refine run.invariant (fun _ s => s.Kept) (kept_iff.2 rfl) ?_
    intro _ s call s' ret h hmeets hstep
    exact (step_kept_iff h hstep).2 hmeets
  exact ⟨hkept, fun _ _ _ => step_kept_iff hkept⟩

/-- The file has the subnet 10.0.0.0/8 before 192.168.225.0/24. -/
def twoMasks : IpacmConf :=
  { ConfigWorld.twoIfaces with
    private_subnet_entries := [⟨0x0A000000, 0xFF000000⟩, ⟨0xC0A8E100, 0xFFFFFF00⟩]
    subnets := by decide }

/-- A subnet is added and deleted, and so is the one of the end of the file. -/
def deletedLast : List SubnetCall := [.add 0xC0A82B00, .del 0xC0A8E100, .del 0xC0A82B00]

theorem run_subnetsKept_last : ∃ (tr : List (SubnetCall × Bool)) (s : SubnetRecord),
    tr.map Prod.fst = deletedLast ∧ s.Kept ∧ s.recorded = [⟨0x0A000000, 0xFF000000⟩] := by
  have hruns : ∃ tr s, Run step (fun s call => s.Meets call) (start twoMasks) tr s ∧
      tr.map Prod.fst = deletedLast ∧ s.recorded = [⟨0x0A000000, 0xFF000000⟩] :=
    Run.exists_of_allMeet (g := fun s : SubnetRecord => s.recorded) (by decide) (by decide)
  obtain ⟨tr, s, run, hevents, hrecorded⟩ := hruns
  exact ⟨tr, s, hevents, (run_subnetsKept run).1, hrecorded⟩

/-- The mask of 10.0.0.0/8 stays when the subnet is deleted, for the one that moves into its place.
    -/
theorem run_subnets_mispaired : ∃ (tr : List (SubnetCall × Bool)) (s : SubnetRecord),
    Run step (fun _ _ => True) (start twoMasks) tr s ∧ ¬ s.Kept ∧
      s.recorded = [⟨0xC0A8E100, 0xFFFFFF00⟩] ∧
      isPrivateSubnet s.private_subnet_table 0xC0A8E105 = false := by
  have run : Run step (fun _ _ => True) (start twoMasks) [(.del 0x0A000000, true)]
      ⟨[⟨0xC0A8E100, 0xFF000000⟩], [⟨0xC0A8E100, 0xFFFFFF00⟩]⟩ := .snoc .nil rfl trivial
  refine ⟨_, _, run, ?_, rfl, by decide⟩
  rw [kept_iff]
  decide

end SubnetRecord

end Nx508j.Ipacm
