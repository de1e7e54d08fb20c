import Nx508j.Lib.HeapList

/-! # The event dispatcher

`IPACM_EvtDispatcher` keeps the registrations of listeners in a linked list. `ProcessEvt` copies an
entry before it calls the listener, and goes on with the next pointer of the copy: the callback may
free the entry itself, but the entry after it had better stay.

What a callback does to the dispatcher is to deregister listeners. -/

namespace Nx508j.Ipacm

open Nx508j.Lib Function

variable {ε ω : Type}

/-- What an entry of the list (`cmd_evts`) is about. -/
structure Registration (ε ω : Type) where
  event : ε
  obj : ω
deriving DecidableEq

/-- `head`, the memory it points into, and how many entries are allocated there: no loop over the list
    is longer. -/
structure EvtDispatcher (ε ω : Type) where
  head : Option Nat
  mem : Heap (Registration ε ω)
  used : Nat

/-- `IPACM_SUCCESS`. -/
def ipacmSuccess : Int := 0

/-- `IPACM_FAILURE`. -/
def ipacmFailure : Int := -1

namespace EvtDispatcher

/-- No registrations. -/
def init : EvtDispatcher ε ω := ⟨none, fun _ => none, 0⟩

/-- The last entry from one on. -/
def lastFrom (mem : Heap (Registration ε ω)) : Nat → Nat → Except Fault Nat
  | 0, _ => .error .diverges
  | fuel + 1, a => do
      let c ← mem.deref (some a)
      match c.next with
      | none => .ok a
      | some b => lastFrom mem fuel b

/-- `registr`, with what `malloc` returns, which is no block that is in use. -/
def registr (s : EvtDispatcher ε ω) (event : ε) (obj : ω) (nw : Option Nat) :
    Except Fault (EvtDispatcher ε ω × Int) :=
  match nw with
  | none => .ok (s, ipacmFailure)
  | some a =>
    match s.mem a with
    | some _ => .ok (s, ipacmFailure)
    | none =>
      let mem := update s.mem a (some ⟨⟨event, obj⟩, none⟩)
      match s.head with
      | none => .ok ({ head := some a, mem := mem, used := s.used + 1 }, ipacmSuccess)
      | some h => do
          let last ← lastFrom mem (s.used + 1) h
          let mem ← Heap.setNext mem (some last) (some a)
          .ok ({ s with mem := mem, used := s.used + 1 }, ipacmSuccess)

/-- Take the entry `tmp` out of the list, whose predecessor is `prev` if it is not the head. -/
def unlink (s : EvtDispatcher ε ω) (prev : Option Nat) (tmp : Nat) (next : Option Nat) :
    Except Fault (EvtDispatcher ε ω) :=
  if some tmp = s.head then do
    let hd ← s.mem.deref s.head
    .ok { s with head := hd.next }
  else if next = none then do
    let mem ← s.mem.setNext prev none
    .ok { s with mem := mem }
  else do
    let mem ← s.mem.setNext prev next
    .ok { s with mem := mem }

/-- The loop of `deregistr`. -/
def deregistrFrom [DecidableEq ω] (param : ω) : Nat → EvtDispatcher ε ω → Option Nat → Option Nat →
    Except Fault (EvtDispatcher ε ω)
  | _, s, _, none => .ok s
  | 0, _, _, some _ => .error .diverges
  | fuel + 1, s, prev, some tmp => do
      let c ← s.mem.deref (some tmp)
      if c.val.obj = param then do
        let s ← s.unlink prev tmp c.next
        let c ← s.mem.deref (some tmp)
        deregistrFrom param fuel { s with mem := s.mem.free tmp, used := s.used - 1 } prev c.next
      else deregistrFrom param fuel s (some tmp) c.next

/-- `deregistr`. -/
def deregistr [DecidableEq ω] (s : EvtDispatcher ε ω) (param : ω) : Except Fault (EvtDispatcher ε ω) :=
  deregistrFrom param s.used s s.head s.head

/-- The loop of `ProcessEvt`, with the listeners it calls. What the callback for an entry deregisters
    is looked up by the address of the entry. -/
def processFrom [DecidableEq ε] [DecidableEq ω] (event : ε) (cb : Nat → List ω) :
    Nat → EvtDispatcher ε ω → Option Nat → Except Fault (EvtDispatcher ε ω × List ω)
  | _, s, none => .ok (s, [])
  | 0, _, some _ => .error .diverges
  | fuel + 1, s, some tmp => do
      let tmp1 ← s.mem.deref (some tmp)
      if event = tmp1.val.event then do
        let s ← (cb tmp).foldlM deregistr s
        let (s, calls) ← processFrom event cb fuel s tmp1.next
        .ok (s, tmp1.val.obj :: calls)
      else processFrom event cb fuel s tmp1.next

/-- `ProcessEvt`. -/
def processEvt [DecidableEq ε] [DecidableEq ω] (s : EvtDispatcher ε ω) (event : ε)
    (cb : Nat → List ω) :
    Except Fault (EvtDispatcher ε ω × List ω) :=
  processFrom event cb s.used s s.head

end EvtDispatcher

/-- A call of the dispatcher. -/
inductive EvtCall (ε ω : Type)
  | registr (event : ε) (obj : ω) (nw : Option Nat)
  | deregistr (param : ω)
  | processEvt (event : ε) (cb : Nat → List ω)

/-- A call and the listeners it calls. -/
def evtStep [DecidableEq ε] [DecidableEq ω] (s : EvtDispatcher ε ω) :
    EvtCall ε ω → Except Fault (EvtDispatcher ε ω × List ω)
  | .registr event obj nw => do
      let (s, _) ← s.registr event obj nw
      .ok (s, [])
  | .deregistr param => do
      let s ← s.deregistr param
      .ok (s, [])
  | .processEvt event cb => s.processEvt event cb

/-! ## The registry as a list -/

namespace EvtDispatcher

/-- The entries of the dispatcher, with their addresses. -/
abbrev Registry (ε ω : Type) := List (Nat × Registration ε ω)

variable {s s' : EvtDispatcher ε ω} {L : Registry ε ω}

/-- The dispatcher holds these entries, in this order. -/
structure Lists (s : EvtDispatcher ε ω) (L : Registry ε ω) : Prop where
  seg : s.mem.Seg s.head L none
  used : s.used = L.length

theorem lists_init : (init : EvtDispatcher ε ω).Lists [] := ⟨rfl, rfl⟩

/-! ### Registration -/

theorem lastFrom_spec {mem : Heap (Registration ε ω)} {x : Nat × Registration ε ω}
    {K : Registry ε ω} {p : Nat} (hs : mem.Seg (some p) (K ++ [x]) none) (fuel : Nat)
    (hfuel : K.length < fuel) : lastFrom mem fuel p = .ok x.1 := by
  induction K generalizing p fuel with
  | nil =>
    obtain ⟨hp, next, hx, hnone⟩ := hs
    obtain rfl : next = none := hnone
    cases hp
    obtain ⟨fuel, rfl⟩ : ∃ n, fuel = n + 1 := ⟨fuel - 1, by omega⟩
    unfold lastFrom
    rw [Heap.deref_ok hx]
    rfl
  | cons y K ih =>
    obtain ⟨hp, next, hy, hs⟩ := hs
    cases hp
    obtain ⟨fuel, rfl⟩ : ∃ n, fuel = n + 1 := ⟨fuel - 1, by omega⟩
    obtain ⟨q, rfl⟩ : ∃ q, next = some q := by
      rw [hs.first_eq]
      cases K with
      | nil => exact ⟨_, rfl⟩
      | cons z K => exact ⟨_, rfl⟩
    unfold lastFrom
    rw [Heap.deref_ok hy]
    exact ih hs fuel (by rw [List.length_cons] at hfuel; omega)

theorem Lists.registr (h : s.Lists L) (event : ε) (obj : ω) (nw : Option Nat) :
    ∃ s' ret, s.registr event obj nw = .ok (s', ret) ∧
      ((ret = ipacmFailure ∧ s' = s) ∨
        ret = ipacmSuccess ∧ ∃ a, nw = some a ∧ s'.Lists (L ++ [(a, ⟨event, obj⟩)])) := by
  unfold EvtDispatcher.registr
  cases nw with
  | none => exact ⟨s, _, rfl, Or.inl ⟨rfl, rfl⟩⟩
  | some a =>
    dsimp only
    cases ha : s.mem a with
    | some c => exact ⟨s, _, rfl, Or.inl ⟨rfl, rfl⟩⟩
    | none =>
      have hnew : a ∉ Heap.addrs L := fun hmem => h.seg.ne_none hmem ha
      have hcell : update s.mem a (some ⟨⟨event, obj⟩, none⟩) a =
          some ⟨⟨event, obj⟩, none⟩ := update_self ..
      have hseg := h.seg.update hnew (some ⟨⟨event, obj⟩, none⟩)
      cases hhead : s.head with
      | none =>
        have hL : L = [] := by
          have hfirst := h.seg.first_eq
          rw [hhead] at hfirst
          cases L with
          | nil => rfl
          | cons x L => cases hfirst
        subst hL
        refine ⟨_, _, rfl, Or.inr ⟨rfl, a, rfl, ⟨rfl, none, hcell, rfl⟩, ?_⟩⟩
        rw [h.used]
        rfl
      | some p =>
        rw [hhead] at hseg
        obtain ⟨K, x, rfl⟩ : ∃ K x, L = K ++ [x] := by
          rcases List.eq_nil_or_concat L with rfl | ⟨K, x, rfl⟩
          · cases hseg
          · exact ⟨K, x, List.concat_eq_append⟩
        have hlast := lastFrom_spec hseg (s.used + 1) (by
          rw [h.used, List.length_append]
          omega)
        have hx : x.1 ∉ Heap.addrs K := by
          have hnodup := h.seg.nodup
          unfold Heap.addrs at hnodup
          rw [List.map_append, List.nodup_append] at hnodup
          exact fun hmem => hnodup.2.2 _ hmem _ (by simp) rfl
        obtain ⟨c, hc, hbent⟩ := hseg.bend hx (some a)
        dsimp only
        rw [hlast]
        refine ⟨_, _, by rw [ok_bind, Heap.setNext_ok hc]; rfl, Or.inr ⟨rfl, a, rfl, ?_, ?_⟩⟩
        · refine Heap.Seg.append.2 ⟨some a, ?_, rfl, none, ?_, rfl⟩
          · exact hbent
          · have hax : a ≠ x.1 := by
              rintro rfl
              exact hnew (by simp [Heap.addrs])
            dsimp only
            rw [update_of_ne hax]
            exact hcell
        · dsimp only
          rw [h.used]
          simp

/-! ### Deregistration -/

/-- What is left when listeners are deregistered. -/
def without [DecidableEq ω] (L : Registry ε ω) (objs : List ω) : Registry ε ω :=
  L.filter fun x => x.2.obj ∉ objs

/-- Deregistration takes the entries of its listeners out, and their memory is gone. -/
structure Deregisters [DecidableEq ω] (s : EvtDispatcher ε ω) (L : Registry ε ω) (objs : List ω)
    (s' : EvtDispatcher ε ω) : Prop where
  lists : s'.Lists (without L objs)
  gone : ∀ x ∈ L, x.2.obj ∈ objs → s'.mem x.1 = none
  free : ∀ a, s.mem a = none → s'.mem a = none

theorem unlink_spec {K T : Registry ε ω} {x : Nat × Registration ε ω} {prev next : Option Nat}
    (hK : s.mem.Seg s.head K (some x.1)) (hx : s.mem x.1 = some ⟨x.2, next⟩)
    (hT : s.mem.Seg next T none) (hnodup : (Heap.addrs (K ++ x :: T)).Nodup)
    (hprev : ∀ K' k, K = K' ++ [k] → prev = some k.1) :
    ∃ s', s.unlink prev x.1 next = .ok s' ∧ s'.used = s.used ∧ s'.mem x.1 = some ⟨x.2, next⟩ ∧
      s'.mem.Seg s'.head K next ∧ s'.mem.Seg next T none ∧
      ∀ a, s.mem a = none → s'.mem a = none := by
  unfold unlink
  rcases List.eq_nil_or_concat K with rfl | ⟨K', k, hKk⟩
  · have hhead : s.head = some x.1 := hK
    rw [if_pos hhead.symm, hhead, Heap.deref_ok hx]
    exact ⟨_, rfl, rfl, hx, rfl, hT, fun _ h => h⟩
  · rw [List.concat_eq_append] at hKk
    subst hKk
    obtain rfl := hprev K' k rfl
    unfold Heap.addrs at hnodup
    simp only [List.map_append, List.map_cons, List.nodup_append, List.nodup_cons,
      List.mem_append, List.mem_cons, List.map_nil] at hnodup
    have hkx : k.1 ≠ x.1 := hnodup.2.2 k.1 (by simp) x.1 (by simp)
    have hhead : some x.1 ≠ s.head := by
      intro heq
      rw [← heq] at hK
      cases K' with
      | nil => exact hkx (Option.some.inj hK.1).symm
      | cons y K' =>
        exact hnodup.2.2 y.1 (by simp) x.1 (by simp) (Option.some.inj hK.1).symm
    have hkK : k.1 ∉ Heap.addrs K' := fun hmem => hnodup.1.2.2 k.1 hmem k.1 (by simp) rfl
    have hkT : k.1 ∉ Heap.addrs T := fun hmem => hnodup.2.2 k.1 (by simp) k.1 (Or.inr hmem) rfl
    obtain ⟨c, hc, hbent⟩ := hK.bend hkK next
    have hmem : ∀ a, s.mem a = none →
        update s.mem k.1 (some { c with next := next }) a = none := by
      intro a ha
      rw [update_of_ne]
      · exact ha
      · rintro rfl
        rw [hc] at ha
        cases ha
    -- both branches bend the pointer of the predecessor
    rw [if_neg hhead]
    refine ⟨{ s with mem := update s.mem k.1 (some { c with next := next }) }, ?_, rfl,
      ?_, hbent, hT.update hkT _, hmem⟩
    · split
      · next hnext =>
        rw [Heap.setNext_ok hc, hnext]
        rfl
      · rw [Heap.setNext_ok hc]
        rfl
    · dsimp only
      rw [update_of_ne (Ne.symm hkx)]
      exact hx

section

variable [DecidableEq ω]

/-- The loop of `deregistr`, with `K` before the entry it is at and `T` from there on. -/
theorem deregistrFrom_spec (param : ω) {K T : Registry ε ω} (prev : Option Nat) (fuel : Nat)
    (h : s.Lists (K ++ T)) (hfuel : T.length ≤ fuel)
    (hprev : ∀ K' k, K = K' ++ [k] → prev = some k.1) :
    ∃ s', deregistrFrom param fuel s prev (Heap.first T) = .ok s' ∧
      s'.Lists (K ++ without T [param]) ∧
      (∀ x ∈ T, x.2.obj = param → s'.mem x.1 = none) ∧ ∀ a, s.mem a = none → s'.mem a = none := by
  induction T generalizing s K prev fuel with
  | nil =>
    refine ⟨s, ?_, h, fun x hx => absurd hx List.not_mem_nil, fun _ ha => ha⟩
    cases fuel <;> rfl
  | cons x T ih =>
    obtain ⟨fuel, rfl⟩ : ∃ n, fuel = n + 1 := ⟨fuel - 1, by rw [List.length_cons] at hfuel; omega⟩
    rw [List.length_cons, Nat.add_le_add_iff_right] at hfuel
    have hnodup := h.seg.nodup
    obtain ⟨r, hK, rfl, next, hx, hT⟩ := Heap.Seg.append.1 h.seg
    change ∃ s', deregistrFrom param (fuel + 1) s prev (some x.1) = .ok s' ∧ _
    unfold deregistrFrom
    rw [Heap.deref_ok hx, ok_bind]
    by_cases hobj : x.2.obj = param
    · obtain ⟨s₁, hunlink, hused, hx₁, hK₁, hT₁, hfree⟩ := unlink_spec hK hx hT hnodup hprev
      rw [if_pos hobj, hunlink, ok_bind, Heap.deref_ok hx₁, ok_bind]
      rw [hT.first_eq]
      rw [hT.first_eq] at hK₁ hT₁
      unfold Heap.addrs at hnodup
      simp only [List.map_append, List.map_cons, List.nodup_append, List.nodup_cons,
        List.mem_cons] at hnodup
      have hxK : x.1 ∉ Heap.addrs K := fun hmem => hnodup.2.2 x.1 hmem x.1 (by simp) rfl
      have hgone : ∀ a, s.mem a = none → s₁.mem.free x.1 a = none := by
        intro a ha
        unfold Heap.free
        rw [update_apply]
        split
        · rfl
        · exact hfree a ha
      have h' : EvtDispatcher.Lists { s₁ with mem := s₁.mem.free x.1, used := s₁.used - 1 }
          (K ++ T) := by
        refine ⟨Heap.Seg.append.2 ⟨_, hK₁.update hxK none, hT₁.update hnodup.2.1.1 none⟩, ?_⟩
        have hlen := h.used
        simp only [List.length_append, List.length_cons] at hlen ⊢
        rw [hused, hlen]
        rfl
      obtain ⟨s', hs', hlists, hgone', hfree'⟩ := ih prev fuel h' hfuel hprev
      refine ⟨s', hs', ?_, fun y hy hyobj => ?_, fun a ha => hfree' a (hgone a ha)⟩
      · have hfilter : without (x :: T) [param] = without T [param] := by
          unfold without
          rw [List.filter_cons_of_neg (by simpa using hobj)]
        rw [hfilter]
        exact hlists
      · rcases List.mem_cons.1 hy with rfl | hy
        · exact hfree' _ (update_self ..)
        · exact hgone' y hy hyobj
    · rw [if_neg hobj, hT.first_eq]
      have h' : s.Lists ((K ++ [x]) ++ T) := by rwa [List.append_assoc]
      obtain ⟨s', hs', hlists, hgone', hfree'⟩ := ih (some x.1) fuel h' hfuel (by
        intro K' k heq
        rw [(List.append_inj' heq rfl).2 |> List.cons.inj |>.1])
      refine ⟨s', hs', ?_, fun y hy hyobj => ?_, hfree'⟩
      · have hfilter : without (x :: T) [param] = x :: without T [param] := by
          unfold without
          rw [List.filter_cons_of_pos (by simpa using hobj)]
        rw [hfilter]
        rwa [List.append_assoc] at hlists
      · rcases List.mem_cons.1 hy with rfl | hy
        · exact absurd hyobj hobj
        · exact hgone' y hy hyobj

/-- **Deregistration** takes out the entries of the listener and leaves the others in order. -/
theorem Lists.deregistr (h : s.Lists L) (param : ω) :
    ∃ s', s.deregistr param = .ok s' ∧ Deregisters s L [param] s' := by
  unfold EvtDispatcher.deregistr
  have hfirst := h.seg.first_eq
  obtain ⟨s', hs', hlists, hgone, hfree⟩ := deregistrFrom_spec param (K := []) s.head s.used h
    (Nat.le_of_eq h.used.symm) (by simp)
  rw [hfirst] at hs' ⊢
  refine ⟨s', hs', hlists, fun x hx hobj => hgone x hx (by simpa using hobj), hfree⟩

theorem without_without (L : Registry ε ω) (objs objs' : List ω) :
    without (without L objs) objs' = without L (objs ++ objs') := by
  unfold without
  rw [List.filter_filter]
  refine List.filter_congr fun x _ => ?_
  simp [Bool.and_comm]

theorem Lists.deregistrAll (h : s.Lists L) (objs : List ω) :
    ∃ s', objs.foldlM EvtDispatcher.deregistr s = .ok s' ∧ Deregisters s L objs s' := by
  induction objs generalizing s L with
  | nil =>
    refine ⟨s, rfl, ⟨?_, fun x _ hx => absurd hx List.not_mem_nil, fun _ ha => ha⟩⟩
    have hall : without L ([] : List ω) = L := by simp [without]
    rwa [hall]
  | cons o objs ih =>
    obtain ⟨s₁, hs₁, h₁⟩ := h.deregistr o
    obtain ⟨s', hs', h'⟩ := ih h₁.lists
    refine ⟨s', by rw [List.foldlM_cons, hs₁]; exact hs', ?_, fun x hx hobj => ?_,
      fun a ha => h'.free a (h₁.free a ha)⟩
    · have hlists := h'.lists
      rwa [without_without] at hlists
    · by_cases hxo : x.2.obj = o
      · exact h'.free _ (h₁.gone x hx (by simpa using hxo))
      · have hobj : x.2.obj ∈ objs := (List.mem_cons.1 hobj).resolve_left hxo
        refine h'.gone x (List.mem_filter.2 ⟨hx, ?_⟩) hobj
        simpa using hxo

/-! ### Delivery -/

variable [DecidableEq ε]

/-- The listeners that are deregistered after the turns of these entries. -/
def goneAfter (event : ε) (cb : Nat → List ω) : List ω → Registry ε ω → List ω
  | gone, [] => gone
  | gone, x :: L =>
    if event = x.2.event ∧ x.2.obj ∉ gone then goneAfter event cb (gone ++ cb x.1) L
    else goneAfter event cb gone L

/-- The listeners whose turn comes before they are deregistered. -/
def due (event : ε) (cb : Nat → List ω) : List ω → Registry ε ω → List ω
  | _, [] => []
  | gone, x :: L =>
    if event = x.2.event ∧ x.2.obj ∉ gone then x.2.obj :: due event cb (gone ++ cb x.1) L
    else due event cb gone L

/-- No callback deregisters the listener of the entry that comes next. -/
def NextStays (event : ε) (cb : Nat → List ω) : List ω → Registry ε ω → Prop
  | _, [] => True
  | gone, x :: L =>
    if event = x.2.event ∧ x.2.obj ∉ gone then
      (∀ y, (without L gone).head? = some y → y.2.obj ∉ cb x.1) ∧
        NextStays event cb (gone ++ cb x.1) L
    else NextStays event cb gone L

/-- The loop of `ProcessEvt` at the entries `T` of the registry `L`, where those of the listeners in
    `gone` are out of it. -/
theorem processFrom_spec (event : ε) (cb : Nat → List ω) {D T : Registry ε ω} (gone : List ω)
    (fuel : Nat) (h : s.Lists (without (D ++ T) gone)) (hfuel : (without T gone).length ≤ fuel) :
    (NextStays event cb gone T → ∃ s', processFrom event cb fuel s (Heap.first (without T gone)) =
        .ok (s', due event cb gone T) ∧
        s'.Lists (without (D ++ T) (goneAfter event cb gone T))) ∧
      (¬ NextStays event cb gone T → processFrom event cb fuel s (Heap.first (without T gone)) =
        .error .outOfBounds) := by
  induction T generalizing s D gone fuel with
  | nil =>
    refine ⟨fun _ => ⟨s, ?_, h⟩, fun hno => absurd trivial hno⟩
    cases fuel <;> rfl
  | cons x T ih =>
    have hDT : D ++ x :: T = (D ++ [x]) ++ T := by simp
    by_cases hx : x.2.obj ∈ gone
    · -- the entry is out of the registry already
      have hskip : without (x :: T) gone = without T gone := by
        unfold without
        rw [List.filter_cons_of_neg (by simpa using hx)]
      have hno : ¬ (event = x.2.event ∧ x.2.obj ∉ gone) := fun hc => hc.2 hx
      rw [hskip] at hfuel ⊢
      unfold NextStays due goneAfter
      rw [if_neg hno, if_neg hno, if_neg hno]
      rw [hDT] at h ⊢
      exact ih _ fuel h hfuel
    have hkeep : without (x :: T) gone = x :: without T gone := by
      unfold without
      rw [List.filter_cons_of_pos (by simpa using hx)]
    have hL : without (D ++ x :: T) gone = without D gone ++ x :: without T gone := by
      rw [← hkeep]
      exact List.filter_append ..
    rw [hkeep, List.length_cons] at hfuel
    rw [hkeep]
    obtain ⟨fuel, rfl⟩ : ∃ n, fuel = n + 1 := ⟨fuel - 1, by omega⟩
    rw [hL] at h
    obtain ⟨r, -, hr, next, hcell, hT⟩ := Heap.Seg.append.1 h.seg
    rw [hT.first_eq] at hcell
    have hfirst : Heap.first (x :: without T gone) = some x.1 := rfl
    rw [hfirst]
    unfold processFrom NextStays due goneAfter
    rw [Heap.deref_ok hcell, ok_bind]
    by_cases hevent : event = x.2.event
    swap
    · have hno : ¬ (event = x.2.event ∧ x.2.obj ∉ gone) := fun hc => hevent hc.1
      rw [if_neg hevent, if_neg hno, if_neg hno, if_neg hno]
      rw [← hL, hDT] at h
      rw [hDT]
      exact ih _ fuel h (by omega)
    have hyes : event = x.2.event ∧ x.2.obj ∉ gone := ⟨hevent, hx⟩
    rw [if_pos hevent, if_pos hyes, if_pos hyes, if_pos hyes]
    rw [← hL] at h
    obtain ⟨s₁, hs₁, h₁⟩ := h.deregistrAll (cb x.1)
    rw [hs₁, ok_bind]
    have hlists := h₁.lists
    rw [without_without, hDT] at hlists
    rw [hDT]
    have hrest : without T (gone ++ cb x.1) = without (without T gone) (cb x.1) :=
      (without_without ..).symm
    have hfuel' : (without T (gone ++ cb x.1)).length ≤ fuel := by
      rw [hrest]
      exact Nat.le_trans (List.length_filter_le ..) (by omega)
    obtain ⟨hgood, hbad⟩ := ih _ fuel hlists hfuel'
    by_cases hnext : ∀ y, (without T gone).head? = some y → y.2.obj ∉ cb x.1
    · -- the copied pointer still points to the first of the entries that are left
      have hsame : Heap.first (without T gone) = Heap.first (without T (gone ++ cb x.1)) := by
        rw [hrest]
        cases hR : without T gone with
        | nil => rfl
        | cons y R =>
          have hy : y.2.obj ∉ cb x.1 := hnext y (by rw [hR]; rfl)
          unfold without
          rw [List.filter_cons_of_pos (by simpa using hy)]
          rfl
      rw [hsame]
      constructor
      · rintro ⟨-, hstays⟩
        obtain ⟨s', hs', hlists'⟩ := hgood hstays
        exact ⟨s', by rw [hs']; rfl, hlists'⟩
      · intro hno
        rw [hbad fun hstays => hno ⟨hnext, hstays⟩]
        rfl
    · refine ⟨fun hstays => absurd hstays.1 hnext, fun _ => ?_⟩
      push Not at hnext
      obtain ⟨y, hy, hobj⟩ := hnext
      obtain ⟨R, hR⟩ : ∃ R, without T gone = y :: R := by
        cases hR : without T gone with
        | nil =>
          rw [hR] at hy
          cases hy
        | cons z R =>
          rw [hR] at hy
          cases hy
          exact ⟨R, rfl⟩
      have hfreed : s₁.mem y.1 = none := by
        refine h₁.gone y ?_ hobj
        rw [hL, hR]
        simp
      rw [hR, List.length_cons] at hfuel
      obtain ⟨fuel, rfl⟩ : ∃ n, fuel = n + 1 := ⟨fuel - 1, by omega⟩
      have hfirst : Heap.first (without T gone) = some y.1 := by
        rw [hR]
        rfl
      rw [hfirst]
      unfold processFrom
      rw [Heap.deref_freed hfreed]
      rfl

/-- A listener is called just if it has an entry for the event whose turn comes before the listener
    is deregistered. -/
theorem mem_due {event : ε} {cb : Nat → List ω} {gone : List ω} {o : ω} :
    o ∈ due event cb gone L ↔ ∃ D x T, L = D ++ x :: T ∧ event = x.2.event ∧ x.2.obj = o ∧
      o ∉ goneAfter event cb gone D := by
  induction L generalizing gone with
  | nil => simp [due]
  | cons y L ih =>
    unfold due
    by_cases hy : event = y.2.event ∧ y.2.obj ∉ gone
    · rw [if_pos hy, List.mem_cons, ih]
      constructor
      · rintro (rfl | ⟨D, x, T, rfl, hevent, hobj, hgone⟩)
        · exact ⟨[], y, L, rfl, hy.1, rfl, hy.2⟩
        · refine ⟨y :: D, x, T, rfl, hevent, hobj, ?_⟩
          unfold goneAfter
          rwa [if_pos hy]
      · rintro ⟨D, x, T, hL, hevent, hobj, hgone⟩
        cases D with
        | nil =>
          cases hL
          exact Or.inl hobj.symm
        | cons z D =>
          cases hL
          unfold goneAfter at hgone
          rw [if_pos hy] at hgone
          exact Or.inr ⟨D, x, T, rfl, hevent, hobj, hgone⟩
    · rw [if_neg hy, ih]
      constructor
      · rintro ⟨D, x, T, rfl, hevent, hobj, hgone⟩
        refine ⟨y :: D, x, T, rfl, hevent, hobj, ?_⟩
        unfold goneAfter
        rwa [if_neg hy]
      · rintro ⟨D, x, T, hL, hevent, hobj, hgone⟩
        cases D with
        | nil =>
          cases hL
          exact absurd ⟨hevent, hobj ▸ hgone⟩ hy
        | cons z D =>
          cases hL
          unfold goneAfter at hgone
          rw [if_neg hy] at hgone
          exact ⟨D, x, T, rfl, hevent, hobj, hgone⟩

/-- A listener that has had its turn is deregistered before it has another. -/
def OneTurn (event : ε) (cb : Nat → List ω) (gone : List ω) (L : Registry ε ω) : Prop :=
  ∀ D x M y T, L = D ++ x :: (M ++ y :: T) → event = x.2.event → event = y.2.event →
    y.2.obj = x.2.obj → x.2.obj ∉ goneAfter event cb gone D →
      x.2.obj ∈ goneAfter event cb gone (D ++ x :: M)

theorem nodup_due {event : ε} {cb : Nat → List ω} {gone : List ω} :
    (due event cb gone L).Nodup ↔ OneTurn event cb gone L := by
  induction L generalizing gone with
  | nil => simp [due, OneTurn]
  | cons z L ih =>
    unfold due
    by_cases hz : event = z.2.event ∧ z.2.obj ∉ gone
    · have hgone : ∀ D, goneAfter event cb gone (z :: D) =
          goneAfter event cb (gone ++ cb z.1) D := fun D => if_pos hz
      rw [if_pos hz, List.nodup_cons, ih]
      constructor
      · rintro ⟨hnot, hrest⟩ D x M y T hL hx hy hobj hxgone
        cases D with
        | nil =>
          cases hL
          rw [List.nil_append, hgone]
          by_contra hno
          exact hnot (mem_due.2 ⟨M, y, T, rfl, hy, hobj, hno⟩)
        | cons w D =>
          cases hL
          rw [hgone] at hxgone
          rw [List.cons_append, hgone]
          exact hrest D x M y T rfl hx hy hobj hxgone
      · intro hturn
        refine ⟨fun hmem => ?_, fun D x M y T hL hx hy hobj hxgone => ?_⟩
        · obtain ⟨M, y, T, rfl, hy, hobj, hno⟩ := mem_due.1 hmem
          have hin := hturn [] z M y T rfl hz.1 hy hobj hz.2
          rw [List.nil_append, hgone] at hin
          exact hno hin
        · have hin := hturn (z :: D) x M y T (by rw [hL]; rfl) hx hy hobj (by rwa [hgone])
          rwa [List.cons_append, hgone] at hin
    · have hgone : ∀ D, goneAfter event cb gone (z :: D) = goneAfter event cb gone D :=
        fun D => if_neg hz
      rw [if_neg hz, ih]
      constructor
      · intro hrest D x M y T hL hx hy hobj hxgone
        cases D with
        | nil =>
          cases hL
          exact absurd ⟨hx, hxgone⟩ hz
        | cons w D =>
          cases hL
          rw [hgone] at hxgone
          rw [List.cons_append, hgone]
          exact hrest D x M y T rfl hx hy hobj hxgone
      · intro hturn D x M y T hL hx hy hobj hxgone
        have hin := hturn (z :: D) x M y T (by rw [hL]; rfl) hx hy hobj (by rwa [hgone])
        rwa [List.cons_append, hgone] at hin

/-- **The property.** The listeners called are those that are registered for the event and not
    deregistered before their turn, each is called once, and the registry loses the entries of those
    that were deregistered. -/
structure Delivered (event : ε) (cb : Nat → List ω) (L : Registry ε ω) (calls : List ω)
    (L' : Registry ε ω) : Prop where
  called : ∀ o, o ∈ calls ↔ ∃ D x T, L = D ++ x :: T ∧ event = x.2.event ∧ x.2.obj = o ∧
    o ∉ goneAfter event cb [] D
  once : calls.Nodup
  registry : L' = without L (goneAfter event cb [] L)

theorem Lists.processEvt (h : s.Lists L) (event : ε) (cb : Nat → List ω) :
    (NextStays event cb [] L → ∃ s', s.processEvt event cb = .ok (s', due event cb [] L) ∧
        s'.Lists (without L (goneAfter event cb [] L))) ∧
      (¬ NextStays event cb [] L → s.processEvt event cb = .error .outOfBounds) := by
  have hall : without L ([] : List ω) = L := by simp [without]
  have hspec := processFrom_spec event cb (D := []) (T := L) [] s.used
    (by rw [List.nil_append, hall]; exact h) (by rw [hall]; exact Nat.le_of_eq h.used.symm)
  rw [hall, ← h.seg.first_eq] at hspec
  exact hspec

/-- **Delivery is right** if and only if no callback deregisters the listener of the entry that comes
    next, and no listener has a second turn. -/
theorem Lists.processEvt_iff (h : s.Lists L) (event : ε) (cb : Nat → List ω) :
    (∃ s' calls L', s.processEvt event cb = .ok (s', calls) ∧ s'.Lists L' ∧
        Delivered event cb L calls L') ↔
      NextStays event cb [] L ∧ OneTurn event cb [] L := by
  obtain ⟨hgood, hbad⟩ := h.processEvt event cb
  constructor
  · rintro ⟨s', calls, L', hok, -, hdel⟩
    have hstays : NextStays event cb [] L := by
      by_contra hno
      rw [hbad hno] at hok
      cases hok
    obtain ⟨s₁, hs₁, -⟩ := hgood hstays
    rw [hs₁] at hok
    cases hok
    exact ⟨hstays, nodup_due.1 hdel.once⟩
  · rintro ⟨hstays, hturn⟩
    obtain ⟨s', hs', hlists⟩ := hgood hstays
    exact ⟨s', _, _, hs', hlists, fun o => mem_due, nodup_due.2 hturn, rfl⟩

theorem Lists.step (h : s.Lists L) {c : EvtCall ε ω} {calls : List ω}
    (hstep : evtStep s c = .ok (s', calls)) : ∃ L', s'.Lists L' := by
  cases c with
  | registr event obj nw =>
    obtain ⟨s₁, ret, hs₁, hcase⟩ := h.registr event obj nw
    obtain ⟨rfl, -⟩ : s₁ = s' ∧ [] = calls := by simpa [evtStep, hs₁] using hstep
    rcases hcase with ⟨-, rfl⟩ | ⟨-, a, -, h'⟩
    · exact ⟨L, h⟩
    · exact ⟨_, h'⟩
  | deregistr param =>
    obtain ⟨s₁, hs₁, h'⟩ := h.deregistr param
    obtain ⟨rfl, -⟩ : s₁ = s' ∧ [] = calls := by simpa [evtStep, hs₁] using hstep
    exact ⟨_, h'.lists⟩
  | processEvt event cb =>
    obtain ⟨hgood, hbad⟩ := h.processEvt event cb
    change s.processEvt event cb = .ok (s', calls) at hstep
    by_cases hstays : NextStays event cb [] L
    · obtain ⟨s₁, hs₁, hlists⟩ := hgood hstays
      rw [hs₁] at hstep
      cases hstep
      exact ⟨_, hlists⟩
    · rw [hbad hstays] at hstep
      cases hstep

end

end EvtDispatcher

open EvtDispatcher

/-- **Events are delivered** in every state that registrations, deregistrations and events lead to, if
    and only if no callback deregisters the listener of the entry that comes next, and no listener
    has a second turn. -/
theorem run_delivers [DecidableEq ε] [DecidableEq ω] {s : EvtDispatcher ε ω}
    {tr : List (EvtCall ε ω × List ω)} (hrun : Run evtStep (fun _ _ => True) .init tr s) :
    ∃ L, s.Lists L ∧ ∀ event cb,
      (∃ s' calls L', s.processEvt event cb = .ok (s', calls) ∧ s'.Lists L' ∧
        Delivered event cb L calls L') ↔ NextStays event cb [] L ∧ OneTurn event cb [] L := by
  obtain ⟨L, h⟩ : ∃ L, s.Lists L := by
    refine hrun.invariant (fun _ s => ∃ L, s.Lists L) ⟨[], lists_init⟩ ?_
    rintro tr s c s' calls ⟨L, h⟩ - hstep
    exact h.step hstep
  exact ⟨L, h, h.processEvt_iff⟩

/-! ### An example -/

/-- Two events, in the order in which `IPACM_Wlan` registers for them last. -/
inductive SelfEvent
  | ipaLanDeleteSelf
  | ipaTetheringStatsUpdateEvent
deriving DecidableEq

/-- Two listeners are registered for their deletion, and each deletes itself. -/
theorem run_delivers_example : ∃ s tr,
    exec evtStep (EvtDispatcher.init : EvtDispatcher SelfEvent Nat)
      [.registr .ipaLanDeleteSelf 5 (some 0), .registr .ipaLanDeleteSelf 6 (some 1)] = .ok (s, tr) ∧
    ∃ s' calls L L', s.processEvt .ipaLanDeleteSelf (fun a => [a + 5]) = .ok (s', calls) ∧
      s'.Lists L' ∧ Delivered .ipaLanDeleteSelf (fun a => [a + 5]) L calls L' := by
  obtain ⟨s, tr, hexec, hseg⟩ : ∃ s tr,
      exec evtStep (EvtDispatcher.init : EvtDispatcher SelfEvent Nat)
        [.registr .ipaLanDeleteSelf 5 (some 0), .registr .ipaLanDeleteSelf 6 (some 1)] =
          .ok (s, tr) ∧
      s.mem.Seg s.head [(0, ⟨.ipaLanDeleteSelf, 5⟩), (1, ⟨.ipaLanDeleteSelf, 6⟩)] none :=
    ⟨_, _, rfl, rfl, _, rfl, rfl, _, rfl, rfl⟩
  obtain ⟨L, h, hiff⟩ := run_delivers (Run.of_exec hexec fun _ _ => trivial)
  obtain rfl := h.seg.det hseg
  obtain ⟨s', calls, L', hok, hlists, hdel⟩ := (hiff .ipaLanDeleteSelf fun a => [a + 5]).2
    ⟨by simp [NextStays, without], nodup_due.1 (by decide)⟩
  exact ⟨s, tr, hexec, s', calls, _, L', hok, hlists, hdel⟩

/-- `IPACM_Wlan` deletes itself where it is registered for another event right after the one for its
    deletion. -/
theorem run_delivers_gone : ¬ ∀ (s : EvtDispatcher SelfEvent Nat) tr,
    Run evtStep (fun _ _ => True) .init tr s → ∀ L event cb, s.Lists L →
      ∃ s' calls L', s.processEvt event cb = .ok (s', calls) ∧ s'.Lists L' ∧
        Delivered event cb L calls L' := by
  intro hall
  obtain ⟨s, tr, hexec, hseg, hused, hfault⟩ : ∃ s tr,
      exec evtStep (EvtDispatcher.init : EvtDispatcher SelfEvent Nat)
        [.registr .ipaLanDeleteSelf 5 (some 0),
          .registr .ipaTetheringStatsUpdateEvent 5 (some 1)] = .ok (s, tr) ∧
      s.mem.Seg s.head
        [(0, ⟨.ipaLanDeleteSelf, 5⟩), (1, ⟨.ipaTetheringStatsUpdateEvent, 5⟩)] none ∧
      s.used = 2 ∧ s.processEvt .ipaLanDeleteSelf (fun _ => [5]) = .error .outOfBounds :=
    ⟨_, _, rfl, ⟨rfl, _, rfl, rfl, _, rfl, rfl⟩, rfl, rfl⟩
  obtain ⟨s', calls, L', hok, -⟩ := hall s tr (Run.of_exec hexec fun _ _ => trivial) _
    .ipaLanDeleteSelf (fun _ => [5]) ⟨hseg, hused⟩
  rw [hfault] at hok
  cases hok

end Nx508j.Ipacm
