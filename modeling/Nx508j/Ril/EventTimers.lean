import Nx508j.Ril.RilEvent
import Nx508j.Ril.TimerRing

/-! # The timers of the event loop

`RilLoop` has the watches and lists of events, with times in microseconds. `TimerLoop` has the links
of these lists, with times as the code has them. Here both do the same to the timers: what
`TimerQueue` says. -/

namespace Nx508j.Ril

open Nx508j.Lib Function

namespace Timeval

def usecs (tv : Timeval) : Int := tv.tv_sec * 1000000 + tv.tv_usec

/-- As the clock and `timeradd` leave it. -/
def Normal (tv : Timeval) : Prop := 0 ≤ tv.tv_usec ∧ tv.tv_usec < 1000000

variable {a b : Timeval}

theorem lt_iff_usecs (ha : a.Normal) (hb : b.Normal) : a.lt b = true ↔ a.usecs < b.usecs := by
  unfold Normal at ha hb
  rw [lt_iff]
  unfold usecs
  omega

theorem usecs_add (a b : Timeval) : (a.add b).usecs = a.usecs + b.usecs := by
  unfold add usecs
  dsimp only
  split
  all_goals
    dsimp only
    omega

theorem Normal.add (ha : a.Normal) (hb : b.Normal) : (a.add b).Normal := by
  unfold Normal at ha hb ⊢
  unfold Timeval.add
  dsimp only
  split
  all_goals
    dsimp only
    omega

end Timeval

namespace RilLoop

/-- The lists are those of the timers that wait and of the entries that are to be called. -/
structure Times (s : RilLoop) (q : TimerQueue) : Prop where
  waiting : s.timer_list = q.waiting.map Timer.ev
  pending : s.pending_list = q.pending.map Entry.ev
  nodup : (s.timer_list ++ s.pending_list).Nodup
  timeout : ∀ t ∈ q.waiting, (s.event t.ev).timeout = t.timeout.usecs
  normal : ∀ t ∈ q.waiting, t.timeout.Normal

variable {s : RilLoop} {q : TimerQueue} {now tv : Timeval} {ev : Nat}

/-- Events are split where their timers are. -/
theorem split_map_ev {l : List Timer} (p : Nat → Bool) (p' : Timer → Bool)
    (h : ∀ t ∈ l, p t.ev = p' t) :
    (l.map Timer.ev).takeWhile p = (l.takeWhile p').map Timer.ev ∧
      (l.map Timer.ev).dropWhile p = (l.dropWhile p').map Timer.ev := by
  induction l with
  | nil => exact ⟨rfl, rfl⟩
  | cons t l ih =>
    obtain ⟨htake, hdrop⟩ := ih fun t ht => h t (List.mem_cons_of_mem _ ht)
    rw [List.map_cons, List.takeWhile_cons, List.dropWhile_cons, List.takeWhile_cons,
      List.dropWhile_cons, h t List.mem_cons_self, htake, hdrop]
    cases p' t with
    | false => exact ⟨rfl, rfl⟩
    | true => exact ⟨rfl, rfl⟩

theorem Times.timerAdd (h : Times s q) (hnow : s.now = now.usecs) (hn : now.Normal)
    (htv : tv.Normal) (hev : ¬ s.Linked ev) :
    ∃ s', s.ril_timer_add ev (some tv.usecs) = .ok s' ∧ Times s' (q.timerAdd ev tv now) := by
  have hsum : s.now + tv.usecs = (now.add tv).usecs := by rw [hnow, Timeval.usecs_add]
  have hother : ∀ t ∈ q.waiting, t.ev ≠ ev := by
    rintro t ht rfl
    exact hev (.inl (h.waiting ▸ List.mem_map_of_mem ht))
  obtain ⟨htake, hdrop⟩ := split_map_ev (l := q.waiting)
    (fun rev => decide ((s.event rev).timeout < (now.add tv).usecs))
    (fun t => t.timeout.lt (now.add tv)) fun t ht => by
      rw [h.timeout t ht, Bool.eq_iff_iff, decide_eq_true_eq]
      exact (Timeval.lt_iff_usecs (h.normal t ht) (hn.add htv)).symm
  rw [ril_timer_add]
  dsimp only
  rw [if_neg hev, hsum, h.waiting, htake, hdrop]
  have hperm : (((q.waiting.takeWhile fun t => t.timeout.lt (now.add tv)).map Timer.ev) ++
      ev :: ((q.waiting.dropWhile fun t => t.timeout.lt (now.add tv)).map Timer.ev)).Perm
        (ev :: s.timer_list) := by
    refine List.perm_middle.trans (.cons ev ?_)
    rw [← List.map_append, List.takeWhile_append_dropWhile, h.waiting]
  have hmem : ∀ t ∈ (q.timerAdd ev tv now).waiting,
      t = q.newTimer ev tv now ∨ t ∈ q.waiting := by
    intro t ht
    rcases List.mem_append.1 ht with ht | ht
    · exact .inr (List.takeWhile_subset _ ht)
    · exact (List.mem_cons.1 ht).imp_right fun ht => List.dropWhile_subset _ ht
  refine ⟨_, rfl, ?_, h.pending, ?_, fun t ht => ?_, fun t ht => ?_⟩
  · rw [TimerQueue.timerAdd, List.map_append, List.map_cons]
    rfl
  · refine (hperm.append_right _).nodup_iff.2 (List.nodup_cons.2 ⟨fun hin => ?_, h.nodup⟩)
    exact hev (List.mem_append.1 hin)
  · rcases hmem t ht with rfl | hold
    · exact congrArg RilEvent.timeout (update_self (f := s.event) ..)
    · exact (congrArg RilEvent.timeout (update_of_ne (hother t hold) _ s.event)).trans
        (h.timeout t hold)
  · rcases hmem t ht with rfl | hold
    · exact hn.add htv
    · exact h.normal t hold

theorem expire_all (l₁ l₂ : List Nat) (hlist : s.timer_list = l₁ ++ l₂)
    (hnodup : (l₁ ++ l₂ ++ s.pending_list).Nodup) :
    l₁.foldlM (fun s tev => s.expire tev) s =
      .ok { s with timer_list := l₂, pending_list := s.pending_list ++ l₁ } := by
  induction l₁ generalizing s with
  | nil =>
    rw [List.append_nil]
    exact congrArg Except.ok (by rw [← show s.timer_list = l₂ from hlist])
  | cons tev l₁ ih =>
    have hnot := (List.nodup_cons.1 hnodup).1
    have herase : s.timer_list.erase tev = l₁ ++ l₂ := by
      rw [hlist, List.cons_append, List.erase_cons_head]
    have hfree : ¬ { s with timer_list := l₁ ++ l₂ }.Linked tev := fun hin =>
      hnot (List.mem_append.2 hin)
    rw [List.foldlM_cons, expire, herase, addToPending, if_neg hfree, ok_bind, ih rfl]
    · rw [List.append_assoc, List.singleton_append]
    · refine (List.Perm.nodup_iff ?_).1 hnodup
      rw [List.cons_append, List.cons_append, ← List.append_assoc]
      exact (List.perm_append_singleton ..).symm

theorem Times.processTimeouts (h : Times s q) (hnow : s.now = now.usecs) (hn : now.Normal) :
    ∃ s', s.processTimeouts = .ok s' ∧ Times s' (q.processTimeouts now) := by
  obtain ⟨htake, hdrop⟩ := split_map_ev (l := q.waiting)
    (fun tev => decide ((s.event tev).timeout < s.now))
    (fun t => t.timeout.lt now) fun t ht => by
      rw [h.timeout t ht, hnow, Bool.eq_iff_iff, decide_eq_true_eq]
      exact (Timeval.lt_iff_usecs (h.normal t ht) hn).symm
  have hsplit : s.timer_list = (q.waiting.takeWhile fun t => t.timeout.lt now).map Timer.ev ++
      (q.waiting.dropWhile fun t => t.timeout.lt now).map Timer.ev := by
    rw [← List.map_append, List.takeWhile_append_dropWhile, h.waiting]
  unfold RilLoop.processTimeouts
  rw [h.waiting, htake, expire_all _ _ hsplit (hsplit ▸ h.nodup)]
  refine ⟨_, rfl, rfl, ?_, ?_, fun t ht => h.timeout t (List.dropWhile_subset _ ht),
    fun t ht => h.normal t (List.dropWhile_subset _ ht)⟩
  · have hmap : ∀ l : List Timer, (l.map Entry.timer).map Entry.ev = l.map Timer.ev := fun l =>
      List.map_map
    exact (congrArg₂ (· ++ ·) h.pending (hmap _).symm).trans List.map_append.symm
  · have hnodup := h.nodup
    rw [hsplit, List.append_assoc] at hnodup
    exact List.append_assoc .. ▸ List.nodup_append_comm.1 hnodup

/-- An event whose descriptor is ready. -/
theorem Times.addToPending (h : Times s q) (hev : ¬ s.Linked ev) :
    ∃ s', s.addToPending ev = .ok s' ∧ Times s' (q.readReady ev) := by
  refine ⟨_, if_neg hev, h.waiting, ?_, ?_, h.timeout, h.normal⟩
  · rw [TimerQueue.readReady, List.map_append, ← h.pending]
    rfl
  · have hnodup : ([ev] ++ (s.timer_list ++ s.pending_list)).Nodup :=
      List.nodup_cons.2 ⟨fun hin => hev (List.mem_append.1 hin), h.nodup⟩
    exact List.append_assoc .. ▸ List.nodup_append_comm.1 hnodup

/-- The loop goes on to the next event that is to be called. -/
theorem Times.fire (h : Times s q) (hpc : s.pc = .fire s.pending_list.head?)
    (hpart : q.part = .firing) : ∃ s', s.turn = .ok s' ∧ Times s' q.firePending := by
  unfold turn TimerQueue.firePending
  rw [hpart]
  cases hq : q.pending with
  | nil =>
    have hnil : s.pending_list = [] := by rw [h.pending, hq, List.map_nil]
    rw [hnil] at hpc
    rw [hpc]
    exact ⟨_, rfl, h.waiting, hnil, h.nodup, h.timeout, h.normal⟩
  | cons e pending =>
    have hcons : s.pending_list = e.ev :: pending.map Entry.ev := by
      rw [h.pending, hq, List.map_cons]
    have herase : s.pending_list.erase e.ev = pending.map Entry.ev := by
      rw [hcons, List.erase_cons_head]
    rw [hcons] at hpc
    rw [hpc]
    exact ⟨_, rfl, h.waiting, herase,
      h.nodup.sublist ((List.Sublist.refl _).append List.erase_sublist), h.timeout, h.normal⟩

/-! ## The two models -/

/-- Both hold the same timers. -/
def Same (s : RilLoop) (w : TimerLoop) : Prop :=
  ∃ q, Times s q ∧ TimerLoop.Refines w q ∧ q.Inv

variable {w : TimerLoop}

theorem same_start (now : Timeval) : Same { now := now.usecs } (TimerLoop.init now) :=
  ⟨.init now, ⟨rfl, rfl, List.nodup_nil, nofun, nofun⟩, .init now, .init now⟩

/-- An event without links is on no list. -/
theorem Times.not_linked (h : Times s q) (hw : TimerLoop.Refines w q)
    (hnull : w.next (.event ev) = .null) : ¬ s.Linked ev := by
  obtain ⟨htimer, hpending⟩ := hw.rings.not_mem_of_next_eq_null hnull
  rintro (hin | hin)
  · rw [h.waiting] at hin
    obtain ⟨t, ht, rfl⟩ := List.mem_map.1 hin
    exact htimer (List.mem_cons_of_mem _ (List.mem_map_of_mem ht))
  · rw [h.pending] at hin
    obtain ⟨e, he, rfl⟩ := List.mem_map.1 hin
    exact hpending (List.mem_cons_of_mem _ (List.mem_map_of_mem he))

/-- What `RilLoop` does for a call. -/
def timerStep (s : RilLoop) : TimerCall → Except Fault RilLoop
  | .timerAdd ev tv _ => s.ril_timer_add ev (tv.map Timeval.usecs)
  | .processTimeouts _ => s.processTimeouts
  | .readReady rev => s.addToPending rev
  | .firePending => s.turn

/-- The times of a call are those of the clock and as it leaves them, and events are fired one by
    one. -/
def Meets (s : RilLoop) (w : TimerLoop) : TimerCall → Prop
  | .timerAdd _ tv now => s.now = now.usecs ∧ now.Normal ∧ ∀ x, tv = some x → x.Normal
  | .processTimeouts now => s.now = now.usecs ∧ now.Normal
  | .readReady _ => True
  | .firePending => s.pc = .fire s.pending_list.head? ∧ ∃ p, w.pc = .firing p

/-- **The two models agree** on each call. -/
theorem Same.step (h : Same s w) {c : TimerCall} (hm : Meets s w c) (hc : TimerLoop.Allowed w c) :
    ∃ s' w', s.timerStep c = .ok s' ∧ TimerLoop.step w c = .ok (w', ()) ∧ Same s' w' := by
  obtain ⟨q, hs, hw, hq⟩ := h
  obtain ⟨w', hstep, hw', hq'⟩ := hw.step hq hc
  obtain ⟨s', hstep', hs'⟩ : ∃ s', s.timerStep c = .ok s' ∧ Times s' (TimerLoop.act q c) := by
    cases c with
    | timerAdd ev tv now =>
      cases tv with
      | none => exact ⟨s, rfl, hs⟩
      | some tv => exact hs.timerAdd hm.1 hm.2.1 (hm.2.2 tv rfl) (hs.not_linked hw hc.1)
    | processTimeouts now => exact hs.processTimeouts hm.1 hm.2
    | readReady rev => exact hs.addToPending (hs.not_linked hw hc.2)
    | firePending =>
      obtain ⟨hpc, p, hp⟩ := hm
      refine hs.fire hpc ?_
      rw [hw.pc] at hp
      cases hpart : q.part with
      | firing => rfl
      | timeouts | readies =>
        rw [hpart] at hp
        cases hp
  exact ⟨s', w', hstep', hstep, _, hs', hw', hq'⟩

end RilLoop

end Nx508j.Ril
