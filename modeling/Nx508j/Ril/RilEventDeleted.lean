import Mathlib.Data.List.Nodup
import Nx508j.Ril.RilEvent

/-! # Deleted events

`ril_event_del` looks at the index of an event only. What a run has to keep to so that no callback is
invoked after that is `Detached`: an event that is deleted is not on a list, nor taken off the pending
list to be called, nor watched in two places. -/

namespace Nx508j.Ril

open Nx508j.Lib Function

namespace RilLoop

variable {s s' : RilLoop} {ev tev : Nat}

def Watched (s : RilLoop) (ev : Nat) : Prop := ∃ i ∈ indices, s.watch_table i = some ev

/-- The event can still be fired without being added. -/
def Present (s : RilLoop) (ev : Nat) : Prop :=
  s.Linked ev ∨ s.Watched ev ∨ ∃ next, s.pc = .call ev next

/-- What is asked of a call: an event that is deleted is at most in the watch table, at its index. -/
def Detached (s : RilLoop) (e : RilCall) : Prop :=
  match e with
  | .del ev => ¬ s.Linked ev ∧ (∀ next, s.pc ≠ .call ev next) ∧
      ∀ i ∈ indices, s.watch_table i = some ev → (s.event ev).index = i
  | _ => True

/-- What holds in every run that keeps to it. -/
structure Unfired (s : RilLoop) : Prop where
  nodup : (s.timer_list ++ s.pending_list).Nodup
  gone : ∀ ev, s.deleted ev = true → ¬ s.Present ev
  fire : ∀ ev, s.pc = .fire (some ev) → ev ∈ s.pending_list
  call : ∀ ev next, s.pc = .call ev (some next) → next ∈ s.pending_list
  fired : ∀ x ∈ s.fired, x.2 = false

theorem unfired_init : ({} : RilLoop).Unfired where
  nodup := List.nodup_nil
  gone := fun _ h => nomatch h
  fire := fun _ h => nomatch h
  call := fun _ _ h => nomatch h
  fired := fun _ h => absurd h List.not_mem_nil

/-- A part of a turn or a call that leaves the loop where it is. -/
structure Kept (s s' : RilLoop) : Prop where
  pc : s'.pc = s.pc
  fired : s'.fired = s.fired
  pending : ∀ ev ∈ s.pending_list, ev ∈ s'.pending_list
  nodup : (s.timer_list ++ s.pending_list).Nodup → (s'.timer_list ++ s'.pending_list).Nodup
  present : ∀ ev, s'.deleted ev = true → s'.Linked ev ∨ s'.Watched ev →
    s.deleted ev = true ∧ (s.Linked ev ∨ s.Watched ev)
  deleted : ∀ ev, s'.deleted ev = true → s.deleted ev = true

theorem Kept.refl (s : RilLoop) : Kept s s where
  pc := rfl
  fired := rfl
  pending := fun _ h => h
  nodup := id
  present := fun _ hd hp => ⟨hd, hp⟩
  deleted := fun _ h => h

theorem Kept.trans {s'' : RilLoop} (h : Kept s s') (h' : Kept s' s'') : Kept s s'' where
  pc := h'.pc.trans h.pc
  fired := h'.fired.trans h.fired
  pending := fun ev hev => h'.pending ev (h.pending ev hev)
  nodup := fun hn => h'.nodup (h.nodup hn)
  present := by
    intro ev hd hp
    obtain ⟨hd', hp'⟩ := h'.present ev hd hp
    exact h.present ev hd' hp'
  deleted := fun ev hd => h.deleted ev (h'.deleted ev hd)

theorem Unfired.kept (h : s.Unfired) (hk : Kept s s') : s'.Unfired := by
  refine ⟨hk.nodup h.nodup, fun ev hd hp => ?_, fun ev hpc => ?_, fun ev next hpc => ?_, ?_⟩
  · rcases hp with hlinked | hwatched | ⟨next, hpc⟩
    · obtain ⟨hd', hp'⟩ := hk.present ev hd (.inl hlinked)
      exact h.gone ev hd' (hp'.imp_right .inl)
    · obtain ⟨hd', hp'⟩ := hk.present ev hd (.inr hwatched)
      exact h.gone ev hd' (hp'.imp_right .inl)
    · exact h.gone ev (hk.deleted ev hd) (.inr (.inr ⟨next, hk.pc ▸ hpc⟩))
  · exact hk.pending ev (h.fire ev (hk.pc ▸ hpc))
  · exact hk.pending next (h.call ev next (hk.pc ▸ hpc))
  · rw [hk.fired]
    exact h.fired

/-! ## The watch table -/

theorem watched_removeWatch (index : Nat) (h : (s.removeWatch ev index).Watched tev) :
    s.Watched tev := by
  obtain ⟨i, hi, hw⟩ := h
  change update s.watch_table index none i = some tev at hw
  by_cases hii : i = index
  · rw [hii, update_self] at hw
    cases hw
  · rw [update_of_ne hii] at hw
    exact ⟨i, hi, hw⟩

theorem kept_removeWatch (s : RilLoop) (ev index : Nat) : Kept s (s.removeWatch ev index) where
  pc := rfl
  fired := rfl
  pending := fun _ h => h
  nodup := id
  present := fun _ hd hp => ⟨hd, hp.imp_right (watched_removeWatch index)⟩
  deleted := fun _ h => h

theorem kept_event (s : RilLoop) (event : Nat → RilEvent) : Kept s { s with event := event } where
  pc := rfl
  fired := rfl
  pending := fun _ h => h
  nodup := id
  present := fun _ hd hp => ⟨hd, hp⟩
  deleted := fun _ h => h

theorem kept_add (s : RilLoop) (ev : Nat) : Kept s (s.ril_event_add ev) := by
  unfold ril_event_add
  split
  · exact .refl s
  · next i hi =>
    refine ⟨rfl, rfl, fun _ h => h, id, fun tev hd hp => ?_, fun tev hd => ?_⟩
    · change update s.deleted ev false tev = true at hd
      have hne : tev ≠ ev := by
        rintro rfl
        rw [update_self] at hd
        cases hd
      rw [update_of_ne hne] at hd
      refine ⟨hd, hp.imp_right ?_⟩
      rintro ⟨j, hj, hw⟩
      change update s.watch_table i (some ev) j = some tev at hw
      by_cases hji : j = i
      · rw [hji, update_self] at hw
        exact absurd (Option.some.inj hw).symm hne
      · rw [update_of_ne hji] at hw
        exact ⟨j, hj, hw⟩
    · change update s.deleted ev false tev = true at hd
      by_cases hne : tev = ev
      · rw [hne, update_self] at hd
        cases hd
      · rwa [update_of_ne hne] at hd

/-! ## The timer list -/

theorem mem_insert_split {α : Type} (p : α → Bool) (l : List α) (a x : α) :
    x ∈ l.takeWhile p ++ a :: l.dropWhile p ↔ x = a ∨ x ∈ l := by
  have hl : x ∈ l ↔ x ∈ l.takeWhile p ∨ x ∈ l.dropWhile p := by
    rw [← List.mem_append, List.takeWhile_append_dropWhile]
  rw [List.mem_append, List.mem_cons, hl]
  tauto

theorem kept_timer_add {tv : Option Int} (h : s.ril_timer_add ev tv = .ok s') : Kept s s' := by
  unfold ril_timer_add at h
  split at h
  · cases h
    exact .refl s
  · next tv =>
    split at h
    · cases h
    · next hlinked =>
      cases h
      set sooner : Nat → Bool := fun rev => decide ((s.event rev).timeout < s.now + tv)
      refine ⟨rfl, rfl, fun _ h => h, fun hn => ?_, fun tev hd hp => ?_, fun tev hd => ?_⟩
      · have hperm : (s.timer_list.takeWhile sooner ++ ev :: s.timer_list.dropWhile sooner).Perm
            (ev :: s.timer_list) := by
          refine List.perm_middle.trans ?_
          rw [List.takeWhile_append_dropWhile]
        refine ((hperm.append_right s.pending_list).nodup_iff).2 ?_
        exact List.nodup_cons.2 ⟨fun hc => hlinked (List.mem_append.1 hc), hn⟩
      · change update s.deleted ev false tev = true at hd
        have hne : tev ≠ ev := by
          rintro rfl
          rw [update_self] at hd
          cases hd
        rw [update_of_ne hne] at hd
        refine ⟨hd, hp.imp_left fun hl => hl.imp_left fun ht => ?_⟩
        exact ((mem_insert_split sooner s.timer_list ev tev).1 ht).resolve_left hne
      · change update s.deleted ev false tev = true at hd
        by_cases hne : tev = ev
        · rw [hne, update_self] at hd
          cases hd
        · rwa [update_of_ne hne] at hd

theorem kept_expire (h : s.expire tev = .ok s') (ht : tev ∈ s.timer_list) :
    Kept s s' ∧ s'.timer_list = s.timer_list.erase tev := by
  unfold expire addToPending at h
  split at h
  · cases h
  · next hlinked =>
    cases h
    refine ⟨⟨rfl, rfl, fun _ h => List.mem_append_left _ h, fun hn => ?_, fun ev hd hp => ?_,
      fun _ h => h⟩, rfl⟩
    · have hperm : (s.timer_list.erase tev ++ (s.pending_list ++ [tev])).Perm
          (s.timer_list ++ s.pending_list) := by
        refine ((List.perm_append_singleton tev s.pending_list).append_left _).trans ?_
        refine List.perm_middle.trans ?_
        exact ((List.perm_cons_erase ht).symm.append_right s.pending_list)
      exact hperm.nodup_iff.2 hn
    · refine ⟨hd, hp.imp_left ?_⟩
      rintro (hl | hl)
      · exact .inl (List.mem_of_mem_erase hl)
      · rcases List.mem_append.1 hl with hl | hl
        · exact .inr hl
        · rw [List.mem_singleton.1 hl]
          exact .inl ht

theorem kept_expires (l : List Nat) (hl : l.Nodup) (hsub : ∀ tev ∈ l, tev ∈ s.timer_list)
    (h : l.foldlM (fun s tev => s.expire tev) s = .ok s') : Kept s s' := by
  induction l generalizing s with
  | nil =>
    obtain rfl := Except.ok.inj h
    exact .refl s
  | cons tev l ih =>
    rw [List.foldlM_cons] at h
    obtain ⟨t, ht, h⟩ := bind_eq_ok h
    obtain ⟨hkept, hlist⟩ := kept_expire ht (hsub tev (List.mem_cons_self ..))
    obtain ⟨hnot, hl⟩ := List.nodup_cons.1 hl
    refine hkept.trans (ih hl (fun x hx => ?_) h)
    rw [hlist]
    refine (List.mem_erase_of_ne ?_).2 (hsub x (List.mem_cons_of_mem _ hx))
    rintro rfl
    exact hnot hx

/-! ## What is ready -/

theorem kept_readReadies (rfds : List Int) (is : List Nat) (his : ∀ i ∈ is, i ∈ indices) (n : Nat)
    (h : readReadies rfds is n s = .ok s') : Kept s s' := by
  induction is generalizing s n with
  | nil =>
    obtain rfl := Except.ok.inj h
    exact .refl s
  | cons i is ih =>
    have hrest : ∀ j ∈ is, j ∈ indices := fun j hj => his j (List.mem_cons_of_mem _ hj)
    cases n with
    | zero =>
      obtain rfl := Except.ok.inj h
      exact .refl s
    | succ n =>
      rw [readReadies] at h
      split at h
      · exact ih hrest _ h
      · next rev hrev =>
        split at h
        · obtain ⟨t, ht, h⟩ := bind_eq_ok h
          have hkept : Kept s t := by
            unfold addToPending at ht
            split at ht
            · cases ht
            · next hlinked =>
              cases ht
              refine ⟨rfl, rfl, fun _ h => List.mem_append_left _ h, fun hn => ?_,
                fun ev hd hp => ⟨hd, ?_⟩, fun _ h => h⟩
              · rw [← List.append_assoc]
                refine (List.perm_append_singleton ..).nodup_iff.2 (List.nodup_cons.2
                  ⟨fun hc => hlinked (List.mem_append.1 hc), hn⟩)
              · rcases hp with (hl | hl) | hw
                · exact .inl (.inl hl)
                · rcases List.mem_append.1 hl with hl | hl
                  · exact .inl (.inr hl)
                  · rw [List.mem_singleton.1 hl]
                    exact .inr ⟨i, his i (List.mem_cons_self ..), hrev⟩
                · exact .inr hw
          refine hkept.trans ?_
          split at h
          · exact ih hrest _ h
          · exact (kept_removeWatch t rev i).trans (ih hrest _ h)
        · exact ih hrest _ h

/-! ## Deletion and firing -/

theorem Unfired.mark (h : s.Unfired) (habsent : ¬ s.Present ev) :
    Unfired { s with deleted := update s.deleted ev true } := by
  refine ⟨h.nodup, fun tev hd hp => ?_, h.fire, h.call, h.fired⟩
  by_cases hne : tev = ev
  · rw [hne] at hp
    exact habsent hp
  · change update s.deleted ev true tev = true at hd
    rw [update_of_ne hne] at hd
    exact h.gone tev hd hp

theorem Unfired.del (h : s.Unfired) (hC : s.Detached (.del ev)) : (s.ril_event_del ev).Unfired := by
  obtain ⟨hlinked, hpc, hindex⟩ := hC
  unfold ril_event_del
  simp only
  split
  · next hrange =>
    refine h.mark fun hp => ?_
    rcases hp with hl | ⟨i, hi, hw⟩ | ⟨next, hc⟩
    · exact hlinked hl
    · have hlt : i < maxFdEvents := List.mem_range.1 hi
      rw [hindex i hi hw] at hrange
      omega
    · exact hpc next hc
  · have hremoved := h.kept (kept_removeWatch s ev (s.event ev).index.toNat)
    refine hremoved.mark fun hp => ?_
    rcases hp with hl | ⟨i, hi, hw⟩ | ⟨next, hc⟩
    · exact hlinked hl
    · change update s.watch_table _ none i = some ev at hw
      by_cases hii : i = (s.event ev).index.toNat
      · rw [hii, update_self] at hw
        cases hw
      · rw [update_of_ne hii] at hw
        refine hii ?_
        rw [hindex i hi hw]
        rfl
    · exact hpc next hc

theorem Unfired.go_on (h : s.Unfired) {rfds : Int → Bool} {pc : LoopPc}
    (hfire : ∀ ev, pc = .fire (some ev) → ev ∈ s.pending_list) (hcall : ∀ ev next, pc ≠ .call ev next) :
    Unfired { s with rfds := rfds, pc := pc } where
  nodup := h.nodup
  gone := by
    intro ev hd hp
    refine h.gone ev hd (hp.imp_right (.imp_right ?_))
    rintro ⟨next, hc⟩
    exact absurd hc (hcall ev next)
  fire := hfire
  call := fun ev next hc => absurd hc (hcall ev _)
  fired := h.fired

theorem mem_of_next {l : List Nat} {next : Nat} (hl : l.Nodup)
    (h : (l.dropWhile (· ≠ ev)).tail.head? = some next) : next ∈ l.erase ev := by
  induction l with
  | nil => cases h
  | cons a l ih =>
    obtain ⟨hnot, hl⟩ := List.nodup_cons.1 hl
    by_cases ha : a = ev
    · subst ha
      rw [List.dropWhile_cons_of_neg (by simp), List.tail_cons] at h
      rw [List.erase_cons_head]
      exact List.mem_of_mem_head? h
    · rw [List.dropWhile_cons_of_pos (by simpa using ha)] at h
      rw [List.erase_cons_tail (by simpa using ha)]
      exact List.mem_cons_of_mem _ (ih hl h)

theorem Unfired.turn (h : s.Unfired) (hstep : s.turn = .ok s') : s'.Unfired := by
  unfold RilLoop.turn at hstep
  split at hstep
  · cases hstep
    exact h.go_on nofun nofun
  · cases hstep
    exact h
  · obtain ⟨t, ht, hstep⟩ := bind_eq_ok hstep
    cases hstep
    have hkept : Kept s t := by
      refine kept_expires _ ?_ (fun tev htev => ?_) ht
      · exact (List.nodup_append.1 h.nodup).1.sublist (List.takeWhile_sublist _)
      · exact (List.takeWhile_sublist _).subset htev
    exact (h.kept hkept).go_on nofun nofun
  · obtain ⟨t, ht, hstep⟩ := bind_eq_ok hstep
    cases hstep
    refine (h.kept (kept_readReadies _ _ (fun i hi => hi) _ ht)).go_on (fun ev hev => ?_) nofun
    exact List.mem_of_mem_head? (LoopPc.fire.inj hev)
  · cases hstep
    exact h.go_on nofun nofun
  · next ev hpc =>
    -- the event that is taken off the list was on it, and so was not deleted
    cases hstep
    have hmem := h.fire ev hpc
    refine ⟨?_, fun tev hd hp => ?_, nofun, fun tev next hc => ?_, h.fired⟩
    · exact h.nodup.sublist (List.Sublist.append_left List.erase_sublist _)
    · rcases hp with (hl | hl) | hw | ⟨next, hc⟩
      · exact h.gone tev hd (.inl (.inl hl))
      · exact h.gone tev hd (.inl (.inr (List.mem_of_mem_erase hl)))
      · exact h.gone tev hd (.inr (.inl hw))
      · obtain ⟨rfl, -⟩ := LoopPc.call.inj hc
        exact h.gone ev hd (.inl (.inr hmem))
    · obtain ⟨rfl, hnext⟩ := LoopPc.call.inj hc
      exact mem_of_next (List.nodup_append.1 h.nodup).2.1 hnext
  · next ev next hpc =>
    cases hstep
    have hnot : s.deleted ev = false := by
      refine Bool.eq_false_iff.2 fun hd => h.gone ev hd (.inr (.inr ⟨next, hpc⟩))
    refine ⟨h.nodup, fun tev hd hp => ?_, fun tev hc => ?_, nofun, fun x hx => ?_⟩
    · refine h.gone tev hd (hp.imp_right (.imp_right ?_))
      rintro ⟨next', hc⟩
      cases hc
    · obtain rfl := LoopPc.fire.inj hc
      exact h.call ev tev hpc
    · rcases List.mem_append.1 hx with hx | hx
      · exact h.fired x hx
      · rw [List.mem_singleton.1 hx]
        exact hnot

theorem Unfired.advance (h : s.Unfired) {e : RilCall} (hC : s.Detached e)
    (hstep : s.advance e = .ok s') : s'.Unfired := by
  cases e with
  | tick now =>
    cases hstep
    split
    · exact ⟨h.nodup, h.gone, h.fire, h.call, h.fired⟩
    · exact h
  | set ev fd persist =>
    unfold RilLoop.advance ril_event_set at hstep
    simp only at hstep
    split at hstep
    · cases hstep
    · cases hstep
      exact h.kept (kept_event s _)
  | add ev =>
    cases hstep
    exact h.kept (kept_add s ev)
  | timerAdd ev tv => exact h.kept (kept_timer_add hstep)
  | del ev =>
    cases hstep
    exact h.del hC
  | select ready =>
    cases hstep
    split
    · exact h.go_on nofun nofun
    · exact h
  | turn => exact h.turn hstep

/-! ## Runs -/

/-- **Runs that delete what is detached.** No callback is invoked whose event was deleted and not added
    since. -/
theorem run_unfired {tr : List (RilCall × Unit)} (run : Run step Detached {} tr s) :
    ∀ x ∈ s.fired, x.2 = false := by
  have hinv : s.Unfired := by
    refine run.invariant (fun _ s => s.Unfired) unfired_init ?_
    intro tr s e s' r h hC hstep
    obtain ⟨t, ht, hstep⟩ := bind_eq_ok hstep
    cases hstep
    exact h.advance hC ht
  exact hinv.fired

/-- A test for the condition. -/
def detachedTest (s : RilLoop) : RilCall → Bool
  | .del ev =>
    !decide (s.Linked ev) && (match s.pc with | .call tev _ => tev != ev | _ => true) &&
      indices.all fun i => s.watch_table i != some ev || (s.event ev).index == i
  | _ => true

theorem detached_of_test {e : RilCall} (h : s.detachedTest e = true) : s.Detached e := by
  cases e with
  | del ev =>
    simp only [detachedTest, Bool.and_eq_true] at h
    obtain ⟨⟨hlinked, hpc⟩, hindex⟩ := h
    refine ⟨by simpa using hlinked, fun next hc => ?_, fun i hi hw => ?_⟩
    · simp [hc] at hpc
    · have hi := List.all_eq_true.1 hindex i hi
      simpa [hw] using hi
  | _ => trivial

/-- A persistent event fires, and is deleted by its callback. -/
def firesOnce : List RilCall :=
  [.set 0 5 true, .add 0, .turn, .select [5], .turn, .turn, .turn, .turn, .del 0, .turn, .turn,
    .select [5], .turn, .turn, .turn]

/-- The theorem at a run in which an event is fired and deleted. -/
theorem run_unfired_once :
    ∃ tr s, Run step Detached {} tr s ∧ s.fired.length = 1 ∧ ∀ x ∈ s.fired, x.2 = false := by
  have hend : (exec step {} firesOnce).toOption.map (fun x => x.1.fired.length) = some 1 := by
    decide +kernel
  have hall : allMeet step detachedTest {} firesOnce = true := by
    decide +kernel
  obtain ⟨s, tr, hexec, hend⟩ := exec_of_map hend
  have hfired : s.fired.length = 1 := hend
  have run := Run.of_exec_of_allMeet (C := Detached) (fun _ _ _ h => detached_of_test h) hexec hall
  exact ⟨tr, s, run, hfired, run_unfired run⟩

/-- Two events are ready in one turn, and the callback of the first deletes the second. -/
def deletesNext : List RilCall :=
  [.set 0 5 true, .add 0, .set 1 6 true, .add 1, .turn, .select [5, 6], .turn, .turn, .turn, .turn,
    .del 1, .turn, .turn]

/-- The callback of the deleted event is invoked. -/
theorem run_fired :
    ∃ tr s, Run step (fun _ _ => True) {} tr s ∧ (1, true) ∈ s.fired ∧
      ¬ ∀ x ∈ s.fired, x.2 = false := by
  have hend : (exec step {} deletesNext).toOption.map (fun x => x.1.fired) =
      some [(0, false), (1, true)] := by
    decide +kernel
  obtain ⟨s, tr, hexec, hend⟩ := exec_of_map hend
  have hall : s.fired = [(0, false), (1, true)] := hend
  have hfired : (1, true) ∈ s.fired := by
    rw [hall]
    exact List.mem_cons_of_mem _ (List.mem_singleton_self _)
  refine ⟨tr, s, Run.of_exec (C := fun _ => True) hexec (by simp), hfired, fun h => ?_⟩
  cases h _ hfired

end RilLoop

end Nx508j.Ril
