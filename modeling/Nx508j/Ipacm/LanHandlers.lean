import Nx508j.Ipacm.LanStages

/-! # What the handlers are made of

One lemma a handler: how it can end, and through which stages it came there. -/

namespace Nx508j.Ipacm.Lan2Lan

open Nx508j.Lib

variable {ω : Type} {cfg : Config} {ops : Ifaces ω} {t : IpType}

namespace Side

variable {s s' : Side} {w w' : ω} {data : LanClientData} {pIface : Iface} {conn : ConnectionData}

/-- A client that is new, one that is active already, one whose address has another owner now, and
    one that was inactive. -/
theorem handleClientActive_cases
    (h : s.handleClientActive cfg ops t data pIface w = some (s', w')) :
    (s.find (data.key t) = none ∧ w' = w ∧
        (s.insert (data.key t) (data.fill t pIface .blank)).announce cfg t s.next = some s') ∨
      ∃ p c, s.find (data.key t) = some p ∧ s.mem p = some c ∧
        (c.isActive = true ∧ c.macAddr = data.macAddr ∧ s' = s ∧ w' = w ∨
          c.isActive = true ∧ c.macAddr ≠ data.macAddr ∧
            (∃ r s₁ r' s₂, turnoffOffloadLinks ops t p s w = some (r, s₁, w') ∧
              s₁.clearPeerList p = some (r', s₂) ∧
              (s₂.modify p (data.fill t pIface)).announce cfg t p = some s') ∨
          c.isActive = false ∧
            ∃ s₁, checkPotentialLink ops t p (s.modify p (data.fill t pIface)) w = some (s₁, w') ∧
              s₁.announce cfg t p = some s') := by
  unfold handleClientActive at h
  split at h
  · next hfind =>
    simp only [Option.bind_eq_bind, Option.bind_eq_some_iff] at h
    obtain ⟨s₁, hannounce, h⟩ := h
    cases h
    exact .inl ⟨hfind, rfl, hannounce⟩
  · next p hfind =>
    simp only [Option.bind_eq_bind, Option.bind_eq_some_iff] at h
    obtain ⟨c, hc, h⟩ := h
    refine .inr ⟨p, c, hfind, hc, ?_⟩
    split at h
    · next hactive =>
      split at h
      · next hmac =>
        cases h
        exact .inl ⟨hactive, hmac, rfl, rfl⟩
      · next hmac =>
        simp only [Option.bind_eq_some_iff] at h
        obtain ⟨⟨r, s₁, w₁⟩, hoff, ⟨r', s₂⟩, hclear, s₃, hannounce, h⟩ := h
        cases h
        exact .inr (.inl ⟨hactive, hmac, r, s₁, r', s₂, hoff, hclear, hannounce⟩)
    · next hactive =>
      simp only [Option.bind_eq_some_iff] at h
      obtain ⟨⟨s₁, w₁⟩, hcheck, s₂, hannounce, h⟩ := h
      cases h
      exact .inr (.inr ⟨Bool.eq_false_iff.mpr hactive, s₁, hcheck, hannounce⟩)

theorem handleClientInactive_cases (h : s.handleClientInactive ops t data w = some (s', w')) :
    (s.find (data.key t) = none ∧ s' = s ∧ w' = w) ∨
      ∃ p r s₁ c, s.find (data.key t) = some p ∧
        turnoffOffloadLinks ops t p s w = some (r, s₁, w') ∧ s₁.mem p = some c ∧
        (c.peer = [] ∧
            s' = (s₁.modify p fun c => { c with isActive := false }).erase (data.key t) ∨
          c.peer ≠ [] ∧ s' = s₁.modify p fun c => { c with isActive := false }) := by
  unfold handleClientInactive at h
  split at h
  · next hfind =>
    cases h
    exact .inl ⟨hfind, rfl, rfl⟩
  · next p hfind =>
    simp only [Option.bind_eq_bind, Option.bind_eq_some_iff] at h
    obtain ⟨⟨r, s₁, w₁⟩, hoff, c', hc', h⟩ := h
    rw [mem_modify, if_pos rfl, Option.map_eq_some_iff] at hc'
    obtain ⟨c, hc, rfl⟩ := hc'
    split at h
    · next hpeer =>
      cases h
      exact .inr ⟨p, r, s₁, c, hfind, hoff, hc, .inl ⟨hpeer, rfl⟩⟩
    · next hpeer =>
      cases h
      exact .inr ⟨p, r, s₁, c, hfind, hoff, hc, .inr ⟨hpeer, rfl⟩⟩

theorem handleClientDisconnect_cases (h : s.handleClientDisconnect ops t data w = some (s', w')) :
    (s.find (data.key t) = none ∧ s' = s ∧ w' = w) ∨
      ∃ p r s₁ r' s₂, s.find (data.key t) = some p ∧
        turnoffOffloadLinks ops t p s w = some (r, s₁, w') ∧ s₁.clearPeerList p = some (r', s₂) ∧
        s' = s₂.erase (data.key t) := by
  unfold handleClientDisconnect at h
  split at h
  · next hfind =>
    cases h
    exact .inl ⟨hfind, rfl, rfl⟩
  · next p hfind =>
    simp only [Option.bind_eq_bind, Option.bind_eq_some_iff] at h
    obtain ⟨⟨r, s₁, w₁⟩, hoff, ⟨r', s₂⟩, hclear, h⟩ := h
    cases h
    exact .inr ⟨p, r, s₁, r', s₂, hfind, hoff, hclear, rfl⟩

theorem handleClientPowerSave_cases (h : s.handleClientPowerSave ops t data w = some (s', w')) :
    (s.find (data.key t) = none ∧ s' = s ∧ w' = w) ∨
      ∃ p r, s.find (data.key t) = some p ∧ removeFltRules ops t p s w = some (r, w') ∧
        (r = false ∧ s' = s ∨
          r = true ∧ s' = s.modify p fun c => { c with isActive := false, isPowersave := true }) := by
  unfold handleClientPowerSave at h
  split at h
  · next hfind =>
    cases h
    exact .inl ⟨hfind, rfl, rfl⟩
  · next p hfind =>
    simp only [Option.bind_eq_bind, Option.bind_eq_some_iff] at h
    obtain ⟨⟨r, w₁⟩, hremove, h⟩ := h
    cases r with
    | false =>
      cases h
      exact .inr ⟨p, false, hfind, hremove, .inl ⟨rfl, rfl⟩⟩
    | true =>
      cases h
      exact .inr ⟨p, true, hfind, hremove, .inr ⟨rfl, rfl⟩⟩

theorem handleClientPowerRecover_cases
    (h : s.handleClientPowerRecover cfg ops t data w = some (s', w')) :
    (s' = s ∧ w' = w) ∨
      ∃ p c r s₁ w₁, s.find (data.key t) = some p ∧ s.mem p = some c ∧ c.isActive = false ∧
        c.isPowersave = true ∧ addFltRules ops t p s w = some (r, s₁, w₁) ∧
        (r = false ∧ s' = s₁ ∧ w' = w₁ ∨
          r = true ∧ ∃ s₂, checkPotentialLink ops t p
              (s₁.modify p fun c => { c with isActive := true, isPowersave := false }) w₁ =
                some (s₂, w') ∧
            s₂.generateNewConnection cfg t p = some s') := by
  unfold handleClientPowerRecover at h
  split at h
  · cases h
    exact .inl ⟨rfl, rfl⟩
  · next p hfind =>
    simp only [Option.bind_eq_bind, Option.bind_eq_some_iff] at h
    obtain ⟨c, hc, h⟩ := h
    split at h
    · cases h
      exact .inl ⟨rfl, rfl⟩
    · next hstate =>
      obtain ⟨hactive, hsave⟩ := not_or.mp hstate
      simp only [Option.bind_eq_some_iff] at h
      obtain ⟨⟨r, s₁, w₁⟩, hadd, h⟩ := h
      refine .inr ⟨p, c, r, s₁, w₁, hfind, hc, Bool.eq_false_iff.mpr hactive,
        Bool.not_eq_false _ ▸ hsave, hadd, ?_⟩
      cases r with
      | false =>
        cases h
        exact .inl ⟨rfl, rfl, rfl⟩
      | true =>
        simp only [Bool.true_eq_false, if_false, Option.bind_eq_some_iff] at h
        obtain ⟨⟨s₂, w₂⟩, hcheck, s₃, hgen, h⟩ := h
        cases h
        exact .inr ⟨rfl, s₂, hcheck, hgen⟩

/-- Nothing is done for clients that are not known; else the connection is counted, and a first one of
    two active clients gets links for both directions, as far as they can be had. -/
theorem handleNewLan2lanConnection_cases
    (h : s.handleNewLan2lanConnection ops t conn w = some (s', w')) :
    ((s.find (srcKey conn) = none ∨ s.find (dstKey conn) = none) ∧ s' = s ∧ w' = w) ∨
      ∃ a b r s₁ c d, s.find (srcKey conn) = some a ∧ s.find (dstKey conn) = some b ∧
        s.addConnection a b = some (r, s₁) ∧ s₁.mem a = some c ∧ s₁.mem b = some d ∧
        (¬ (r = true ∧ c.isActive = true ∧ d.isActive = true) ∧ s' = s₁ ∧ w' = w ∨
          (r = true ∧ c.isActive = true ∧ d.isActive = true) ∧
            (addOffloadLink ops t a b s₁ w = some (false, s', w') ∨
              ∃ s₂ w₂, addOffloadLink ops t a b s₁ w = some (true, s₂, w₂) ∧
                (addOffloadLink ops t b a s₂ w₂ = some (false, s', w') ∨
                  ∃ s₃, addOffloadLink ops t b a s₂ w₂ = some (true, s₃, w') ∧
                    s' = { s₃ with numOffloadPair := s₃.numOffloadPair + 1 }))) := by
  unfold handleNewLan2lanConnection at h
  split at h
  · next a b ha hb =>
    simp only [Option.bind_eq_bind, Option.bind_eq_some_iff] at h
    obtain ⟨⟨r, s₁⟩, hadd, c, hc, d, hd, h⟩ := h
    refine .inr ⟨a, b, r, s₁, c, d, ha, hb, hadd, hc, hd, ?_⟩
    split at h
    · next hfirst =>
      refine .inr ⟨hfirst, ?_⟩
      simp only [Option.bind_eq_some_iff] at h
      obtain ⟨⟨r₁, s₂, w₂⟩, h₁, h⟩ := h
      cases r₁ with
      | false =>
        cases h
        exact .inl h₁
      | true =>
        simp only [Bool.true_eq_false, if_false, Option.bind_eq_some_iff] at h
        obtain ⟨⟨r₂, s₃, w₃⟩, h₂, h⟩ := h
        refine .inr ⟨s₂, w₂, h₁, ?_⟩
        cases r₂ with
        | false =>
          cases h
          exact .inl h₂
        | true =>
          cases h
          exact .inr ⟨s₃, h₂, rfl⟩
    · next hfirst =>
      cases h
      exact .inl ⟨hfirst, rfl, rfl⟩
  · next hnone =>
    cases h
    refine .inl ⟨?_, rfl, rfl⟩
    cases ha : s.find (srcKey conn) with
    | none => exact .inl rfl
    | some a =>
      cases hb : s.find (dstKey conn) with
      | none => exact .inr rfl
      | some b => exact absurd hb (hnone a b ha)

theorem eraseLinks_cases {a b : Ptr} (h : eraseLinks ops t a b s w = some (s', w')) :
    ∃ c d, s.mem a = some c ∧ s.mem b = some d ∧
      ((c.isActive = true ∧ d.isActive = true) ∧ eraseOffloadLink ops t a b s w = some (s', w') ∨
        ¬ (c.isActive = true ∧ d.isActive = true) ∧ ∃ s₁ w₁,
          (if c.isPowersave = true ∧ (d.isActive = true ∨ d.isPowersave = true) then
            eraseOffloadLink ops t a b s w else some (s, w)) = some (s₁, w₁) ∧
          (if d.isPowersave = true ∧ (c.isActive = true ∨ c.isPowersave = true) then
            eraseOffloadLink ops t b a s₁ w₁ else some (s₁, w₁)) = some (s', w')) := by
  simp only [eraseLinks, Option.bind_eq_bind, Option.bind_eq_some_iff] at h
  obtain ⟨c, hc, d, hd, h⟩ := h
  refine ⟨c, d, hc, hd, ?_⟩
  split at h
  · next hactive => exact .inl ⟨hactive, h⟩
  · next hactive =>
    split at h
    · next hsave =>
      simp only [Option.bind_eq_some_iff] at h
      obtain ⟨⟨s₁, w₁⟩, h₁, h₂⟩ := h
      exact .inr ⟨hactive, s₁, w₁, by rw [if_pos hsave, h₁], h₂⟩
    · next hsave => exact .inr ⟨hactive, s, w, by rw [if_neg hsave], h⟩

theorem eraseLinks_linksOnly {a b : Ptr} (h : eraseLinks ops t a b s w = some (s', w')) :
    LinksOnly s s' := by
  obtain ⟨c, d, -, -, ⟨-, h⟩ | ⟨-, s₁, w₁, h₁, h₂⟩⟩ := eraseLinks_cases h
  · exact eraseOffloadLink_linksOnly h
  have hfirst : LinksOnly s s₁ := by
    split at h₁
    · exact eraseOffloadLink_linksOnly h₁
    · cases h₁
      exact .refl _
  refine hfirst.trans ?_
  split at h₂
  · exact eraseOffloadLink_linksOnly h₂
  · cases h₂
    exact .refl _

theorem reap_cases {key : Key} {p : Ptr} (h : s.reap key p = some s') :
    ∃ c, s.mem p = some c ∧
      ((c.isActive = false ∧ c.isPowersave = false ∧ c.peer = []) ∧ s' = s.erase key ∨
        ¬ (c.isActive = false ∧ c.isPowersave = false ∧ c.peer = []) ∧ s' = s) := by
  simp only [reap, Option.bind_eq_bind, Option.bind_eq_some_iff] at h
  obtain ⟨c, hc, h⟩ := h
  refine ⟨c, hc, ?_⟩
  split at h
  · next hreap =>
    cases h
    exact .inl ⟨hreap, rfl⟩
  · next hreap =>
    cases h
    exact .inr ⟨hreap, rfl⟩

theorem handleDelLan2lanConnection_cases
    (h : s.handleDelLan2lanConnection ops t conn w = some (s', w')) :
    ((s.find (srcKey conn) = none ∨ s.find (dstKey conn) = none) ∧ s' = s ∧ w' = w) ∨
      ∃ a b r s₁, s.find (srcKey conn) = some a ∧ s.find (dstKey conn) = some b ∧
        s.removeConnection a b = some (r, s₁) ∧
        (r = false ∧ s' = s₁ ∧ w' = w ∨
          r = true ∧ ∃ s₂ s₃, eraseLinks ops t a b s₁ w = some (s₂, w') ∧
            s₂.reap (srcKey conn) a = some s₃ ∧ s₃.reap (dstKey conn) b = some s') := by
  unfold handleDelLan2lanConnection at h
  split at h
  · next a b ha hb =>
    simp only [Option.bind_eq_bind, Option.bind_eq_some_iff] at h
    obtain ⟨⟨r, s₁⟩, hremove, h⟩ := h
    refine .inr ⟨a, b, r, s₁, ha, hb, hremove, ?_⟩
    cases r with
    | false =>
      cases h
      exact .inl ⟨rfl, rfl, rfl⟩
    | true =>
      simp only [Bool.true_eq_false, if_false, Option.bind_eq_some_iff] at h
      obtain ⟨⟨s₂, w₂⟩, hlinks, s₃, hsrc, s₄, hdst, h⟩ := h
      cases h
      exact .inr ⟨rfl, s₂, s₃, hlinks, hsrc, hdst⟩
  · next hnone =>
    cases h
    refine .inl ⟨?_, rfl, rfl⟩
    cases ha : s.find (srcKey conn) with
    | none => exact .inl rfl
    | some a =>
      cases hb : s.find (dstKey conn) with
      | none => exact .inr rfl
      | some b => exact absurd hb (hnone a b ha)

/-! ## Looking at a connection -/

theorem handle_new_same {conn : Option ConnectionData}
    (h : s.handle cfg ops t w (.handleNewConnection conn) = some (s', w')) : s.SameClients s' := by
  simp only [handle, Option.bind_eq_bind, Option.bind_eq_some_iff] at h
  obtain ⟨s₁, h₁, h⟩ := h
  cases h
  cases conn with
  | none =>
    cases h₁
    exact .refl _
  | some conn => exact handleNewConnection_same h₁

theorem handle_del_same {conn : Option ConnectionData}
    (h : s.handle cfg ops t w (.handleDelConnection conn) = some (s', w')) : s.SameClients s' := by
  simp only [handle, Option.bind_eq_bind, Option.bind_eq_some_iff] at h
  obtain ⟨s₁, h₁, h⟩ := h
  cases h
  cases conn with
  | none =>
    cases h₁
    exact .refl _
  | some conn => exact handleDelConnection_same h₁

theorem handle_active_cases
    (h : s.handle cfg ops t w (.eventCallback (.lanClientActive data)) = some (s', w')) :
    (data.pIface = none ∧ s' = s ∧ w' = w) ∨
      ∃ pIface, data.pIface = some pIface ∧
        s.handleClientActive cfg ops t data pIface w = some (s', w') := by
  rw [handle] at h
  cases hp : data.pIface with
  | none =>
    rw [hp] at h
    cases h
    exact .inl ⟨rfl, rfl, rfl⟩
  | some pIface =>
    rw [hp] at h
    exact .inr ⟨pIface, rfl, h⟩

end Side

/-! ## A step -/

@[simp] theorem LanToLan.side_setSide_self (s : LanToLan) (t : IpType) (d : Side) :
    (s.setSide t d).side t = d := by
  cases t <;> rfl

theorem LanToLan.side_setSide_of_ne (s : LanToLan) {t t' : IpType} (d : Side) (h : t' ≠ t) :
    (s.setSide t d).side t' = s.side t' := by
  cases t <;> cases t' <;> first | rfl | exact absurd rfl h

@[simp] theorem LanToLan.side_init (t : IpType) : LanToLan.init.side t = .init := by
  cases t <;> rfl

theorem step_cases {s s' : LanToLan × ω} {c : Input × Ifaces ω} {r : Unit}
    (h : step cfg s c = .ok (s', r)) :
    (c.1.iptype = none ∧ s' = s) ∨
      ∃ t d w, c.1.iptype = some t ∧ (s.1.side t).handle cfg c.2 t s.2 c.1 = some (d, w) ∧
        s' = (s.1.setSide t d, w) := by
  unfold step at h
  split at h
  · next htype =>
    cases h
    exact .inl ⟨htype, rfl⟩
  · next t htype =>
    split at h
    · cases h
    · next d w hd =>
      cases h
      exact .inr ⟨t, d, w, htype, hd, rfl⟩

theorem step_sides {P : IpType → Side → Prop} {s s' : LanToLan × ω} {c : Input × Ifaces ω} {r : Unit}
    (hP : ∀ t, P t (s.1.side t)) (h : step cfg s c = .ok (s', r))
    (hkeep : ∀ t d w, c.1.iptype = some t →
      (s.1.side t).handle cfg c.2 t s.2 c.1 = some (d, w) → P t d) :
    ∀ t, P t (s'.1.side t) := by
  obtain ⟨-, rfl⟩ | ⟨t, d, w, htype, hd, rfl⟩ := step_cases h
  · exact hP
  · intro t'
    by_cases ht : t' = t
    · subst ht
      rw [LanToLan.side_setSide_self]
      exact hkeep t' d w htype hd
    · rw [LanToLan.side_setSide_of_ne _ _ ht]
      exact hP t'

end Nx508j.Ipacm.Lan2Lan
