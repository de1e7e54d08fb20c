import Nx508j.Ipacm.Xml

/-! # The keywords of a configuration file

The text of a `Mode`, of a `Category` and of a `Protocol` is compared with one keyword after the
other. A comparison goes as far as the text does, so that the beginning of a keyword is taken for
it. -/

namespace Nx508j.Ipacm

open Nx508j.Lib

/-! ## What a keyword selects -/

/-- What the text of an element can select. -/
inductive CfgValue where
  | mode (router_mode_enable : Bool)
  | category (if_cat : Lan2Lan.IfaceType)
  | protocol (protocol : BitVec 8)
deriving DecidableEq

/-- The keywords of an element, in the order in which they are compared. -/
def CfgTag.keywords : CfgTag → List (String × CfgValue)
  | .Mode => xmlModes.map fun k => (k.1, .mode k.2)
  | .Category => xmlCategories.map fun k => (k.1, .category k.2)
  | .Protocol => xmlProtocols.map fun k => (k.1, .protocol k.2)
  | _ => []

/-- The value is stored: for the whole file, or in the entry that was opened last. -/
def CfgXml.assign (config : CfgXml) : CfgValue → Except Fault CfgXml
  | .mode router_mode_enable => .ok { config with router_mode_enable }
  | .category if_cat => config.modifyIface fun e => .ok { e with if_cat }
  | .protocol protocol => config.modifyAlg ({ · with protocol })

/-- A string with its capital letters made small. -/
def folded (s : List UInt8) : List UInt8 := s.map tolower

/-- The text is the keyword but for the case of its letters. -/
def XmlText.Is (s : XmlText) (keyword : String) : Prop := folded s.bytes = folded (ascii keyword)

/-- The text is the beginning of the keyword, and not all of it. -/
def XmlText.Begins (s : XmlText) (keyword : String) : Prop :=
  folded s.bytes <+: folded (ascii keyword) ∧ ¬ s.Is keyword

section Walk

variable (lib : InetLib) (name : Option XmlText) (children : XmlDoc)

/-- The walk over an element stores the value and goes on. -/
def Selects (v : CfgValue) : Prop :=
  ∀ content next config,
    ipacm_cfg_xml_parse_tree lib (.node .element name content children next) config =
      config.assign v >>= ipacm_cfg_xml_parse_tree lib next

/-- The walk goes on from the element as if it were not there. -/
def SelectsNothing : Prop :=
  ∀ content next config,
    ipacm_cfg_xml_parse_tree lib (.node .element name content children next) config =
      ipacm_cfg_xml_parse_tree lib next config

/-- An element selects the value of a keyword if and only if its text is the keyword, and nothing
    if it is none of them; no text is two keywords. -/
structure SelectsByKeyword (t : CfgTag) (s : XmlText) : Prop where
  selects : ∀ k v, (k, v) ∈ t.keywords → (Selects lib name children v ↔ s.Is k)
  otherwise : (∀ k v, (k, v) ∈ t.keywords → ¬ s.Is k) → SelectsNothing lib name children
  unique : ∀ k v k' v', (k, v) ∈ t.keywords → (k', v') ∈ t.keywords → s.Is k → s.Is k' → k = k'

end Walk

/-! ## Comparing -/

theorem tolower_eq_zero {b : UInt8} : tolower b = 0 ↔ b = 0 := by
  unfold tolower
  constructor
  · intro h
    split at h
    · next hrange =>
      have hlo := UInt8.le_iff_toNat_le.1 hrange.1
      have hhi := UInt8.le_iff_toNat_le.1 hrange.2
      have hsum := congrArg UInt8.toNat h
      simp only [UInt8.toNat_add, UInt8.reduceToNat] at hlo hhi hsum
      omega
    · exact h
  · rintro rfl
    rfl

theorem strncasecmp_eq_zero {s t : List UInt8} (hs : 0 ∉ s) (ht : 0 ∉ t) :
    strncasecmp s t s.length = 0 ↔ folded s <+: folded t := by
  induction s generalizing t with
  | nil => simp [strncasecmp, folded]
  | cons a s ih =>
    have hane : tolower a ≠ 0 := mt tolower_eq_zero.1 fun h => hs (h ▸ List.mem_cons_self)
    cases t with
    | nil =>
      have hzero : tolower 0 = 0 := rfl
      simp only [List.length_cons, strncasecmp, List.headD_cons, List.headD_nil, hzero, ne_eq,
        hane, not_false_eq_true, if_true]
      simp only [folded, List.map_cons, List.map_nil, List.prefix_nil, reduceCtorEq, iff_false]
      intro h
      refine hane (UInt8.toNat_inj.1 ?_)
      have : ((tolower a).toNat : Int) - (0 : UInt8).toNat = 0 := h
      simpa using this
    | cons b t =>
      have hs' : 0 ∉ s := fun h => hs (List.mem_cons_of_mem _ h)
      have ht' : 0 ∉ t := fun h => ht (List.mem_cons_of_mem _ h)
      simp only [List.length_cons, strncasecmp, List.headD_cons, List.tail_cons, folded,
        List.map_cons, List.cons_prefix_cons]
      by_cases hab : tolower a = tolower b
      · simp only [hab, ne_eq, not_true, if_false, true_and]
        rw [if_neg (hab ▸ hane)]
        exact ih hs' ht'
      · simp only [hab, ne_eq, not_false_eq_true, if_true, false_and, iff_false]
        intro h
        refine hab (UInt8.toNat_inj.1 ?_)
        have : ((tolower a).toNat : Int) - (tolower b).toNat = 0 := h
        omega

/-! ## One element -/

theorem matching_map {α β : Type} (f : α → β) (strs : List (String × α)) (s : XmlText) :
    matching (strs.map fun k => (k.1, f k.2)) s = (matching strs s).map f := by
  unfold matching
  rw [List.find?_map, Option.map_map, Option.map_map]
  rfl

section Element

variable {lib : InetLib} {name : Option XmlText} {children : XmlDoc} {t : CfgTag} {s : XmlText}

theorem CfgTag.act_keywords (hkey : t.keywords ≠ []) (config : CfgXml) :
    t.act lib (some s) config = contentBuf s >>= fun _ =>
      match matching t.keywords s with
      | some v => config.assign v
      | none => .ok config := by
  cases t with
  | Mode =>
    simp only [CfgTag.act, CfgTag.store, CfgTag.keywords, matching_map]
    cases matching xmlModes s <;> rfl
  | Category =>
    simp only [CfgTag.act, CfgTag.store, CfgTag.keywords, matching_map]
    cases matching xmlCategories s <;> rfl
  | Protocol =>
    simp only [CfgTag.act, CfgTag.store, CfgTag.keywords, matching_map]
    cases matching xmlProtocols s <;> rfl
  | _ => exact absurd rfl hkey

theorem CfgTag.not_descends (hkey : t.keywords ≠ []) : t.descends = false := by
  cases t <;> first | rfl | exact absurd rfl hkey

theorem parse_tree_element (hname : CfgTag.ofName name = some t) (hkey : t.keywords ≠ [])
    (htext : children.firstText = some s) (content : Option XmlText) (next : XmlDoc)
    (config : CfgXml) :
    ipacm_cfg_xml_parse_tree lib (.node .element name content children next) config =
      t.act lib (some s) config >>= ipacm_cfg_xml_parse_tree lib next := by
  unfold ipacm_cfg_xml_parse_tree
  simp only [XmlNode.walk, hname, htext, CfgTag.not_descends hkey, Bool.false_eq_true, if_false,
    ok_bind]

theorem bind_ok {ε α : Type} (x : Except ε α) : x >>= Except.ok = x := by
  cases x <;> rfl

theorem element_iff (hname : CfgTag.ofName name = some t) (hkey : t.keywords ≠ [])
    (htext : children.firstText = some s) (f : CfgXml → Except Fault CfgXml) :
    (∀ content next config, ipacm_cfg_xml_parse_tree lib (.node .element name content children next)
        config = f config >>= ipacm_cfg_xml_parse_tree lib next) ↔
      ∀ config, t.act lib (some s) config = f config := by
  simp only [parse_tree_element hname hkey htext]
  constructor
  · intro h config
    have hnull := h none .null config
    rwa [show ipacm_cfg_xml_parse_tree lib .null = Except.ok from rfl, bind_ok, bind_ok] at hnull
  · intro h content next config
    rw [h]

theorem selects_iff (hname : CfgTag.ofName name = some t) (hkey : t.keywords ≠ [])
    (htext : children.firstText = some s) (v : CfgValue) :
    Selects lib name children v ↔ ∀ config, t.act lib (some s) config = config.assign v :=
  element_iff hname hkey htext _

theorem selectsNothing_iff (hname : CfgTag.ofName name = some t) (hkey : t.keywords ≠ [])
    (htext : children.firstText = some s) :
    SelectsNothing lib name children ↔ ∀ config, t.act lib (some s) config = .ok config :=
  element_iff hname hkey htext .ok

end Element

/-! ## The values are told apart -/

/-- A configuration with an interface and an ALG rule. -/
def CfgXml.opened : CfgXml := { num_iface_entries := 1, num_alg_entries := 1 }

theorem CfgXml.assign_ne_self (v : CfgValue) : ∃ config : CfgXml, config.assign v ≠ .ok config := by
  cases v with
  | mode router =>
    refine ⟨{ router_mode_enable := !router }, fun h => ?_⟩
    have heq := congrArg CfgXml.router_mode_enable (Except.ok.inj h)
    cases router <;> cases heq
  | category if_cat | protocol protocol => exact ⟨{}, fun h => nomatch h⟩

theorem CfgXml.assign_mode_inj {router : Bool} {w : CfgValue}
    (h : ∀ config : CfgXml, config.assign (.mode router) = config.assign w) :
    .mode router = w := by
  have hother := h { router_mode_enable := !router }
  cases w with
  | mode other =>
    have heq := congrArg CfgXml.router_mode_enable (Except.ok.inj hother)
    exact congrArg CfgValue.mode heq
  | category if_cat => cases hother
  | protocol protocol => cases hother

theorem CfgXml.assign_inj {v w : CfgValue}
    (h : ∀ config : CfgXml, config.assign v = config.assign w) : v = w := by
  cases v with
  | mode router => exact assign_mode_inj h
  | category if_cat =>
    cases w with
    | mode router => exact (assign_mode_inj fun config => (h config).symm).symm
    | category other =>
      have heq := congrArg (fun c : CfgXml => c.iface_entries[0].if_cat)
        (Except.ok.inj (h .opened))
      exact congrArg CfgValue.category heq
    | protocol protocol => cases h { num_iface_entries := 1 }
  | protocol protocol =>
    cases w with
    | mode router => exact (assign_mode_inj fun config => (h config).symm).symm
    | category if_cat => cases h { num_iface_entries := 1 }
    | protocol other =>
      have heq := congrArg (fun c : CfgXml => c.alg_entries[0].protocol)
        (Except.ok.inj (h .opened))
      exact congrArg CfgValue.protocol heq

/-! ## The keywords -/

section Keywords

variable {t : CfgTag} {s : XmlText}

theorem CfgTag.keywords_noNul (t : CfgTag) : ∀ k ∈ t.keywords, 0 ∉ ascii k.1 := by
  cases t with
  | Mode | Category | Protocol => decide +kernel
  | _ => exact fun k hk => nomatch hk

theorem CfgTag.keywords_apart (t : CfgTag) : ∀ k ∈ t.keywords, ∀ l ∈ t.keywords,
    folded (ascii k.1) <+: folded (ascii l.1) → k = l := by
  cases t with
  | Mode | Category | Protocol => decide +kernel
  | _ => exact fun k hk => nomatch hk

theorem CfgTag.keywords_short (t : CfgTag) : ∀ k ∈ t.keywords,
    (ascii k.1).length ≤ maxXmlStrLen := by
  cases t with
  | Mode | Category | Protocol => decide +kernel
  | _ => exact fun k hk => nomatch hk

theorem CfgTag.keywords_values (t : CfgTag) : ∀ k ∈ t.keywords, ∀ l ∈ t.keywords,
    k.2 = l.2 → k = l := by
  cases t with
  | Mode | Category | Protocol => decide +kernel
  | _ => exact fun k hk => nomatch hk

theorem CfgTag.length_le_of_begins {k : String × CfgValue} (hk : k ∈ t.keywords)
    (h : folded s.bytes <+: folded (ascii k.1)) : s.length ≤ maxXmlStrLen := by
  have hlen := h.length_le
  simp only [folded, List.length_map] at hlen
  exact Nat.le_trans hlen (t.keywords_short k hk)

theorem CfgTag.eq_of_is {k l : String × CfgValue} (hk : k ∈ t.keywords) (hl : l ∈ t.keywords)
    (hs : s.Is k.1) (h : folded s.bytes <+: folded (ascii l.1)) : k = l := by
  refine t.keywords_apart k hk l hl ?_
  rw [← hs]
  exact h

theorem CfgTag.matching_some {v : CfgValue} (h : matching t.keywords s = some v) :
    ∃ k, (k, v) ∈ t.keywords ∧ folded s.bytes <+: folded (ascii k) := by
  obtain ⟨k, hfind, rfl⟩ := Option.map_eq_some_iff.1 h
  have hmem := List.mem_of_find?_eq_some hfind
  have hcmp := List.find?_some hfind
  exact ⟨k.1, hmem, (strncasecmp_eq_zero s.noNul (t.keywords_noNul k hmem)).1
    (of_decide_eq_true hcmp)⟩

theorem CfgTag.matching_none :
    matching t.keywords s = none ↔ ∀ k ∈ t.keywords, ¬ folded s.bytes <+: folded (ascii k.1) := by
  unfold matching
  rw [Option.map_eq_none_iff, List.find?_eq_none]
  refine forall₂_congr fun k hk => ?_
  rw [decide_eq_true_iff]
  exact not_congr (strncasecmp_eq_zero s.noNul (t.keywords_noNul k hk))

end Keywords

section Element

variable {lib : InetLib} {name : Option XmlText} {children : XmlDoc} {t : CfgTag} {s : XmlText}

theorem CfgTag.act_fits (hkey : t.keywords ≠ []) (hlen : s.length ≤ maxXmlStrLen)
    (config : CfgXml) :
    t.act lib (some s) config =
      match matching t.keywords s with
      | some v => config.assign v
      | none => .ok config := by
  rw [act_keywords hkey, contentBuf, if_pos hlen, ok_bind]

/-- **The keywords.** The walk over a configuration file takes the text of a mode, of a category or
    of a protocol for a keyword exactly when it is that keyword, if and only if the text fits in the
    buffer and is not the beginning of a keyword: not the empty text, and not a keyword cut short.
    -/
theorem selectsByKeyword_iff (hname : CfgTag.ofName name = some t) (hkey : t.keywords ≠ [])
    (htext : children.firstText = some s) :
    SelectsByKeyword lib name children t s ↔
      s.length ≤ maxXmlStrLen ∧ ∀ k ∈ t.keywords, ¬ s.Begins k.1 := by
  constructor
  · intro h
    constructor
    · by_contra hlong
      have hnone : ∀ k v, (k, v) ∈ t.keywords → ¬ s.Is k := by
        intro k v hk his
        exact hlong (CfgTag.length_le_of_begins hk (his ▸ List.prefix_rfl))
      have hact := (selectsNothing_iff hname hkey htext).1 (h.otherwise hnone) {}
      rw [CfgTag.act_keywords hkey, contentBuf, if_neg hlong] at hact
      cases hact
    · rintro k hk ⟨hbegin, hnot⟩
      have hlen := CfgTag.length_le_of_begins hk hbegin
      cases hmatch : matching t.keywords s with
      | none => exact CfgTag.matching_none.1 hmatch k hk hbegin
      | some v =>
        -- the keyword that is selected is cut short too, or it would be the beginning of `k`
        obtain ⟨l, hl, -⟩ := CfgTag.matching_some hmatch
        have hselects : Selects lib name children v := by
          rw [selects_iff hname hkey htext]
          intro config
          rw [CfgTag.act_fits hkey hlen, hmatch]
        have his := (h.selects l v hl).1 hselects
        exact hnot (CfgTag.eq_of_is hl hk his hbegin ▸ his)
  · rintro ⟨hlen, hwhole⟩
    have hpre : ∀ k ∈ t.keywords, folded s.bytes <+: folded (ascii k.1) → s.Is k.1 := by
      intro k hk hbegin
      by_contra hnot
      exact hwhole k hk ⟨hbegin, hnot⟩
    constructor
    case selects =>
      intro k v hk
      rw [selects_iff hname hkey htext]
      simp only [CfgTag.act_fits hkey hlen]
      cases hmatch : matching t.keywords s with
      | none =>
        have hnot : ¬ s.Is k := fun his =>
          CfgTag.matching_none.1 hmatch (k, v) hk (his ▸ List.prefix_rfl)
        obtain ⟨config, hne⟩ := CfgXml.assign_ne_self v
        exact iff_of_false (fun h => hne (h config).symm) hnot
      | some w =>
        obtain ⟨l, hl, hbegin⟩ := CfgTag.matching_some hmatch
        have his := hpre (l, w) hl hbegin
        constructor
        · intro h
          have hlk := t.keywords_values (l, w) hl (k, v) hk (CfgXml.assign_inj h)
          cases hlk
          exact his
        · intro hk' config
          have hkl := CfgTag.eq_of_is hk hl hk' hbegin
          cases hkl
          rfl
    case otherwise =>
      intro hnot
      rw [selectsNothing_iff hname hkey htext]
      intro config
      rw [CfgTag.act_fits hkey hlen, CfgTag.matching_none.2]
      intro k hk hbegin
      exact hnot k.1 k.2 hk (hpre k hk hbegin)
    case unique =>
      intro k v k' v' hk hk' his his'
      exact congrArg Prod.fst (CfgTag.eq_of_is hk hk' his (his' ▸ List.prefix_rfl))

/-- A `Category` with the text `wlan`. -/
theorem selectsByKeyword_wlan :
    SelectsByKeyword ⟨fun _ => 0, fun _ => []⟩ (some ⟨ascii "Category", by decide⟩)
        (xmlString "wlan" (by decide)) .Category ⟨ascii "wlan", by decide⟩ ↔
      (XmlText.mk (ascii "wlan") (by decide)).length ≤ maxXmlStrLen ∧
        ∀ k ∈ CfgTag.Category.keywords, ¬ (XmlText.mk (ascii "wlan") (by decide)).Begins k.1 :=
  selectsByKeyword_iff rfl (by decide) rfl

/-- A `Category` with the text `L` makes the interface one of the local network. -/
theorem selects_cut_short : ¬ ∀ lib name children t s, CfgTag.ofName name = some t →
    t.keywords ≠ [] → children.firstText = some s → SelectsByKeyword lib name children t s := by
  intro h
  let s : XmlText := ⟨ascii "L", by decide⟩
  have hby := h ⟨fun _ => 0, fun _ => []⟩ (some ⟨ascii "Category", by decide⟩)
    (xmlString "L" (by decide)) .Category s rfl (by decide) rfl
  have hselects : Selects ⟨fun _ => 0, fun _ => []⟩ (some ⟨ascii "Category", by decide⟩)
      (xmlString "L" (by decide)) (.category .lanIf) := by
    rw [selects_iff (t := .Category) (s := s) rfl (by decide) rfl]
    intro config
    rw [CfgTag.act_fits (by decide) (by decide)]
    rfl
  have his : s.Is "LAN" := (hby.selects "LAN" (.category .lanIf) (by decide)).1 hselects
  exact absurd his (by unfold XmlText.Is; decide)

end Element

end Nx508j.Ipacm
