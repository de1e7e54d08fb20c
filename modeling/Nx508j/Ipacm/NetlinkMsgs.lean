import Nx508j.Ipacm.NetlinkReads

/-! # Buffers of several messages

The loop steps from message to message, but lets every decoder start at the first one. A buffer of
one message is decoded from its own bytes, and no other buffer is. -/

namespace Nx508j.Ipacm

open Nx508j.Lib

namespace Netlink

open NlM

/-- The bytes from `p` to `stop` are well-formed messages, of which `msgs` says where they begin and
    how long they are. -/
inductive Datagram (m : Region UInt8) (stop : Nat) : Nat → List (Nat × Nat) → Prop
  | nil : Datagram m stop stop []
  | cons {p len : Nat} {msgs : List (Nat × Nat)} (hmsg : WellFormed m p len)
      (rest : Datagram m stop (p + len) msgs) : Datagram m stop p ((p, len) :: msgs)

/-- The events of the messages, each decoded in a call of its own. -/
def separately (env : Nat → Bool) (m : Region UInt8) : Nat → List (Nat × Nat) → List NlEvent
  | _, [] => []
  | asked, (p, len) :: msgs =>
    let s := (decodeNlmsg env asked m p len).2
    s.posted ++ separately env m s.asked msgs

/-- **The property.** The decoders start where the messages begin, and the events are those of the
    messages decoded one by one. -/
structure OwnBytes (env : Nat → Bool) (asked : Nat) (m : Region UInt8) (buflen : Nat)
    (msgs : List (Nat × Nat)) : Prop where
  decoded : (decodeNlmsg env asked m 0 buflen).2.decoded = msgs.map Prod.fst
  posted : (decodeNlmsg env asked m 0 buflen).2.posted = separately env m asked msgs

section Loop

variable {env : Nat → Bool} {m : Region UInt8} {buffer fuel stop p buflen nlmsgType : Nat}
  {msgs : List (Nat × Nat)} {s : NlState}

theorem handleMsg_decoded (h : Handled nlmsgType) (s : NlState) :
    (exec (handleMsg env m buffer buflen nlmsgType) s).2.decoded = s.decoded ++ [buffer] :=
  (handleMsg_decodes (E := fun _ => True) (fun _ _ => trivial) (fun _ => trivial) h).decoded s

theorem nlmsgLoop_decoded : ∀ {p buflen : Nat}, p + buflen ≤ m.size → ∀ s, ∀ b ∈
    (exec (nlmsgLoop env m buffer fuel p buflen) s).2.decoded, b ∈ s.decoded ∨ b = buffer := by
  induction fuel with
  | zero => exact fun _ s b hb => .inl hb
  | succ fuel ih =>
    intro p buflen hsize s b hb
    have hmsg : ∀ b ∈ (exec (handleMsg env m buffer buflen (le16 m (p + 4))) s).2.decoded,
        b ∈ s.decoded ∨ b = buffer := by
      intro b hb
      by_cases hhandled : Handled (le16 m (p + 4))
      · rw [handleMsg_decoded hhandled] at hb
        simpa using hb
      · rw [handleMsg_unhandled hhandled] at hb
        exact .inl hb
    rw [exec_nlmsgLoop hsize] at hb
    split at hb
    · split at hb
      · next s' heq =>
        rw [heq] at hmsg
        split at hb
        · rcases ih (by omega) s' b hb with hb | hb
          · exact hmsg b hb
          · exact .inr hb
        · exact hmsg b hb
      · next heq =>
        rw [heq] at hmsg
        exact hmsg b hb
    · exact .inl hb

theorem nlmsgLoop_alone (h : WellFormed m p buflen) (s : NlState) :
    (exec (nlmsgLoop env m buffer (fuel + 1) p buflen) s).2 =
      (exec (handleMsg env m buffer buflen (le16 m (p + 4))) s).2 := by
  have hacc : Accepted nlmsghdrSize (le32 m p) buflen := by
    have := h.accepted (Nat.le_refl _)
    rwa [Nat.add_sub_cancel_left] at this
  have hnext : align4 (le32 m p) = buflen := by
    rw [h.length, align4_of_dvd h.aligned]
  rw [exec_nlmsgLoop h.received, if_pos hacc]
  split
  · next s' heq =>
    rw [hnext, if_pos (Nat.le_refl _), Nat.sub_self, heq]
    cases fuel with
    | zero => rfl
    | succ fuel =>
      have hrefused : ¬ Accepted nlmsghdrSize (le32 m (p + buflen)) 0 :=
        fun h => absurd h.1 (by decide)
      have hend : p + buflen + 0 ≤ m.size := h.received
      rw [exec_nlmsgLoop hend, if_neg hrefused]
  · next heq => rw [heq]

theorem nlmsgLoop_single (h : WellFormed m p buflen) (s : NlState) :
    (exec (nlmsgLoop env m buffer (fuel + 1) p buflen) s).2.decoded = s.decoded ++ [buffer] := by
  rw [nlmsgLoop_alone h, handleMsg_decoded h.handled]

end Loop

theorem Datagram.received {m : Region UInt8} {stop p : Nat} {msgs : List (Nat × Nat)}
    (h : Datagram m stop p msgs) (hne : msgs ≠ []) : stop ≤ m.size := by
  induction h with
  | nil => exact absurd rfl hne
  | cons hmsg rest ih =>
    cases rest with
    | nil => exact hmsg.received
    | cons hmsg' rest' => exact ih (List.cons_ne_nil _ _)

/-- **Several messages.** A buffer of well-formed messages is decoded from the messages' own bytes
    just if it holds one message. -/
theorem decodeNlmsg_own_iff (env : Nat → Bool) (asked : Nat) (m : Region UInt8) (buflen : Nat)
    (msgs : List (Nat × Nat)) (h : Datagram m buflen 0 msgs) (hne : msgs ≠ []) :
    OwnBytes env asked m buflen msgs ↔ msgs.length = 1 := by
  have hsize : 0 + buflen ≤ m.size := by
    rw [Nat.zero_add]
    exact h.received hne
  cases h with
  | nil => exact absurd rfl hne
  | @cons _ len rest hmsg hrest =>
    cases hrest with
    | nil =>
      refine iff_of_true ⟨?_, ?_⟩ rfl
      · rw [Nat.zero_add] at hsize ⊢
        exact nlmsgLoop_single hmsg _
      · rw [Nat.zero_add]
        exact (List.append_nil _).symm
    | @cons _ len' rest hmsg' hrest =>
      refine iff_of_false (fun hown => ?_) (by simp)
      -- the second decoder would have to start behind the first message
      have hsecond : 0 + len ∈ (decodeNlmsg env asked m 0 buflen).2.decoded := by
        rw [hown.decoded]
        exact .tail _ (.head _)
      have hfixed := hmsg.fixed
      have hhdr : nlmsghdrSize = 16 := rfl
      rcases nlmsgLoop_decoded hsize _ _ hsecond with hnil | hzero
      · cases hnil
      · omega

/-- Two interfaces come up in one buffer: `RTM_NEWLINK` for interface 2 and for interface 3. -/
def newlinksBuffer : Region UInt8 where
  size := 64
  get := fun i => ([
    32, 0, 0, 0, 16, 0, 0, 0, 0, 0, 0, 0, 0, 0, 0, 0,
    0, 0, 1, 0, 2, 0, 0, 0, 1, 0, 1, 0, 1, 0, 0, 0,
    32, 0, 0, 0, 16, 0, 0, 0, 0, 0, 0, 0, 0, 0, 0, 0,
    0, 0, 1, 0, 3, 0, 0, 0, 1, 0, 1, 0, 1, 0, 0, 0] : List UInt8).getD i 0

theorem newlinksBuffer_datagram : Datagram newlinksBuffer 64 0 [(0, 32), (32, 32)] := by
  have hfirst : WellFormed newlinksBuffer 0 32 :=
    ⟨by decide, by decide, by decide, by decide, by decide, .refl 32⟩
  have hsecond : WellFormed newlinksBuffer 32 32 :=
    ⟨by decide, by decide, by decide, by decide, by decide, .refl 64⟩
  exact .cons hfirst (.cons hsecond .nil)

/-- A buffer that holds only the first of the messages. -/
theorem decodeNlmsg_own_single : OwnBytes granted 0 newlinksBuffer 32 [(0, 32)] := by
  have hfirst : WellFormed newlinksBuffer 0 32 :=
    ⟨by decide, by decide, by decide, by decide, by decide, .refl 32⟩
  exact (decodeNlmsg_own_iff granted 0 newlinksBuffer 32 _ (.cons hfirst .nil)
    (List.cons_ne_nil _ _)).2 rfl

/-- Both events are about interface 2. -/
theorem decodeNlmsg_first_only : ¬ ∀ env asked m buflen msgs, Datagram m buflen 0 msgs →
    msgs ≠ [] →
      (decodeNlmsg env asked m 0 buflen).2.posted = separately env m asked msgs := by
  intro hall
  have hposted := hall granted 0 newlinksBuffer 64 _ newlinksBuffer_datagram
    (List.cons_ne_nil _ _)
  have hjoint : (decodeNlmsg granted 0 newlinksBuffer 0 64).2.posted =
      [.linkUp 2, .linkUp 2] := by decide
  have hown : separately granted newlinksBuffer 0 [(0, 32), (32, 32)] =
      [.linkUp 2, .linkUp 3] := by decide
  rw [hjoint, hown] at hposted
  cases hposted

end Netlink

end Nx508j.Ipacm
