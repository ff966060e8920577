import Actors.Manager.Change
import Actors.Manager.Mailboxes

/-!
# The order of an actor's messages

`sent` is the order in which all threads send, over all mailboxes.
`handled_in_send_order` says that an actor handles a prefix of what was sent to
it, in that order, and that the rest is in its mailbox.  So the messages of one
thread are handled in the order in which the thread sent them.
-/

namespace Actors

open Concur

variable {μ : Type}

namespace Manager

/-- Every mailbox has taken what was sent to it, in the order of the sends. -/
structure Routed (s : Manager μ) : Prop where
  bound : ∀ l ∈ s.sent, l.via < s.actors.length
  eq : ∀ (k : Nat) (a : Runtime μ), s.actors[k]? = some a →
    a.accepted = s.sent.filter fun l => l.via = k

theorem Routed.posted {s : Manager μ} (h : s.Routed) {k : Nat} {a : Runtime μ}
    {l : Letter μ} (ha : s.actors[k]? = some a) (hvia : l.via = k) :
    (s.posted k a l).Routed := by
  have hk := (List.getElem?_eq_some_iff.mp ha).1
  refine ⟨?_, fun j b hb => ?_⟩
  · simp only [Manager.posted, List.length_set]
    exact forall_mem_snoc h.bound (hvia ▸ hk)
  · simp only [Manager.posted, List.filter_append] at hb ⊢
    rw [List.getElem?_set] at hb
    split at hb
    · rename_i hkj
      subst hkj
      obtain ⟨-, rfl⟩ : k < s.actors.length ∧ a.accept l = b := by
        simpa [hk] using hb
      rw [← h.eq k a ha]
      simp [Runtime.accept, hvia]
    · rename_i hkj
      rw [h.eq j b hb]
      simp [hvia, hkj]

theorem routed_move {s s' : Manager μ} {b : ManagerAction μ}
    (hmove : Move s b s') (h : s.Routed) : s'.Routed := by
  have hbound : ∀ actors : List (Runtime μ), actors.length = s.actors.length →
      ∀ l ∈ s.sent, l.via < actors.length := by
    intro actors hlen l hl
    rw [hlen]
    exact h.bound l hl
  cases hmove with
  | manage name hidle =>
    refine ⟨fun l hl => ?_, forall_getElem?_snoc (fun k a ha => ?_) ?_⟩
    · have hlt := h.bound l hl
      have hlen := s.length_unregistered name
      simp only [List.length_append, hlen]
      omega
    · unfold unregistered at ha
      split at ha
      · refine forall_getElem?_modify h.eq (fun k a ha => ?_) _ k a ha
        exact ha
      · exact h.eq k a ha
    · -- Nobody can have sent to an actor that was not there.
      show [] = _
      rw [eq_comm, List.filter_eq_nil_iff]
      intro l hl
      have hlt := h.bound l hl
      have hlen := s.length_unregistered name
      simp only [decide_eq_true_eq]
      omega
  | getRef name k hk | dropRefs k | spawn k todo hmain | stop k =>
    refine ⟨hbound _ (by simp), forall_getElem?_modify h.eq (fun k a ha => ?_) k⟩
    exact ha
  | sendStart k todo a hmain ha hlive =>
    have hposted := h.posted ha (l := s.letterOf .main k a.name .start none false) rfl
    exact { hposted with }
  | sendShutdown k todo inEnd a hmain ha hlive =>
    have hposted := h.posted ha
      (l := s.letterOf .main k a.name .shutdown none false) rfl
    exact { hposted with }
  | send t k msg sender a hcan hfree ha hlive => exact h.posted ha rfl
  | fastSend t k msg sender a hcan hfree ha hlive =>
    have hposted := h.posted ha (l := s.letterOf t k a.name msg sender true) rfl
    exact { hposted with }
  | actor b k a a' events hb hfree ha hrun =>
    refine ⟨hbound _ (by simp), forall_getElem?_set h.eq ?_⟩
    rw [← h.eq k a ha]
    cases hrun <;> rfl
  | panic k a ha | reply k msg a l ha hpc =>
    exact ⟨hbound _ (by simp), forall_getElem?_set h.eq (h.eq k a ha)⟩
  | _ => exact ⟨h.bound, h.eq⟩

theorem routed {ok : Manager μ → ManagerAction μ → Prop} {s : Manager μ}
    (h : (machine μ).Reach ok s) : s.Routed := by
  refine invariant ?_ ?_ h
  · exact ⟨by simp [new], by simp [new]⟩
  · intro s b s' _ hs _ hmove
    exact routed_move hmove hs

/-- In every run an actor is handed what was sent to it, in the order of the
sends: a prefix of it at any time, and while its thread lives the rest waits in
its mailbox.  So the messages of one thread keep their order. -/
theorem handled_in_send_order {ok : Manager μ → ManagerAction μ → Prop}
    {s : Manager μ} (h : (machine μ).Reach ok s) {k : Nat} {a : Runtime μ}
    (ha : s.actors[k]? = some a) :
    (a.letters <+: s.sent.filter fun l => l.via = k) ∧
    (a.pc.finished = false →
      a.letters ++ a.mailbox = s.sent.filter fun l => l.via = k) ∧
    ∀ t, (a.letters.filter fun l => l.author = t) <+:
      s.sent.filter fun l => l.author = t ∧ l.via = k := by
  have hbox := (mailed h).boxes k a ha
  have hfirst : a.letters <+: s.sent.filter fun l => l.via = k := by
    rw [← (routed h).eq k a ha]
    exact hbox.handed_prefix
  refine ⟨hfirst, fun hlive => ?_, fun t => ?_⟩
  · rw [← (routed h).eq k a ha]
    exact (hbox.rest hlive).symm
  · have hfilter := hfirst.filter fun l => decide (l.author = t)
    rw [List.filter_filter] at hfilter
    simpa only [Bool.decide_and] using hfilter

/-- Two messages of the main thread, one of them handled. -/
theorem handled_in_send_order_two :
    ∃ s : Manager Nat, ∃ a, s.actors[0]? = some a ∧ a.letters.length = 1 ∧
      ((a.letters <+: s.sent.filter fun l => l.via = 0) ∧
      (a.pc.finished = false →
        a.letters ++ a.mailbox = s.sent.filter fun l => l.via = 0) ∧
      ∀ t, (a.letters.filter fun l => l.author = t) <+:
        s.sent.filter fun l => l.author = t ∧ l.via = 0) := by
  have hrun := reach_after (fun _ _ => True)
    ([.manage "a", .send .main 0 (.user 1) none, .send .main 0 (.user 2) none,
      .init, .main, .main, .main, .actor 0, .codeReturn 0, .actor 0,
      .actor 0] : List (ManagerAction Nat)) (by decide)
  refine ⟨_, _, rfl, by decide, handled_in_send_order hrun rfl⟩

end Manager

end Actors
