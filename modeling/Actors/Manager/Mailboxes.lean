import Actors.Manager.Ownership

/-!
# Mailboxes

What an actor was handed is a prefix of what its mailbox accepted, and as long
as the thread lives the rest is still in the mailbox (`Runtime.Mailed`).  A
letter is accepted by one mailbox and once.  `mailed` says so for every actor
in every state of every run, whoever sends, stops or panics.
-/

namespace Actors

open Concur

variable {μ : Type}

/-- The mailbox of actor `k` keeps order and loses nothing.  `sent` lists all
letters that any mailbox has accepted. -/
structure Runtime.Mailed (sent : List (Letter μ)) (k : Nat) (a : Runtime μ) :
    Prop where
  handed_prefix : a.letters <+: a.accepted
  rest : a.pc.finished = false → a.accepted = a.letters ++ a.mailbox
  mine : ∀ l ∈ a.accepted, l.via = k ∧ l ∈ sent
  distinct : (a.accepted.map Letter.id).Nodup
  current : ∀ l, a.pc = .process l → l ∈ a.letters

theorem Runtime.Mailed.inOrder {sent : List (Letter μ)} {k : Nat} {a : Runtime μ}
    (h : a.Mailed sent k) : a.InOrder :=
  ⟨h.handed_prefix, h.rest⟩

/-- A step that leaves the mailbox alone. -/
theorem Runtime.Mailed.frame {sent : List (Letter μ)} {k : Nat}
    {a a' : Runtime μ} (h : a.Mailed sent k) (hhanded : a'.handed = a.handed)
    (haccepted : a'.accepted = a.accepted)
    (hbox : a'.pc.finished = false → a.pc.finished = false ∧
      a'.mailbox = a.mailbox)
    (hpc : ∀ l, a'.pc = .process l → a.pc = .process l) :
    a'.Mailed sent k := by
  have horder := h.inOrder.frame hhanded haccepted hbox
  refine ⟨horder.handed_prefix, horder.rest, ?_, ?_, fun l hl => ?_⟩
  · rw [haccepted]
    exact h.mine
  · rw [haccepted]
    exact h.distinct
  · rw [letters, hhanded]
    exact h.current l (hpc l hl)

/-- The mailbox accepts a letter with a new number. -/
theorem Runtime.Mailed.accept {sent : List (Letter μ)} {k : Nat}
    {a : Runtime μ} (h : a.Mailed sent k) {l : Letter μ} (hvia : l.via = k)
    (hfresh : ∀ l' ∈ sent, l'.id ≠ l.id) (hlive : a.pc.finished = false) :
    (a.accept l).Mailed (sent ++ [l]) k := by
  have horder := h.inOrder.accept hlive l
  refine ⟨horder.handed_prefix, horder.rest, ?_, ?_, h.current⟩
  · refine forall_mem_snoc (fun x hx => ?_) ⟨hvia, by simp⟩
    exact ⟨(h.mine x hx).1, List.mem_append_left _ (h.mine x hx).2⟩
  · simp only [Runtime.accept, List.map_append]
    refine List.nodup_append.mpr ⟨h.distinct, by simp, ?_⟩
    rintro x hx y hy rfl
    obtain ⟨l', hl', rfl⟩ := List.mem_map.mp hx
    simp only [List.map_cons, List.map_nil, List.mem_singleton] at hy
    exact hfresh l' (h.mine l' hl').2 hy

/-- Letters sent to others do not matter. -/
theorem Runtime.Mailed.mono {sent : List (Letter μ)} {k : Nat}
    {a : Runtime μ} (h : a.Mailed sent k) (l : Letter μ) :
    a.Mailed (sent ++ [l]) k :=
  { h with mine := fun x hx =>
      ⟨(h.mine x hx).1, List.mem_append_left _ (h.mine x hx).2⟩ }

/-- A step of the thread takes at most the head of the mailbox. -/
theorem Runtime.Mailed.move {sent : List (Letter μ)} {k : Nat}
    {a a' : Runtime μ} {events : List LifeEvent} (h : a.Mailed sent k)
    (hmove : Runtime.Move k a a' events) : a'.Mailed sent k := by
  have horder := h.inOrder.move hmove
  cases hmove with
  | recv l rest hpc hbox =>
    refine ⟨horder.handed_prefix, horder.rest, h.mine, h.distinct, fun l' hl' => ?_⟩
    obtain rfl := RuntimePc.process.inj hl'
    rw [letters, letters_recv]
    exact List.mem_append_right _ (List.mem_singleton_self l)
  | endReturn hpc =>
    exact h.frame rfl rfl (by simp [finish, RuntimePc.finished])
      (by simp [finish])
  | begin hpc | initReturn hpc | goOn hpc | leave hpc | closed hpc
  | processReturn l hpc =>
    exact h.frame rfl rfl (by simp [hpc, RuntimePc.finished]) (by simp)

namespace Manager

/-- Letters are numbered as they are accepted, and every mailbox keeps order
and loses nothing. -/
structure Mailed (s : Manager μ) : Prop where
  ids : ∀ (j : Nat) (l : Letter μ), s.sent[j]? = some l → l.id = j
  boxes : ∀ (k : Nat) (a : Runtime μ), s.actors[k]? = some a →
    a.Mailed s.sent k

theorem Mailed.fresh {s : Manager μ} (h : s.Mailed) {l : Letter μ}
    (hid : l.id = s.sent.length) : ∀ l' ∈ s.sent, l'.id ≠ l.id := by
  intro l' hl' heq
  obtain ⟨j, hj⟩ := List.mem_iff_getElem?.mp hl'
  have hlt := (List.getElem?_eq_some_iff.mp hj).1
  rw [h.ids j l' hj, hid] at heq
  omega

/-- Letters with one number are one letter. -/
theorem Mailed.eq_of_id {s : Manager μ} (h : s.Mailed) {l l' : Letter μ}
    (hl : l ∈ s.sent) (hl' : l' ∈ s.sent) (hid : l.id = l'.id) : l = l' := by
  obtain ⟨j, hj⟩ := List.mem_iff_getElem?.mp hl
  obtain ⟨k, hk⟩ := List.mem_iff_getElem?.mp hl'
  have hjk : j = k := by rw [← h.ids j l hj, ← h.ids k l' hk, hid]
  rw [hjk, hk, Option.some.injEq] at hj
  exact hj.symm

theorem Mailed.posted {s : Manager μ} (h : s.Mailed) {k : Nat} {a : Runtime μ}
    {l : Letter μ} (ha : s.actors[k]? = some a)
    (hlive : a.pc.finished = false) (hvia : l.via = k)
    (hid : l.id = s.sent.length) : (s.posted k a l).Mailed := by
  refine ⟨forall_getElem?_snoc h.ids hid, ?_⟩
  refine forall_getElem?_set (fun j b hb => (h.boxes j b hb).mono l) ?_
  exact (h.boxes k a ha).accept hvia (h.fresh hid) hlive

/-- A change of a runtime that leaves its mailbox alone. -/
theorem Mailed.modify {s : Manager μ} (h : s.Mailed) (k : Nat)
    {f : Runtime μ → Runtime μ} (hhanded : ∀ a, (f a).handed = a.handed)
    (haccepted : ∀ a, (f a).accepted = a.accepted)
    (hbox : ∀ a, (f a).mailbox = a.mailbox) (hpc : ∀ a, (f a).pc = a.pc) :
    ∀ (j : Nat) (a : Runtime μ), (s.actors.modify k f)[j]? = some a →
      a.Mailed s.sent j := by
  refine forall_getElem?_modify h.boxes (fun j a ha => ?_) k
  exact ha.frame (hhanded a) (haccepted a)
    (fun hlive => ⟨hpc a ▸ hlive, hbox a⟩) (fun l hl => hpc a ▸ hl)

theorem Mailed.unregistered {s : Manager μ} (h : s.Mailed) (name : String) :
    ∀ (j : Nat) (a : Runtime μ), (s.unregistered name)[j]? = some a →
      a.Mailed s.sent j := by
  unfold Manager.unregistered
  split
  · refine h.modify _ ?_ ?_ ?_ ?_ <;> exact fun _ => rfl
  · exact h.boxes

theorem mailed_move {s s' : Manager μ} {b : ManagerAction μ}
    (hmove : Move s b s') (howned : s.Owned) (h : s.Mailed) : s'.Mailed := by
  cases hmove with
  | manage name hidle =>
    refine { h with boxes := forall_getElem?_snoc (h.unregistered name) ?_ }
    exact ⟨by simp [managed, Runtime.new, Runtime.letters], fun _ => rfl,
      by simp [managed, Runtime.new], by simp [managed, Runtime.new],
      by simp [managed, Runtime.new]⟩
  | getRef name k hk | dropRefs k | stop k =>
    refine ⟨h.ids, h.modify k ?_ ?_ ?_ ?_⟩ <;> exact fun _ => rfl
  | sendStart k todo a hmain ha hlive =>
    have hposted := h.posted ha hlive
      (l := s.letterOf .main k a.name .start none false) rfl rfl
    exact { hposted with }
  | sendShutdown k todo inEnd a hmain ha hlive =>
    have hposted := h.posted ha hlive
      (l := s.letterOf .main k a.name .shutdown none false) rfl rfl
    exact { hposted with }
  | send t k msg sender a hcan hfree ha hlive => exact h.posted ha hlive rfl rfl
  | fastSend t k msg sender a hcan hfree ha hlive =>
    have hposted := h.posted ha hlive
      (l := s.letterOf t k a.name msg sender true) rfl rfl
    exact { hposted with }
  | spawn k todo hmain =>
    -- The actor had no thread, so its mailbox was alive and it handled nothing.
    refine ⟨h.ids, fun j a ha => ?_⟩
    rw [List.getElem?_modify, Option.map_eq_map, Option.map_eq_some_iff] at ha
    obtain ⟨a0, ha0, rfl⟩ := ha
    split
    · rename_i hkj
      subst hkj
      have hpc : a0.pc = .parked :=
        (howned.parked k a0.pc (by simp [pcs, ha0])).mpr
          (by simp [hmain, ManagerPc.starting])
      exact (h.boxes k a0 ha0).frame rfl rfl
        (fun _ => ⟨by rw [hpc]; rfl, rfl⟩) (by simp)
    · exact h.boxes j a0 ha0
  | actor b k a a' events hb hfree ha hrun =>
    exact ⟨h.ids, forall_getElem?_set h.boxes ((h.boxes k a ha).move hrun)⟩
  | panic k a ha hcode hfree =>
    refine { h with boxes := forall_getElem?_set h.boxes ?_ }
    exact (h.boxes k a ha).frame rfl rfl
      (by simp [Runtime.finish, RuntimePc.finished]) (by simp [Runtime.finish])
  | reply k msg a l ha hpc =>
    refine { h with boxes := forall_getElem?_set h.boxes ?_ }
    exact (h.boxes k a ha).frame rfl rfl (fun hlive => ⟨hlive, rfl⟩)
      (fun _ hl => hl)
  | _ => exact { h with }

/-- Every mailbox keeps order and loses nothing, in every state of every
run. -/
theorem mailed {ok : Manager μ → ManagerAction μ → Prop} {s : Manager μ}
    (h : (machine μ).Reach ok s) : s.Mailed := by
  refine invariant ?_ ?_ h
  · exact ⟨by simp [new], by simp [new]⟩
  · intro s b s' hreach hs _ hmove
    exact mailed_move hmove (owned hreach) hs

end Manager

end Actors
