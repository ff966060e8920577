import Actors.App.Refinement

/-!
# What the actors of a program handle

The equations of the net, read as statements about a program.  `handled` is the
main one: for two actors of any program, what one has handled of the other's
messages, what waits in its mailbox and what the other has still to send are
what the code of the other sends to it, in the order of the code.  Sends and
replies count alike, and the schedule does not matter.

The rest says where everything else comes from: the code of the actors and the
letters of the main thread from the calls of the main function (`made`,
`fromMain`), and the termination flag from the actors (`flag_iff`).
-/

namespace Actors

open Concur

variable {μ σ : Type}

namespace ActorCode

/-- The code as a process that has done nothing, when it runs as actor `k`. -/
def proc (code : ActorCode μ σ) (k : Nat) : Proc σ (Mail μ) Mark :=
  Proc.new code.initial (code.process.react k)

/-- The state after the messages `ms`. -/
def after (code : ActorCode μ σ) (ms : List (Message μ)) : σ :=
  ms.foldl (fun s msg => (code.process s msg).1) code.initial

/-- What the code sends to actor `j`, running as actor `i`, while it handles
`mails`. -/
def sends (code : ActorCode μ σ) (i j : Nat) (mails : List (Mail μ)) :
    List (Mail μ) :=
  sendsTo j ((code.proc i).outputs mails)

/-- The marks that the code leaves, running as actor `k`, while it handles
`mails`. -/
def marks (code : ActorCode μ σ) (k : Nat) (mails : List (Mail μ)) : List Mark :=
  marksIn ((code.proc k).outputs mails)

theorem after_mails (code : ActorCode μ σ) (k : Nat) (mails : List (Mail μ)) :
    (code.proc k).after mails = code.after (mails.map Mail.msg) := by
  rw [after, List.foldl_map]
  rfl

end ActorCode

/-- What actor `i` sent of these letters. -/
def mailFrom (i : Nat) (ls : List (Letter μ)) : List (Mail μ) :=
  (ls.filter fun l => l.author = .worker i).map Letter.mail

/-- The messages that the actor was handed. -/
def Runtime.messages (a : Runtime μ) : List (Message μ) :=
  a.letters.map fun l => l.envelope.msg

/-- What actor `i`, whose runtime is `a`, has still to send to actor `j` before
its handler returns. -/
def ActorState.leftTo (c : ActorState μ σ) (i : Nat) (a : Runtime μ) (j : Nat) :
    List (Mail μ) :=
  sendsTo j (c.todo.map (Command.output i (a.context.sender.bind ActorRef.mailbox)))

theorem ThreadId.actor_eq_iff {t : ThreadId} {i : Nat} :
    t.actor = some i ↔ t = .worker i := by
  cases t <;> simp [actor]

/-- The letters of one actor, as the net sees them. -/
theorem entries_from (ls : List (Letter μ)) (i : Nat) :
    ((ls.map Letter.entry).filter fun a => a.1 = some i).map Prod.snd =
      mailFrom i ls := by
  rw [List.filter_map, List.map_map, mailFrom]
  congr 1
  refine List.filter_congr fun l _ => ?_
  simp [Letter.entry, ThreadId.actor_eq_iff]

/-- What is made of the letters of one actor only. -/
theorem flatMap_mailFrom {β : Type} (f : Mail μ → List β) (i : Nat)
    {ls : List (Letter μ)} (h : ∀ l ∈ ls, l.author ≠ .worker i → f l.mail = []) :
    (ls.map Letter.mail).flatMap f = (mailFrom i ls).flatMap f := by
  induction ls with
  | nil => rfl
  | cons l ls ih =>
    have htail := ih fun l' hl' => h l' (List.mem_cons_of_mem _ hl')
    by_cases hl : l.author = .worker i
    · simp [mailFrom, hl, htail]
    · have hnil := h l (List.mem_cons_self ..) hl
      simp [mailFrom, hl, htail, hnil]

theorem mailFrom_snoc (i : Nat) (ls : List (Letter μ)) (l : Letter μ) :
    mailFrom i (ls ++ [l]) =
      mailFrom i ls ++ if l.author = .worker i then [l.mail] else [] := by
  by_cases hl : l.author = .worker i <;> simp [mailFrom, hl]

namespace App

variable {script : List (MainCall μ σ)}

/-- The letters of an actor, as the net sees them. -/
theorem inputs_eq (c : ActorState μ σ) (k : Nat) (a : Runtime μ) :
    (c.proc k a.face).inputs = a.letters.map Letter.mail := by
  simp only [Proc.inputs, ActorState.proc, Runtime.face, List.map_map]
  rfl

/-- The state of an actor is what its code makes of its messages. -/
theorem state_eq {s : App μ σ} (h : (machine script).Reachable s) {i : Nat}
    {a : Runtime μ} {c : ActorState μ σ} (ha : s.manager.actors[i]? = some a)
    (hc : s.cells[i]? = some c) : c.state = c.code.after a.messages := by
  have hstate := ((Net.followed (reach_view h)).eq i _ (getElem?_view ha hc)).state
  rw [inputs_eq] at hstate
  have hafter := c.code.after_mails i (a.letters.map Letter.mail)
  rw [List.map_map] at hafter
  exact hstate.trans hafter

/-- The equation of the net, for two actors. -/
theorem sends_eq {s : App μ σ} (h : (machine script).Reachable s) {i j : Nat}
    {a b : Runtime μ} {c : ActorState μ σ} (ha : s.manager.actors[i]? = some a)
    (hc : s.cells[i]? = some c) (hb : s.manager.actors[j]? = some b) :
    mailFrom i b.letters ++ mailFrom i b.mailbox ++ c.leftTo i a j =
      c.code.sends i j (a.letters.map Letter.mail) := by
  obtain ⟨d, hd⟩ : ∃ d, s.cells[j]? = some d := by
    have hlt := (List.getElem?_eq_some_iff.mp hb).1
    rw [← (tidy h).length] at hlt
    exact ⟨_, List.getElem?_eq_getElem hlt⟩
  have hlink := Net.link (reach_view h) (getElem?_view ha hc) (getElem?_view hb hd)
  rw [inputs_eq] at hlink
  simp only [Proc.takenFrom, Proc.queuedFrom, ActorState.proc, Runtime.face,
    entries_from] at hlink
  exact hlink

/-- What an actor handles of another one's messages is what the other's code
sends to it, and its state is what its own code makes of its messages. -/
theorem handled {s : App μ σ} (h : (machine script).Reachable s) {i j : Nat}
    {a b : Runtime μ} {c : ActorState μ σ} (ha : s.manager.actors[i]? = some a)
    (hc : s.cells[i]? = some c) (hb : s.manager.actors[j]? = some b) :
    c.state = c.code.after a.messages ∧
    mailFrom i b.letters ++ mailFrom i b.mailbox ++ c.leftTo i a j =
      c.code.sends i j (a.letters.map Letter.mail) :=
  ⟨state_eq h ha hc, sends_eq h ha hc hb⟩

/-- An actor that sends itself a message when it is started. -/
def selfSender : ActorCode Nat Nat :=
  { initial := 0
    process := handleMessages [.of Message.asStart fun s _ =>
      (s + 1, [.send 0 (.user 5) true])] }

/-- The actor, when it has sent its message. -/
theorem handled_self : ∃ (s : App Nat Nat) (a : Runtime Nat) (c : ActorState Nat Nat),
    (machine [.manage "a" selfSender, .init]).Reachable s ∧
    s.manager.actors[0]? = some a ∧ s.cells[0]? = some c ∧
    mailFrom 0 a.mailbox = [⟨.user 5, some 0⟩] ∧ c.state = c.code.after a.messages ∧
      mailFrom 0 a.letters ++ mailFrom 0 a.mailbox ++ c.leftTo 0 a 0 =
        c.code.sends 0 0 (a.letters.map Letter.mail) := by
  have hrun := App.reach_after [.manage "a" selfSender, .init]
    (List.replicate 5 .main ++ List.replicate 6 (.worker 0)) (by decide)
  have hself := handled (i := 0) (j := 0) hrun rfl rfl rfl
  exact ⟨_, _, _, hrun, rfl, rfl, by decide, hself⟩

/-- Nothing is left to send once the handler has returned. -/
theorem leftTo_eq_nil {s : App μ σ} (h : (machine script).Reachable s) {i : Nat}
    {a : Runtime μ} {c : ActorState μ σ} (ha : s.manager.actors[i]? = some a)
    (hc : s.cells[i]? = some c) (hout : ∀ l, a.pc ≠ .process l) (j : Nat) :
    c.leftTo i a j = [] := by
  simp [ActorState.leftTo, (tidy h).resting i a c ha hc hout]

/-- The marks of an actor are those that its code leaves, up to what is left to
do. -/
theorem marks_eq {s : App μ σ} (h : (machine script).Reachable s) {k : Nat}
    {a : Runtime μ} {c : ActorState μ σ} (ha : s.manager.actors[k]? = some a)
    (hc : s.cells[k]? = some c) : c.code.marks k (a.letters.map Letter.mail) =
      marksOf s.marks k ++ marksIn (c.todo.map
        (Command.output k (a.context.sender.bind ActorRef.mailbox))) := by
  have hmarks := ((Net.followed (reach_view h)).eq k _ (getElem?_view ha hc)).marks
  rw [inputs_eq] at hmarks
  exact hmarks

/-- A mark was left by the code of the actor. -/
theorem mark_origin {s : App μ σ} (h : (machine script).Reachable s) {k : Nat}
    {v : Mark} (hv : (k, v) ∈ s.marks) :
    ∃ a c, s.manager.actors[k]? = some a ∧ s.cells[k]? = some c ∧
      v ∈ c.code.marks k (a.letters.map Letter.mail) := by
  have hk : k < s.manager.actors.length := by
    have hlt := (Net.followed (reach_view h)).markers _ hv
    rwa [length_view (tidy h)] at hlt
  have hc := List.getElem?_eq_getElem ((tidy h).length ▸ hk)
  have ha := List.getElem?_eq_getElem hk
  refine ⟨_, _, ha, hc, ?_⟩
  rw [marks_eq h ha hc]
  refine List.mem_append_left _ (List.mem_map.mpr ⟨(k, v), ?_, rfl⟩)
  exact List.mem_filter.mpr ⟨hv, by simp⟩

/-! ## The main function -/

/-- The actors are those that the main function has made, in its order. -/
theorem made {s : App μ σ} (h : (machine script).Reachable s) :
    s.cells.map ActorState.code ++ s.script.filterMap MainCall.made =
      script.filterMap MainCall.made := by
  refine invariant (I := fun s => s.cells.map ActorState.code ++
    s.script.filterMap MainCall.made = script.filterMap MainCall.made) (by simp [start])
    ?_ h
  intro s t s' _ hs hmove
  cases hmove with
  | call call rest m hidle hscript hm =>
    rw [hscript] at hs
    rw [← hs]
    cases call <;> simp [MainCall.made, List.filterMap_cons, ActorState.new]
  | command k a c l e todo m ha hc hpc htodo hm =>
    have hsame : (s.cells.set k { c with todo }).map ActorState.code =
        s.cells.map ActorState.code := map_set_of_eq ActorState.code hc rfl
    simp only [hsame, hs]
  | recv k a c l m ha hc htakes hm =>
    have hsame : (s.cells.set k (c.handle l.envelope.msg)).map ActorState.code =
        s.cells.map ActorState.code := map_set_of_eq ActorState.code hc rfl
    simp only [hsame, hs]
  | main | codeReturn | actor => exact hs

/-- The call has come: it is in the main function and not left to do. -/
theorem suffix {s : App μ σ} (h : (machine script).Reachable s) :
    s.script <:+ script := by
  refine invariant (I := fun s => s.script <:+ script) (List.suffix_refl _) ?_ h
  intro s t s' _ hs hmove
  cases hmove with
  | call call rest m hidle hscript hm =>
    rw [hscript] at hs
    exact (List.suffix_cons call rest).trans hs
  | command | recv | main | codeReturn | actor => exact hs

/-- A letter that no actor sent is the main thread's: a `Start` or a `Shutdown`
of the manager, or a message of a call of the main function. -/
def FromMain (script : List (MainCall μ σ)) (l : Letter μ) : Prop :=
  l.author.actor = none → l.author = .main ∧
    (l.envelope.msg = .start ∨ l.envelope.msg = .shutdown ∨
      ∃ m, l.envelope.msg = .user m ∧ .send l.via m ∈ script)

/-- A step of an actor's thread sends no letter of the main thread. -/
theorem sent_of_actor {s s' : Manager μ} {b : ManagerAction μ} {k : Nat}
    (hb : b.mover = .worker k) (hstep : s.step b = some s') :
    s'.sent = s.sent ∨ ∃ l, s'.sent = s.sent ++ [l] ∧ l.author = .worker k := by
  cases Manager.move_of_step hstep with
  | sendStart | sendShutdown => simp [ManagerAction.mover] at hb
  | send | fastSend => exact Or.inr ⟨_, rfl, hb⟩
  | _ => exact Or.inl rfl

theorem fromMain {s : App μ σ} (h : (machine script).Reachable s) :
    ∀ l ∈ s.manager.sent, FromMain script l := by
  refine invariant (I := fun s => ∀ l ∈ s.manager.sent, FromMain script l)
    (by simp [start, Manager.new]) ?_ h
  intro s t s' hreach hs hmove
  have hthread : ∀ {m : Manager μ} {b : ManagerAction μ} {k : Nat},
      b.mover = .worker k → s.manager.step b = some m →
      ∀ l ∈ m.sent, FromMain script l := by
    intro m b k hb hm
    rcases sent_of_actor hb hm with hsame | ⟨l, hsent, hauthor⟩
    · rw [hsame]
      exact hs
    · rw [hsent]
      exact forall_mem_snoc hs fun hmain => by simp [hauthor, ThreadId.actor] at hmain
  cases hmove with
  | call call rest m hidle hscript hm =>
    cases call with
    | send k m' =>
      cases Manager.move_of_step hm with
      | send =>
        refine forall_mem_snoc hs fun _ => ⟨rfl, Or.inr (Or.inr ⟨m', rfl, ?_⟩)⟩
        refine (suffix hreach).subset ?_
        rw [hscript]
        exact List.mem_cons_self ..
      | refused => exact hs
      | actor _ _ _ _ _ hb => simp [MainCall.label] at hb
    | manage | init | run | shutdown | wait | endCall =>
      cases Manager.move_of_step hm with
      | refused _ _ _ hb => simp [MainCall.label] at hb
      | actor _ _ _ _ _ hb => simp [MainCall.label] at hb
      | _ => exact hs
  | main m hbusy hm =>
    cases Manager.move_of_step hm with
    | sendStart => exact forall_mem_snoc hs fun _ => ⟨rfl, Or.inl rfl⟩
    | sendShutdown => exact forall_mem_snoc hs fun _ => ⟨rfl, Or.inr (Or.inl rfl)⟩
    | refused _ _ _ hb => simp at hb
    | actor _ _ _ _ _ hb => simp at hb
    | _ => exact hs
  | command k a c l e todo m ha hc hpc htodo hm =>
    have hcarried := (Manager.exec_command (Manager.alive (managed hreach))
      (Manager.async (plain hreach)) ha
      ((Manager.answering (plain hreach)).selfRefs k a ha) hm).2.2
    generalize e.output k (a.context.sender.bind ActorRef.mailbox) = out at hcarried
    cases hcarried with
    | send j mail _ l' hj hnone harrival hf hsent =>
      simp only [hsent]
      refine forall_mem_snoc hs fun hmain => ?_
      simp [Letter.arrival, hmain] at harrival
    | dropped _ hmark hf hsent | terminated _ hmark hf hsent =>
      simp only [hsent]
      exact hs
  | codeReturn k a c m ha hc hdone hm => exact hthread (by rfl) hm
  | recv k a c l m ha hc htakes hm | actor k a c m ha hc htakes hm =>
    exact hthread (by rfl) hm

/-- Where a letter comes from that an actor was handed: an actor whose code
sends it, or the main thread. -/
theorem origin {s : App μ σ} (h : (machine script).Reachable s) {j : Nat}
    {b : Runtime μ} (hb : s.manager.actors[j]? = some b) {l : Letter μ}
    (hl : l ∈ b.letters) :
    (∃ i a c, l.author = .worker i ∧ s.manager.actors[i]? = some a ∧
      s.cells[i]? = some c ∧ l.mail ∈ c.code.sends i j (a.letters.map Letter.mail)) ∨
    (l.author = .main ∧ (l.envelope.msg = .start ∨ l.envelope.msg = .shutdown ∨
      ∃ m, l.envelope.msg = .user m ∧ .send l.via m ∈ script)) := by
  have hbox := (Manager.mailed (plain h)).boxes j b hb
  have hsent : l ∈ s.manager.sent := (hbox.mine l (hbox.handed_prefix.subset hl)).2
  cases hauthor : l.author.actor with
  | none => exact Or.inr (fromMain h l hsent hauthor)
  | some i =>
    have hi : i < s.manager.actors.length := by
      have hlt := (Net.followed (reach_view h)).origins l.arrival
        (List.mem_map_of_mem hsent) i hauthor
      rwa [length_view (tidy h)] at hlt
    have hc := List.getElem?_eq_getElem ((tidy h).length ▸ hi)
    have ha := List.getElem?_eq_getElem hi
    refine Or.inl ⟨i, _, _, ThreadId.actor_eq_iff.mp hauthor, ha, hc, ?_⟩
    rw [← sends_eq h ha hc hb]
    refine List.mem_append_left _ (List.mem_append_left _ ?_)
    refine List.mem_map_of_mem (List.mem_filter.mpr ⟨hl, ?_⟩)
    simpa using ThreadId.actor_eq_iff.mp hauthor

/-! ## How an actor is handed its letters -/

/-- The letters that each actor was handed. -/
def handed (s : App μ σ) : List (List (Letter μ)) :=
  s.manager.actors.map Runtime.letters

theorem handed_eq (s : App μ σ) : s.handed = s.manager.faces.map Face.letters := by
  rw [handed, Manager.faces, List.map_map]
  rfl

/-- A step hands at most one letter over. -/
theorem handed_of_step {s s' : App μ σ} {t : ThreadId}
    (hreach : (machine script).Reachable s) (hstep : s.step t = some s') :
    s'.handed = s.handed ∨ s'.handed = s.handed ++ [[]] ∨
      ∃ k ls l, s.handed[k]? = some ls ∧ s'.handed = s.handed.set k (ls ++ [l]) := by
  have halive := Manager.alive (managed hreach)
  have haccept : ∀ {m : Manager μ} {j : Nat} {l : Letter μ},
      m.faces = s.manager.faces.modify j (fun f => f.accept l) →
      m.faces.map Face.letters = s.manager.faces.map Face.letters := by
    intro m j l hf
    rw [hf]
    refine map_modify_of_eq Face.letters (fun f => ?_) j
    rfl
  simp only [handed_eq]
  cases move_of_step hstep with
  | call call rest m hidle hscript hm =>
    have hmover : call.label.mover = .main := by cases call <;> rfl
    rcases Manager.faces_of_main halive (plain_label call) hmover hm with
      ⟨-, hf, -⟩ | ⟨-, l, -, -, hf, -⟩ | ⟨name, -, hf, -⟩
    · exact Or.inl (by rw [hf])
    · exact Or.inl (haccept hf)
    · exact Or.inr (Or.inl (by simp [hf]))
  | main m hbusy hm =>
    rcases Manager.faces_of_main halive rfl rfl hm with
      ⟨-, hf, -⟩ | ⟨-, l, -, -, hf, -⟩ | ⟨name, hb, -⟩
    · exact Or.inl (by rw [hf])
    · exact Or.inl (haccept hf)
    · simp at hb
  | command k a c l e todo m ha hc hpc htodo hm =>
    have hcarried := (Manager.exec_command halive (Manager.async (plain hreach)) ha
      ((Manager.answering (plain hreach)).selfRefs k a ha) hm).2.2
    generalize e.output k (a.context.sender.bind ActorRef.mailbox) = out at hcarried
    cases hcarried with
    | send j mail _ l' hj hnone harrival hf => exact Or.inl (haccept hf)
    | dropped _ hmark hf | terminated _ hmark hf => exact Or.inl (by rw [hf])
  | codeReturn k a c m ha hc hdone hm =>
    obtain ⟨-, -, -, ⟨-, hf⟩ | ⟨l, rest, -, -, hf, -⟩⟩ :=
      Manager.faces_of_thread (halive a (List.mem_of_getElem? ha)) ha (Or.inr rfl) hm
    · exact Or.inl (by rw [hf])
    · exact Or.inr (Or.inr ⟨k, a.letters, l, by simp [Manager.faces, ha, Runtime.face],
        by rw [hf, List.map_set]⟩)
  | recv k a c l' m ha hc htakes hm | actor k a c m ha hc htakes hm =>
    obtain ⟨-, -, -, ⟨-, hf⟩ | ⟨l, rest, -, -, hf, -⟩⟩ :=
      Manager.faces_of_thread (halive a (List.mem_of_getElem? ha)) ha (Or.inl rfl) hm
    · exact Or.inl (by rw [hf])
    · exact Or.inr (Or.inr ⟨k, a.letters, l, by simp [Manager.faces, ha, Runtime.face],
        by rw [hf, List.map_set]⟩)

/-! ## The termination flag -/

/-- The flag is set if and only if an actor has called `terminate`. -/
theorem flag_iff {s : App μ σ} (h : (machine script).Reachable s) :
    s.manager.terminateFlag = true ↔ ∃ k, (k, Mark.terminated) ∈ s.marks := by
  refine invariant (I := fun s => s.manager.terminateFlag = true ↔
    ∃ k, (k, Mark.terminated) ∈ s.marks) (by simp [start, Manager.new]) ?_ h
  intro s t s' hreach hs hmove
  cases hmove with
  | call call rest m hidle hscript hm =>
    have hflag : m.terminateFlag = s.manager.terminateFlag := by
      cases call <;> cases Manager.move_of_step hm <;> rfl
    simpa [hflag] using hs
  | main m hbusy hm =>
    have hflag : m.terminateFlag = s.manager.terminateFlag := by
      cases Manager.move_of_step hm <;> rfl
    simpa [hflag] using hs
  | command k a c l e todo m ha hc hpc htodo hm =>
    have hcarried := (Manager.exec_command (Manager.alive (managed hreach))
      (Manager.async (plain hreach)) ha
      ((Manager.answering (plain hreach)).selfRefs k a ha) hm).2.2
    generalize e.output k (a.context.sender.bind ActorRef.mailbox) = out at hcarried
    cases hcarried with
    | send j mail _ l' hj hnone harrival hf hsent hflag =>
      simpa [hflag, hnone] using hs
    | dropped _ hmark hf hsent hflag => simpa [hflag, hmark] using hs
    | terminated _ hmark hf hsent hflag => simp [hflag, hmark]
  | codeReturn k a c m ha hc hdone hm =>
    have hflag := (Manager.faces_of_thread (Manager.alive (managed hreach) a
      (List.mem_of_getElem? ha)) ha (Or.inr rfl) hm).2.1
    simpa [hflag] using hs
  | recv k a c l m ha hc htakes hm | actor k a c m ha hc htakes hm =>
    have hflag := (Manager.faces_of_thread (Manager.alive (managed hreach) a
      (List.mem_of_getElem? ha)) ha (Or.inl rfl) hm).2.1
    simpa [hflag] using hs

end App

end Actors
