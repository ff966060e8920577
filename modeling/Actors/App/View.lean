import Actors.App.Run
import Actors.Lib.Net

/-!
# A program seen as a net

What a program does with its manager, its mailboxes and its contexts is what a
net of message handlers does (`Concur.Net`).  A process of the net is an actor,
a message is a `Mail`, that is, the message with the number of the actor that
its sender refers to, and an output is what a command comes to: a reply is a
send to the sender of the message in hand.

`App.view` reads a program as a net.  The lemmas about `Manager.faces` say what
the steps of the manager change of it.
-/

namespace Actors

open Concur

variable {μ σ : Type}

/-! ## Mail -/

/-- A message, and the actor whose reference came with it as the sender. -/
structure Mail (μ : Type) where
  msg : Message μ
  sender : Option Nat
  deriving DecidableEq, Repr

/-- The local mailbox that a reference sends to. -/
def ActorRef.mailbox : ActorRef → Option Nat
  | .localRef r => some r.sender
  | _ => none

/-- The actor that runs on a thread. -/
def ThreadId.actor : ThreadId → Option Nat
  | .worker k => some k
  | _ => none

/-- What a letter brings. -/
def Letter.mail (l : Letter μ) : Mail μ :=
  { msg := l.envelope.msg, sender := l.envelope.sender.bind ActorRef.mailbox }

/-- What a letter brings, with the actor that sent it. -/
def Letter.entry (l : Letter μ) : Option Nat × Mail μ := (l.author.actor, l.mail)

def Letter.arrival (l : Letter μ) : Arrival (Mail μ) :=
  { origin := l.author.actor, dest := l.via, msg := l.mail }

/-- What a command of actor `k` comes to while it handles a message from
`sender`. -/
def Command.output (k : Nat) (sender : Option Nat) : Command μ → Output (Mail μ) Mark
  | .send j msg signed =>
    .send j { msg, sender := if signed then some k else none }
  | .reply msg =>
    match sender with
    | some j => .send j { msg, sender := some k }
    | none => .mark .dropped
  | .terminate => .mark .terminated

/-- What actor `k` does with a letter. -/
def Handler.react (k : Nat) (process : Handler μ σ) (s : σ) (m : Mail μ) :
    σ × List (Output (Mail μ) Mark) :=
  ((process s m.msg).1, (process s m.msg).2.map (Command.output k m.sender))

/-! ## The view -/

/-- What the net sees of a runtime. -/
structure Face (μ : Type) where
  mailbox : List (Letter μ)
  letters : List (Letter μ)
  sender : Option ActorRef

def Runtime.face (a : Runtime μ) : Face μ :=
  { mailbox := a.mailbox, letters := a.letters, sender := a.context.sender }

def Manager.faces (s : Manager μ) : List (Face μ) := s.actors.map Runtime.face

/-- The mailbox takes a letter. -/
def Face.accept (f : Face μ) (l : Letter μ) : Face μ :=
  { f with mailbox := f.mailbox ++ [l] }

/-- Actor `k` as a process of the net. -/
def ActorState.proc (c : ActorState μ σ) (k : Nat) (f : Face μ) : Proc σ (Mail μ) Mark :=
  { initial := c.code.initial
    react := Handler.react k c.code.process
    state := c.state
    queue := f.mailbox.map Letter.entry
    todo := c.todo.map (Command.output k (f.sender.bind ActorRef.mailbox))
    taken := f.letters.map Letter.entry }

/-- The actors `faces` with the code `cells`, as processes. -/
def procsOf (faces : List (Face μ)) (cells : List (ActorState μ σ)) :
    List (Proc σ (Mail μ) Mark) :=
  (faces.zip cells).mapIdx fun k p => p.2.proc k p.1

/-- A program as a net. -/
def App.view (s : App μ σ) : Net σ (Mail μ) Mark :=
  { procs := procsOf s.manager.faces s.cells
    arrived := s.manager.sent.map Letter.arrival
    marks := s.marks }

theorem getElem?_procsOf (faces : List (Face μ)) (cells : List (ActorState μ σ))
    (k : Nat) : (procsOf faces cells)[k]? =
      (faces[k]?).bind fun f => (cells[k]?).map fun c => c.proc k f := by
  rw [procsOf, List.getElem?_mapIdx, List.zip, List.getElem?_zipWith]
  cases faces[k]? <;> cases cells[k]? <;> rfl

/-- A letter arrives. -/
theorem procsOf_accept (faces : List (Face μ)) (cells : List (ActorState μ σ)) (j : Nat)
    (l : Letter μ) : procsOf (faces.modify j fun f => f.accept l) cells =
      (procsOf faces cells).modify j fun p => p.enqueue l.entry := by
  refine List.ext_getElem? fun k => ?_
  rw [getElem?_procsOf, List.getElem?_modify, List.getElem?_modify,
    getElem?_procsOf]
  by_cases hjk : j = k
  · cases faces[k]? <;> cases cells[k]? <;>
      simp [hjk, ActorState.proc, Proc.enqueue, Face.accept]
  · simp [hjk]

/-- One actor goes on. -/
theorem procsOf_set {faces : List (Face μ)} {cells : List (ActorState μ σ)} {k : Nat}
    (hf : k < faces.length) (hc : k < cells.length) (f : Face μ) (c : ActorState μ σ) :
    procsOf (faces.set k f) (cells.set k c) =
      (procsOf faces cells).set k (c.proc k f) := by
  refine List.ext_getElem? fun j => ?_
  rw [getElem?_procsOf, List.getElem?_set, List.getElem?_set, List.getElem?_set,
    getElem?_procsOf]
  by_cases hkj : k = j
  · subst hkj
    have hlen : k < (procsOf faces cells).length := by
      rw [procsOf, List.length_mapIdx, List.length_zip]
      omega
    simp [hf, hc, hlen]
  · simp [hkj]

/-- An actor is added. -/
theorem procsOf_snoc {faces : List (Face μ)} {cells : List (ActorState μ σ)}
    (h : cells.length = faces.length) (f : Face μ) (c : ActorState μ σ) :
    procsOf (faces ++ [f]) (cells ++ [c]) =
      procsOf faces cells ++ [c.proc faces.length f] := by
  rw [procsOf, List.zip_append h.symm, List.mapIdx_append, procsOf]
  simp [h]

/-! ## Sending -/

namespace Manager

theorem faces_set {s : Manager μ} {k : Nat} {a a' : Runtime μ}
    (ha : s.actors[k]? = some a) (hface : a'.face = a.face) :
    (s.actors.set k a').map Runtime.face = s.faces :=
  map_set_of_eq Runtime.face ha hface

theorem faces_posted {s : Manager μ} {k : Nat} {a : Runtime μ}
    (ha : s.actors[k]? = some a) (l : Letter μ) :
    (s.posted k a l).faces = s.faces.modify k fun f => f.accept l := by
  refine List.ext_getElem? fun j => ?_
  simp only [posted, faces, List.getElem?_map, List.getElem?_set,
    List.getElem?_modify]
  by_cases hkj : k = j
  · subst hkj
    obtain ⟨hlt, rfl⟩ := List.getElem?_eq_some_iff.mp ha
    simp [hlt, Runtime.face, Face.accept, Runtime.accept, Runtime.letters]
  · simp [hkj]

/-- Nobody refuses a letter when all actors are in their loops. -/
theorem posted_of_post {s s' : Manager μ} (halive : ∀ a ∈ s.actors, a.Alive)
    {t : ThreadId} {k : Nat} {msg : Message μ} {sender : Option ActorRef}
    {sync : Bool} (h : s.post t k msg sender sync = some s') :
    ∃ a, s.actors[k]? = some a ∧
      s' = s.posted k a (s.letterOf t k a.name msg sender sync) := by
  obtain ⟨a, ha, ⟨hdead, -⟩ | ⟨-, rfl⟩⟩ := post_eq_some h
  · rw [(halive a (List.mem_of_getElem? ha)).inLoop.2] at hdead
    simp at hdead
  · exact ⟨a, ha, rfl⟩

theorem posted_of_send {s s' : Manager μ} (halive : ∀ a ∈ s.actors, a.Alive)
    {t : ThreadId} {k : Nat} {msg : Message μ} {sender : Option ActorRef}
    (h : s.step (.send t k msg sender) = some s') :
    ∃ a, s.actors[k]? = some a ∧
      s' = s.posted k a (s.letterOf t k a.name msg sender false) := by
  simp only [step] at h
  split at h
  · exact posted_of_post halive h
  · simp at h

/-- What the steps that make a command of actor `k` come to. -/
inductive Carried (s : Manager μ) (k : Nat) (marks : List (Nat × Mark)) :
    Output (Mail μ) Mark → Manager μ → Prop where
  | send (j : Nat) (mail : Mail μ) (s' : Manager μ) (l : Letter μ)
      (hj : j < s.actors.length) (hmarks : marks = [])
      (harrival : l.arrival = ⟨some k, j, mail⟩)
      (hfaces : s'.faces = s.faces.modify j fun f => f.accept l)
      (hsent : s'.sent = s.sent ++ [l])
      (hflag : s'.terminateFlag = s.terminateFlag) :
      Carried s k marks (.send j mail) s'
  | dropped (s' : Manager μ) (hmarks : marks = [(k, .dropped)])
      (hfaces : s'.faces = s.faces) (hsent : s'.sent = s.sent)
      (hflag : s'.terminateFlag = s.terminateFlag) :
      Carried s k marks (.mark .dropped) s'
  | terminated (s' : Manager μ) (hmarks : marks = [(k, .terminated)])
      (hfaces : s'.faces = s.faces) (hsent : s'.sent = s.sent)
      (hflag : s'.terminateFlag = true) :
      Carried s k marks (.mark .terminated) s'

/-- Without a reply channel a reply leaves the context as it is. -/
theorem reply_of_async {a : Runtime μ} (h : a.context.replyChannel = none) :
    a.reply.2 = a ∧ (∀ r, a.context.sender = some r →
      a.context.reply.1 = .mailbox r a.context.selfRef) ∧
    (a.context.sender = none → a.context.reply.1 = .dropped) := by
  cases hs : a.context.sender <;>
    simp [Runtime.reply, ActorContext.reply, h, hs]

theorem exec_command {s s' : Manager μ} {k : Nat} {a : Runtime μ} {e : Command μ}
    (halive : ∀ a ∈ s.actors, a.Alive) (hasync : s.Async)
    (ha : s.actors[k]? = some a) (href : a.context.selfRef = some (a.ref k))
    (h : Machine.exec Manager.step s (e.labels k a.context) = some s') :
    s'.pcs = s.pcs ∧ s'.main = s.main ∧ s.Carried k (e.marks k a.context)
      (e.output k (a.context.sender.bind ActorRef.mailbox)) s' := by
  have hchannel := hasync.contexts a (List.mem_of_getElem? ha)
  obtain ⟨hsame, hmailbox, hdropped⟩ := reply_of_async hchannel
  cases e with
  | send j msg signed =>
    simp only [Command.labels, Machine.exec, Option.bind_eq_some_iff,
      Option.some.injEq, exists_eq_right] at h
    obtain ⟨b, hb, rfl⟩ := posted_of_send halive h
    refine ⟨map_set_of_eq Runtime.pc hb rfl, rfl, ?_⟩
    refine .send j _ _ _ (List.getElem?_eq_some_iff.mp hb).1 rfl ?_
      (faces_posted hb _) rfl rfl
    cases signed <;>
      simp [Letter.arrival, letterOf, Letter.mail, ThreadId.actor, Envelope.new,
        href, Runtime.ref, ActorRef.mailbox]
  | terminate =>
    simp only [Command.labels, Machine.exec, Option.bind_eq_some_iff,
      Option.some.injEq, exists_eq_right] at h
    simp only [step] at h
    split at h
    · rw [Option.some.injEq] at h
      subst h
      exact ⟨rfl, rfl, .terminated _ rfl rfl rfl rfl⟩
    · simp at h
  | reply msg =>
    have hstep : ∀ {s1 : Manager μ}, s.step (.reply k msg) = some s1 →
        s1 = { s with ledger := s1.ledger } := by
      intro s1 h1
      have hself : s.actors.set k a = s.actors := by
        rw [← (List.getElem?_eq_some_iff.mp ha).2]
        exact List.set_getElem_self _
      simp only [step, reply, ha] at h1
      split at h1
      · split at h1
        · simp at h1
        · rw [Option.some.injEq, hsame, hself] at h1
          exact h1 ▸ rfl
      · simp at h1
    -- The letter goes to the sender, if that is an actor of this manager.
    cases hsender : a.context.sender with
    | none =>
      simp only [Command.labels, hdropped hsender, Machine.exec,
        Option.bind_eq_some_iff, Option.some.injEq, exists_eq_right] at h
      rw [hstep h]
      exact ⟨rfl, rfl, .dropped _ (by simp [Command.marks, hdropped hsender]) rfl rfl rfl⟩
    | some r =>
      have hroute := hmailbox r hsender
      cases r with
      | localRef r =>
        simp only [Command.labels, hroute, Machine.exec, Option.bind_eq_some_iff,
          Option.some.injEq, exists_eq_right] at h
        obtain ⟨s1, h1, h2⟩ := h
        have hs1 := hstep h1
        obtain ⟨b, hb, rfl⟩ := posted_of_send (by rw [hs1]; exact halive) h2
        rw [hs1] at hb ⊢
        refine ⟨map_set_of_eq Runtime.pc hb rfl, rfl, ?_⟩
        refine .send r.sender _ _ _ (List.getElem?_eq_some_iff.mp hb).1
          (by simp [Command.marks, hroute]) ?_ (faces_posted hb _) rfl rfl
        simp [Letter.arrival, letterOf, Letter.mail, ThreadId.actor, Envelope.new,
          href, Runtime.ref, ActorRef.mailbox]
      | remoteRef r | cppRef r =>
        simp only [Command.labels, hroute, Machine.exec, Option.bind_eq_some_iff,
          Option.some.injEq, exists_eq_right] at h
        rw [hstep h]
        exact ⟨rfl, rfl, .dropped _ (by simp [Command.marks, hroute]) rfl rfl rfl⟩

/-- A step of the main thread adds an actor, or sends, or does neither. -/
theorem faces_of_main {s s' : Manager μ} {b : ManagerAction μ}
    (halive : ∀ a ∈ s.actors, a.Alive) (hok : b.plain = true)
    (hmain : b.mover = .main) (hstep : s.step b = some s') :
    ((∀ name, b ≠ .manage name) ∧ s'.faces = s.faces ∧ s'.sent = s.sent) ∨
    ((∀ name, b ≠ .manage name) ∧ ∃ l, l.via < s.actors.length ∧ l.author = .main ∧
      s'.faces = s.faces.modify l.via (fun f => f.accept l) ∧
      s'.sent = s.sent ++ [l]) ∨
    ∃ name, b = .manage name ∧ s'.faces = s.faces ++ [⟨[], [], none⟩] ∧
      s'.sent = s.sent := by
  cases move_of_step hstep with
  | manage name hidle =>
    refine Or.inr (Or.inr ⟨name, rfl, ?_, rfl⟩)
    simp only [faces, List.map_append, List.map_cons, List.map_nil]
    rw [map_unregistered Runtime.face fun _ => rfl]
    rfl
  | getRef name k hk =>
    refine Or.inl ⟨by simp, ?_, rfl⟩
    refine map_modify_of_eq Runtime.face (fun a => ?_) k
    rfl
  | sendStart k todo a hpc ha hlive | sendShutdown k todo inEnd a hpc ha hlive
  | send t k msg sender a hcan hfree ha hlive =>
    refine Or.inr (Or.inl ⟨by simp, _, ?_, ?_, faces_posted ha _, rfl⟩)
    · exact (List.getElem?_eq_some_iff.mp ha).1
    · first | rfl | exact hmain
  | fastSend => simp [ManagerAction.plain] at hok
  | spawn k todo hpc =>
    refine Or.inl ⟨by simp, ?_, rfl⟩
    refine map_modify_of_eq Runtime.face (fun a => ?_) k
    rfl
  | refused _ k a hb ha hdead =>
    rw [(halive a (List.mem_of_getElem? ha)).inLoop.2] at hdead
    simp at hdead
  | actor _ k a a' events hb =>
    rcases hb with rfl | rfl <;> simp [ManagerAction.mover] at hmain
  | dropRefs | panic | reply | stop => simp [ManagerAction.mover] at hmain
  | _ => exact Or.inl ⟨by simp, rfl, rfl⟩

/-- The label of a step tells whose thread it is. -/
theorem eq_of_label {b : ManagerAction μ} {j k : Nat}
    (hj : b = .actor j ∨ b = .codeReturn j) (hk : b = .actor k ∨ b = .codeReturn k) :
    j = k := by
  rcases hj with rfl | rfl
  · simpa using hk
  · simpa using hk

/-- What the thread of an actor does outside of its commands: it takes the head
of its mailbox, or it changes nothing that the net sees. -/
theorem faces_of_thread {s s' : Manager μ} {k : Nat} {b : ManagerAction μ}
    {a : Runtime μ} (halive : a.Alive) (ha : s.actors[k]? = some a)
    (hb : b = .actor k ∨ b = .codeReturn k) (hstep : s.step b = some s') :
    s'.sent = s.sent ∧ s'.terminateFlag = s.terminateFlag ∧ s'.main = s.main ∧
    ((a.takes = none ∧ s'.faces = s.faces) ∨ ∃ l rest, a.takes = some l ∧
      a.mailbox = l :: rest ∧
      s'.faces = s.faces.set k ⟨rest, a.letters ++ [l], l.envelope.sender⟩ ∧
      ∃ a', s'.actors[k]? = some a' ∧ a'.pc = .process l) := by
  cases move_of_step hstep with
  | actor _ j a0 a' events hb' hfree ha0 hrun =>
    obtain rfl := eq_of_label hb' hb
    rw [ha, Option.some.injEq] at ha0
    subst ha0
    refine ⟨rfl, rfl, rfl, ?_⟩
    cases hrun with
    | recv l rest hpc hbox =>
      refine Or.inr ⟨l, rest, by simp [Runtime.takes, hpc, hbox], hbox, ?_,
        _, List.getElem?_set_self (List.getElem?_eq_some_iff.mp ha).1, rfl⟩
      simp only [faces, List.map_set]
      congr 1
      simp only [Runtime.face, Runtime.letters, Runtime.letters_recv]
      rfl
    | begin hpc | initReturn hpc | goOn hpc | processReturn l hpc =>
      refine Or.inl ⟨by simp [Runtime.takes, hpc], ?_⟩
      refine faces_set ha ?_
      rfl
    | leave hpc hrun =>
      rw [halive.running] at hrun
      simp at hrun
    | closed hpc hbox hsenders =>
      have hholds := halive.holds
      rw [hsenders] at hholds
      simp at hholds
    | endReturn hpc => exact absurd hpc halive.inLoop.1
  | refused _ _ _ hb' =>
    rcases hb with rfl | rfl <;> simp at hb'
  | _ => rcases hb with hb | hb <;> simp at hb

end Manager

end Actors
