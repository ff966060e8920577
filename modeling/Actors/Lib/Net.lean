import Actors.Lib.Lists
import Actors.Lib.Machine
import Mathlib.Data.List.Induction

/-!
# Nets of message handlers

A net is a list of processes.  A process takes one message at a time from its
queue and reacts to it: it changes its state, and what it then has to do is a
list of outputs.  An output sends a message to a process or leaves a mark for
the outside.  The outputs of one reaction are made one by one, so that the
reactions of several processes interleave, and messages also come in from
outside.

What a process has taken determines what it does, whatever the order of the
steps: `Net.followed` says that its outputs so far and those that it still has
to make are the outputs of its reactions, and `Net.queued` that what it took
and what is left in its queue is what has arrived.  `Net.link` puts the two
together for one sender and one receiver: what the receiver took from the
sender, what is still in its queue and what the sender has yet to send are
together the messages that the sender's reactions address to it, in order.

Nothing here mentions a particular program.
-/

namespace Concur

/-- What a process does to the outside. -/
inductive Output (m x : Type) where
  /-- A message for process `j`. -/
  | send (j : Nat) (msg : m)
  | mark (v : x)
  deriving DecidableEq, Repr

namespace Output

variable {m x : Type}

/-- The message, when it goes to process `j`. -/
def sentTo (j : Nat) : Output m x → Option m
  | .send i msg => if i = j then some msg else none
  | .mark _ => none

/-- The mark, if it is one. -/
def marked : Output m x → Option x
  | .send _ _ => none
  | .mark v => some v

end Output

/-- The messages for process `j` among the outputs. -/
def sendsTo {m x : Type} (j : Nat) (os : List (Output m x)) : List m :=
  os.filterMap (Output.sentTo j)

/-- The marks among the outputs. -/
def marksIn {m x : Type} (os : List (Output m x)) : List x :=
  os.filterMap Output.marked

section Outputs

variable {m x : Type}

@[simp] theorem sendsTo_nil (j : Nat) : sendsTo j ([] : List (Output m x)) = [] := rfl

@[simp] theorem sendsTo_append (j : Nat) (os os' : List (Output m x)) :
    sendsTo j (os ++ os') = sendsTo j os ++ sendsTo j os' :=
  List.filterMap_append

@[simp] theorem sendsTo_send (j i : Nat) (msg : m) (os : List (Output m x)) :
    sendsTo j (.send i msg :: os) =
      (if i = j then [msg] else []) ++ sendsTo j os := by
  by_cases h : i = j <;> simp [sendsTo, Output.sentTo, h]

@[simp] theorem sendsTo_mark (j : Nat) (v : x) (os : List (Output m x)) :
    sendsTo j (.mark v :: os) = sendsTo j os := rfl

theorem sendsTo_flatMap {α : Type} (j : Nat) (l : List α)
    (f : α → List (Output m x)) :
    sendsTo j (l.flatMap f) = l.flatMap fun a => sendsTo j (f a) :=
  List.filterMap_flatMap ..

theorem marksIn_flatMap {α : Type} (l : List α) (f : α → List (Output m x)) :
    marksIn (l.flatMap f) = l.flatMap fun a => marksIn (f a) :=
  List.filterMap_flatMap ..

@[simp] theorem marksIn_nil : marksIn ([] : List (Output m x)) = [] := rfl

@[simp] theorem marksIn_append (os os' : List (Output m x)) :
    marksIn (os ++ os') = marksIn os ++ marksIn os' :=
  List.filterMap_append

@[simp] theorem marksIn_send (i : Nat) (msg : m) (os : List (Output m x)) :
    marksIn (.send i msg :: os) = marksIn os := rfl

@[simp] theorem marksIn_mark (v : x) (os : List (Output m x)) :
    marksIn (.mark v :: os) = v :: marksIn os := rfl

end Outputs

/-- A process.  A message is kept with the process that sent it; one from
outside has none. -/
structure Proc (σ m x : Type) where
  initial : σ
  react : σ → m → σ × List (Output m x)
  state : σ
  queue : List (Option Nat × m)
  /-- What is left to do of the reaction to the message taken last. -/
  todo : List (Output m x)
  /-- Every message taken so far. -/
  taken : List (Option Nat × m)

/-- A message that has arrived in the queue of `dest`. -/
structure Arrival (m : Type) where
  origin : Option Nat
  dest : Nat
  msg : m
  deriving DecidableEq, Repr

/-- A net, with everything that has arrived and all marks made. -/
structure Net (σ m x : Type) where
  procs : List (Proc σ m x)
  arrived : List (Arrival m)
  marks : List (Nat × x)

/-- The labels of a net. -/
inductive NetAction (σ m x : Type) where
  | spawn (initial : σ) (react : σ → m → σ × List (Output m x))
  /-- A message comes in from outside. -/
  | post (j : Nat) (msg : m)
  /-- Process `i` takes a message. -/
  | take (i : Nat)
  /-- Process `i` makes its next output. -/
  | act (i : Nat)

namespace Proc

variable {σ m x : Type}

/-- A process that has done nothing. -/
def new (initial : σ) (react : σ → m → σ × List (Output m x)) : Proc σ m x :=
  { initial, react, state := initial, queue := [], todo := [], taken := [] }

/-- The state after the messages `ms`. -/
def after (p : Proc σ m x) (ms : List m) : σ :=
  ms.foldl (fun s msg => (p.react s msg).1) p.initial

/-- All outputs of the reactions to the messages `ms`. -/
def outputs (p : Proc σ m x) (ms : List m) : List (Output m x) :=
  (ms.foldl (fun (r : σ × List (Output m x)) msg =>
    ((p.react r.1 msg).1, r.2 ++ (p.react r.1 msg).2)) (p.initial, [])).2

/-- The messages taken so far, without who sent them. -/
def inputs (p : Proc σ m x) : List m := p.taken.map Prod.snd

/-- The messages that were taken from process `i`. -/
def takenFrom (p : Proc σ m x) (i : Nat) : List m :=
  (p.taken.filter fun a => a.1 = some i).map Prod.snd

/-- The messages from process `i` that wait in the queue. -/
def queuedFrom (p : Proc σ m x) (i : Nat) : List m :=
  (p.queue.filter fun a => a.1 = some i).map Prod.snd

/-- A message goes into the queue. -/
def enqueue (p : Proc σ m x) (a : Option Nat × m) : Proc σ m x :=
  { p with queue := p.queue ++ [a] }

/-- The reaction to the message `a`, after which `rest` is left. -/
def handle (p : Proc σ m x) (a : Option Nat × m)
    (rest : List (Option Nat × m)) : Proc σ m x :=
  { p with
    state := (p.react p.state a.2).1, queue := rest
    todo := (p.react p.state a.2).2, taken := p.taken ++ [a] }

@[simp] theorem after_snoc (p : Proc σ m x) (ms : List m) (msg : m) :
    p.after (ms ++ [msg]) = (p.react (p.after ms) msg).1 := by
  simp [after]

theorem foldl_fst (p : Proc σ m x) (ms : List m) (s : σ) (os : List (Output m x)) :
    (ms.foldl (fun (r : σ × List (Output m x)) msg =>
      ((p.react r.1 msg).1, r.2 ++ (p.react r.1 msg).2)) (s, os)).1 =
    ms.foldl (fun s msg => (p.react s msg).1) s := by
  induction ms generalizing s os with
  | nil => rfl
  | cons msg ms ih => simpa using ih _ _

@[simp] theorem outputs_nil (p : Proc σ m x) : p.outputs [] = [] := rfl

@[simp] theorem outputs_snoc (p : Proc σ m x) (ms : List m) (msg : m) :
    p.outputs (ms ++ [msg]) = p.outputs ms ++ (p.react (p.after ms) msg).2 := by
  rw [outputs, List.foldl_append, List.foldl_cons, List.foldl_nil, outputs]
  simp only [foldl_fst]
  rfl

/-- A process whose state does not change reacts to each message by itself. -/
theorem outputs_of_const (p : Proc σ m x)
    (h : ∀ msg, (p.react p.initial msg).1 = p.initial) (ms : List m) :
    p.outputs ms = ms.flatMap fun msg => (p.react p.initial msg).2 := by
  have hstate : ∀ ms : List m, p.after ms = p.initial := by
    intro ms
    induction ms using List.reverseRecOn with
    | nil => rfl
    | append_singleton ms msg ih => rw [after_snoc, ih, h]
  induction ms using List.reverseRecOn with
  | nil => rfl
  | append_singleton ms msg ih =>
    rw [outputs_snoc, ih, hstate, List.flatMap_append, List.flatMap_singleton]

end Proc

/-! ## What is on record -/

section Records

variable {m x : Type}

/-- What has arrived at process `j`, with the senders. -/
def arrivals (as : List (Arrival m)) (j : Nat) : List (Option Nat × m) :=
  (as.filter fun a => a.dest = j).map fun a => (a.origin, a.msg)

/-- What has arrived at process `j` from process `i`. -/
def sentFrom (as : List (Arrival m)) (i j : Nat) : List m :=
  (as.filter fun a => a.origin = some i ∧ a.dest = j).map Arrival.msg

/-- The marks of process `i`. -/
def marksOf (vs : List (Nat × x)) (i : Nat) : List x :=
  (vs.filter fun v => v.1 = i).map Prod.snd

theorem arrivals_snoc (as : List (Arrival m)) (a : Arrival m) (k : Nat) :
    arrivals (as ++ [a]) k =
      arrivals as k ++ if a.dest = k then [(a.origin, a.msg)] else [] := by
  by_cases h : a.dest = k <;> simp [arrivals, h]

theorem sentFrom_snoc (as : List (Arrival m)) (a : Arrival m) (i j : Nat) :
    sentFrom (as ++ [a]) i j =
      sentFrom as i j ++ if a.origin = some i ∧ a.dest = j then [a.msg] else [] := by
  by_cases h : a.origin = some i ∧ a.dest = j <;> simp [sentFrom, h]

theorem marksOf_snoc (vs : List (Nat × x)) (v : Nat × x) (i : Nat) :
    marksOf (vs ++ [v]) i = marksOf vs i ++ if v.1 = i then [v.2] else [] := by
  by_cases h : v.1 = i <;> simp [marksOf, h]

theorem arrivals_eq_nil {as : List (Arrival m)} {j : Nat}
    (h : ∀ a ∈ as, a.dest < j) : arrivals as j = [] := by
  rw [arrivals, List.map_eq_nil_iff, List.filter_eq_nil_iff]
  intro a ha
  have hlt := h a ha
  simp only [decide_eq_true_eq]
  omega

theorem sentFrom_eq_nil {as : List (Arrival m)} {i : Nat}
    (h : ∀ a ∈ as, ∀ k, a.origin = some k → k < i) (j : Nat) :
    sentFrom as i j = [] := by
  rw [sentFrom, List.map_eq_nil_iff, List.filter_eq_nil_iff]
  intro a ha
  simp only [decide_eq_true_eq, not_and]
  intro ho
  exact absurd (h a ha i ho) (Nat.lt_irrefl i)

theorem marksOf_eq_nil {vs : List (Nat × x)} {i : Nat}
    (h : ∀ v ∈ vs, v.1 < i) : marksOf vs i = [] := by
  rw [marksOf, List.map_eq_nil_iff, List.filter_eq_nil_iff]
  intro v hv
  have hlt := h v hv
  simp only [decide_eq_true_eq]
  omega

/-- What has arrived from one process is a part of what has arrived. -/
theorem arrivals_from (as : List (Arrival m)) (i j : Nat) :
    ((arrivals as j).filter fun a => a.1 = some i).map Prod.snd =
      sentFrom as i j := by
  induction as with
  | nil => rfl
  | cons a as ih =>
    by_cases hj : a.dest = j <;> by_cases hi : a.origin = some i <;>
      simp_all [arrivals, sentFrom]

end Records

namespace Net

variable {σ m x : Type}

/-- A net without a process. -/
def empty : Net σ m x := { procs := [], arrived := [], marks := [] }

/-- A message arrives in the queue of its process. -/
def deliver (n : Net σ m x) (a : Arrival m) : Option (Net σ m x) :=
  if a.dest < n.procs.length then
    some { n with
      procs := n.procs.modify a.dest fun p => p.enqueue (a.origin, a.msg)
      arrived := n.arrived ++ [a] }
  else none

/-- The process `i`, which is `p`, has made its first output. -/
def advance (n : Net σ m x) (i : Nat) (p : Proc σ m x)
    (rest : List (Output m x)) : Net σ m x :=
  { n with procs := n.procs.set i { p with todo := rest } }

/-- One step of the net. -/
def step (n : Net σ m x) : NetAction σ m x → Option (Net σ m x)
  | .spawn initial react =>
    some { n with procs := n.procs ++ [Proc.new initial react] }
  | .post j msg => n.deliver { origin := none, dest := j, msg }
  | .take i =>
    match n.procs[i]? with
    | some p =>
      match p.todo, p.queue with
      | [], a :: rest => some { n with procs := n.procs.set i (p.handle a rest) }
      | _, _ => none
    | none => none
  | .act i =>
    match n.procs[i]? with
    | some p =>
      match p.todo with
      | .send j msg :: rest =>
        (n.advance i p rest).deliver { origin := some i, dest := j, msg }
      | .mark v :: rest =>
        some { n.advance i p rest with marks := n.marks ++ [(i, v)] }
      | [] => none
    | none => none

variable (σ m x) in
/-- The nets that grow from the empty one. -/
def machine : Machine (Net σ m x) (NetAction σ m x) :=
  Machine.ofNext (· = Net.empty) Net.step

/-! ## What a step can do -/

/-- One step of a net, by outcome. -/
inductive Move (n : Net σ m x) : NetAction σ m x → Net σ m x → Prop where
  | spawn (initial : σ) (react : σ → m → σ × List (Output m x)) :
      Move n (.spawn initial react)
        { n with procs := n.procs ++ [Proc.new initial react] }
  | post (j : Nat) (msg : m) (hj : j < n.procs.length) :
      Move n (.post j msg) { n with
        procs := n.procs.modify j fun p => p.enqueue (none, msg)
        arrived := n.arrived ++ [⟨none, j, msg⟩] }
  | take (i : Nat) (p : Proc σ m x) (a : Option Nat × m)
      (rest : List (Option Nat × m)) (hp : n.procs[i]? = some p)
      (htodo : p.todo = []) (hqueue : p.queue = a :: rest) :
      Move n (.take i) { n with procs := n.procs.set i (p.handle a rest) }
  | send (i : Nat) (p : Proc σ m x) (j : Nat) (msg : m)
      (rest : List (Output m x)) (hp : n.procs[i]? = some p)
      (htodo : p.todo = .send j msg :: rest) (hj : j < n.procs.length) :
      Move n (.act i) { n with
        procs := (n.procs.set i { p with todo := rest }).modify j fun q =>
          q.enqueue (some i, msg)
        arrived := n.arrived ++ [⟨some i, j, msg⟩] }
  | mark (i : Nat) (p : Proc σ m x) (v : x) (rest : List (Output m x))
      (hp : n.procs[i]? = some p) (htodo : p.todo = .mark v :: rest) :
      Move n (.act i) { n with
        procs := n.procs.set i { p with todo := rest }
        marks := n.marks ++ [(i, v)] }

theorem deliver_eq_some {n n' : Net σ m x} {a : Arrival m}
    (h : n.deliver a = some n') :
    a.dest < n.procs.length ∧ n' = { n with
      procs := n.procs.modify a.dest fun p => p.enqueue (a.origin, a.msg)
      arrived := n.arrived ++ [a] } := by
  unfold deliver at h
  split at h
  · rename_i hlt
    rw [Option.some.injEq] at h
    exact ⟨hlt, h.symm⟩
  · simp at h

theorem move_of_step {n n' : Net σ m x} {b : NetAction σ m x}
    (h : n.step b = some n') : Move n b n' := by
  cases b with
  | spawn initial react =>
    rw [step, Option.some.injEq] at h
    exact h ▸ .spawn initial react
  | post j msg =>
    obtain ⟨hj, rfl⟩ := deliver_eq_some h
    exact .post j msg hj
  | take i =>
    simp only [step] at h
    split at h
    · rename_i p hp
      split at h
      · rename_i a rest htodo hqueue
        rw [Option.some.injEq] at h
        exact h ▸ .take i p a rest hp htodo hqueue
      · simp at h
    · simp at h
  | act i =>
    simp only [step] at h
    split at h
    · rename_i p hp
      split at h
      · rename_i j msg rest htodo
        obtain ⟨hj, rfl⟩ := deliver_eq_some h
        have hlt : j < n.procs.length := by simpa [advance] using hj
        exact .send i p j msg rest hp htodo hlt
      · rename_i v rest htodo
        rw [Option.some.injEq] at h
        exact h ▸ .mark i p v rest hp htodo
      · simp at h
    · simp at h

/-! ## Everything that arrived was taken or waits -/

/-- The queues are what has arrived and was not taken. -/
structure Queued (n : Net σ m x) : Prop where
  bound : ∀ a ∈ n.arrived, a.dest < n.procs.length
  eq : ∀ (k : Nat) (p : Proc σ m x), n.procs[k]? = some p →
    p.taken ++ p.queue = arrivals n.arrived k

/-- An arrival goes to the queue that it is meant for. -/
theorem Queued.enqueue {n : Net σ m x} (h : n.Queued)
    {procs : List (Proc σ m x)} (hlen : procs.length = n.procs.length)
    (hsame : ∀ (k : Nat) (p : Proc σ m x), procs[k]? = some p →
      p.taken ++ p.queue = arrivals n.arrived k) (a : Arrival m)
    (ha : a.dest < n.procs.length) :
    Queued { n with
      procs := procs.modify a.dest fun p => p.enqueue (a.origin, a.msg)
      arrived := n.arrived ++ [a] } := by
  refine ⟨?_, fun k p hp => ?_⟩
  · simp only [List.length_modify, hlen]
    exact forall_mem_snoc h.bound ha
  · rw [arrivals_snoc]
    simp only [List.getElem?_modify, Option.map_eq_map,
      Option.map_eq_some_iff] at hp
    obtain ⟨q, hq, rfl⟩ := hp
    have hold := hsame k q hq
    by_cases hk : a.dest = k
    · rw [if_pos hk, if_pos hk, ← hold]
      simp [Proc.enqueue]
    · rw [if_neg hk, if_neg hk, ← hold]
      simp

theorem queued_move {n n' : Net σ m x} {b : NetAction σ m x}
    (hmove : Move n b n') (h : n.Queued) : n'.Queued := by
  cases hmove with
  | spawn initial react =>
    refine ⟨fun a ha => ?_, forall_getElem?_snoc h.eq ?_⟩
    · have hlt := h.bound a ha
      simp only [List.length_append, List.length_singleton]
      omega
    · -- Nothing can have arrived at a process that was not there.
      exact (arrivals_eq_nil h.bound).symm
  | post j msg hj => exact h.enqueue rfl h.eq ⟨none, j, msg⟩ hj
  | take i p a rest hp htodo hqueue =>
    refine ⟨by simpa using h.bound, forall_getElem?_set h.eq ?_⟩
    have hold := h.eq i p hp
    rw [hqueue] at hold
    simp only [Proc.handle, List.append_assoc, List.singleton_append]
    exact hold
  | send i p j msg rest hp htodo hj =>
    refine h.enqueue (by simp) ?_ ⟨some i, j, msg⟩ hj
    exact forall_getElem?_set h.eq (h.eq i p hp)
  | mark i p v rest hp htodo =>
    exact ⟨by simpa using h.bound, forall_getElem?_set h.eq (h.eq i p hp)⟩

/-- In every run: everything that arrived was taken or waits, in order. -/
theorem queued {ok : Net σ m x → NetAction σ m x → Prop} {n : Net σ m x}
    (h : (machine σ m x).Reach ok n) : n.Queued := by
  refine h.invariant ?_ ?_
  · rintro _ rfl
    exact ⟨by simp [empty], by simp [empty]⟩
  · intro n b n' _ hn _ hstep
    exact queued_move (move_of_step hstep) hn

/-! ## A process does what its reactions say -/

/-- Process `k` is in the state after what it took, and what it has put out so
far and has still to put out are the outputs of its reactions.  `as` and `vs`
are the arrivals and the marks on record. -/
structure Follows (as : List (Arrival m)) (vs : List (Nat × x)) (k : Nat)
    (p : Proc σ m x) : Prop where
  state : p.state = p.after p.inputs
  sends : ∀ j, sendsTo j (p.outputs p.inputs) =
    sentFrom as k j ++ sendsTo j p.todo
  marks : marksIn (p.outputs p.inputs) = marksOf vs k ++ marksIn p.todo

/-- Every process follows its reactions. -/
structure Followed (n : Net σ m x) : Prop where
  origins : ∀ a ∈ n.arrived, ∀ i, a.origin = some i → i < n.procs.length
  markers : ∀ v ∈ n.marks, v.1 < n.procs.length
  eq : ∀ (k : Nat) (p : Proc σ m x), n.procs[k]? = some p →
    Follows n.arrived n.marks k p

/-- Enqueuing changes nothing that a process has done. -/
theorem Follows.enqueue {as : List (Arrival m)} {vs : List (Nat × x)} {k : Nat}
    {p : Proc σ m x} (h : Follows as vs k p) (a : Option Nat × m) :
    Follows as vs k (p.enqueue a) :=
  ⟨h.state, h.sends, h.marks⟩

/-- A record that another process, or the outside, leaves. -/
theorem Follows.arrive {as : List (Arrival m)} {vs : List (Nat × x)} {k : Nat}
    {p : Proc σ m x} (h : Follows as vs k p) {a : Arrival m}
    (ha : a.origin ≠ some k) : Follows (as ++ [a]) vs k p := by
  refine ⟨h.state, fun j => ?_, h.marks⟩
  rw [sentFrom_snoc, if_neg (fun hor => ha hor.1), List.append_nil]
  exact h.sends j

theorem Follows.handle {as : List (Arrival m)} {vs : List (Nat × x)} {k : Nat}
    {p : Proc σ m x} (h : Follows as vs k p) (htodo : p.todo = [])
    (a : Option Nat × m) (rest : List (Option Nat × m)) :
    Follows as vs k (p.handle a rest) := by
  have hinputs : (p.handle a rest).inputs = p.inputs ++ [a.2] := by
    simp [Proc.inputs, Proc.handle]
  have houtputs : (p.handle a rest).outputs (p.inputs ++ [a.2]) =
      p.outputs p.inputs ++ (p.react p.state a.2).2 := by
    rw [h.state]
    exact p.outputs_snoc p.inputs a.2
  refine ⟨?_, fun j => ?_, ?_⟩
  · rw [hinputs]
    show (p.react p.state a.2).1 = p.after (p.inputs ++ [a.2])
    rw [Proc.after_snoc, h.state]
  · rw [hinputs, houtputs, sendsTo_append, h.sends j, htodo, sendsTo_nil,
      List.append_nil]
    rfl
  · rw [hinputs, houtputs, marksIn_append, h.marks, htodo, marksIn_nil,
      List.append_nil]
    rfl

/-- The process sends the message that is next. -/
theorem Follows.send {as : List (Arrival m)} {vs : List (Nat × x)} {i j : Nat}
    {p : Proc σ m x} {msg : m} {rest : List (Output m x)} (h : Follows as vs i p)
    (htodo : p.todo = .send j msg :: rest) :
    Follows (as ++ [⟨some i, j, msg⟩]) vs i { p with todo := rest } := by
  refine ⟨h.state, fun d => ?_, ?_⟩
  · have hsends := h.sends d
    rw [htodo, sendsTo_send, ← List.append_assoc] at hsends
    show sendsTo d (p.outputs p.inputs) = _
    rw [hsends, sentFrom_snoc]
    simp
  · have hmarks := h.marks
    rw [htodo, marksIn_send] at hmarks
    exact hmarks

/-- The process leaves the mark that is next. -/
theorem Follows.mark {as : List (Arrival m)} {vs : List (Nat × x)} {i : Nat}
    {p : Proc σ m x} {v : x} {rest : List (Output m x)} (h : Follows as vs i p)
    (htodo : p.todo = .mark v :: rest) :
    Follows as (vs ++ [(i, v)]) i { p with todo := rest } := by
  refine ⟨h.state, fun d => ?_, ?_⟩
  · have hsends := h.sends d
    rw [htodo, sendsTo_mark] at hsends
    exact hsends
  · have hmarks := h.marks
    rw [htodo, marksIn_mark] at hmarks
    rw [marksOf_snoc, if_pos rfl, List.append_assoc]
    exact hmarks

theorem followed_move {n n' : Net σ m x} {b : NetAction σ m x}
    (hmove : Move n b n') (h : n.Followed) : n'.Followed := by
  cases hmove with
  | spawn initial react =>
    refine ⟨fun a ha i hi => ?_, fun v hv => ?_, forall_getElem?_snoc h.eq ?_⟩
    · have hlt := h.origins a ha i hi
      simp only [List.length_append, List.length_singleton]
      omega
    · have hlt := h.markers v hv
      simp only [List.length_append, List.length_singleton]
      omega
    · -- A process that was not there has sent nothing.
      refine ⟨rfl, fun j => ?_, ?_⟩
      · rw [sentFrom_eq_nil h.origins]
        rfl
      · rw [marksOf_eq_nil h.markers]
        rfl
  | post j msg hj =>
    refine ⟨?_, by simpa using h.markers, ?_⟩
    · simp only [List.length_modify]
      exact forall_mem_snoc h.origins (by simp)
    · refine forall_getElem?_modify (fun k p hp => ?_)
        (fun k p hp => hp.enqueue _) j
      exact (h.eq k p hp).arrive (by simp)
  | take i p a rest hp htodo hqueue =>
    exact ⟨by simpa using h.origins, by simpa using h.markers,
      forall_getElem?_set h.eq ((h.eq i p hp).handle htodo a rest)⟩
  | send i p j msg rest hp htodo hj =>
    have hi := (List.getElem?_eq_some_iff.mp hp).1
    refine ⟨?_, by simpa using h.markers, ?_⟩
    · simp only [List.length_modify, List.length_set]
      refine forall_mem_snoc h.origins fun o ho => ?_
      rw [Option.some.injEq] at ho
      exact ho ▸ hi
    · -- The sender goes on, and the queue of `j` takes the message.
      refine forall_getElem?_modify (fun k q hq => ?_)
        (fun k q hq => hq.enqueue _) j
      rw [List.getElem?_set] at hq
      split at hq
      · rename_i hik
        subst hik
        obtain ⟨-, rfl⟩ : i < n.procs.length ∧ { p with todo := rest } = q := by
          simpa [hi] using hq
        exact (h.eq i p hp).send htodo
      · rename_i hik
        exact (h.eq k q hq).arrive (by simpa using hik)
  | mark i p v rest hp htodo =>
    have hi := (List.getElem?_eq_some_iff.mp hp).1
    refine ⟨by simpa using h.origins, ?_, fun k q hq => ?_⟩
    · simp only [List.length_set]
      exact forall_mem_snoc h.markers hi
    · rw [List.getElem?_set] at hq
      split at hq
      · rename_i hik
        subst hik
        obtain ⟨-, rfl⟩ : i < n.procs.length ∧ { p with todo := rest } = q := by
          simpa [hi] using hq
        exact (h.eq i p hp).mark htodo
      · rename_i hik
        have hold := h.eq k q hq
        refine ⟨hold.state, hold.sends, ?_⟩
        rw [marksOf_snoc, if_neg hik, List.append_nil]
        exact hold.marks

/-- In every run: every process follows its reactions. -/
theorem followed {ok : Net σ m x → NetAction σ m x → Prop} {n : Net σ m x}
    (h : (machine σ m x).Reach ok n) : n.Followed := by
  refine h.invariant ?_ ?_
  · rintro _ rfl
    exact ⟨by simp [empty], by simp [empty], by simp [empty]⟩
  · intro n b n' _ hn _ hstep
    exact followed_move (move_of_step hstep) hn

/-- The link from process `i` to process `j`: what `j` took from `i`, what
waits in its queue and what `i` has yet to send is what the reactions of `i`
address to `j`, in order. -/
theorem link {ok : Net σ m x → NetAction σ m x → Prop} {n : Net σ m x}
    (h : (machine σ m x).Reach ok n) {i j : Nat} {p q : Proc σ m x}
    (hp : n.procs[i]? = some p) (hq : n.procs[j]? = some q) :
    q.takenFrom i ++ q.queuedFrom i ++ sendsTo j p.todo =
      sendsTo j (p.outputs p.inputs) := by
  have hsent : q.takenFrom i ++ q.queuedFrom i = sentFrom n.arrived i j := by
    rw [Proc.takenFrom, Proc.queuedFrom, ← List.map_append, ← List.filter_append,
      (queued h).eq j q hq, arrivals_from]
  rw [hsent, ((followed h).eq i p hp).sends j]

end Net

end Concur
