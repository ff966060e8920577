import Actors.Group.Move
import Actors.Lib.Pipeline

/-!
# A group is a pipeline

`flow` reads a group as a `Pipeline`: the forwarders are the lanes and their
carriers, the workers are the hands, and a letter is delivered when its
message is handed to `process_message`.  `flow_move` shows that every step of
the group is one step of the pipeline or none.

`conserved` follows from the library: in every state the letters that are
inside, handed over and lost are exactly the letters sent.  `Actors.Group.Order`
uses the same reading for the order in which messages are handed over.
-/

namespace Actors

open Concur

variable {μ : Type}

/-- The letters of a forwarder that are not in the shared queue yet. -/
def Forwarder.pending (f : Forwarder μ) : List (Letter μ) :=
  f.hand.toList ++ f.chan

/-- The letter in a worker's hand. -/
def Worker.hand (w : Worker μ) : Option (Letter μ) := w.pc.hand

namespace Group

/-- The group as a pipeline. -/
def flow (g : Group μ) : Pipeline (Letter μ) :=
  { lanes := g.forwarders.map fun f => ⟨f.chan, f.hand⟩
    queue := g.queue.map GroupEnvelope.letter
    hands := g.workers.map fun w => w.pc.hand
    done := g.handed.map ProcessCall.letter
    lost := g.lost
    posted := g.sent }

/-- What a pipeline step means for the step of the group that it reads. -/
def Reads (g : Group μ) (a : Action μ) : Pipeline.Label (Letter μ) → Prop
  | .post _ l => l.id = g.sent.length
  | .unload r => a = .forwardSend r ∧
      ∃ f l, g.forwarders[r]? = some f ∧ f.hand = some l
  | .deliver i => a = .worker i
  | _ => True

section Views

variable {g : Group μ}

theorem flow_lanes {r : Nat} {f : Forwarder μ}
    (hf : g.forwarders[r]? = some f) :
    g.flow.lanes[r]? = some ⟨f.chan, f.hand⟩ := by
  simp [flow, List.getElem?_map, hf]

theorem flow_hands {i : Nat} {w : Worker μ} (hw : g.workers[i]? = some w) :
    g.flow.hands[i]? = some w.pc.hand := by
  simp [flow, List.getElem?_map, hw]

/-- A worker that keeps what it has in hand does not change the pipeline. -/
theorem hands_set {i : Nat} {w : Worker μ} {pc : WorkerPc μ}
    (hw : g.workers[i]? = some w) (hpc : pc.hand = w.pc.hand) :
    (g.workers.set i { w with pc := pc }).map (fun w => w.pc.hand) =
      g.workers.map fun w => w.pc.hand :=
  map_set_of_eq (fun w : Worker μ => w.pc.hand) hw hpc

end Views

@[simp] theorem hand_after (d : Bool) :
    (WorkerPc.after d : WorkerPc μ).hand = none := by
  cases d <;> rfl

/-- A send is a post. -/
theorem flow_posted {g : Group μ} {r : Nat} {f : Forwarder μ} (l : Letter μ)
    (hf : g.forwarders[r]? = some f) :
    Pipeline.Step g.flow (.post r l) (g.posted r f l).flow := by
  have h := Pipeline.Step.post l (flow_lanes hf)
  have heq : (g.posted r f l).flow = { g.flow with
      lanes := g.flow.lanes.set r ⟨f.chan ++ [l], f.hand⟩
      posted := g.flow.posted ++ [l] } := by
    simp [flow, posted, List.map_set]
  rw [heq]
  exact h

/-- Every step of the group is one step of the pipeline or none. -/
theorem flow_move {g g' : Group μ} {a : Action μ} (h : Move g a g') :
    g'.flow = g.flow ∨
      ∃ b, g.Reads a b ∧ Pipeline.Step g.flow b g'.flow := by
  cases h with
  | add | getRef =>
    refine Or.inr ⟨.openLane, trivial, ?_⟩
    have hstep := Pipeline.Step.openLane g.flow
    simpa [flow, Forwarder.new] using hstep
  | sendStart r rs f hmain hf hlive =>
    exact Or.inr ⟨.post r (g.letterOf .main r f.name .start none false), rfl,
      flow_posted _ hf⟩
  | sendShutdown r rs b f hmain hf hlive =>
    exact Or.inr ⟨.post r (g.letterOf .main r f.name .shutdown none false),
      rfl, flow_posted _ hf⟩
  | send t r msg sender f hcan hfree hf hlive =>
    exact Or.inr ⟨.post r (g.letterOf t r f.name msg sender false), rfl,
      flow_posted _ hf⟩
  | fastSend t r msg sender f hcan hfree hf hlive =>
    exact Or.inr ⟨.post r (g.letterOf t r f.name msg sender true), rfl,
      flow_posted _ hf⟩
  | spawn n hmain =>
    refine Or.inr ⟨.addHand, trivial, ?_⟩
    have hstep := Pipeline.Step.addHand g.flow
    simpa [flow, WorkerPc.hand] using hstep
  | forwardRecv r f l rest hf hchan hhand =>
    refine Or.inr ⟨.load r, trivial, ?_⟩
    have hlane := flow_lanes hf
    rw [hchan, hhand] at hlane
    have hstep := Pipeline.Step.load hlane
    simpa [flow, List.map_set] using hstep
  | forwardSend r f l hf hhand =>
    refine Or.inr ⟨.unload r, ⟨rfl, f, l, hf, hhand⟩, ?_⟩
    have hlane := flow_lanes hf
    rw [hhand] at hlane
    have hstep := Pipeline.Step.unload hlane
    simpa [flow, List.map_set] using hstep
  | recv i w env rest hw hpc hfree hq | drain i w env rest hw hpc hfree hq =>
    refine Or.inr ⟨.pick i, trivial, ?_⟩
    have hhand := flow_hands hw
    rw [hpc] at hhand
    have hqueue : g.flow.queue =
        env.letter :: rest.map GroupEnvelope.letter := by
      simp [flow, hq]
    have hstep := Pipeline.Step.pick hhand hqueue
    simpa [flow, List.map_set, WorkerPc.hand] using hstep
  | noMember i w d env hw hpc hno =>
    refine Or.inr ⟨.lose i, trivial, ?_⟩
    have hhand := flow_hands hw
    rw [hpc] at hhand
    have hstep := Pipeline.Step.lose (l := env.letter) hhand
    simpa [flow, List.map_set] using hstep
  | memberPanic i w d env m mem hw hpc hm hmem hpois =>
    refine Or.inr ⟨.lose i, trivial, ?_⟩
    have hhand := flow_hands hw
    rw [hpc] at hhand
    have hstep := Pipeline.Step.lose (l := env.letter) hhand
    simpa [flow, List.map_set, WorkerPc.hand] using hstep
  | processBegin i w d env m mem hw hpc hm hmem hfree hclean =>
    refine Or.inr ⟨.deliver i, rfl, ?_⟩
    have hhand := flow_hands hw
    rw [hpc] at hhand
    have hstep := Pipeline.Step.deliver (l := env.letter) hhand
    simpa [flow, List.map_set, WorkerPc.hand, GroupMember.dispatch,
      ProcessCall.prepared] using hstep
  | dropRef r f hf hr | forwardExit r f hf hlive =>
    left
    simp [flow, map_set_of_eq (fun f : Forwarder μ =>
      (⟨f.chan, f.hand⟩ : Lane (Letter μ))) hf]
  | check i w hw hpc =>
    left
    have hhand : (if g.running then WorkerPc.recv else .drain).hand =
        w.pc.hand := by
      rw [hpc]
      split <;> rfl
    simp [flow, hands_set hw hhand]
  | recvPanic i w hw hpc hpois =>
    left
    have hhand : WorkerPc.panicked.hand = w.pc.hand := by
      rcases hpc with hpc | hpc <;> rw [hpc] <;> rfl
    simp [flow, hands_set hw hhand]
  | recvEmpty i w hw hpc =>
    left
    have hhand : WorkerPc.check.hand = w.pc.hand := by rw [hpc]; rfl
    simp [flow, hands_set hw hhand]
  | drainEmpty i w hw hpc hq =>
    left
    have hhand : WorkerPc.exited.hand = w.pc.hand := by rw [hpc]; rfl
    simp [flow, hands_set hw hhand]
  | handlerReturn i w d m l hw hpc hfree =>
    left
    have hhand : (WorkerPc.after d).hand = w.pc.hand := by
      rw [hpc, hand_after]
      rfl
    simp [flow, hands_set hw hhand]
  | handlerPanic i w d m l hw hpc hfree =>
    left
    have hhand : WorkerPc.panicked.hand = w.pc.hand := by rw [hpc]; rfl
    simp [flow, hands_set hw hhand]
  | _ => exact Or.inl rfl

theorem flow_new (n : Nat) : (Group.new n : Group μ).flow = Pipeline.empty :=
  rfl

/-! ## Conservation -/

/-- The letters inside, handed over and lost are exactly the letters sent. -/
theorem conserved {n : Nat} {ok : Group μ → Action μ → Prop} {g : Group μ}
    (h : (machine μ n).Reach ok g) : g.flow.Conserved := by
  have hflow : (Pipeline.machine (Letter μ)).Reachable g.flow := by
    refine Machine.Reach.simulate ?_ ?_ h
    · rintro g rfl
      exact flow_new n
    · intro g a g' _ _ hstep
      rcases flow_move (move_of_step hstep) with heq | ⟨b, -, hb⟩
      · exact Or.inl heq
      · exact Or.inr ⟨b, trivial, hb⟩
  exact Pipeline.conserved hflow

/-- The letters inside, handed over and lost are a permutation of the letters
sent. -/
theorem conserved_perm {n : Nat} {ok : Group μ → Action μ → Prop}
    {g : Group μ} (h : (machine μ n).Reach ok g) :
    (g.forwarders.flatMap Forwarder.pending ++
      g.queue.map GroupEnvelope.letter ++
      g.workers.flatMap (fun w => w.hand.toList) ++
      g.handed.map ProcessCall.letter ++ g.lost).Perm g.sent := by
  have hperm := (conserved h).perm
  simp only [flow, List.flatMap_map] at hperm
  exact hperm

/-- The number of a letter is its place in the list of letters sent. -/
theorem sent_id {n : Nat} {ok : Group μ → Action μ → Prop} {g : Group μ}
    (h : (machine μ n).Reach ok g) {k : Nat} {l : Letter μ}
    (hl : g.sent[k]? = some l) : l.id = k := by
  have hflow : (Pipeline.machine (Letter μ)).Reach (fun p b => ∀ k l,
      b = .post k l → l.id = p.posted.length) g.flow := by
    refine Machine.Reach.simulate ?_ ?_ h
    · rintro g rfl
      exact flow_new n
    · intro g a g' _ _ hstep
      rcases flow_move (move_of_step hstep) with heq | ⟨b, hr, hb⟩
      · exact Or.inl heq
      · refine Or.inr ⟨b, ?_, hb⟩
        rintro k l rfl
        exact hr
  exact Pipeline.rank_posted hflow k l hl

/-- Letters with one number are one letter. -/
theorem eq_of_sent_id {n : Nat} {ok : Group μ → Action μ → Prop} {g : Group μ}
    (h : (machine μ n).Reach ok g) {l l' : Letter μ} (hl : l ∈ g.sent)
    (hl' : l' ∈ g.sent) (hid : l.id = l'.id) : l = l' := by
  obtain ⟨j, hj⟩ := List.mem_iff_getElem?.mp hl
  obtain ⟨k, hk⟩ := List.mem_iff_getElem?.mp hl'
  have hjk : j = k := by rw [← sent_id h hj, ← sent_id h hk, hid]
  rw [hjk, hk, Option.some.injEq] at hj
  exact hj.symm

/-- No letter is sent twice. -/
theorem sent_nodup {n : Nat} {ok : Group μ → Action μ → Prop} {g : Group μ}
    (h : (machine μ n).Reach ok g) : g.sent.Nodup := by
  rw [List.nodup_iff_getElem?_ne_getElem?]
  intro i j hij hj heq
  have hl : g.sent[j]? = some g.sent[j] := List.getElem?_eq_getElem hj
  have hid := sent_id h hl
  rw [sent_id h (heq.trans hl)] at hid
  omega

/-- A letter that was handed over was sent. -/
theorem sent_of_handed {n : Nat} {ok : Group μ → Action μ → Prop}
    {g : Group μ} (h : (machine μ n).Reach ok g) {c : ProcessCall μ}
    (hc : c ∈ g.handed) : c.letter ∈ g.sent := by
  have hmem : c.letter ∈ g.handed.map ProcessCall.letter :=
    List.mem_map_of_mem hc
  exact (conserved_perm h).subset (by simp only [List.mem_append, hmem]; simp)

/-- A letter in a worker's hand was sent. -/
theorem sent_of_hand {n : Nat} {ok : Group μ → Action μ → Prop}
    {g : Group μ} (h : (machine μ n).Reach ok g) {i : Nat} {w : Worker μ}
    {l : Letter μ} (hw : g.workers[i]? = some w) (hhand : w.hand = some l) :
    l ∈ g.sent := by
  have hmem : l ∈ g.workers.flatMap fun w => w.hand.toList :=
    List.mem_flatMap.mpr ⟨w, List.mem_of_getElem? hw, by simp [hhand]⟩
  exact (conserved_perm h).subset (by simp only [List.mem_append, hmem]; simp)

/-- A letter in a worker's hand was not handed over yet. -/
theorem not_handed {n : Nat} {ok : Group μ → Action μ → Prop} {g : Group μ}
    (h : (machine μ n).Reach ok g) {i : Nat} {w : Worker μ} {l : Letter μ}
    (hw : g.workers[i]? = some w) (hhand : w.hand = some l)
    {c : ProcessCall μ} (hc : c ∈ g.handed) : c.letter.id ≠ l.id := by
  intro hid
  have heq := eq_of_sent_id h (sent_of_handed h hc) (sent_of_hand h hw hhand) hid
  -- It would be in a hand and handed over at the same time.
  have hnodup := (conserved_perm h).nodup_iff.mpr (sent_nodup h)
  have hdisj := List.disjoint_of_nodup_append hnodup.of_append_left
  refine hdisj (a := l) ?_ ?_
  · refine List.mem_append_right _ (List.mem_flatMap.mpr ?_)
    exact ⟨w, List.mem_of_getElem? hw, by simp [hhand]⟩
  · exact List.mem_map.mpr ⟨c, hc, heq⟩

/-- A letter is handed over once. -/
theorem handed_nodup {n : Nat} {ok : Group μ → Action μ → Prop} {g : Group μ}
    (h : (machine μ n).Reach ok g) :
    (g.handed.map ProcessCall.letter).Nodup := by
  have hnodup := (conserved_perm h).nodup_iff.mpr (sent_nodup h)
  exact hnodup.of_append_left.of_append_right

end Group

end Actors
