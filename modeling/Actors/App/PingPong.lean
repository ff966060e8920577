import Actors.App.Handled
import Actors.Manager.Order

/-!
# The ping-pong program

The program of `examples/ping_pong.rs`, with any `max_count`.  `PingActor` sends
`Ping` with 1 when it is started, `PongActor` replies to each `Ping` with a
`Pong` of the same count, and `PingActor` answers each `Pong` with the next
`Ping`, or terminates the manager when the count has reached `max_count`.

`volley` is what happens in every schedule.
-/

namespace Actors

open Concur

/-- `Ping` and `Pong`. -/
inductive Ball where
  | ping (count : Int32)
  | pong (count : Int32)
  deriving DecidableEq, Repr

/-- `PingActor`.  The manager handle is not a field: a handler terminates by a
command. -/
structure PingActor where
  pongActor : Nat
  maxCount : Int32
  deriving DecidableEq, Repr

/-- `PongActor`. -/
structure PongActor where
  deriving DecidableEq, Repr

/-- The actors of the program. -/
inductive Player where
  | pingActor (a : PingActor)
  | pongActor (a : PongActor)
  deriving DecidableEq, Repr

/-- `downcast_ref::<Ping>`. -/
def Ball.asPing : Ball → Option Int32
  | .ping count => some count
  | .pong _ => none

/-- `downcast_ref::<Pong>`. -/
def Ball.asPong : Ball → Option Int32
  | .pong count => some count
  | .ping _ => none

/-- `PingActor::on_start`. -/
def PingActor.onStart (self : PingActor) (_ : Unit) :
    PingActor × List (Command Ball) :=
  (self, [.send self.pongActor (.user (.ping 1)) true])

/-- `PingActor::on_pong`. -/
def PingActor.onPong (self : PingActor) (count : Int32) :
    PingActor × List (Command Ball) :=
  if count ≥ self.maxCount then (self, [.terminate])
  else (self, [.send self.pongActor (.user (.ping (count + 1))) true])

/-- `PongActor::on_ping`. -/
def PongActor.onPing (self : PongActor) (count : Int32) :
    PongActor × List (Command Ball) :=
  (self, [.reply (.user (.pong count))])

/-- `PingActor` with its message handlers. -/
def PingActor.code (self : PingActor) : ActorCode Ball PingActor :=
  { initial := self
    process := handleMessages [.of Message.asStart PingActor.onStart,
      .of (Message.asUser Ball.asPong) PingActor.onPong] }

/-- `PongActor` with its message handlers. -/
def PongActor.code (self : PongActor) : ActorCode Ball PongActor :=
  { initial := self
    process := handleMessages [.of (Message.asUser Ball.asPing) PongActor.onPing] }

/-- `PingActor` as it is passed to `manage`. -/
def pingCode (maxCount : Int32) : ActorCode Ball Player :=
  (PingActor.code { pongActor := 0, maxCount }).boxed .pingActor fun
    | .pingActor a => some a
    | .pongActor _ => none

/-- `PongActor` as it is passed to `manage`. -/
def pongCode : ActorCode Ball Player :=
  (PongActor.code {}).boxed .pongActor fun
    | .pongActor a => some a
    | .pingActor _ => none

/-- `main`. -/
def pingPong (maxCount : Int32) : List (MainCall Ball Player) :=
  [.manage "PongActor" pongCode, .manage "PingActor" (pingCode maxCount), .init,
    .run, .endCall]

/-- The messages of the application that the actor was handed. -/
def Runtime.balls (a : Runtime Ball) : List Ball :=
  a.messages.filterMap fun msg => msg.asUser some

/-! ## What the handlers send -/

/-- What `PingActor` does for a message. -/
def pingCommands (maxCount : Int32) : Message Ball → List (Command Ball)
  | .start => [.send 0 (.user (.ping 1)) true]
  | .user (.pong count) =>
    if count ≥ maxCount then [.terminate]
    else [.send 0 (.user (.ping (count + 1))) true]
  | _ => []

theorem process_ping (maxCount : Int32) (msg : Message Ball) :
    (pingCode maxCount).process (pingCode maxCount).initial msg =
      ((pingCode maxCount).initial, pingCommands maxCount msg) := by
  cases msg with
  | user b =>
    cases b with
    | ping count => rfl
    | pong count =>
      by_cases hmax : count ≥ maxCount <;>
        simp [pingCode, ActorCode.boxed, PingActor.code, handleMessages,
          dispatchMessage, Arm.of, Message.asStart, Message.asUser, Ball.asPong,
          PingActor.onPong, pingCommands, hmax]
  | start | shutdown | timeout | reject => rfl

/-- What `PongActor` does for a message. -/
def pongCommands : Message Ball → List (Command Ball)
  | .user (.ping count) => [.reply (.user (.pong count))]
  | _ => []

theorem process_pong (msg : Message Ball) :
    pongCode.process pongCode.initial msg = (pongCode.initial, pongCommands msg) := by
  cases msg with
  | user b => cases b <;> rfl
  | start | shutdown | timeout | reject => rfl

/-- What `PingActor` sends for a message. -/
def pingSends (maxCount : Int32) (m : Mail Ball) : List (Mail Ball) :=
  match m.msg with
  | .start => [⟨.user (.ping 1), some 1⟩]
  | .user (.pong count) =>
    if count ≥ maxCount then [] else [⟨.user (.ping (count + 1)), some 1⟩]
  | _ => []

/-- What `PingActor` leaves behind for a message. -/
def pingMarks (maxCount : Int32) (m : Mail Ball) : List Mark :=
  match m.msg with
  | .user (.pong count) => if count ≥ maxCount then [.terminated] else []
  | _ => []

/-- What `PongActor` sends to actor `j` for a message. -/
def pongSends (j : Nat) (m : Mail Ball) : List (Mail Ball) :=
  match m.msg, m.sender with
  | .user (.ping count), some i =>
    if i = j then [⟨.user (.pong count), some 0⟩] else []
  | _, _ => []

theorem sends_ping (maxCount : Int32) (j : Nat) (mails : List (Mail Ball)) :
    (pingCode maxCount).sends 1 j mails =
      if j = 0 then mails.flatMap (pingSends maxCount) else [] := by
  have hone : ∀ m : Mail Ball, sendsTo j ((pingCommands maxCount m.msg).map
      (Command.output 1 m.sender)) = if j = 0 then pingSends maxCount m else [] := by
    rintro ⟨msg, sender⟩
    cases msg with
    | user b =>
      cases b with
      | ping count => simp [pingCommands, pingSends]
      | pong count =>
        by_cases hmax : count ≥ maxCount <;>
          simp [pingCommands, pingSends, hmax, Command.output, eq_comm]
    | start => simp [pingCommands, pingSends, Command.output, eq_comm]
    | shutdown | timeout | reject => simp [pingCommands, pingSends]
  rw [ActorCode.sends, Proc.outputs_of_const _ fun m =>
    congrArg Prod.fst (process_ping maxCount m.msg), sendsTo_flatMap]
  simp only [ActorCode.proc, Proc.new, Handler.react, process_ping, hone]
  split <;> simp

theorem sends_pong (j : Nat) (mails : List (Mail Ball)) :
    pongCode.sends 0 j mails = mails.flatMap (pongSends j) := by
  have hone : ∀ m : Mail Ball, sendsTo j ((pongCommands m.msg).map
      (Command.output 0 m.sender)) = pongSends j m := by
    rintro ⟨msg, sender⟩
    cases msg with
    | user b =>
      cases b with
      | ping count => cases sender <;> simp [pongCommands, pongSends, Command.output]
      | pong count => simp [pongCommands, pongSends]
    | start | shutdown | timeout | reject => simp [pongCommands, pongSends]
  rw [ActorCode.sends, Proc.outputs_of_const _ fun m =>
    congrArg Prod.fst (process_pong m.msg), sendsTo_flatMap]
  simp only [ActorCode.proc, Proc.new, Handler.react, process_pong, hone]

theorem marks_ping (maxCount : Int32) (mails : List (Mail Ball)) :
    (pingCode maxCount).marks 1 mails = mails.flatMap (pingMarks maxCount) := by
  rw [ActorCode.marks, Proc.outputs_of_const _ fun m =>
    congrArg Prod.fst (process_ping maxCount m.msg), marksIn_flatMap]
  simp only [ActorCode.proc, Proc.new, Handler.react, process_ping]
  congr 1
  funext m
  obtain ⟨msg, sender⟩ := m
  cases msg with
  | user b =>
    cases b with
    | ping count => rfl
    | pong count =>
      by_cases hmax : count ≥ maxCount <;>
        simp [pingCommands, pingMarks, hmax, Command.output]
  | start | shutdown | timeout | reject => rfl

theorem marks_pong (mails : List (Mail Ball)) :
    Mark.terminated ∉ pongCode.marks 0 mails := by
  rw [ActorCode.marks, Proc.outputs_of_const _ fun m =>
    congrArg Prod.fst (process_pong m.msg), marksIn_flatMap]
  simp only [ActorCode.proc, Proc.new, Handler.react, process_pong,
    List.mem_flatMap, not_exists, not_and]
  rintro ⟨msg, sender⟩ -
  cases msg with
  | user b => cases b <;> cases sender <;> simp [pongCommands, Command.output]
  | start | shutdown | timeout | reject => simp [pongCommands]

/-! ## Who sends what -/

namespace PingPong

variable {maxCount : Int32}

/-- The actors, once they are made. -/
theorem players {s : App Ball Player} (h : (App.machine (pingPong maxCount)).Reachable s)
    {k : Nat} {c : ActorState Ball Player} (hc : s.cells[k]? = some c) :
    (k = 0 ∧ c.code = pongCode) ∨ (k = 1 ∧ c.code = pingCode maxCount) := by
  have hmade := App.made h
  have hcodes : (pingPong maxCount).filterMap MainCall.made =
      [pongCode, pingCode maxCount] := rfl
  rw [hcodes] at hmade
  have hget : [pongCode, pingCode maxCount][k]? = some c.code := by
    rw [← hmade, List.getElem?_append_left]
    · simp [hc]
    · simpa using (List.getElem?_eq_some_iff.mp hc).1
  match k with
  | 0 => exact Or.inl ⟨rfl, by simpa using hget.symm⟩
  | 1 => exact Or.inr ⟨rfl, by simpa using hget.symm⟩
  | k + 2 => simp at hget

theorem no_send (k : Nat) (m : Ball) : MainCall.send k m ∉ pingPong maxCount := by
  simp [pingPong]

/-- The letters of `PingActor` that are not from the manager bring a `Pong` of
`PongActor`. -/
theorem mail_of_ping {s : App Ball Player}
    (h : (App.machine (pingPong maxCount)).Reachable s) {a : Runtime Ball}
    (ha : s.manager.actors[1]? = some a) {l : Letter Ball} (hl : l ∈ a.letters) :
    (l.author = .worker 0 ∧ ∃ n, l.mail = ⟨.user (.pong n), some 0⟩) ∨
      (l.author = .main ∧ (l.envelope.msg = .start ∨ l.envelope.msg = .shutdown)) := by
  rcases App.origin h ha hl with ⟨i, b, c, hauthor, hb, hc, hmem⟩ |
    ⟨hauthor, hmsg⟩
  · rcases players h hc with ⟨rfl, hcode⟩ | ⟨rfl, hcode⟩
    · rw [hcode, sends_pong] at hmem
      obtain ⟨m, -, hm⟩ := List.mem_flatMap.mp hmem
      refine Or.inl ⟨hauthor, ?_⟩
      unfold pongSends at hm
      split at hm
      · rename_i n i _ _
        split at hm
        · exact ⟨n, List.mem_singleton.mp hm⟩
        · simp at hm
      · simp at hm
    · -- `PingActor` sends nothing to itself.
      rw [hcode, sends_ping] at hmem
      simp at hmem
  · rcases hmsg with hmsg | hmsg | ⟨m, -, hm⟩
    · exact Or.inr ⟨hauthor, Or.inl hmsg⟩
    · exact Or.inr ⟨hauthor, Or.inr hmsg⟩
    · exact absurd hm (no_send _ m)

/-- What `PingActor` sends is a `Ping`, with itself as the sender. -/
theorem mem_pingSends {m x : Mail Ball} (h : x ∈ pingSends maxCount m) :
    ∃ n, x = ⟨.user (.ping n), some 1⟩ := by
  unfold pingSends at h
  split at h
  · exact ⟨1, List.mem_singleton.mp h⟩
  · rename_i n _
    split at h
    · simp at h
    · exact ⟨n + 1, List.mem_singleton.mp h⟩
  · simp at h

/-- The letters of `PongActor` that are not from the manager bring a `Ping` of
`PingActor`. -/
theorem mail_of_pong {s : App Ball Player}
    (h : (App.machine (pingPong maxCount)).Reachable s) {a : Runtime Ball}
    (ha : s.manager.actors[0]? = some a) {l : Letter Ball} (hl : l ∈ a.letters) :
    (l.author = .worker 1 ∧ ∃ n, l.mail = ⟨.user (.ping n), some 1⟩) ∨
      (l.author = .main ∧ (l.envelope.msg = .start ∨ l.envelope.msg = .shutdown)) := by
  -- What it is, or else a `Pong` that it sent to itself.
  have hcases : ∀ l ∈ a.letters,
      (l.author = .worker 1 ∧ ∃ n, l.mail = ⟨.user (.ping n), some 1⟩) ∨
      (l.author = .main ∧ (l.envelope.msg = .start ∨ l.envelope.msg = .shutdown)) ∨
      ∃ n, l.mail = ⟨.user (.pong n), some 0⟩ ∧
        ∃ l' ∈ a.letters, l'.mail = ⟨.user (.ping n), some 0⟩ := by
    intro l hl
    rcases App.origin h ha hl with ⟨i, b, c, hauthor, hb, hc, hmem⟩ |
      ⟨hauthor, hmsg⟩
    · rcases players h hc with ⟨rfl, hcode⟩ | ⟨rfl, hcode⟩
      · rw [ha, Option.some.injEq] at hb
        subst hb
        rw [hcode, sends_pong] at hmem
        obtain ⟨⟨msg, sender⟩, hin, hm⟩ := List.mem_flatMap.mp hmem
        obtain ⟨l', hl', hmail⟩ := List.mem_map.mp hin
        refine Or.inr (Or.inr ?_)
        unfold pongSends at hm
        split at hm
        · rename_i n i hmsg hsender
          dsimp only at hmsg hsender
          split at hm
          · rename_i hi
            refine ⟨n, List.mem_singleton.mp hm, l', hl', ?_⟩
            rw [hmail, hmsg, hsender, hi]
          · simp at hm
        · simp at hm
      · rw [hcode, sends_ping, if_pos rfl] at hmem
        obtain ⟨m, -, hm⟩ := List.mem_flatMap.mp hmem
        exact Or.inl ⟨hauthor, mem_pingSends hm⟩
    · rcases hmsg with hmsg | hmsg | ⟨m, -, hm⟩
      · exact Or.inr (Or.inl ⟨hauthor, Or.inl hmsg⟩)
      · exact Or.inr (Or.inl ⟨hauthor, Or.inr hmsg⟩)
      · exact absurd hm (no_send _ m)
  rcases hcases l hl with hping | hmain | ⟨n, -, l', hl', hmail⟩
  · exact Or.inl hping
  · exact Or.inr hmain
  · -- Nobody sends a `Ping` with `PongActor` as the sender.
    have hmsg : l'.envelope.msg = .user (.ping n) := congrArg Mail.msg hmail
    rcases hcases l' hl' with ⟨-, m, hm⟩ | ⟨-, hm⟩ | ⟨m, hm, -⟩
    · rw [hmail] at hm
      simp at hm
    · rw [hmsg] at hm
      simp at hm
    · rw [hmail] at hm
      simp at hm

/-! ## The score -/

/-- The first `p` messages with `Ping`. -/
def pings (p : Nat) : List (Mail Ball) :=
  (List.range p).map fun n => ⟨.user (.ping (Int32.ofNat (n + 1))), some 1⟩

/-- The first `q` messages with `Pong`. -/
def pongs (q : Nat) : List (Mail Ball) :=
  (List.range q).map fun n => ⟨.user (.pong (Int32.ofNat (n + 1))), some 0⟩

/-- How many rounds are played. -/
def rounds (maxCount : Int32) : Nat := max 1 maxCount.toInt.toNat

theorem pings_succ (p : Nat) : pings (p + 1) =
    pings p ++ [⟨.user (.ping (Int32.ofNat (p + 1))), some 1⟩] := by
  simp [pings, List.range_succ]

theorem pongs_succ (q : Nat) : pongs (q + 1) =
    pongs q ++ [⟨.user (.pong (Int32.ofNat (q + 1))), some 0⟩] := by
  simp [pongs, List.range_succ]

@[simp] theorem length_pings (p : Nat) : (pings p).length = p := by simp [pings]

@[simp] theorem length_pongs (q : Nat) : (pongs q).length = q := by simp [pongs]

/-- `PongActor` answers each `Ping` with the `Pong` of its count. -/
theorem flatMap_pongSends (p : Nat) : (pings p).flatMap (pongSends 1) = pongs p := by
  induction p with
  | zero => rfl
  | succ p ih =>
    rw [pings_succ, pongs_succ, List.flatMap_append, ih]
    rfl

theorem pings_of_prefix {xs : List (Mail Ball)} {p : Nat} (h : xs <+: pings p) :
    xs.length ≤ p ∧ xs = pings xs.length := by
  have hle := h.length_le
  rw [length_pings] at hle
  refine ⟨hle, ?_⟩
  have htake := List.prefix_iff_eq_take.mp h
  rwa [pings, ← List.map_take, List.take_range, Nat.min_eq_left hle] at htake

theorem pongs_of_prefix {xs : List (Mail Ball)} {p : Nat} (h : xs <+: pongs p) :
    xs.length ≤ p ∧ xs = pongs xs.length := by
  have hle := h.length_le
  rw [length_pongs] at hle
  refine ⟨hle, ?_⟩
  have htake := List.prefix_iff_eq_take.mp h
  rwa [pongs, ← List.map_take, List.take_range, Nat.min_eq_left hle] at htake

/-- How many `Start` messages there are. -/
def starts (ls : List (Letter Ball)) : Nat :=
  ls.countP fun l => l.envelope.msg.asStart.isSome

/-- `PingActor` was handed `ls`: it has sent, or is about to send, the first `p`
messages with `Ping`, and was handed the first `q` with `Pong`. -/
structure Score (maxCount : Int32) (ls : List (Letter Ball)) (p q : Nat) : Prop where
  sent : (ls.map Letter.mail).flatMap (pingSends maxCount) = pings p
  got : mailFrom 0 ls = pongs q
  bound : p ≤ rounds maxCount
  turn : p = q + 1 ∨ p = q ∧ (p = 0 ∨ rounds maxCount ≤ q)
  fresh : starts ls = 0 ↔ p = 0

theorem rounds_lt (maxCount : Int32) : rounds maxCount < 2 ^ 31 := by
  have hlt := maxCount.toInt_lt
  unfold rounds
  omega

/-- The test of `on_pong`, for a count that has not overflowed. -/
theorem reached_iff {q : Nat} (h : q + 1 ≤ rounds maxCount) :
    Int32.ofNat (q + 1) ≥ maxCount ↔ rounds maxCount ≤ q + 1 := by
  have hlt := rounds_lt maxCount
  rw [ge_iff_le, Int32.le_iff_toInt_le, Int32.toInt_ofNat_of_lt (by omega)]
  unfold rounds
  omega

theorem score_nil : Score maxCount [] 0 0 :=
  ⟨rfl, rfl, Nat.zero_le _, Or.inr ⟨rfl, Or.inl rfl⟩, by simp [starts]⟩

/-- `PingActor` is handed another letter.  `r` counts the messages that
`PongActor` was handed so far. -/
theorem Score.step {ls : List (Letter Ball)} {p q r : Nat} (h : Score maxCount ls p q)
    {l : Letter Ball}
    (hl : (l.author = .worker 0 ∧ ∃ n, l.mail = ⟨.user (.pong n), some 0⟩) ∨
      (l.author = .main ∧ (l.envelope.msg = .start ∨ l.envelope.msg = .shutdown)))
    (hstarts : starts (ls ++ [l]) ≤ 1) (hr : r ≤ p)
    (hgot : mailFrom 0 (ls ++ [l]) <+: pongs r) :
    ∃ p' q', Score maxCount (ls ++ [l]) p' q' := by
  have hmap : ((ls ++ [l]).map Letter.mail).flatMap (pingSends maxCount) =
      pings p ++ pingSends maxCount l.mail := by
    rw [List.map_append, List.flatMap_append, h.sent]
    simp
  have hcount : starts (ls ++ [l]) = starts ls +
      if l.envelope.msg.asStart.isSome = true then 1 else 0 := by
    rw [starts, List.countP_append, List.countP_singleton]
    rfl
  rcases hl with ⟨hauthor, n, hmail⟩ | ⟨hauthor, hmsg | hmsg⟩
  · -- A `Pong`: it is the next one, and it was waited for.
    have hmsg : l.envelope.msg = .user (.pong n) := congrArg Mail.msg hmail
    have hfrom : mailFrom 0 (ls ++ [l]) = pongs q ++ [⟨.user (.pong n), some 0⟩] := by
      rw [mailFrom_snoc, if_pos hauthor, h.got, hmail]
    obtain ⟨hle, heq⟩ := pongs_of_prefix hgot
    rw [hfrom, List.length_append, length_pongs, List.length_singleton] at hle heq
    rw [pongs_succ] at heq
    have hn : n = Int32.ofNat (q + 1) := by simpa using heq
    have hp : p = q + 1 := by
      rcases h.turn with hp | ⟨hp, -⟩ <;> omega
    have hsame : starts (ls ++ [l]) = starts ls := by
      simp [hcount, hmsg, Message.asStart]
    have hgot' : mailFrom 0 (ls ++ [l]) = pongs (q + 1) := by
      rw [hfrom, hn, pongs_succ]
    have hbound := h.bound
    rw [hp] at hbound
    by_cases hlast : rounds maxCount ≤ q + 1
    · -- The last one.
      have hover := (reached_iff hbound).mpr hlast
      refine ⟨p, q + 1, ?_, hgot', h.bound, Or.inr ⟨hp, Or.inr hlast⟩, ?_⟩
      · rw [hmap, hmail]
        simp only [pingSends, hn, if_pos hover, List.append_nil]
      · rw [hsame]
        exact h.fresh
    · have hnot := mt (reached_iff hbound).mp hlast
      refine ⟨p + 1, q + 1, ?_, hgot', by omega, Or.inl (by omega), ?_⟩
      · rw [hmap, hmail, pings_succ, hp]
        simp only [pingSends, hn, if_neg hnot]
        rw [show Int32.ofNat (q + 1 + 1) = Int32.ofNat (q + 1) + 1 from Int32.ofNat_add ..]
      · rw [hsame]
        have hfresh := h.fresh
        omega
  · -- The one `Start`.
    have hmail : pingSends maxCount l.mail = [⟨.user (.ping 1), some 1⟩] := by
      simp [pingSends, Letter.mail, hmsg]
    have hone : starts (ls ++ [l]) = starts ls + 1 := by
      simp [hcount, hmsg, Message.asStart]
    have hp : p = 0 := h.fresh.mp (by omega)
    have hq : q = 0 := by
      rcases h.turn with hturn | ⟨hturn, -⟩ <;> omega
    refine ⟨1, 0, ?_, ?_, by unfold rounds; omega, Or.inl rfl, by omega⟩
    · rw [hmap, hmail, hp]
      rfl
    · rw [mailFrom_snoc, h.got, hq, hauthor]
      rfl
  · -- A `Shutdown`, which nobody reads.
    have hmail : pingSends maxCount l.mail = [] := by
      simp [pingSends, Letter.mail, hmsg]
    have hsame : starts (ls ++ [l]) = starts ls := by
      simp [hcount, hmsg, Message.asStart]
    refine ⟨p, q, ?_, ?_, h.bound, h.turn, ?_⟩
    · rw [hmap, hmail, List.append_nil]
    · rw [mailFrom_snoc, h.got, hauthor]
      simp
    · rw [hsame]
      exact h.fresh

/-- `PingActor` is started once. -/
theorem starts_le_one {s : App Ball Player}
    (h : (App.machine (pingPong maxCount)).Reachable s) {a : Runtime Ball}
    (ha : s.manager.actors[1]? = some a) : starts a.letters ≤ 1 := by
  have hwelcomed := Manager.welcomed (App.plain h) 1
  have hbox := (Manager.mailed (App.plain h)).boxes 1 a ha
  have hsub : a.letters.Sublist s.manager.sent := by
    refine hbox.handed_prefix.sublist.trans ?_
    rw [(Manager.routed (App.plain h)).eq 1 a ha]
    exact List.filter_sublist
  have hle : starts a.letters ≤ s.manager.startsTo 1 := by
    have hmono : starts a.letters = a.letters.countP fun l =>
        l.author = .main && l.via = 1 && l.envelope.msg.asStart.isSome := by
      refine List.countP_congr fun l hl => ?_
      have hvia := (hbox.mine l (hbox.handed_prefix.subset hl)).1
      rcases mail_of_ping h ha hl with ⟨-, n, hmail⟩ | ⟨hauthor, -⟩
      · have hmsg : l.envelope.msg = .user (.pong n) := congrArg Mail.msg hmail
        simp [hmsg, Message.asStart]
      · simp [hauthor, hvia]
    rw [hmono]
    exact hsub.countP_le
  split at hwelcomed <;> omega

/-- What `PongActor` was handed of the messages of `PingActor`, and what it
answers. -/
theorem pongs_of_pings {s : App Ball Player}
    (h : (App.machine (pingPong maxCount)).Reachable s) {a b : Runtime Ball} {p : Nat}
    (ha : s.manager.actors[1]? = some a) (hb : s.manager.actors[0]? = some b)
    (hp : (a.letters.map Letter.mail).flatMap (pingSends maxCount) = pings p) :
    ∃ r ≤ p, mailFrom 1 b.letters = pings r ∧
      pongCode.sends 0 1 (b.letters.map Letter.mail) = pongs r := by
  obtain ⟨c, hc⟩ : ∃ c, s.cells[1]? = some c := by
    have hlt := (List.getElem?_eq_some_iff.mp ha).1
    rw [← (App.tidy h).length] at hlt
    exact ⟨_, List.getElem?_eq_getElem hlt⟩
  have hcode : c.code = pingCode maxCount := by
    rcases players h hc with ⟨hk, -⟩ | ⟨-, hcode⟩
    · simp at hk
    · exact hcode
  have hlink := App.sends_eq h ha hc hb
  rw [hcode, sends_ping, if_pos rfl, hp, List.append_assoc] at hlink
  obtain ⟨hle, heq⟩ := pings_of_prefix ⟨_, hlink⟩
  refine ⟨_, hle, heq, ?_⟩
  rw [sends_pong, flatMap_mailFrom _ 1, heq, flatMap_pongSends, length_pings]
  intro l hl hauthor
  rcases mail_of_pong h hb hl with ⟨hping, -⟩ | ⟨-, hmsg | hmsg⟩
  · exact absurd hping hauthor
  · simp [pongSends, Letter.mail, hmsg]
  · simp [pongSends, Letter.mail, hmsg]

/-- What `PingActor` was handed of the messages of `PongActor` is what
`PongActor` has answered. -/
theorem got_prefix {s : App Ball Player}
    (h : (App.machine (pingPong maxCount)).Reachable s) {a b : Runtime Ball}
    (ha : s.manager.actors[1]? = some a) (hb : s.manager.actors[0]? = some b) :
    mailFrom 0 a.letters <+: pongCode.sends 0 1 (b.letters.map Letter.mail) := by
  obtain ⟨d, hd⟩ : ∃ d, s.cells[0]? = some d := by
    have hlt := (List.getElem?_eq_some_iff.mp hb).1
    rw [← (App.tidy h).length] at hlt
    exact ⟨_, List.getElem?_eq_getElem hlt⟩
  have hcode : d.code = pongCode := by
    rcases players h hd with ⟨-, hcode⟩ | ⟨hk, -⟩
    · exact hcode
    · simp at hk
  have hlink := App.sends_eq h hb hd ha
  rw [hcode, List.append_assoc] at hlink
  exact ⟨_, hlink⟩

/-- There is a score in every schedule. -/
theorem score {s : App Ball Player}
    (h : (App.machine (pingPong maxCount)).Reachable s) :
    ∀ ls, s.handed[1]? = some ls → ∃ p q, Score maxCount ls p q := by
  refine h.invariant (I := fun s => ∀ ls, s.handed[1]? = some ls →
    ∃ p q, Score maxCount ls p q) ?_ ?_
  · rintro _ rfl
    simp [App.handed, App.start, Manager.new]
  · intro s t s' hreach hs _ hstep ls hls
    have hreach' : (App.machine (pingPong maxCount)).Reachable s' :=
      hreach.step trivial hstep
    rcases App.handed_of_step hreach hstep with hsame | hnew | ⟨k, ls0, l, hk, hset⟩
    · exact hs ls (hsame ▸ hls)
    · rw [hnew, List.getElem?_append] at hls
      split at hls
      · exact hs ls hls
      · have hnil := List.mem_of_getElem? hls
        rw [List.mem_singleton] at hnil
        exact ⟨0, 0, hnil ▸ score_nil⟩
    · rw [hset] at hls
      by_cases hk1 : k = 1
      · subst hk1
        rw [List.getElem?_set_self (List.getElem?_eq_some_iff.mp hk).1,
          Option.some.injEq] at hls
        subst hls
        obtain ⟨p, q, hscore⟩ := hs ls0 hk
        obtain ⟨a, ha, hletters⟩ : ∃ a, s.manager.actors[1]? = some a ∧
            a.letters = ls0 := by simpa [App.handed] using hk
        obtain ⟨a', ha', hletters'⟩ : ∃ a', s'.manager.actors[1]? = some a' ∧
            a'.letters = ls0 ++ [l] := by
          have hget : s'.handed[1]? = some (ls0 ++ [l]) := by
            rw [hset, List.getElem?_set_self (List.getElem?_eq_some_iff.mp hk).1]
          simpa [App.handed] using hget
        -- `PongActor` did not move.
        have hlt : 1 < s.manager.actors.length := (List.getElem?_eq_some_iff.mp ha).1
        obtain ⟨b, hb⟩ : ∃ b, s.manager.actors[0]? = some b :=
          ⟨_, List.getElem?_eq_getElem (by omega)⟩
        obtain ⟨b', hb', hsame⟩ : ∃ b', s'.manager.actors[0]? = some b' ∧
            b'.letters = b.letters := by
          have hget : s'.handed[0]? = some b.letters := by
            rw [hset, List.getElem?_set_ne (by omega)]
            simp [App.handed, hb]
          simpa [App.handed] using hget
        obtain ⟨r, hr, -, hpongs⟩ := pongs_of_pings hreach ha hb
          (by rw [hletters]; exact hscore.sent)
        have hgot := got_prefix hreach' ha' hb'
        rw [hsame, hpongs, hletters'] at hgot
        refine hscore.step (mail_of_ping hreach' ha' ?_) ?_ hr hgot
        · rw [hletters']
          simp
        · rw [← hletters']
          exact starts_le_one hreach' ha'
      · rw [List.getElem?_set_ne hk1] at hls
        exact hs ls hls

/-! ## The volley -/

/-- The balls that an actor was handed, when they all come from actor `i`. -/
theorem balls_eq {a : Runtime Ball} {i : Nat}
    (h : ∀ l ∈ a.letters, l.author ≠ .worker i →
      l.envelope.msg = .start ∨ l.envelope.msg = .shutdown) :
    a.balls = (mailFrom i a.letters).flatMap fun m => (m.msg.asUser some).toList := by
  rw [← flatMap_mailFrom, Runtime.balls, Runtime.messages, List.filterMap_map,
    List.filterMap_eq_flatMap_toList, List.flatMap_map]
  · rfl
  · intro l hl hauthor
    rcases h l hl hauthor with hmsg | hmsg <;>
      simp [Letter.mail, hmsg, Message.asUser]

theorem balls_pings (p : Nat) :
    ((pings p).flatMap fun m => (m.msg.asUser some).toList) =
      (List.range p).map fun n => Ball.ping (Int32.ofNat (n + 1)) := by
  rw [pings, List.flatMap_map, List.map_eq_flatMap]
  rfl

theorem balls_pongs (q : Nat) :
    ((pongs q).flatMap fun m => (m.msg.asUser some).toList) =
      (List.range q).map fun n => Ball.pong (Int32.ofNat (n + 1)) := by
  rw [pongs, List.flatMap_map, List.map_eq_flatMap]
  rfl

/-- The flag is set when the last `Pong` has come. -/
theorem rounds_of_flag {s : App Ball Player}
    (h : (App.machine (pingPong maxCount)).Reachable s) {a : Runtime Ball} {p q : Nat}
    (ha : s.manager.actors[1]? = some a) (hscore : Score maxCount a.letters p q)
    (hflag : s.manager.terminateFlag = true) : rounds maxCount ≤ q := by
  obtain ⟨k, hk⟩ := (App.flag_iff h).mp hflag
  obtain ⟨a', c, ha', hc, hmark⟩ := App.mark_origin h hk
  rcases players h hc with ⟨rfl, hcode⟩ | ⟨rfl, hcode⟩
  · rw [hcode] at hmark
    exact absurd hmark (marks_pong _)
  · rw [ha, Option.some.injEq] at ha'
    subst ha'
    rw [hcode, marks_ping] at hmark
    obtain ⟨m, hm, hin⟩ := List.mem_flatMap.mp hmark
    obtain ⟨l, hl, rfl⟩ := List.mem_map.mp hm
    rcases mail_of_ping h ha hl with ⟨hauthor, n, hmail⟩ | ⟨-, hmsg | hmsg⟩
    · -- The count of this `Pong` is one of the first `q`.
      have hmem : l.mail ∈ pongs q := by
        rw [← hscore.got]
        exact List.mem_map_of_mem (List.mem_filter.mpr ⟨hl, by simpa using hauthor⟩)
      rw [hmail] at hmem hin
      obtain ⟨i, hi, heq⟩ := List.mem_map.mp hmem
      have hn : n = Int32.ofNat (i + 1) := by simpa using heq.symm
      have hiq : i < q := List.mem_range.mp hi
      have hqp : q ≤ p := by
        rcases hscore.turn with hp | ⟨hp, -⟩ <;> omega
      have hbound := hscore.bound
      rw [hn] at hin
      simp only [pingMarks] at hin
      split at hin
      · rename_i hreached
        have hlast := (reached_iff (by omega)).mp hreached
        omega
      · simp at hin
    · simp [pingMarks, Letter.mail, hmsg] at hin
    · simp [pingMarks, Letter.mail, hmsg] at hin

/-- In every schedule of the program, for every `max_count`, `PongActor` handles
`Ping` with 1, 2, 3 and so on, `PingActor` handles `Pong` with 1, 2, 3 and so
on, they take turns, and no count is beyond `max_count` or overflows.  When the
termination flag is set, all rounds have been played. -/
theorem volley (maxCount : Int32) {s : App Ball Player}
    (h : (App.machine (pingPong maxCount)).Reachable s) {pong ping : Runtime Ball}
    (hpong : s.manager.actors[0]? = some pong)
    (hping : s.manager.actors[1]? = some ping) :
    ∃ r q, pong.balls = (List.range r).map (fun n => .ping (Int32.ofNat (n + 1))) ∧
      ping.balls = (List.range q).map (fun n => .pong (Int32.ofNat (n + 1))) ∧
      q ≤ r ∧ r ≤ q + 1 ∧ r ≤ rounds maxCount ∧ rounds maxCount < 2 ^ 31 ∧
      (s.manager.terminateFlag = true → q = rounds maxCount) := by
  obtain ⟨p, q, hscore⟩ := score h ping.letters (by simp [App.handed, hping])
  obtain ⟨r, hr, hpings, hpongs⟩ := pongs_of_pings h hping hpong hscore.sent
  have hqr : q ≤ r := by
    have hgot := got_prefix h hping hpong
    rw [hscore.got, hpongs] at hgot
    simpa using hgot.length_le
  have hbound := hscore.bound
  refine ⟨r, q, ?_, ?_, hqr, ?_, by omega, rounds_lt maxCount, fun hflag => ?_⟩
  · rw [balls_eq (i := 1), hpings, balls_pings]
    intro l hl hauthor
    rcases mail_of_pong h hpong hl with ⟨hone, -⟩ | ⟨-, hmsg⟩
    · exact absurd hone hauthor
    · exact hmsg
  · rw [balls_eq (i := 0), hscore.got, balls_pongs]
    intro l hl hauthor
    rcases mail_of_ping h hping hl with ⟨hzero, -⟩ | ⟨-, hmsg⟩
    · exact absurd hzero hauthor
    · exact hmsg
  · rcases hscore.turn with hp | ⟨hp, -⟩ <;> omega
  · have hlast := rounds_of_flag h hping hscore hflag
    omega

/-- Two rounds, up to the termination. -/
theorem volley_two : ∃ (s : App Ball Player) (pong ping : Runtime Ball),
    s.manager.terminateFlag = true ∧ s.manager.actors[0]? = some pong ∧
      s.manager.actors[1]? = some ping ∧
      ∃ r q, pong.balls = (List.range r).map (fun n => .ping (Int32.ofNat (n + 1))) ∧
        ping.balls = (List.range q).map (fun n => .pong (Int32.ofNat (n + 1))) ∧
        q ≤ r ∧ r ≤ q + 1 ∧ r ≤ rounds 2 ∧ rounds 2 < 2 ^ 31 ∧
        (s.manager.terminateFlag = true → q = rounds 2) := by
  have hrun := App.reach_after (pingPong 2)
    (List.replicate 9 .main ++ List.replicate 7 (.worker 1) ++
      List.replicate 8 (.worker 0) ++ List.replicate 4 (.worker 1) ++
      List.replicate 4 (.worker 0) ++ List.replicate 2 (.worker 1)) (by decide)
  exact ⟨_, _, _, by decide, rfl, rfl, volley 2 hrun rfl rfl⟩

end PingPong

end Actors
