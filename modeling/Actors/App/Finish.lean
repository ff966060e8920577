import Actors.App.PingPong
import Actors.App.Rest

/-!
# The ping-pong program comes to its end

`PingPong.volley` says what can have happened in a state.  Here is what must
happen: every run of the program, for every `max_count`, takes a bounded number of steps
besides the polls of `run`, and when no thread can go on the volley has been
played to the last round, the flag is set, and the main thread waits in `end` for
the thread of `PongActor`, which never ends.
-/

namespace Actors

open Concur

namespace PingPong

variable {maxCount : Int32}

/-! ## The code -/

theorem after_ping (ms : List (Message Ball)) :
    (pingCode maxCount).after ms = (pingCode maxCount).initial := by
  induction ms with
  | nil => rfl
  | cons msg ms ih =>
    rw [ActorCode.after, List.foldl_cons, process_ping]
    exact ih

theorem after_pong (ms : List (Message Ball)) :
    pongCode.after ms = pongCode.initial := by
  induction ms with
  | nil => rfl
  | cons msg ms ih =>
    rw [ActorCode.after, List.foldl_cons, process_pong]
    exact ih

/-- `PingActor` sends to `PongActor`, which was made before it. -/
theorem scoped_pingPong (maxCount : Int32) : Scoped 0 (pingPong maxCount) := by
  refine ⟨fun ms msg e he => ?_, fun ms msg e he => ?_, trivial⟩
  · rw [after_pong, process_pong] at he
    unfold pongCommands at he
    split at he
    · rw [List.mem_singleton.mp he]
      trivial
    · simp at he
  · rw [after_ping, process_ping] at he
    unfold pingCommands at he
    split at he
    · rw [List.mem_singleton.mp he]
      exact Nat.zero_lt_two
    · split at he <;> rw [List.mem_singleton.mp he]
      · trivial
      · exact Nat.zero_lt_two
    · simp at he

/-- The handlers issue one command at most. -/
theorem issues_one (maxCount : Int32) :
    ∀ code ∈ (pingPong maxCount).filterMap MainCall.made, code.Issues 1 := by
  intro code hcode ms msg
  have hcases : code = pongCode ∨ code = pingCode maxCount := by
    simpa [pingPong, MainCall.made] using hcode
  rcases hcases with rfl | rfl
  · rw [after_pong, process_pong]
    unfold pongCommands
    split <;> simp
  · rw [after_ping, process_ping]
    unfold pingCommands
    split
    · simp
    · split <;> simp
    · simp

/-! ## The main function -/

/-- How far the main function has come. -/
inductive Stage (maxCount : Int32) (script : List (MainCall Ball Player)) (main : ManagerPc)
    (runtimes threads : List Nat) : Prop where
  | making (n : Nat) (hn : n ≤ 2) (hscript : script = (pingPong maxCount).drop n)
      (hmain : main = .idle) (hthreads : threads = []) (hruntimes : runtimes = List.range n)
  | sending (todo : List Nat) (hscript : script = [.run, .endCall])
      (hmain : main = .initSend todo) (hthreads : threads ++ todo = [0, 1])
      (hruntimes : runtimes = [])
  | spawning (k : Nat) (todo : List Nat) (hscript : script = [.run, .endCall])
      (hmain : main = .initSpawn k todo) (hthreads : threads ++ k :: todo = [0, 1])
      (hruntimes : runtimes = [])
  | started (hscript : script = [.run, .endCall]) (hmain : main = .idle)
      (hthreads : threads = [0, 1]) (hruntimes : runtimes = [])
  | running (hscript : script = [.endCall]) (hmain : main = .running ∨ main = .idle)
      (hthreads : threads = [0, 1]) (hruntimes : runtimes = [])
  | stopping (todo : List Nat) (hscript : script = [])
      (hmain : main = .shutdownSend todo true) (hthreads : threads = [0, 1])
      (hruntimes : runtimes = [])
  | joining (hscript : script = []) (hmain : main = .join [0, 1] true)
      (hruntimes : runtimes = [])

/-- A call begins.  The calls left tell how many actors there are. -/
theorem stage_call {s : App Ball Player} {m : Manager Ball} {call : MainCall Ball Player}
    {rest : List (MainCall Ball Player)}
    (hmade : s.manager.actors.length + (s.script.filterMap MainCall.made).length = 2)
    (h : Stage maxCount s.script s.manager.main s.manager.runtimes s.manager.threads)
    (hidle : s.manager.main = .idle) (hscript : s.script = call :: rest)
    (hm : s.manager.step call.label = some m) :
    Stage maxCount rest m.main m.runtimes m.threads := by
  cases h with
  | making n hn hstage hmain hthreads hruntimes =>
    rw [hstage] at hscript hmade
    match n with
    | 0 =>
      rw [pingPong, List.drop_zero, List.cons.injEq] at hscript
      obtain ⟨rfl, rfl⟩ := hscript
      have hlen : s.manager.actors.length = 0 := by
        simpa [pingPong, MainCall.made, List.filterMap_cons] using hmade
      cases Manager.move_of_step hm with
      | manage _ _ =>
        refine .making 1 (by omega) rfl hidle hthreads ?_
        simp [hruntimes, hlen]
      | refused _ _ _ hb => simp [MainCall.label] at hb
      | actor _ _ _ _ _ hb => simp [MainCall.label] at hb
    | 1 =>
      rw [pingPong, List.drop_succ_cons, List.drop_zero, List.cons.injEq] at hscript
      obtain ⟨rfl, rfl⟩ := hscript
      have hlen : s.manager.actors.length = 1 := by
        simpa [pingPong, MainCall.made, List.filterMap_cons] using hmade
      cases Manager.move_of_step hm with
      | manage _ _ =>
        refine .making 2 (by omega) rfl hidle hthreads ?_
        simp [hruntimes, hlen, List.range_succ]
      | refused _ _ _ hb => simp [MainCall.label] at hb
      | actor _ _ _ _ _ hb => simp [MainCall.label] at hb
    | 2 =>
      simp only [pingPong, List.drop_succ_cons, List.drop_zero, List.cons.injEq] at hscript
      obtain ⟨rfl, rfl⟩ := hscript
      cases Manager.move_of_step hm with
      | init _ =>
        refine .sending _ rfl rfl ?_ rfl
        simp [hthreads, hruntimes, List.range_succ]
      | refused _ _ _ hb => simp [MainCall.label] at hb
      | actor _ _ _ _ _ hb => simp [MainCall.label] at hb
  | started hstage hmain hthreads hruntimes =>
    rw [hstage, List.cons.injEq] at hscript
    obtain ⟨rfl, rfl⟩ := hscript
    cases Manager.move_of_step hm with
    | run _ => exact .running rfl (Or.inl rfl) hthreads hruntimes
    | refused _ _ _ hb => simp [MainCall.label] at hb
    | actor _ _ _ _ _ hb => simp [MainCall.label] at hb
  | running hstage hmain hthreads hruntimes =>
    rw [hstage, List.cons.injEq] at hscript
    obtain ⟨rfl, rfl⟩ := hscript
    cases Manager.move_of_step hm with
    | endCall _ => exact .stopping _ rfl rfl hthreads hruntimes
    | refused _ _ _ hb => simp [MainCall.label] at hb
    | actor _ _ _ _ _ hb => simp [MainCall.label] at hb
  | sending todo _ hmain | spawning k todo _ hmain | stopping todo _ hmain
  | joining _ hmain =>
    rw [hidle] at hmain
    simp at hmain

/-- The call that runs goes on. -/
theorem stage_main {s m : Manager Ball} {script : List (MainCall Ball Player)}
    (halive : ∀ a ∈ s.actors, a.Alive)
    (h : Stage maxCount script s.main s.runtimes s.threads)
    (hm : s.step .main = some m) : Stage maxCount script m.main m.runtimes m.threads := by
  cases h with
  | making n hn hscript hmain hthreads hruntimes =>
    simp [Manager.step, Manager.mainStep, hmain] at hm
  | started hscript hmain hthreads hruntimes =>
    simp [Manager.step, Manager.mainStep, hmain] at hm
  | sending todo hscript hmain hthreads hruntimes =>
    cases Manager.move_of_step hm with
    | sendStart k todo' a hpc | startRefused k todo' a hpc =>
      rw [hmain, ManagerPc.initSend.injEq] at hpc
      exact .spawning k todo' hscript rfl (hpc ▸ hthreads) hruntimes
    | initDone hpc =>
      rw [hmain, ManagerPc.initSend.injEq] at hpc
      rw [hpc, List.append_nil] at hthreads
      exact .started hscript rfl hthreads hruntimes
    | refused _ _ _ hb => simp at hb
    | actor _ _ _ _ _ hb => simp at hb
    | _ => simp_all
  | spawning k todo hscript hmain hthreads hruntimes =>
    cases Manager.move_of_step hm with
    | spawn k' todo' hpc =>
      rw [hmain, ManagerPc.initSpawn.injEq] at hpc
      obtain ⟨rfl, rfl⟩ := hpc
      exact .sending todo hscript rfl (by simpa using hthreads) hruntimes
    | refused _ _ _ hb => simp at hb
    | actor _ _ _ _ _ hb => simp at hb
    | _ => simp_all
  | running hscript hmain hthreads hruntimes =>
    cases Manager.move_of_step hm with
    | runDone hpc => exact .running hscript (Or.inr rfl) hthreads hruntimes
    | runSleep hpc => exact .running hscript (Or.inl hpc) hthreads hruntimes
    | refused _ _ _ hb => simp at hb
    | actor _ _ _ _ _ hb => simp at hb
    | _ => simp_all
  | stopping todo hscript hmain hthreads hruntimes =>
    cases Manager.move_of_step hm with
    | sendShutdown k todo' inEnd a hpc | shutdownRefused k todo' inEnd a hpc =>
      rw [hmain, ManagerPc.shutdownSend.injEq] at hpc
      exact .stopping todo' hscript (by rw [← hpc.2]) hthreads hruntimes
    | shutdownThenWait hpc => exact .joining hscript (by rw [hthreads]) hruntimes
    | refused _ _ _ hb => simp at hb
    | actor _ _ _ _ _ hb => simp at hb
    | _ => simp_all
  | joining hscript hmain hruntimes =>
    cases Manager.move_of_step hm with
    | join k todo inEnd a hpc ha hfin =>
      rw [(halive a (List.mem_of_getElem? ha)).inLoop.2] at hfin
      simp at hfin
    | refused _ _ _ hb => simp at hb
    | actor _ _ _ _ _ hb => simp at hb
    | _ => simp_all

/-- The calls left, and the actors. -/
theorem length_made {s : App Ball Player}
    (h : (App.machine (pingPong maxCount)).Reachable s) :
    s.manager.actors.length + (s.script.filterMap MainCall.made).length = 2 := by
  have hcount := congrArg List.length (App.made h)
  rw [List.length_append, List.length_map, (App.tidy h).length] at hcount
  exact hcount

theorem stage {s : App Ball Player}
    (h : (App.machine (pingPong maxCount)).Reachable s) :
    Stage maxCount s.script s.manager.main s.manager.runtimes s.manager.threads := by
  refine App.invariant (I := fun s =>
    Stage maxCount s.script s.manager.main s.manager.runtimes s.manager.threads) ?_ ?_ h
  · exact .making 0 (by omega) rfl rfl rfl rfl
  · intro s t s' hreach hs hmove
    have hframe : ∀ {m : Manager Ball}, m.main = s.manager.main ∧
        m.threads = s.manager.threads ∧ m.runtimes = s.manager.runtimes ∧
        m.mainSent = s.manager.mainSent →
        Stage maxCount s.script m.main m.runtimes m.threads := by
      rintro m ⟨hmain, hthreads, hruntimes, -⟩
      rw [hmain, hthreads, hruntimes]
      exact hs
    cases hmove with
    | call call rest m hidle hscript hm =>
      exact stage_call (length_made hreach) hs hidle hscript hm
    | main m hbusy hm => exact stage_main (Manager.alive (App.managed hreach)) hs hm
    | command k a c l e todo m ha hc hpc htodo hm =>
      exact hframe (Manager.main_of_exec (e.mover_of_labels k a.context) hm)
    | codeReturn k a c m ha hc hdone hm => exact hframe (Manager.main_of_worker rfl hm)
    | recv k a c l m ha hc htakes hm => exact hframe (Manager.main_of_worker rfl hm)
    | actor k a c m ha hc htakes hm => exact hframe (Manager.main_of_worker rfl hm)

/-! ## How much there is to handle -/

/-- The main thread sends a few letters. -/
theorem mainSent_le {s : App Ball Player}
    (h : (App.machine (pingPong maxCount)).Reachable s) : s.manager.mainSent ≤ 35 := by
  have hle := App.left_le h
  have hmade : ((pingPong maxCount).filterMap MainCall.made).length = 2 := rfl
  have hcalls : (pingPong maxCount).length = 5 := rfl
  rw [hmade, hcalls] at hle
  omega

/-- The messages that an actor was handed are those of the other actor, and a few
of the main thread. -/
theorem letters_le {s : App Ball Player}
    (h : (App.machine (pingPong maxCount)).Reachable s) {k i : Nat} {a : Runtime Ball}
    (ha : s.manager.actors[k]? = some a)
    (hauthor : ∀ l ∈ a.letters, l.author = .worker i ∨ l.author = .main) :
    a.handed.length ≤ (mailFrom i a.letters).length + 35 := by
  have hbox := (Manager.mailed (App.plain h)).boxes k a ha
  have hsub : a.letters.Sublist s.manager.sent := by
    refine hbox.handed_prefix.sublist.trans ?_
    rw [(Manager.routed (App.plain h)).eq k a ha]
    exact List.filter_sublist
  have hmain : a.letters.countP (fun l => l.author = .main) ≤ s.manager.mainSent :=
    hsub.countP_le
  have hsplit := List.length_eq_countP_add_countP
    (fun l : Letter Ball => decide (l.author = .main)) (l := a.letters)
  have hfrom : (a.letters.countP fun l => decide ¬decide (l.author = .main) = true) =
      (mailFrom i a.letters).length := by
    rw [mailFrom, List.length_map, ← List.countP_eq_length_filter]
    refine List.countP_congr fun l hl => ?_
    rcases hauthor l hl with hl | hl <;> simp [hl]
  have hlen : a.letters.length = a.handed.length := by simp [Runtime.letters]
  have hle := mainSent_le h
  omega

/-- A letter of an actor comes from an actor that is there. -/
theorem author_lt {s : App Ball Player}
    (h : (App.machine (pingPong maxCount)).Reachable s) {k i : Nat} {a : Runtime Ball}
    (ha : s.manager.actors[k]? = some a) {l : Letter Ball} (hl : l ∈ a.letters)
    (hauthor : l.author = .worker i) : i < s.manager.actors.length := by
  rcases App.origin h ha hl with ⟨j, b, c, hj, hb, -⟩ | ⟨hmain, -⟩
  · rw [hauthor, ThreadId.worker.injEq] at hj
    rw [hj]
    exact (List.getElem?_eq_some_iff.mp hb).1
  · rw [hauthor] at hmain
    simp at hmain

theorem handledCount_le {s : App Ball Player}
    (h : (App.machine (pingPong maxCount)).Reachable s) :
    s.handledCount ≤ 2 * rounds maxCount + 70 := by
  have hpong : ∀ b, s.manager.actors[0]? = some b →
      b.handed.length ≤ (mailFrom 1 b.letters).length + 35 := by
    intro b hb
    refine letters_le h hb fun l hl => ?_
    rcases mail_of_pong h hb hl with ⟨hone, -⟩ | ⟨hmain, -⟩
    · exact Or.inl hone
    · exact Or.inr hmain
  match hactors : s.manager.actors with
  | [] => simp [App.handledCount, hactors]
  | [b] =>
    have hle := hpong b (by simp [hactors])
    have hnone : mailFrom 1 b.letters = [] := by
      rw [mailFrom, List.map_eq_nil_iff, List.filter_eq_nil_iff]
      intro l hl hauthor
      have hlt := author_lt h (k := 0) (by simp [hactors]) hl (by simpa using hauthor)
      simp [hactors] at hlt
    simp only [App.handledCount, hactors, List.map_cons, List.map_nil, List.sum_cons,
      List.sum_nil]
    rw [hnone, List.length_nil] at hle
    omega
  | [b, a] =>
    have ha : s.manager.actors[1]? = some a := by simp [hactors]
    have hb : s.manager.actors[0]? = some b := by simp [hactors]
    have hle := hpong b hb
    have hle' := letters_le (i := 0) h ha fun l hl => by
      rcases mail_of_ping h ha hl with ⟨hzero, -⟩ | ⟨hmain, -⟩
      · exact Or.inl hzero
      · exact Or.inr hmain
    obtain ⟨p, q, hscore⟩ := score h a.letters (by simp [App.handed, hactors])
    obtain ⟨r, hr, hpings, -⟩ := pongs_of_pings h ha hb hscore.sent
    have hturn := hscore.turn
    have hbound := hscore.bound
    rw [hpings, length_pings] at hle
    rw [hscore.got, length_pongs] at hle'
    simp only [App.handledCount, hactors, List.map_cons, List.map_nil, List.sum_cons,
      List.sum_nil]
    omega
  | b :: a :: c :: rest =>
    have hlen := length_made h
    simp only [hactors, List.length_cons] at hlen
    omega

/-! ## The end -/

/-- Where the main thread has got to, every actor has its thread. -/
theorem not_parked {s : App Ball Player}
    (h : (App.machine (pingPong maxCount)).Reachable s)
    (hunstarted : s.manager.runtimes ++ s.manager.main.starting = []) {k : Nat}
    {a : Runtime Ball} (ha : s.manager.actors[k]? = some a) : a.pc ≠ .parked := by
  intro hparked
  have hin := (Manager.owned (App.plain h)).parked k a.pc (by simp [Manager.pcs, ha])
  rw [hunstarted] at hin
  exact absurd (hin.mp hparked) (by simp)

/-- A started program at rest has no letter under way. -/
theorem letters_of_rest {s : App Ball Player}
    (h : (App.machine (pingPong maxCount)).Reachable s) (hrest : s.AtRest)
    (hunstarted : s.manager.runtimes ++ s.manager.main.starting = []) {k : Nat}
    {a : Runtime Ball} (ha : s.manager.actors[k]? = some a) :
    a.letters = s.manager.sent.filter fun l => l.via = k := by
  have hpc := not_parked h hunstarted ha
  have hwaiting := hrest.waiting (scoped_pingPong maxCount) h ha hpc
  have hrest' := ((Manager.mailed (App.plain h)).boxes k a ha).rest (by rw [hwaiting.1]; rfl)
  rw [hwaiting.2, List.append_nil] at hrest'
  rw [← hrest', (Manager.routed (App.plain h)).eq k a ha]

/-- A started `PingActor` at rest has handled its `Start`. -/
theorem starts_pos {s : App Ball Player}
    (h : (App.machine (pingPong maxCount)).Reachable s) (hrest : s.AtRest)
    (hunstarted : s.manager.runtimes ++ s.manager.main.starting = [])
    {a : Runtime Ball} (ha : s.manager.actors[1]? = some a) : 0 < starts a.letters := by
  have hlt := (List.getElem?_eq_some_iff.mp ha).1
  have hwelcomed := Manager.welcomed (App.plain h) 1
  have hout : 1 ∉ s.manager.waiting := by
    intro hin
    have hmem : 1 ∈ s.manager.runtimes ++ s.manager.main.starting :=
      Manager.mem_of_waiting hin
    rw [hunstarted] at hmem
    simp at hmem
  rw [if_pos ⟨hlt, hout⟩] at hwelcomed
  have hle : s.manager.startsTo 1 ≤ starts a.letters := by
    rw [letters_of_rest h hrest hunstarted ha, starts, List.countP_filter,
      Manager.startsTo]
    refine List.countP_mono_left fun l _ hl => ?_
    simp only [Bool.and_eq_true, decide_eq_true_eq] at hl ⊢
    exact ⟨hl.2, hl.1.2⟩
  omega

/-- When both actors have been started and nothing is under way, all rounds have
been played. -/
theorem rounds_of_rest {s : App Ball Player}
    (h : (App.machine (pingPong maxCount)).Reachable s) (hrest : s.AtRest)
    (hunstarted : s.manager.runtimes ++ s.manager.main.starting = [])
    {pong ping : Runtime Ball} (hpong : s.manager.actors[0]? = some pong)
    (hping : s.manager.actors[1]? = some ping) :
    mailFrom 1 pong.letters = pings (rounds maxCount) ∧
      mailFrom 0 ping.letters = pongs (rounds maxCount) := by
  have hscoped := scoped_pingPong maxCount
  obtain ⟨p, q, hscore⟩ := score h ping.letters (by simp [App.handed, hping])
  obtain ⟨r, hr, hpings, hpongs⟩ := pongs_of_pings h hping hpong hscore.sent
  -- What each of them sends has been handled.
  have hlt : ∀ {k a}, s.manager.actors[k]? = some a → k < s.cells.length := by
    intro k a ha
    rw [(App.tidy h).length]
    exact (List.getElem?_eq_some_iff.mp ha).1
  obtain ⟨c, hc⟩ : ∃ c, s.cells[1]? = some c := ⟨_, List.getElem?_eq_getElem (hlt hping)⟩
  obtain ⟨d, hd⟩ : ∃ d, s.cells[0]? = some d := ⟨_, List.getElem?_eq_getElem (hlt hpong)⟩
  have hcode : c.code = pingCode maxCount := by
    rcases players h hc with ⟨hk, -⟩ | ⟨-, hcode⟩
    · simp at hk
    · exact hcode
  have hcode' : d.code = pongCode := by
    rcases players h hd with ⟨-, hcode⟩ | ⟨hk, -⟩
    · exact hcode
    · simp at hk
  have hsent := hrest.sends_eq hscoped h hping hc hpong (not_parked h hunstarted hpong)
  have hsent' := hrest.sends_eq hscoped h hpong hd hping (not_parked h hunstarted hping)
  rw [hcode, sends_ping, if_pos rfl, hscore.sent, hpings] at hsent
  rw [hcode', hpongs, hscore.got] at hsent'
  have hrp : r = p := by simpa using congrArg List.length hsent
  have hqr : q = r := by simpa using congrArg List.length hsent'
  have hp : p ≠ 0 := by
    have hstarts := starts_pos h hrest hunstarted hping
    have hfresh := hscore.fresh
    omega
  have hq : q = rounds maxCount := by
    have hturn := hscore.turn
    have hbound := hscore.bound
    omega
  rw [hpings, hscore.got, ← hqr, hq]
  exact ⟨rfl, rfl⟩

/-- After the last round the flag is set. -/
theorem flag_of_rest {s : App Ball Player}
    (h : (App.machine (pingPong maxCount)).Reachable s) (hrest : s.AtRest)
    {ping : Runtime Ball} (hping : s.manager.actors[1]? = some ping)
    (hgot : mailFrom 0 ping.letters = pongs (rounds maxCount)) :
    s.manager.terminateFlag = true := by
  have hlt : 1 < s.cells.length := by
    rw [(App.tidy h).length]
    exact (List.getElem?_eq_some_iff.mp hping).1
  have hc := List.getElem?_eq_getElem hlt
  have hcode : s.cells[1].code = pingCode maxCount := by
    rcases players h hc with ⟨hk, -⟩ | ⟨-, hcode⟩
    · simp at hk
    · exact hcode
  have htodo := (App.tidy h).resting 1 ping _ hping hc
    (hrest.not_process (scoped_pingPong maxCount) h hping)
  have hmarks := App.marks_eq h hping hc
  have hnone : marksIn ([] : List (Output (Mail Ball) Mark)) = [] := rfl
  rw [hcode, htodo, marks_ping, List.map_nil, hnone, List.append_nil] at hmarks
  -- The last `Pong` makes `PingActor` terminate.
  have hpos : 1 ≤ rounds maxCount := by
    unfold rounds
    omega
  obtain ⟨q, hq⟩ : ∃ q, rounds maxCount = q + 1 := ⟨rounds maxCount - 1, by omega⟩
  rw [hq, pongs_succ] at hgot
  have hlast : (⟨.user (.pong (Int32.ofNat (q + 1))), some 0⟩ : Mail Ball) ∈
      ping.letters.map Letter.mail := by
    have hmem : (⟨.user (.pong (Int32.ofNat (q + 1))), some 0⟩ : Mail Ball) ∈
        mailFrom 0 ping.letters := by simp [hgot]
    obtain ⟨l, hl, hmail⟩ := List.mem_map.mp hmem
    exact hmail ▸ List.mem_map_of_mem (List.mem_of_mem_filter hl)
  have hreached : Int32.ofNat (q + 1) ≥ maxCount :=
    (reached_iff (by omega)).mpr (by omega)
  refine (App.flag_iff h).mpr ⟨1, ?_⟩
  have hmem : Mark.terminated ∈ marksOf s.marks 1 := by
    rw [← hmarks]
    refine List.mem_flatMap.mpr ⟨_, hlast, ?_⟩
    simp only [pingMarks]
    rw [if_pos hreached]
    exact List.mem_singleton_self _
  obtain ⟨v, hv, heq⟩ := List.mem_map.mp hmem
  have hin := List.mem_filter.mp hv
  have hone : v.1 = 1 := by simpa using hin.2
  rw [← hone, ← heq]
  exact hin.1

/-- When both actors have been started and nothing is under way, the volley is
over. -/
theorem over_of_rest {s : App Ball Player}
    (h : (App.machine (pingPong maxCount)).Reachable s) (hrest : s.AtRest)
    (hunstarted : s.manager.runtimes ++ s.manager.main.starting = [])
    (hscript : s.script.filterMap MainCall.made = []) :
    s.manager.terminateFlag = true ∧ ∃ pong ping, s.manager.actors = [pong, ping] ∧
      pong.balls = (List.range (rounds maxCount)).map
        (fun n => .ping (Int32.ofNat (n + 1))) ∧
      ping.balls = (List.range (rounds maxCount)).map
        (fun n => .pong (Int32.ofNat (n + 1))) := by
  obtain ⟨pong, ping, hactors⟩ : ∃ pong ping, s.manager.actors = [pong, ping] := by
    have hlen := length_made h
    rw [hscript, List.length_nil, Nat.add_zero] at hlen
    exact List.length_eq_two.mp hlen
  have hpong : s.manager.actors[0]? = some pong := by simp [hactors]
  have hping : s.manager.actors[1]? = some ping := by simp [hactors]
  obtain ⟨hpings, hpongs⟩ := rounds_of_rest h hrest hunstarted hpong hping
  refine ⟨flag_of_rest h hrest hping hpongs, pong, ping, hactors, ?_, ?_⟩
  · rw [balls_eq (i := 1), hpings, balls_pings]
    intro l hl hauthor
    rcases mail_of_pong h hpong hl with ⟨hone, -⟩ | ⟨-, hmsg⟩
    · exact absurd hone hauthor
    · exact hmsg
  · rw [balls_eq (i := 0), hpongs, balls_pongs]
    intro l hl hauthor
    rcases mail_of_ping h hping hl with ⟨hzero, -⟩ | ⟨-, hmsg⟩
    · exact absurd hzero hauthor
    · exact hmsg

/-- The program comes to its end in every schedule: whatever `max_count` is, a run
has a bounded number of steps besides the polls of `run`, and when no thread can
go on, all rounds have been played, the flag is set, and the main thread waits in
`end` for the first actor. -/
theorem finishes (maxCount : Int32) {tr : List (App Ball Player × ThreadId)}
    {s : App Ball Player}
    (h : (App.machine (pingPong maxCount)).Run (fun _ _ => True) tr s) :
    tr.countP (fun y => !y.1.polls y.2) ≤ 8 * rounds maxCount + 321 ∧
    (s.AtRest → s.manager.terminateFlag = true ∧
      s.manager.main = .join [0, 1] true ∧
      ∃ pong ping, s.manager.actors = [pong, ping] ∧
        pong.balls = (List.range (rounds maxCount)).map
          (fun n => .ping (Int32.ofNat (n + 1))) ∧
        ping.balls = (List.range (rounds maxCount)).map
          (fun n => .pong (Int32.ofNat (n + 1)))) := by
  have hreach := h.reach
  constructor
  · have hcount := App.countP_le (issues_one maxCount) h
    have hworth := App.worth_le 1 s
    have hhandled := handledCount_le hreach
    have hlength := App.length_le hreach
    have hmade : ((pingPong maxCount).filterMap MainCall.made).length = 2 := rfl
    have hcalls : (pingPong maxCount).length = 5 := rfl
    rw [hmade] at hlength
    rw [hmade, hcalls] at hcount
    omega
  · intro hrest
    have hscoped := scoped_pingPong maxCount
    have hover : s.manager.runtimes = [] → s.manager.main.starting = [] →
        s.script.filterMap MainCall.made = [] → _ := fun hruntimes hstarting hscript =>
      over_of_rest hreach hrest (by rw [hruntimes, hstarting]; rfl) hscript
    cases stage hreach with
    | making n hn hscript hmain =>
      -- There is a call left, which can begin.
      cases hrest.idle hscoped hreach with
      | ended _ hnil =>
        rw [hscript] at hnil
        have hlen := congrArg List.length hnil
        simp only [List.length_drop, List.length_nil, pingPong, List.length_cons] at hlen
        omega
      | polls hpc | joins _ _ _ hpc => simp [hmain] at hpc
    | started hscript hmain =>
      cases hrest.idle hscoped hreach with
      | ended _ hnil => simp [hscript] at hnil
      | polls hpc | joins _ _ _ hpc => simp [hmain] at hpc
    | sending todo hscript hmain | spawning k todo hscript hmain
    | stopping todo hscript hmain =>
      cases hrest.idle hscoped hreach with
      | ended hpc | polls hpc | joins _ _ _ hpc => simp [hmain] at hpc
    | running hscript hmain hthreads hruntimes =>
      -- The flag is set, and the poll that sees it is to come.
      have hstarting : s.manager.main.starting = [] := by
        rcases hmain with hmain | hmain <;> simp [hmain, ManagerPc.starting]
      have hflag := (hover hruntimes hstarting (by rw [hscript]; rfl)).1
      cases hrest.idle hscoped hreach with
      | ended _ hnil => simp [hscript] at hnil
      | polls _ hunset => simp [hflag] at hunset
      | joins _ _ _ hpc => rcases hmain with hmain | hmain <;> simp [hmain] at hpc
    | joining hscript hmain hruntimes =>
      have hstarting : s.manager.main.starting = [] := by simp [hmain, ManagerPc.starting]
      obtain ⟨hflag, hballs⟩ := hover hruntimes hstarting (by rw [hscript]; rfl)
      exact ⟨hflag, hmain, hballs⟩

/-- Two rounds, up to the end. -/
theorem finishes_two : ∃ tr, ∃ s : App Ball Player,
    (App.machine (pingPong 2)).Run (fun _ _ => True) tr s ∧ tr.length = 49 ∧
    tr.countP (fun y => !y.1.polls y.2) ≤ 8 * rounds 2 + 321 ∧
    s.AtRest ∧ s.manager.terminateFlag = true ∧
      s.manager.main = .join [0, 1] true ∧
      ∃ pong ping, s.manager.actors = [pong, ping] ∧
        pong.balls = (List.range (rounds 2)).map
          (fun n => .ping (Int32.ofNat (n + 1))) ∧
        ping.balls = (List.range (rounds 2)).map
          (fun n => .pong (Int32.ofNat (n + 1))) := by
  have hrun := App.run_after (pingPong 2)
    (List.replicate 9 .main ++ List.replicate 7 (.worker 1) ++
      List.replicate 8 (.worker 0) ++ List.replicate 4 (.worker 1) ++
      List.replicate 4 (.worker 0) ++ List.replicate 2 (.worker 1) ++
      List.replicate 5 .main ++ List.replicate 5 (.worker 1) ++
      List.replicate 5 (.worker 0)) (by decide)
  obtain ⟨hsteps, hover⟩ := finishes 2 hrun
  have hall := fun hrest => And.intro hrest (hover hrest)
  refine ⟨_, _, hrun, rfl, hsteps, hall fun t _ => ?_⟩
  rcases t with _ | (_ | _ | k) | k <;> rfl

end PingPong

end Actors
