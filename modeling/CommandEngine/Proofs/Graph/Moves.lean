import CommandEngine.Graph.Scheduler
import CommandEngine.Proofs.Graph.Settle

/-!
# How a run moves

A command never withdraws a signal: once the caller's cancellation signal fired or the scheduler was shut down, it
stays so through every command, chains included (`World.keeps_runCommand`); nor does it change the table of commands
or the host (`World.stable_fixed`), or leave the probe busier than it found it (`World.stable_probeSteady`). All three
follow from one look at each effect of a command (`World.stable_steady`) and one induction over the effects of a
command (`World.Stable`).

Each move of a run does one of two things (`Run.step_eq`): it lets the command at some position among those executing
report back, or it gives the task at some position in line its turn (`Run.turnAt`). `Run.reportIndex` says which, and from it follow the node a
move starts (`Run.startedBy`), the node it settles (`Run.settledBy`) and the nodes it hands on (`Run.handedOn`). The
states of a run, one per move of its schedule, are `Run.trace`; the driver loop is that trace, stopped once no task
waits and no command executes (`Run.drive_eq_trace`).
-/

namespace CommandEngine

/-! ## What no command does -/

namespace World

/-- `w'` keeps every signal of `w`: a fired cancellation signal stays fired, a shut-down scheduler stays shut down. -/
def Keeps (w w' : World) : Prop :=
  (w.signal = true → w'.signal = true) ∧ (w.shutDown = true → w'.shutDown = true)

theorem Keeps.refl (w : World) : w.Keeps w :=
  ⟨id, id⟩

theorem Keeps.trans {w₁ w₂ w₃ : World} (h : w₁.Keeps w₂) (h' : w₂.Keeps w₃) : w₁.Keeps w₃ :=
  ⟨h'.1 ∘ h.1, h'.2 ∘ h.2⟩

/-- A world whose signals are those of `w` keeps them. -/
theorem Keeps.of_eq {w w' : World} (hs : w'.signal = w.signal) (hd : w'.shutDown = w.shutDown) : w.Keeps w' :=
  ⟨fun h => hs ▸ h, fun h => hd ▸ h⟩

/-- A relation between a world and a later one that each effect of a command keeps: running a command other than a
chain, a filter's cleanup, and freezing a chain. Every command, chains of any depth included, then keeps it
(`World.Stable.runCommand`). -/
structure Stable (R : World → World → Prop) : Prop where
  refl : ∀ w, R w w
  trans : ∀ {w₁ w₂ w₃ : World}, R w₁ w₂ → R w₂ w₃ → R w₁ w₃
  runPlain : ∀ w c, R w (w.runPlain c).1
  postprocess : ∀ {w w' : World} {shown : Option String} {c : Command} {r : Except Fault Bool},
    w.postprocess shown c = some (w', r) → R w w'
  freeze : ∀ w c, R w (w.freeze c).1

section Stable

variable {R : World → World → Prop} (hR : Stable R)
include hR

theorem Stable.unwind (shown : Option String) (ids : List CommandId) (w : World) : R w (w.unwind shown ids).1 := by
  induction ids generalizing w with
  | nil => exact hR.refl w
  | cons id rest ih =>
    simp only [World.unwind]
    split
    · rename_i w' handled hp
      exact hR.trans (hR.postprocess hp) (ih w')
    · rename_i w' _ hp
      exact hR.trans (hR.postprocess hp) (ih w')
    · exact ih w

theorem Stable.forward {run : Runner} (hrun : ∀ (id : CommandId) (w : World), R w (run id w).1)
    (reached cmds : List CommandId) (w : World) : R w (w.forward run reached cmds).1 := by
  induction cmds generalizing reached w with
  | nil => exact hR.refl w
  | cons id rest ih =>
    simp only [World.forward]
    have hk := hrun id w
    generalize run id w = p at hk
    obtain ⟨w', res⟩ := p
    rcases res with (_ | _) | (_ | _)
    · exact hk
    · exact hk
    · exact hR.trans hk (ih _ w')
    · exact hk

theorem Stable.executeChain {run : Runner} (hrun : ∀ (id : CommandId) (w : World), R w (run id w).1)
    (c : ChainId) (w : World) : R w (w.executeChain run c).1 := by
  unfold World.executeChain
  have h₁ := hR.freeze w c
  generalize w.freeze c = p at h₁ ⊢
  obtain ⟨w₁, cmds⟩ := p
  dsimp only at h₁ ⊢
  split
  · exact h₁
  · have hf := hR.forward hrun [] cmds w₁
    generalize w₁.forward run [] cmds = q at hf
    obtain ⟨w₂, fw⟩ := q
    rcases fw with ⟨o, reached⟩ | ⟨f, reached⟩ | m
    · exact hR.trans h₁ (hR.trans hf (hR.unwind _ _ _))
    · dsimp only
      have hu := hR.unwind (some f.message) reached w₂
      generalize w₂.unwind (some f.message) reached = q at hu
      obtain ⟨w₃, handled⟩ := q
      split <;> exact hR.trans h₁ (hR.trans hf hu)
    · exact hR.trans h₁ hf

theorem Stable.exec : ∀ (n : Nat) (id : CommandId) (w : World), R w (World.exec n id w).1
  | 0, _, w => hR.refl w
  | n + 1, id, w => by
    simp only [World.exec]
    split
    · rename_i c _
      have hk := hR.executeChain (Stable.exec n) c w
      generalize w.executeChain (World.exec n) c = p at hk
      obtain ⟨w', res⟩ := p
      rcases res with (_ | _) | _ <;> exact hk
    · exact hR.runPlain w _

/-- Running a command, chains of any depth included, keeps every relation that each of its effects keeps. -/
theorem Stable.runCommand (w : World) (id : CommandId) : R w (w.runCommand id).1 :=
  hR.exec _ id w

end Stable

/-- What the probe saw is no signal. -/
theorem keeps_probe (w : World) (p : Probe) : w.Keeps { w with probe := p } :=
  Keeps.of_eq rfl rfl

/-- `w'` has the table of commands and the host of `w`. -/
def Fixed (w w' : World) : Prop :=
  w'.commands = w.commands ∧ w'.units = w.units

theorem Fixed.trans {w₁ w₂ w₃ : World} (h : w₁.Fixed w₂) (h' : w₂.Fixed w₃) : w₁.Fixed w₃ :=
  ⟨h'.1.trans h.1, h'.2.trans h.2⟩

/-- What the probe saw is neither a command nor the host. -/
theorem fixed_probe (w : World) (p : Probe) : w.Fixed { w with probe := p } :=
  ⟨rfl, rfl⟩

/-- `w'` has as many probed commands executing as `w`, and its probe has seen at most one more at once than were
executing in `w`. -/
def ProbeSteady (w w' : World) : Prop :=
  w'.probe.current = w.probe.current ∧ w'.probe.peak ≤ max w.probe.peak (w.probe.current + 1)

theorem ProbeSteady.refl (w : World) : w.ProbeSteady w :=
  ⟨rfl, Nat.le_max_left _ _⟩

theorem ProbeSteady.trans {w₁ w₂ w₃ : World} (h : w₁.ProbeSteady w₂) (h' : w₂.ProbeSteady w₃) :
    w₁.ProbeSteady w₃ := by
  obtain ⟨hc, hp⟩ := h
  obtain ⟨hc', hp'⟩ := h'
  rw [hc] at hp'
  exact ⟨hc'.trans hc, hp'.trans (Nat.max_le.mpr ⟨hp, Nat.le_max_right _ _⟩)⟩

/-- What no effect of a command does: withdraw a signal, change the table of commands or the host, or leave the probe
busier than it found it. -/
def Steady (w w' : World) : Prop :=
  w.Keeps w' ∧ w.Fixed w' ∧ w.ProbeSteady w'

/-- A world that has the signals, the table of commands, the host and the probe of `w` is steady. -/
theorem Steady.of_eq {w w' : World} (hs : w'.signal = w.signal) (hd : w'.shutDown = w.shutDown)
    (hc : w'.commands = w.commands) (hu : w'.units = w.units) (hp : w'.probe = w.probe) : w.Steady w' :=
  ⟨Keeps.of_eq hs hd, ⟨hc, hu⟩, by rw [ProbeSteady, hp]; exact ProbeSteady.refl w⟩

/-- Every effect of a command is steady: it may fire a signal, and a probed command leaves the probe as it entered it.
-/
theorem stable_steady : Stable Steady where
  refl w := Steady.of_eq rfl rfl rfl rfl rfl
  trans h h' := ⟨h.1.trans h'.1, h.2.1.trans h'.2.1, h.2.2.trans h'.2.2⟩
  runPlain w c := by
    cases c with
    | append name target added =>
      simp only [runPlain]
      split
      · rename_i w' hw
        unfold appendToChain at hw
        dsimp only at hw
        split at hw
        · cases hw
        · cases hw
          exact Steady.of_eq rfl rfl rfl rfl rfl
      · exact Steady.of_eq rfl rfl rfl rfl rfl
    | recorder rec cl =>
      unfold runPlain Recorder.run
      dsimp only
      split_ifs
      · -- a probed command enters the probe and leaves it again
        refine ⟨Keeps.of_eq rfl rfl, ⟨rfl, rfl⟩, ?_⟩
        simp [ProbeSteady, note, Probe.enter, Probe.exit]
      · exact Steady.of_eq rfl rfl rfl rfl rfl
    | cancelRun name => exact ⟨⟨fun _ => rfl, id⟩, ⟨rfl, rfl⟩, ProbeSteady.refl w⟩
    | shutdown name => exact ⟨⟨id, fun _ => rfl⟩, ⟨rfl, rfl⟩, ProbeSteady.refl w⟩
    | _ => exact Steady.of_eq rfl rfl rfl rfl rfl
  postprocess h := by
    unfold postprocess at h
    split at h
    · obtain ⟨_, -, h⟩ := Option.map_eq_some_iff.mp h
      cases h
      exact Steady.of_eq rfl rfl rfl rfl rfl
    · cases h
      exact Steady.of_eq rfl rfl rfl rfl rfl
    · cases h
  freeze _ _ := Steady.of_eq rfl rfl rfl rfl rfl

/-- A reflexive and transitive relation that a stable one implies is stable. -/
theorem Stable.weaken {R R' : World → World → Prop} (hR : Stable R) (refl : ∀ w, R' w w)
    (trans : ∀ {w₁ w₂ w₃ : World}, R' w₁ w₂ → R' w₂ w₃ → R' w₁ w₃) (h : ∀ {w w'}, R w w' → R' w w') :
    Stable R' where
  refl := refl
  trans := trans
  runPlain w c := h (hR.runPlain w c)
  postprocess hp := h (hR.postprocess hp)
  freeze w c := h (hR.freeze w c)

/-- No effect of a command withdraws a signal. -/
theorem stable_keeps : Stable Keeps :=
  stable_steady.weaken Keeps.refl Keeps.trans And.left

/-- Running a command never withdraws a signal. -/
theorem keeps_runCommand (w : World) (id : CommandId) : w.Keeps (w.runCommand id).1 :=
  stable_keeps.runCommand w id

/-- No effect of a command changes the table of commands or the host: a command may add to a chain, never to the
table. -/
theorem stable_fixed : Stable Fixed :=
  stable_steady.weaken (fun _ => ⟨rfl, rfl⟩) Fixed.trans fun h => h.2.1

/-- No effect of a command leaves the probe busier than it found it. -/
theorem stable_probeSteady : Stable ProbeSteady :=
  stable_steady.weaken ProbeSteady.refl ProbeSteady.trans fun h => h.2.2

end World

/-! ## What one move does -/

namespace Graph

namespace Run

/-- The position of the command that the move lets report back, or `none` when the move gives a task in line its
turn. -/
def reportIndex (r : Run) (w : World) : Move → Option Nat
  | .start _ => if r.mayBegin w then none else if 0 < r.executing.length then some 0 else none
  | .report i => if i < r.executing.length then some i else if 0 < r.executing.length then some 0 else none

/-- The position in line of the task that has its turn when no command reports back: the one the move names, when a
task may have its turn and the line reaches that far, else the first. -/
def turnAt (r : Run) (w : World) : Move → Nat
  | .start i => if r.mayBegin w ∧ i < r.waiting.length then i else 0
  | .report _ => 0

/-- A line with a task in it has one at the position of the turn. -/
theorem turnAt_lt {r : Run} (w : World) (m : Move) (hw : r.waiting ≠ []) : r.turnAt w m < r.waiting.length := by
  have h0 : 0 < r.waiting.length := List.length_pos_iff.mpr hw
  cases m with
  | start i =>
    simp only [turnAt]
    split_ifs with h
    · exact h.2
    · exact h0
  | report _ => exact h0

/-- The turn at the front of the line is the turn of the task first in line. -/
theorem beginAt_zero (r : Run) (w : World) : r.beginAt w 0 = r.beginNext w := by
  unfold beginAt
  cases hw : r.waiting with
  | nil => simp
  | cons v rest => simp [hw, beginNext]

/-- A position past the end of the line names the task first in line. -/
theorem beginAt_of_length_le {r : Run} {w : World} {i : Nat} (hi : r.waiting.length ≤ i) :
    r.beginAt w i = r.beginNext w := by
  unfold beginAt
  rw [List.getElem?_eq_none hi]

/-- A move reports back the command `reportIndex` names, or else gives the task at `turnAt` its turn. -/
theorem step_eq (r : Run) (w : World) (m : Move) :
    r.step w m = match r.reportIndex w m with
      | some i => (finishOne w { r with executing := r.executing.eraseIdx i } (r.executing.getD i default), w)
      | none => r.beginAt w (r.turnAt w m) := by
  have hat : ∀ i, i < r.executing.length →
      r.reportAt w i = some (finishOne w { r with executing := r.executing.eraseIdx i } (r.executing.getD i default)) := by
    intro i hi
    simp [reportAt, List.getElem?_eq_getElem hi, List.getD_eq_getElem?_getD]
  have hnone : ∀ i, ¬ i < r.executing.length → r.reportAt w i = none := by
    intro i hi
    simp [reportAt, List.getElem?_eq_none (Nat.le_of_not_lt hi)]
  cases m with
  | start i =>
    simp only [step, reportIndex, turnAt, fallback]
    by_cases hb : r.mayBegin w
    · by_cases hi : i < r.waiting.length
      · simp [hb, hi]
      · simp [hb, hi, beginAt_zero, beginAt_of_length_le (Nat.le_of_not_lt hi)]
    · by_cases h0 : 0 < r.executing.length
      · simp [hb, h0, hat 0 h0]
      · simp [hb, h0, hnone 0 h0, beginAt_zero]
  | report i =>
    simp only [step, reportIndex, turnAt, fallback]
    by_cases hi : i < r.executing.length
    · simp [hi, hat i hi]
    · by_cases h0 : 0 < r.executing.length
      · simp [hi, h0, hat 0 h0, hnone i hi]
      · simp [hi, h0, hnone 0 h0, hnone i hi, beginAt_zero]

/-- A move reports back only a command that executes. -/
theorem reportIndex_lt {r : Run} {w : World} {m : Move} {i : Nat} (h : r.reportIndex w m = some i) :
    i < r.executing.length := by
  cases m <;> simp only [reportIndex] at h <;> split_ifs at h <;> simp_all

theorem getD_executing {r : Run} {i : Nat} (hi : i < r.executing.length) :
    r.executing.getD i default = r.executing[i] := by
  simp [List.getD_eq_getElem?_getD, hi]

/-- The five things a move can do: let a command that executes report back; give a task in line its turn when there is
none, which does nothing; refuse the task that has its turn in a shut-down world, which cancels its node and the run;
cancel its node in a cancelled run; or start its command, stamping the start and running the command's effects. The task
that has its turn, `v` at position `turnAt` in line, leaves the line, which holds it and `rest`. -/
theorem step_cases (r : Run) (w : World) (m : Move) :
    (∃ i, ∃ hi : i < r.executing.length, r.reportIndex w m = some i ∧
      r.step w m = (finishOne w { r with executing := r.executing.eraseIdx i } r.executing[i], w)) ∨
    (r.reportIndex w m = none ∧ r.waiting = [] ∧ r.step w m = (r, w)) ∨
    (∃ v rest, r.reportIndex w m = none ∧ r.waiting[r.turnAt w m]? = some v ∧ r.waiting.Perm (v :: rest) ∧ w.shutDown = true ∧
      r.step w m = ({ r with waiting := rest, cancelled := true, state := r.state.cancel v }, w)) ∨
    (∃ v rest, r.reportIndex w m = none ∧ r.waiting[r.turnAt w m]? = some v ∧ r.waiting.Perm (v :: rest) ∧ w.shutDown = false ∧ r.isCancelled w = true ∧
      r.step w m = ({ r with waiting := rest, state := r.state.cancel v }, w)) ∨
    (∃ v rest, r.reportIndex w m = none ∧ r.waiting[r.turnAt w m]? = some v ∧ r.waiting.Perm (v :: rest) ∧ w.shutDown = false ∧ r.isCancelled w = false ∧
      r.step w m = ({ r with
        waiting := rest
        reports := r.reports.modify v fun n => { n with startedAt := some r.clock }
        executing := r.executing ++ [⟨v, (r.startCommand w v).2⟩]
        clock := r.clock + 1 }, (r.startCommand w v).1)) := by
  rw [step_eq]
  cases hidx : r.reportIndex w m with
  | some i =>
    have hi := reportIndex_lt hidx
    exact .inl ⟨i, hi, rfl, by dsimp only; rw [getD_executing hi]⟩
  | none =>
    right
    dsimp only
    by_cases hw : r.waiting = []
    · left
      refine ⟨rfl, hw, ?_⟩
      rw [beginAt_of_length_le (by simp [hw]), beginNext, hw]
    · right
      -- the task at the turn leaves the line; the rest of the line is the line without it
      have ht := turnAt_lt w m hw
      have hperm := List.getElem_cons_eraseIdx_perm ht
      unfold beginAt
      rw [List.getElem?_eq_getElem ht]
      dsimp only
      unfold Run.begin
      by_cases hsd : w.shutDown = true
      · exact .inl ⟨_, _, rfl, rfl, hperm.symm, hsd, by rw [if_pos hsd]⟩
      · have hsd' : w.shutDown = false := by simpa using hsd
        right
        cases hc : r.isCancelled w
        · right
          refine ⟨_, _, rfl, rfl, hperm.symm, hsd', rfl, ?_⟩
          rw [if_neg hsd, if_neg (by simpa [isCancelled] using hc)]
          rfl
        · left
          refine ⟨_, _, rfl, rfl, hperm.symm, hsd', rfl, ?_⟩
          rw [if_neg hsd, if_pos (by simpa [isCancelled] using hc)]

/-- Starting a command runs it: the world it leaves differs from the one the command leaves only in what the probe
saw, and the command reports what it reports. -/
theorem startCommand_eq (r : Run) (w : World) (v : Nat) :
    ∃ p, r.startCommand w v = ({ (w.runCommand (r.graph.graph.nodes.getD v 0)).1 with probe := p },
      (w.runCommand (r.graph.graph.nodes.getD v 0)).2) := by
  unfold startCommand
  dsimp only
  split
  · exact ⟨_, rfl⟩
  · exact ⟨_, rfl⟩

@[simp]
theorem startCommand_snd (r : Run) (w : World) (v : Nat) :
    (r.startCommand w v).2 = (w.runCommand (r.graph.graph.nodes.getD v 0)).2 := by
  obtain ⟨p, h⟩ := startCommand_eq r w v
  rw [h]

/-- Starting a command keeps every relation that the effects of commands keep and that what the probe saw does not
matter to. -/
theorem stable_startCommand {R : World → World → Prop} (hR : World.Stable R) (hprobe : ∀ w p, R w { w with probe := p })
    (r : Run) (w : World) (v : Nat) : R w (r.startCommand w v).1 := by
  obtain ⟨p, h⟩ := startCommand_eq r w v
  rw [h]
  exact hR.trans (hR.runCommand w _) (hprobe _ p)

/-- A task's turn changes the world only by starting its command. -/
theorem stable_begin {R : World → World → Prop} (hR : World.Stable R) (hprobe : ∀ w p, R w { w with probe := p })
    (r : Run) (w : World) (v : Nat) : R w (r.begin w v).2 := by
  unfold Run.begin
  split_ifs
  · exact hR.refl w
  · exact hR.refl w
  · exact stable_startCommand hR hprobe r w v

theorem stable_beginAt {R : World → World → Prop} (hR : World.Stable R) (hprobe : ∀ w p, R w { w with probe := p })
    (r : Run) (w : World) (i : Nat) : R w (r.beginAt w i).2 := by
  unfold beginAt beginNext
  split
  · exact stable_begin hR hprobe _ w _
  · split
    · exact hR.refl w
    · exact stable_begin hR hprobe _ w _

/-- The node whose command the move starts, if it starts one. -/
def startedBy (r : Run) (w : World) (m : Move) : Option Nat :=
  match r.reportIndex w m, r.waiting[r.turnAt w m]? with
  | none, some v => if w.shutDown || r.isCancelled w then none else some v
  | _, _ => none

/-- The node the move settles: the node of the command that reports back. -/
def settledBy (r : Run) (w : World) (m : Move) : Option Nat :=
  (r.reportIndex w m).map fun i => (r.executing.getD i default).node

/-- The nodes the move hands on: those its settling made ready. -/
def handedOn (r : Run) (w : World) (m : Move) : List Nat :=
  match r.reportIndex w m with
  | some i => (r.state.complete (r.executing.getD i default).node (r.executing.getD i default).result.isOk).2.ready
  | none => []

/-- The state of the run and of its world after the first `i` moves of `sched`. -/
def trace (sched : Schedule) (r : Run) (w : World) : Nat → Run × World
  | 0 => (r, w)
  | i + 1 => (trace sched r w i).1.step (trace sched r w i).2 (sched i)

/-- Whether no task waits and no command executes. -/
def Quiet (r : Run) : Prop :=
  r.waiting = [] ∧ r.executing = []

/-- A move of a quiet run changes nothing. -/
theorem step_quiet {r : Run} (h : r.Quiet) (w : World) (m : Move) : r.step w m = (r, w) := by
  have hm : r.mayBegin w = false := by simp [mayBegin, h.1]
  rw [step_eq]
  cases m <;> simp [reportIndex, hm, h.2, beginAt, beginNext, h.1]

/-- A run that is quiet stays where it is. -/
theorem trace_quiet {sched : Schedule} {r : Run} {w : World} {i : Nat} (h : (trace sched r w i).1.Quiet) :
    ∀ j, i ≤ j → trace sched r w j = trace sched r w i := by
  intro j hj
  induction j, hj using Nat.le_induction with
  | base => rfl
  | succ j _ ih =>
    rw [trace, ih]
    exact step_quiet h _ _

/-- The trace read from its first move on: the trace of the state after that move, under the rest of the schedule. -/
theorem trace_succ_eq (sched : Schedule) (r : Run) (w : World) (i : Nat) :
    trace sched r w (i + 1) = trace (fun j => sched (j + 1)) (r.step w (sched 0)).1 (r.step w (sched 0)).2 i := by
  induction i with
  | zero => rfl
  | succ i ih => rw [trace, ih]; rfl

/-- The driver loop follows the trace, from the move it starts at, and stops once the run is quiet. -/
theorem drive_eq_trace (sched : Schedule) (fuel k : Nat) (r : Run) (w : World) :
    drive sched fuel k r w = trace (fun j => sched (k + j)) r w fuel := by
  induction fuel generalizing k r w with
  | zero => rfl
  | succ fuel ih =>
    simp only [drive]
    split
    · rename_i hq
      have hquiet : r.Quiet := by simpa [Quiet] using hq
      have := @trace_quiet (fun j => sched (k + j)) r w 0 hquiet (fuel + 1) (Nat.zero_le _)
      rw [this]
      rfl
    · rw [ih, trace_succ_eq]
      simp only [Nat.add_zero]
      congr 1
      funext j
      rw [Nat.add_assoc, Nat.add_comm 1 j]

end Run

end Graph

end CommandEngine
