import CommandEngine.Proofs.Graph.History

/-!
# A chain's commands are fixed by its first execution

Executing a chain freezes it before any of its commands runs; from then on an append to it is refused and changes
nothing, and no effect of any command, at any depth of nesting, thaws it or changes its commands (`World.ChainsGrow`).
So every execution of a chain, the first and every later one, runs the commands it held when it was first executed.

A chain is frozen exactly when an execution enters it (`World.Enters`): a call executes it, or runs it as a command,
or a chain whose forward pass gets to it runs it as one of its commands (`World.Reaches`). A chain nested in another is
therefore still open while the commands before it run: one of them can append to it, and the command appended then
runs. A nested chain that its parent never gets to, because a command before it stopped the chain or failed, stays
open. The calls on the world's chains are `World.ChainCall`; over any sequence of them, `World.ChainFreezing` says all
of the above.
-/

namespace CommandEngine

namespace World

/-- The chain `c` of the world; a chain that does not exist reads as the empty, open chain. -/
def chainAt (w : World) (c : ChainId) : Chain :=
  w.chains.getD c default

/-- `w'` keeps the chains of `w`: as many, each holding the commands it held and possibly more after them, and each
frozen chain still frozen with the same commands. -/
structure ChainsGrow (w w' : World) : Prop where
  size_eq : w'.chains.size = w.chains.size
  grows : ∀ c, (w.chainAt c).commands.toList <+: (w'.chainAt c).commands.toList
  frozen : ∀ c, (w.chainAt c).frozen = true →
    (w'.chainAt c).frozen = true ∧ (w'.chainAt c).commands = (w.chainAt c).commands

theorem ChainsGrow.refl (w : World) : w.ChainsGrow w :=
  ⟨rfl, fun _ => List.prefix_refl _, fun _ h => ⟨h, rfl⟩⟩

theorem ChainsGrow.trans {w₁ w₂ w₃ : World} (h : w₁.ChainsGrow w₂) (h' : w₂.ChainsGrow w₃) : w₁.ChainsGrow w₃ := by
  refine ⟨h'.size_eq.trans h.size_eq, fun c => (h.grows c).trans (h'.grows c), fun c hc => ?_⟩
  obtain ⟨hc₂, heq₂⟩ := h.frozen c hc
  obtain ⟨hc₃, heq₃⟩ := h'.frozen c hc₂
  exact ⟨hc₃, heq₃.trans heq₂⟩

theorem ChainsGrow.of_chains_eq {w w' : World} (h : w'.chains = w.chains) : w.ChainsGrow w' := by
  have hc : ∀ c, w'.chainAt c = w.chainAt c := fun c => by rw [chainAt, h, chainAt]
  refine ⟨by rw [h], fun c => ?_, fun c hc' => ?_⟩
  · rw [hc c]
  · rw [hc c]
    exact ⟨hc', rfl⟩

/-- What the probe saw is no part of a chain. -/
theorem chainsGrow_probe (w : World) (p : Probe) : w.ChainsGrow { w with probe := p } :=
  ChainsGrow.of_chains_eq rfl

/-- Changing chain `c` of the world changes that chain only, if there is one. -/
theorem chainAt_modify (w : World) (c : ChainId) (f : Chain → Chain) (d : ChainId) :
    ({ w with chains := w.chains.modify c f } : World).chainAt d =
      if c = d ∧ c < w.chains.size then f (w.chainAt c) else w.chainAt d := by
  simp only [chainAt, Array.getD_eq_getD_getElem?, Array.getElem?_modify]
  by_cases hcd : c = d
  · subst hcd
    by_cases hc : c < w.chains.size
    · simp [hc]
    · simp [hc]
  · simp [hcd]

/-- Freezing chain `c` sets its flag and nothing else. -/
theorem chainAt_freeze (w : World) (c d : ChainId) :
    (w.freeze c).1.chainAt d = if c = d ∧ c < w.chains.size then { w.chainAt c with frozen := true } else w.chainAt d :=
  chainAt_modify w c _ d

theorem freeze_snd (w : World) (c : ChainId) : (w.freeze c).2 = (w.chainAt c).commands.toList :=
  rfl

/-- An append to a frozen chain is refused as an invalid state that names the chain and the command. -/
theorem appendToChain_of_frozen {w : World} {c : ChainId} (hf : (w.chainAt c).frozen = true) (x : CommandId) :
    w.appendToChain c x = .error (.invalidState ("chain '" ++ (w.chainAt c).name ++ "' is frozen; cannot add command '" ++
      w.commandName x ++ "'")) := by
  unfold appendToChain
  dsimp only
  rw [if_pos (show (w.chains.getD c default).frozen = true from hf)]
  rfl

/-- A successful append adds the command at the end of its chain and changes nothing else. -/
theorem appendToChain_ok {w w' : World} {c : ChainId} {x : CommandId} (h : w.appendToChain c x = .ok w') :
    (w.chainAt c).frozen = false ∧ w' = { w with chains := w.chains.modify c fun ch => { ch with
      commands := ch.commands.push x } } := by
  unfold appendToChain at h
  dsimp only at h
  split at h
  · cases h
  · rename_i hf
    cases h
    exact ⟨by simpa [chainAt] using hf, rfl⟩

/-- An append succeeds exactly on an open chain. -/
theorem appendToChain_ok_iff (w : World) (c : ChainId) (x : CommandId) :
    (∃ w', w.appendToChain c x = .ok w') ↔ (w.chainAt c).frozen = false := by
  constructor
  · rintro ⟨w', h⟩
    exact (appendToChain_ok h).1
  · intro hf
    unfold appendToChain
    dsimp only
    rw [if_neg (show ¬ (w.chains.getD c default).frozen = true by simpa [chainAt] using hf)]
    exact ⟨_, rfl⟩

theorem chainsGrow_appendToChain {w w' : World} {c : ChainId} {x : CommandId} (h : w.appendToChain c x = .ok w') :
    w.ChainsGrow w' := by
  obtain ⟨hf, rfl⟩ := appendToChain_ok h
  refine ⟨by simp, fun d => ?_, fun d hd => ?_⟩
  · rw [chainAt_modify]
    split
    · rename_i hcd
      rw [hcd.1]
      simp
    · exact List.prefix_refl _
  · rw [chainAt_modify]
    split
    · rename_i hcd
      rw [hcd.1, hd] at hf
      cases hf
    · exact ⟨hd, rfl⟩

/-- A successful append leaves every chain's flag as it was. -/
theorem frozen_appendToChain {w w' : World} {c : ChainId} {x : CommandId} (h : w.appendToChain c x = .ok w')
    (d : ChainId) : (w'.chainAt d).frozen = (w.chainAt d).frozen := by
  obtain ⟨-, rfl⟩ := appendToChain_ok h
  rw [chainAt_modify]
  split
  · rename_i hcd
    rw [hcd.1]
  · rfl

/-- A command other than a chain changes a chain only by appending to an open one. -/
theorem runPlain_chains (w : World) (cmd : Command) :
    (w.runPlain cmd).1.chains = w.chains ∨
      ∃ c x w', w.appendToChain c x = .ok w' ∧ (w.runPlain cmd).1.chains = w'.chains := by
  cases cmd with
  | append name target added =>
    simp only [runPlain]
    split
    · rename_i w' hw
      exact .inr ⟨target, added, w', hw, rfl⟩
    · exact .inl rfl
  | recorder r cl =>
    left
    unfold runPlain Recorder.run
    dsimp only
    split_ifs <;> rfl
  | _ => exact .inl rfl

theorem chainsGrow_runPlain (w : World) (cmd : Command) : w.ChainsGrow (w.runPlain cmd).1 := by
  rcases runPlain_chains w cmd with h | ⟨c, x, w', hw, h⟩
  · exact ChainsGrow.of_chains_eq h
  · exact (chainsGrow_appendToChain hw).trans (ChainsGrow.of_chains_eq h)

/-- No command other than a chain freezes or thaws a chain. -/
theorem frozen_runPlain (w : World) (cmd : Command) (d : ChainId) :
    ((w.runPlain cmd).1.chainAt d).frozen = (w.chainAt d).frozen := by
  rcases runPlain_chains w cmd with h | ⟨c, x, w', hw, h⟩
  · rw [chainAt, h, chainAt]
  · rw [chainAt, h, ← chainAt, frozen_appendToChain hw]

/-- A filter's cleanup leaves the chains as they are. -/
theorem postprocess_chains {w w' : World} {shown : Option String} {c : Command} {r : Except Fault Bool}
    (h : w.postprocess shown c = some (w', r)) : w'.chains = w.chains := by
  unfold postprocess at h
  split at h
  · obtain ⟨_, -, h⟩ := Option.map_eq_some_iff.mp h
    cases h
    rfl
  · cases h
    rfl
  · cases h

theorem unwind_chains (shown : Option String) : ∀ (ids : List CommandId) (w : World),
    (w.unwind shown ids).1.chains = w.chains
  | [], _ => rfl
  | id :: rest, w => by
    simp only [unwind]
    split
    · rename_i w' handled hp
      rw [unwind_chains shown rest w', postprocess_chains hp]
    · rename_i w' _ hp
      rw [unwind_chains shown rest w', postprocess_chains hp]
    · exact unwind_chains shown rest w

/-- No effect of a command thaws a chain or changes a frozen chain's commands, and the commands of an open chain only
grow. -/
theorem stable_chainsGrow : Stable ChainsGrow where
  refl := ChainsGrow.refl
  trans := ChainsGrow.trans
  runPlain := chainsGrow_runPlain
  postprocess h := ChainsGrow.of_chains_eq (postprocess_chains h)
  freeze w c := by
    refine ⟨by simp [freeze], fun d => ?_, fun d hd => ?_⟩
    · rw [chainAt_freeze]
      split
      · rename_i hcd
        rw [hcd.1]
      · exact List.prefix_refl _
    · rw [chainAt_freeze]
      split
      · rename_i hcd
        rw [hcd.1]
        exact ⟨rfl, rfl⟩
      · exact ⟨hd, rfl⟩

theorem chainsGrow_exec (n : Nat) (id : CommandId) (w : World) : w.ChainsGrow (exec n id w).1 :=
  stable_chainsGrow.exec n id w

/-! ## Which executions freeze a chain -/

/-- The forward pass over `cmds` from `w` gets to the command `x`, in world `w'`: every command before it answered
`proceed`. -/
inductive Reaches (run : Runner) : List CommandId → World → CommandId → World → Prop
  | head {x : CommandId} {rest : List CommandId} {w : World} : Reaches run (x :: rest) w x w
  | tail {id : CommandId} {rest : List CommandId} {w w' : World} {x : CommandId} {w'' : World} :
      run id w = (w', .ok .proceed) → Reaches run rest w' x w'' → Reaches run (id :: rest) w x w''

/-- Running command `id` from `w`, with nested chains given `n` levels, enters chain `d`: the command is chain `d`, or
a chain whose forward pass gets to a command that enters `d`. -/
inductive Enters : Nat → CommandId → World → ChainId → Prop
  | chain {n : Nat} {id : CommandId} {w : World} {d : ChainId} : w.command id = .chain d → Enters (n + 1) id w d
  | nested {n : Nat} {id : CommandId} {w : World} {c : ChainId} {x : CommandId} {w' : World} {d : ChainId} :
      w.command id = .chain c → Reaches (exec n) (w.freeze c).2 (w.freeze c).1 x w' → Enters n x w' d →
      Enters (n + 1) id w d

theorem not_reaches_nil {run : Runner} {w w' : World} {x : CommandId} : ¬ Reaches run [] w x w' := nofun

theorem reaches_cons_iff {run : Runner} {id : CommandId} {rest : List CommandId} {w : World} {x : CommandId}
    {w'' : World} : Reaches run (id :: rest) w x w'' ↔
      (x = id ∧ w'' = w) ∨ ∃ w', run id w = (w', .ok .proceed) ∧ Reaches run rest w' x w'' := by
  constructor
  · rintro (_ | ⟨hrun, hr⟩)
    · exact .inl ⟨rfl, rfl⟩
    · exact .inr ⟨_, hrun, hr⟩
  · rintro (⟨rfl, rfl⟩ | ⟨w', hrun, hr⟩)
    · exact .head
    · exact .tail hrun hr

theorem enters_iff {n : Nat} {id : CommandId} {w : World} {d : ChainId} :
    Enters (n + 1) id w d ↔ ∃ c, w.command id = .chain c ∧
      (c = d ∨ ∃ x w', Reaches (exec n) (w.freeze c).2 (w.freeze c).1 x w' ∧ Enters n x w' d) := by
  constructor
  · rintro (⟨hc⟩ | ⟨hc, hr, he⟩)
    · exact ⟨d, hc, .inl rfl⟩
    · exact ⟨_, hc, .inr ⟨_, _, hr, he⟩⟩
  · rintro ⟨c, hc, rfl | ⟨x, w', hr, he⟩⟩
    · exact .chain hc
    · exact .nested hc hr he

/-- The world after executing a chain has the chains its forward pass left: no cleanup changes a chain. -/
theorem executeChain_chains (run : Runner) (c : ChainId) (w : World) :
    (w.executeChain run c).1.chains = ((w.freeze c).1.forward run [] (w.freeze c).2).1.chains := by
  unfold executeChain
  generalize w.freeze c = p
  obtain ⟨w₁, cmds⟩ := p
  dsimp only
  split
  · rename_i hempty
    rw [List.isEmpty_iff.mp hempty]
    rfl
  · generalize w₁.forward run [] cmds = q
    obtain ⟨w₂, fw⟩ := q
    rcases fw with ⟨o, reached⟩ | ⟨f, reached⟩ | m
    · exact unwind_chains none reached w₂
    · dsimp only
      have hu := unwind_chains (some f.message) reached w₂
      generalize w₂.unwind (some f.message) reached = q at hu
      obtain ⟨w₃, handled⟩ := q
      split <;> exact hu
    · rfl

/-- A forward pass gets to a command with a property exactly when its first command has it, or answers `proceed` and
the rest of the pass gets to one. -/
theorem exists_reaches_cons_iff {run : Runner} {id : CommandId} {rest : List CommandId} {w : World}
    {E : CommandId → World → Prop} : (∃ x w', Reaches run (id :: rest) w x w' ∧ E x w') ↔
      E id w ∨ ∃ w₁, run id w = (w₁, .ok .proceed) ∧ ∃ x w', Reaches run rest w₁ x w' ∧ E x w' := by
  simp only [reaches_cons_iff]
  constructor
  · rintro ⟨x, w', ⟨rfl, rfl⟩ | ⟨w₁, hrun, hr⟩, he⟩
    · exact .inl he
    · exact .inr ⟨w₁, hrun, x, w', hr, he⟩
  · rintro (he | ⟨w₁, hrun, x, w', hr, he⟩)
    · exact ⟨id, w, .inl ⟨rfl, rfl⟩, he⟩
    · exact ⟨x, w', .inr ⟨w₁, hrun, hr⟩, he⟩

section Forward

variable {run : Runner} {d : ChainId} {E : CommandId → World → Prop}
  (hsize : ∀ x w, (run x w).1.chains.size = w.chains.size)
  (hrun : ∀ x w, d < w.chains.size → (((run x w).1.chainAt d).frozen = true ↔ (w.chainAt d).frozen = true ∨ E x w))
include hsize hrun

/-- A forward pass freezes a chain exactly when one of the commands it gets to does. -/
theorem frozen_forward (reached : List CommandId) : ∀ (cmds : List CommandId) (w : World), d < w.chains.size →
    (((w.forward run reached cmds).1.chainAt d).frozen = true ↔
      (w.chainAt d).frozen = true ∨ ∃ x w', Reaches run cmds w x w' ∧ E x w')
  | [], w, _ => by simp [forward, not_reaches_nil]
  | id :: rest, w, hd => by
    -- the first command either stops the pass, or answers `proceed` and the pass goes on from the world it left
    rw [exists_reaches_cons_iff]
    have hfirst := hrun id w hd
    have hsz := hsize id w
    unfold forward
    generalize run id w = p at hfirst hsz ⊢
    obtain ⟨w₁, res⟩ := p
    dsimp only at hfirst hsz
    rcases res with (f | m) | (_ | _)
    · simpa using hfirst
    · simpa using hfirst
    · rw [frozen_forward (id :: reached) rest w₁ (hsz ▸ hd), hfirst]
      simp [or_assoc]
    · simpa using hfirst

/-- Executing a chain freezes a chain exactly when it is that chain, or when a command its forward pass gets to freezes
it. -/
theorem frozen_executeChain (c : ChainId) (w : World) (hd : d < w.chains.size) :
    (((w.executeChain run c).1.chainAt d).frozen = true ↔
      (w.chainAt d).frozen = true ∨ c = d ∨ ∃ x w', Reaches run (w.freeze c).2 (w.freeze c).1 x w' ∧ E x w') := by
  have hfr : ((w.freeze c).1.chainAt d).frozen = true ↔ (w.chainAt d).frozen = true ∨ c = d := by
    rw [chainAt_freeze]
    split
    · rename_i hcd
      simp [hcd.1]
    · rename_i hcd
      simp only [iff_self_or]
      exact fun h => absurd ⟨h, h ▸ hd⟩ hcd
  rw [chainAt, executeChain_chains, ← chainAt, frozen_forward hsize hrun [] _ _ (by simpa [freeze] using hd), hfr,
    or_assoc]

end Forward

/-- Running a command freezes a chain exactly when it enters it. -/
theorem frozen_exec {d : ChainId} : ∀ (n : Nat) (id : CommandId) (w : World), d < w.chains.size →
    (((exec n id w).1.chainAt d).frozen = true ↔ (w.chainAt d).frozen = true ∨ Enters n id w d)
  | 0, id, w, _ => by
    simp only [exec, iff_self_or]
    rintro ⟨⟩
  | n + 1, id, w, hd => by
    rw [enters_iff]
    simp only [exec]
    split
    · -- a chain: its execution, with one level of nesting less for its commands
      rename_i c hc
      have h := frozen_executeChain (fun x w => (chainsGrow_exec n x w).size_eq) (frozen_exec n) c w hd
      generalize w.executeChain (exec n) c = p at h
      obtain ⟨w', res⟩ := p
      rcases res with (_ | _) | _ <;> simpa [hc] using h
    · rename_i hnc
      rw [frozen_runPlain]
      simp only [iff_self_or]
      rintro ⟨c, hc, -⟩
      exact (hnc c hc).elim

/-- Running a command of the world freezes a chain exactly when it enters it. -/
theorem frozen_runCommand {d : ChainId} (w : World) (id : CommandId) (hd : d < w.chains.size) :
    (((w.runCommand id).1.chainAt d).frozen = true ↔ (w.chainAt d).frozen = true ∨ Enters (w.chains.size + 1) id w d) :=
  frozen_exec _ id w hd

end World

/-! ## Graph runs -/

namespace Graph

namespace Run

/-- Move `m` of run `r` in world `w` starts a node whose command enters chain `d`. -/
def StartsEntering (r : Run) (w : World) (m : Move) (d : ChainId) : Prop :=
  ∃ v, r.startedBy w m = some v ∧ World.Enters (w.chains.size + 1) (r.graph.graph.nodes.getD v 0) w d

/-- A move freezes a chain exactly when it starts a node whose command enters it. -/
theorem frozen_step {d : ChainId} (r : Run) (w : World) (m : Move) (hd : d < w.chains.size) :
    (((r.step w m).2.chainAt d).frozen = true ↔ (w.chainAt d).frozen = true ∨ r.StartsEntering w m d) := by
  cases hs : r.startedBy w m with
  | none =>
    rw [(step_of_startedBy_none hs).1]
    simp [StartsEntering, hs]
  | some v =>
    obtain ⟨rest, -, -, -, -, hstep⟩ := startedBy_eq_some hs
    obtain ⟨p, hp⟩ := startCommand_eq r w v
    have hc : (r.startCommand w v).1.chainAt d = (w.runCommand (r.graph.graph.nodes.getD v 0)).1.chainAt d := by
      rw [hp]
      rfl
    rw [hstep, hc, World.frozen_runCommand w _ hd]
    simp [StartsEntering, hs]

/-- Along a trace, a chain is frozen exactly when it was at the start or some move started a node whose command
entered it. -/
theorem frozen_trace {d : ChainId} (sched : Schedule) (r : Run) (w : World) (hd : d < w.chains.size) :
    ∀ k, (((trace sched r w k).2.chainAt d).frozen = true ↔
      (w.chainAt d).frozen = true ∨ ∃ i < k, (trace sched r w i).1.StartsEntering (trace sched r w i).2 (sched i) d)
  | 0 => by simp [trace]
  | k + 1 => by
    have hdk : d < (trace sched r w k).2.chains.size :=
      (stable_trace World.stable_chainsGrow World.chainsGrow_probe sched r w k).size_eq ▸ hd
    rw [trace, frozen_step _ _ _ hdk, frozen_trace sched r w hd k, or_assoc]
    simp only [Nat.lt_succ_iff_lt_or_eq, or_and_right, exists_or, exists_eq_left]

end Run

/-- A graph run freezes a chain exactly when one of its moves starts a node whose command enters it; a scheduler shut
down runs nothing. -/
theorem Scheduler.frozen_run {d : ChainId} (s : Scheduler) (sched : Schedule) (g : ValidatedGraph)
    (followsCaller : Bool) (w : World) (hd : d < w.chains.size) :
    (((s.run sched g followsCaller w).1.chainAt d).frozen = true ↔ (w.chainAt d).frozen = true ∨
      (w.shutDown = false ∧ ∃ i < 2 * g.size + 1, (s.trace sched g followsCaller w i).1.StartsEntering
        (s.trace sched g followsCaller w i).2 (sched i) d)) := by
  cases hw : w.shutDown with
  | true =>
    simp [run, hw]
  | false =>
    rw [run_eq s sched g followsCaller hw]
    exact (Run.frozen_trace sched _ w hd _).trans (by simp [trace])

theorem Scheduler.chainsGrow_run (s : Scheduler) (sched : Schedule) (g : ValidatedGraph) (followsCaller : Bool)
    (w : World) : w.ChainsGrow (s.run sched g followsCaller w).1 := by
  cases hw : w.shutDown with
  | true =>
    simp only [run, hw, if_true]
    exact World.ChainsGrow.refl w
  | false =>
    rw [run_eq s sched g followsCaller hw]
    exact Run.stable_trace World.stable_chainsGrow World.chainsGrow_probe sched _ w _

end Graph

/-! ## Calls on the world's chains -/

namespace World

/-- One call on the world: executing a chain; running a command, as a graph run does with the command of each node it
starts; running a graph; appending a command to a chain; or making a new command. -/
inductive ChainCall where
  | execute (c : ChainId)
  | run (id : CommandId)
  | graph (s : Graph.Scheduler) (sched : Graph.Schedule) (g : Graph.ValidatedGraph) (followsCaller : Bool)
  | add (c : ChainId) (x : CommandId)
  | make (cmd : Command)

/-- The world after a call; a refused append leaves it as it was. -/
def call (w : World) : ChainCall → World
  | .execute c => (w.runChain c).1
  | .run id => (w.runCommand id).1
  | .graph s sched g followsCaller => (s.run sched g followsCaller w).1
  | .add c x =>
    match w.appendToChain c x with
    | .ok w' => w'
    | .error _ => w
  | .make cmd => (w.addCommand cmd).1

/-- The world after the calls, in order. -/
def calls (w : World) (ks : List ChainCall) : World :=
  ks.foldl call w

/-- The call, made from `w`, enters chain `d`: it executes `d`, or a chain whose forward pass gets to a command that
enters `d`; it runs a command that enters `d`; or it runs a graph and starts a node whose command enters `d`. -/
def ChainCall.Enters : ChainCall → World → ChainId → Prop
  | .execute c, w, d =>
    c = d ∨ ∃ x w', Reaches (exec w.chains.size) (w.freeze c).2 (w.freeze c).1 x w' ∧ World.Enters w.chains.size x w' d
  | .run id, w, d => World.Enters (w.chains.size + 1) id w d
  | .graph s sched g followsCaller, w, d =>
    w.shutDown = false ∧ ∃ i < 2 * g.size + 1,
      (s.trace sched g followsCaller w i).1.StartsEntering (s.trace sched g followsCaller w i).2 (sched i) d
  | .add _ _, _, _ => False
  | .make _, _, _ => False

theorem chainsGrow_call (w : World) : ∀ k : ChainCall, w.ChainsGrow (w.call k)
  | .execute c => stable_chainsGrow.executeChain (stable_chainsGrow.exec _) c w
  | .run id => stable_chainsGrow.runCommand w id
  | .graph s sched g followsCaller => Graph.Scheduler.chainsGrow_run s sched g followsCaller w
  | .add c x => by
    simp only [call]
    split
    · rename_i w' hw
      exact chainsGrow_appendToChain hw
    · exact ChainsGrow.refl w
  | .make cmd => ChainsGrow.of_chains_eq rfl

/-- A call freezes a chain exactly when it enters it. -/
theorem frozen_call {d : ChainId} (w : World) (hd : d < w.chains.size) :
    ∀ k : ChainCall, ((w.call k).chainAt d).frozen = true ↔ (w.chainAt d).frozen = true ∨ k.Enters w d
  | .execute c => frozen_executeChain (fun x w => (chainsGrow_exec _ x w).size_eq) (frozen_exec _) c w hd
  | .run id => frozen_runCommand w id hd
  | .graph s sched g followsCaller => Graph.Scheduler.frozen_run s sched g followsCaller w hd
  | .add c x => by
    simp only [call, ChainCall.Enters, or_false]
    split
    · rename_i w' hw
      rw [frozen_appendToChain hw]
    · exact Iff.rfl
  | .make cmd => by
    simp only [call, ChainCall.Enters, or_false]
    exact Iff.rfl

theorem calls_cons (w : World) (k : ChainCall) (ks : List ChainCall) : w.calls (k :: ks) = (w.call k).calls ks :=
  rfl

theorem calls_append (w : World) (ks more : List ChainCall) : w.calls (ks ++ more) = (w.calls ks).calls more := by
  simp [calls]

theorem chainsGrow_calls : ∀ (w : World) (ks : List ChainCall), w.ChainsGrow (w.calls ks)
  | w, [] => ChainsGrow.refl w
  | w, k :: ks => (chainsGrow_call w k).trans (chainsGrow_calls (w.call k) ks)

/-- Over a sequence of calls, a chain is frozen exactly when it was at the start or one of the calls entered it. -/
theorem frozen_calls {d : ChainId} : ∀ (w : World) (ks : List ChainCall), d < w.chains.size →
    (((w.calls ks).chainAt d).frozen = true ↔
      (w.chainAt d).frozen = true ∨ ∃ pre k post, ks = pre ++ k :: post ∧ k.Enters (w.calls pre) d)
  | w, [], _ => by simp [calls]
  | w, k :: ks, hd => by
    -- the call entering the chain is the first one, or one of the rest made from the world the first one left
    have hd' : d < (w.call k).chains.size := (chainsGrow_call w k).size_eq ▸ hd
    rw [calls_cons, frozen_calls (w.call k) ks hd', frozen_call w hd k, or_assoc]
    simp only [List.cons_eq_append_iff]
    constructor
    · rintro (h | h | ⟨pre, k', post, rfl, he⟩)
      · exact .inl h
      · exact .inr ⟨[], k, ks, .inl ⟨rfl, rfl⟩, h⟩
      · exact .inr ⟨k :: pre, k', post, .inr ⟨pre, rfl, rfl⟩, he⟩
    · rintro (h | ⟨pre, k', post, ⟨rfl, hks⟩ | ⟨pre', rfl, rfl⟩, he⟩)
      · exact .inl h
      · obtain ⟨rfl, rfl⟩ := List.cons.inj hks
        exact .inr (.inl he)
      · exact .inr (.inr ⟨pre', k', post, rfl, he⟩)

/-- What freezing guarantees of chain `d` after the calls `ks` from `w`: it is frozen exactly when a call entered it;
while it is open an append succeeds and adds the command at its end; once it is frozen an append is refused as an
invalid state and changes nothing, and it stays frozen through any later calls, every later execution running the
commands it held. -/
structure ChainFreezing (w : World) (ks : List ChainCall) (d : ChainId) : Prop where
  frozen_iff : ((w.calls ks).chainAt d).frozen = true ↔
    (w.chainAt d).frozen = true ∨ ∃ pre k post, ks = pre ++ k :: post ∧ k.Enters (w.calls pre) d
  add_open : ((w.calls ks).chainAt d).frozen = false → ∀ x, ∃ w', (w.calls ks).appendToChain d x = .ok w' ∧
    (w'.chainAt d).commands = ((w.calls ks).chainAt d).commands.push x ∧
    ∀ e, e ≠ d → w'.chainAt e = (w.calls ks).chainAt e
  add_frozen : ((w.calls ks).chainAt d).frozen = true → ∀ x,
    (w.calls ks).appendToChain d x = .error (.invalidState ("chain '" ++ ((w.calls ks).chainAt d).name ++
      "' is frozen; cannot add command '" ++ (w.calls ks).commandName x ++ "'")) ∧
    (w.calls ks).call (.add d x) = w.calls ks
  stays : ((w.calls ks).chainAt d).frozen = true → ∀ more, ((w.calls (ks ++ more)).chainAt d).frozen = true ∧
    ((w.calls (ks ++ more)).freeze d).2 = ((w.calls ks).chainAt d).commands.toList

theorem chainFreezing (w : World) (ks : List ChainCall) {d : ChainId} (hd : d < w.chains.size) :
    ChainFreezing w ks d where
  frozen_iff := frozen_calls w ks hd
  add_open hf x := by
    obtain ⟨w', hw⟩ := (appendToChain_ok_iff _ d x).mpr hf
    have hd' : d < (w.calls ks).chains.size := (chainsGrow_calls w ks).size_eq ▸ hd
    refine ⟨w', hw, ?_, fun e he => ?_⟩
    · rw [(appendToChain_ok hw).2, chainAt_modify, if_pos ⟨rfl, hd'⟩]
    · rw [(appendToChain_ok hw).2, chainAt_modify, if_neg (fun h => he h.1.symm)]
  add_frozen hf x := by
    have herr := appendToChain_of_frozen hf x
    refine ⟨herr, ?_⟩
    simp only [call, herr]
  stays hf more := by
    obtain ⟨hfr, hcmds⟩ := (chainsGrow_calls (w.calls ks) more).frozen d hf
    rw [calls_append]
    exact ⟨hfr, by rw [freeze_snd, hcmds]⟩

end World

/-- A chain's command list is fixed from the moment it is first executed: no effect of a command thaws a chain or
changes a frozen one's commands, and over any sequence of calls `ChainFreezing` holds. -/
theorem chain_commands_fixed_at_first_execution :
    World.Stable World.ChainsGrow ∧
      ∀ (w : World) (ks : List World.ChainCall) (d : ChainId), d < w.chains.size → World.ChainFreezing w ks d :=
  ⟨World.stable_chainsGrow, fun w ks _ hd => World.chainFreezing w ks hd⟩

/-- A parent chain whose first command appends command 3 to the chain it runs next, and a guarded chain whose first
command fails before its nested chain. -/
def nestedAppendWorld : World where
  commands := #[.append "adder" 1 3, .chain 1, .script { name := "first" }, .script { name := "added" },
    .raise "stop" (.text "boom"), .chain 3]
  chains := #[{ name := "parent", commands := #[0, 1] }, { name := "inner", commands := #[2] },
    { name := "guarded", commands := #[4, 5] }, { name := "unreached" }]

/-- Executing the parent and then the guarded chain: the inner chain, still open when the parent's first command
appends to it, is frozen when the parent gets to it and runs the command appended; the chain the guarded chain never
gets to stays open. -/
theorem nested_append_runs :
    World.ChainFreezing nestedAppendWorld [.execute 0, .execute 2] 1 ∧
      World.ChainFreezing nestedAppendWorld [.execute 0, .execute 2] 3 ∧
      ((nestedAppendWorld.calls [.execute 0, .execute 2]).chainAt 1).frozen = true ∧
      ((nestedAppendWorld.calls [.execute 0, .execute 2]).chainAt 1).commands.toList = [2, 3] ∧
      (nestedAppendWorld.calls [.execute 0, .execute 2]).events.toList =
        ["add:adder:ok", "run:first", "run:added", "run:stop"] ∧
      ((nestedAppendWorld.calls [.execute 0, .execute 2]).chainAt 3).frozen = false :=
  ⟨chain_commands_fixed_at_first_execution.2 _ _ _ (by decide),
    chain_commands_fixed_at_first_execution.2 _ _ _ (by decide), by cbv, by cbv, by cbv, by cbv⟩

end CommandEngine
