import CommandEngine.Proofs.Chain.Reference
import CommandEngine.Graph.Scheduler

/-!
# A failure is wrapped once

A command's failure reaches the caller of its chain as an execution error, made by `ExecutionError.ofFault`: a fault
that already is an execution error, bare or inside an engine error, is kept as it is whatever command name and keys are
offered, and any other fault is wrapped with the command's name, the context's keys and its text. Wrapping again
therefore changes nothing.

A chain that is a command of another chain fails as an engine error holding its own execution error, which the chain
around it keeps. So however deeply chains nest, the failure a chain's caller receives is the one built by the innermost
chain on the path of commands at which each forward pass stopped (`World.StopsWithin`): it names the innermost failing
command, carries that command's fault, and holds the keys of the context right after that innermost chain's unwind
(`World.failure_from_innermost`). A graph run records the same error for a node whose command is a chain.
-/

namespace CommandEngine

/-- The execution error a fault already is: bare, or inside an engine error. -/
def Fault.wrapped? : Fault → Option ExecutionError
  | .execution e => some e
  | .engine (.execution e) => some e
  | _ => none

namespace ExecutionError

/-- Wrapping keeps the execution error a fault already is, and otherwise builds one from the command's name, the keys
and the fault's text. -/
theorem ofFault_eq_getD (c : String) (keys : List String) (f : Fault) :
    ofFault c keys f = f.wrapped?.getD ⟨c, keys, f.message⟩ := by
  rcases f with m | e | e
  · rfl
  · cases e <;> rfl
  · rfl

theorem ofFault_of_wrapped {f : Fault} {e : ExecutionError} (h : f.wrapped? = some e) (c : String)
    (keys : List String) : ofFault c keys f = e := by
  rw [ofFault_eq_getD, h, Option.getD_some]

end ExecutionError

namespace World

/-! ## Where a chain fails -/

/-- The command at which the forward pass of chain `c`, executed from `w`, stops, and the world that command runs from. -/
def stopOf (run : Runner) (c : ChainId) (w : World) : CommandId × World :=
  let (w, cmds) := w.freeze c
  let k := w.stopIndex run cmds
  (cmds.getD k 0, w.runAll run (cmds.take k))

/-- A chain fails only when it has commands and the one where its forward pass stopped failed; the error it gives is
that command's fault, wrapped with the keys of the context after the unwind. -/
theorem executeChain_failed {run : Runner} {c : ChainId} {w w' : World} {e : ExecutionError}
    (h : w.executeChain run c = (w', .error (.failed e))) :
    (w.freeze c).2 ≠ [] ∧ ∃ f, (run (w.stopOf run c).1 (w.stopOf run c).2).2 = .error (.failed f) ∧
      e = ExecutionError.ofFault (w'.commandName (w.stopOf run c).1) w'.context.keys f := by
  unfold executeChain at h
  unfold stopOf
  generalize w.freeze c = fz at h ⊢
  obtain ⟨w₀, cmds⟩ := fz
  dsimp only at h ⊢
  split at h
  · cases h
  · rename_i hne
    have hne : cmds ≠ [] := by simpa using hne
    refine ⟨hne, ?_⟩
    rw [forward_eq run [] cmds w₀ hne] at h
    rcases ha : w₀.answerAt run cmds (w₀.stopIndex run cmds) with (f | m) | o
    · rw [ha] at h
      dsimp only at h
      generalize (w₀.runAll run (cmds.take (w₀.stopIndex run cmds + 1))).unwind (some f.message)
        ((cmds.take (w₀.stopIndex run cmds + 1)).reverse ++ []) = cu at h
      obtain ⟨w₂, handled⟩ := cu
      cases handled
      · -- no filter handled the failure: it is wrapped, naming the last command reached, the one at the stop index
        simp only [Bool.false_eq_true, if_false, Prod.mk.injEq, Except.error.injEq, ChainStop.failed.injEq] at h
        obtain ⟨rfl, rfl⟩ := h
        refine ⟨f, ha, ?_⟩
        rw [List.append_nil, List.take_add_one, List.reverse_append]
        simp [List.getElem?_eq_getElem (stopIndex_lt run hne w₀), List.getD_eq_getElem?_getD]
      · simp at h
    · rw [ha] at h
      simp at h
    · rw [ha] at h
      simp at h

/-- A command that is a chain and fails runs that chain, with one level of nesting less, to a failure it hands on as an
engine error. -/
theorem exec_chain_failed {n : Nat} {id : CommandId} {w : World} {c : ChainId} (hc : w.command id = .chain c)
    {f : Fault} (h : (exec (n + 1) id w).2 = .error (.failed f)) :
    ∃ w' e, w.executeChain (exec n) c = (w', .error (.failed e)) ∧ f = .engine (.execution e) := by
  simp only [exec, hc] at h
  revert h
  rcases w.executeChain (exec n) c with ⟨w', (e | m) | o⟩
  · intro h
    simp only [Except.error.injEq, Interrupt.failed.injEq] at h
    exact ⟨w', e, rfl, h.symm⟩
  · simp
  · simp

/-- A command that is not a chain does what it does on its own. -/
theorem exec_plain {n : Nat} {id : CommandId} {w : World} (hc : ∀ c, w.command id ≠ .chain c) :
    exec (n + 1) id w = w.runPlain (w.command id) := by
  rw [exec]
  split
  · rename_i c hc'
    exact absurd hc' (hc c)
  · rfl

/-! ## Chains within chains -/

/-- `StopsWithin n c w m c' w'`: executing chain `c` from `w`, with `n` levels of nesting left, executes chain `c'` from
`w'`, with `m` levels left, as the command at which its forward pass stopped, directly or through the chains in between,
each the command at which the pass of the chain around it stopped. -/
inductive StopsWithin : Nat → ChainId → World → Nat → ChainId → World → Prop
  | refl (n : Nat) (c : ChainId) (w : World) : StopsWithin n c w n c w
  | nested {n : Nat} {c : ChainId} {w : World} {c₁ : ChainId} {m : Nat} {c' : ChainId} {w' : World} :
      (w.freeze c).2 ≠ [] →
      (w.stopOf (exec (n + 1)) c).2.command (w.stopOf (exec (n + 1)) c).1 = .chain c₁ →
      StopsWithin n c₁ (w.stopOf (exec (n + 1)) c).2 m c' w' → StopsWithin (n + 1) c w m c' w'

/-- Chain `c`, executed from `w` with `n` levels of nesting left, stopped at a command that is no chain and failed on its
own with `f`. -/
def StopsAtOwnFailure (n : Nat) (c : ChainId) (w : World) (f : Fault) : Prop :=
  (∀ c', (w.stopOf (exec n) c).2.command (w.stopOf (exec n) c).1 ≠ .chain c') ∧
    ((w.stopOf (exec n) c).2.runPlain ((w.stopOf (exec n) c).2.command (w.stopOf (exec n) c).1)).2 =
      .error (.failed f)

/-- However deeply chains nest, the failure a chain gives its caller is the one its innermost chain built: the innermost
chain on the path of stopping commands stopped at a command that is no chain, and wrapped that command's own fault with
the keys of the context right after its unwind. -/
theorem failure_from_innermost : ∀ (n : Nat) (c : ChainId) (w w' : World) (e : ExecutionError),
    w.executeChain (exec n) c = (w', .error (.failed e)) →
      ∃ m c' w₁ w₂ f, StopsWithin n c w m c' w₁ ∧ StopsAtOwnFailure m c' w₁ f ∧
        w₁.executeChain (exec m) c' = (w₂, .error (.failed e)) ∧
        e = ExecutionError.ofFault (w₂.commandName (w₁.stopOf (exec m) c').1) w₂.context.keys f
  | 0, _, _, _, _, h => by
    -- with no level of nesting left, every command panics
    obtain ⟨-, f, hf, -⟩ := executeChain_failed h
    simp [exec] at hf
  | n + 1, c, w, w', e, h => by
    obtain ⟨hne, f, hf, he⟩ := executeChain_failed h
    generalize hs : w.stopOf (exec (n + 1)) c = s at hf he
    obtain ⟨ck, wk⟩ := s
    by_cases hchain : ∃ c₁, wk.command ck = .chain c₁
    · -- the chain stopped at a chain, whose failure it hands on unchanged
      obtain ⟨c₁, hc₁⟩ := hchain
      obtain ⟨w₂, e₁, hx, rfl⟩ := exec_chain_failed hc₁ hf
      rw [ExecutionError.ofFault_of_wrapped rfl] at he
      subst he
      obtain ⟨m, c', w₁, w₃, f', hw, hown, hx', he'⟩ := failure_from_innermost n c₁ wk w₂ e hx
      exact ⟨m, c', w₁, w₃, f', .nested hne (by rw [hs]; exact hc₁) (by rw [hs]; exact hw), hown, hx', he'⟩
    · -- the chain stopped at a command of its own, and built the error itself
      simp only [not_exists] at hchain
      refine ⟨n + 1, c, w, w', f, .refl _ _ _, ?_, h, by rw [hs]; exact he⟩
      unfold StopsAtOwnFailure
      rw [hs, ← exec_plain hchain]
      exact ⟨hchain, hf⟩

end World

/-! ## Wrapped once -/

/-- How the engine wraps a command's failure. -/
structure WrapsOnce : Prop where
  /-- A fault that already is an execution error is kept, whatever the command name and keys; any other fault is wrapped
  with them and its text. -/
  ofFault_eq : ∀ c keys f, ExecutionError.ofFault c keys f = f.wrapped?.getD ⟨c, keys, f.message⟩
  /-- Wrapping an execution error again, bare or inside an engine error, gives it back. -/
  rewrap : ∀ e c keys, ExecutionError.ofFault c keys (.execution e) = e ∧
    ExecutionError.ofFault c keys (.engine (.execution e)) = e
  /-- However deeply chains nest, a chain fails with the error its innermost chain built. -/
  nested : ∀ n c (w w' : World) e, w.executeChain (World.exec n) c = (w', .error (.failed e)) →
    ∃ m c' w₁ w₂ f, World.StopsWithin n c w m c' w₁ ∧ World.StopsAtOwnFailure m c' w₁ f ∧
      w₁.executeChain (World.exec m) c' = (w₂, .error (.failed e)) ∧
      e = ExecutionError.ofFault (w₂.commandName (w₁.stopOf (World.exec m) c').1) w₂.context.keys f
  /-- A graph node whose command is a chain records the chain's own failure. -/
  recorded : ∀ (w w' : World) id c f, w.command id = .chain c → w.runCommand id = (w', .error (.failed f)) →
    ∃ e, w.runChain c = (w', .error (.failed e)) ∧
      ∀ (r : Graph.Run) v (wr : World), (r.recordFailure wr v f).failures = r.failures.push e

/-- A command's failure is wrapped exactly once, however deeply chains nest, and a graph run records it as it is. -/
theorem failure_wrapped_once : WrapsOnce where
  ofFault_eq := ExecutionError.ofFault_eq_getD
  rewrap e c keys := ⟨ExecutionError.ofFault_of_wrapped rfl c keys, ExecutionError.ofFault_of_wrapped rfl c keys⟩
  nested := World.failure_from_innermost
  recorded w w' id c f hc h := by
    have h2 : (World.exec (w.chains.size + 1) id w).2 = .error (.failed f) := by
      rw [← World.runCommand, h]
    obtain ⟨w'', e, hx, rfl⟩ := World.exec_chain_failed hc h2
    -- the chain's run leaves the world that the command's run leaves
    have hw : w'' = w' := by
      have h1 : (World.exec (w.chains.size + 1) id w).1 = w' := by rw [← World.runCommand, h]
      simpa [World.exec, hc, hx] using h1
    subst hw
    have hwr : (Fault.engine (.execution e)).wrapped? = some e := rfl
    exact ⟨e, hx, fun r v wr => by simp only [Graph.Run.recordFailure, ExecutionError.ofFault_of_wrapped hwr]⟩

end CommandEngine
