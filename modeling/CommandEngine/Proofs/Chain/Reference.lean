import CommandEngine.Chain
import Mathlib

/-!
# A chain's execution, stated by the index of its last command

`World.chainReference` says what executing a chain does in the words of its documentation: the commands run in order
up to the first one whose answer stops the chain (the last command if none does); then every filter among the commands
that ran cleans up, the last one first, each shown the failure of the forward pass, and whatever the others answer or
however they fail; a failure that no filter reports handled is wrapped once, with the context's keys after the cleanup.
`World.executeChain_eq_reference` proves that the chain's loop does exactly that, for every way of running its commands.

The two differ in shape: the loop keeps the commands it reached, last first, and stops as it goes; the reference finds the
index of the last command first (`World.stopIndex`), and cleans up by a left fold that remembers whether a filter
handled the failure (`World.cleanupAll`).
-/

namespace CommandEngine

/-- Whether an answer lets the forward pass go on to the next command. -/
def goesOn : Except Interrupt Outcome → Bool
  | .ok .proceed => true
  | _ => false

namespace World

/-- The world after the commands `ids` ran one after another from `w`, whatever each answered. -/
def runAll (run : Runner) (ids : List CommandId) (w : World) : World :=
  ids.foldl (fun w id => (run id w).1) w

/-- The answer of command `i` of `cmds`, run after the commands before it. -/
def answerAt (run : Runner) (cmds : List CommandId) (w : World) (i : Nat) : Except Interrupt Outcome :=
  (run (cmds.getD i 0) (w.runAll run (cmds.take i))).2

/-- The index of the last command the forward pass reaches: the first whose answer stops the chain, else the last. -/
def stopIndex (run : Runner) (cmds : List CommandId) (w : World) : Nat :=
  ((List.range cmds.length).find? fun i => !goesOn (w.answerAt run cmds i)).getD (cmds.length - 1)

/-- The cleanup of command `id` if it is a filter, shown `shown`; the flag records whether a filter so far reported the
failure handled, and a cleanup that fails leaves it as it was. -/
def cleanupStep (shown : Option String) (acc : World × Bool) (id : CommandId) : World × Bool :=
  match acc.1.postprocess shown (acc.1.command id) with
  | some (w, .ok handled) => (w, acc.2 || handled)
  | some (w, .error _) => (w, acc.2)
  | none => acc

/-- The cleanup of every filter among `ids`, in the order listed, each shown `shown`, with whether one of them reported
the failure handled. -/
def cleanupAll (shown : Option String) (ids : List CommandId) (w : World) : World × Bool :=
  ids.foldl (cleanupStep shown) (w, false)

/-- A chain's execution as its documentation states it. -/
def chainReference (run : Runner) (c : ChainId) (w : World) : World × Except ChainStop Outcome :=
  let (w, cmds) := w.freeze c
  if cmds = [] then (w, .ok .proceed)
  else
    let k := w.stopIndex run cmds
    let reached := cmds.take (k + 1)
    let ran := w.runAll run reached
    match w.answerAt run cmds k with
    | .error (.panicked m) => (ran, .error (.panicked m))
    | .ok o => ((ran.cleanupAll none reached.reverse).1, .ok o)
    | .error (.failed f) =>
      let (w, handled) := ran.cleanupAll (some f.message) reached.reverse
      if handled then (w, .ok .proceed)
      else (w, .error (.failed (ExecutionError.ofFault (w.commandName (cmds.getD k 0)) w.context.keys f)))

/-! ## The answers of the commands, one after another -/

variable (run : Runner)

@[simp] theorem runAll_nil (w : World) : w.runAll run [] = w := rfl

@[simp] theorem runAll_cons (id : CommandId) (ids : List CommandId) (w : World) :
    w.runAll run (id :: ids) = (run id w).1.runAll run ids := rfl

@[simp] theorem answerAt_cons_zero (id : CommandId) (rest : List CommandId) (w : World) :
    w.answerAt run (id :: rest) 0 = (run id w).2 := rfl

@[simp] theorem answerAt_cons_succ (id : CommandId) (rest : List CommandId) (w : World) (i : Nat) :
    w.answerAt run (id :: rest) (i + 1) = (run id w).1.answerAt run rest i := rfl

/-- The forward pass stops at the first command unless it lets the chain go on and another command follows. -/
theorem stopIndex_cons (id : CommandId) (rest : List CommandId) (w : World) :
    w.stopIndex run (id :: rest) =
      if goesOn (run id w).2 = true ∧ rest ≠ [] then (run id w).1.stopIndex run rest + 1 else 0 := by
  unfold stopIndex
  rw [List.length_cons, List.range_succ_eq_map, List.find?_cons]
  by_cases hgo : goesOn (run id w).2 = true
  · simp only [answerAt_cons_zero, hgo, Bool.not_true, List.find?_map, Function.comp_def, answerAt_cons_succ]
    cases hf : (List.range rest.length).find? (fun i => !goesOn ((run id w).1.answerAt run rest i)) with
    | none =>
      cases rest with
      | nil => simp
      | cons _ _ => simp
    | some j =>
      have hj : j < rest.length := List.mem_range.mp (List.mem_of_find?_eq_some hf)
      have hne : rest ≠ [] := List.ne_nil_of_length_pos (by omega)
      simp [hne]
  · simp [hgo]

/-- The forward pass stops at one of the chain's commands. -/
theorem stopIndex_lt {cmds : List CommandId} (hne : cmds ≠ []) (w : World) : w.stopIndex run cmds < cmds.length := by
  unfold stopIndex
  cases hf : (List.range cmds.length).find? (fun i => !goesOn (w.answerAt run cmds i)) with
  | none => simpa using List.length_pos_of_ne_nil hne
  | some j => exact List.mem_range.mp (List.mem_of_find?_eq_some hf)

/-! ## The forward pass -/

@[simp] theorem goesOn_iff {a : Except Interrupt Outcome} : goesOn a = true ↔ a = .ok .proceed := by
  rcases a with (f | m) | (_ | _) <;> simp [goesOn]

/-- A command that lets the chain go on hands the forward pass to the next one. -/
theorem forward_cons_of_proceed (reached : List CommandId) {id : CommandId} (rest : List CommandId) {w : World}
    (h : (run id w).2 = .ok .proceed) :
    w.forward run reached (id :: rest) = (run id w).1.forward run (id :: reached) rest := by
  rw [forward]
  revert h
  rcases run id w with ⟨w₁, a⟩
  intro h
  simp only at h
  subst h
  rfl

/-- A command whose answer stops the chain ends the forward pass there. -/
theorem forward_cons_of_stop (reached : List CommandId) {id : CommandId} (rest : List CommandId) {w : World}
    (h : goesOn (run id w).2 = false) :
    w.forward run reached (id :: rest) = ((run id w).1, match (run id w).2 with
      | .ok o => .ended o (id :: reached)
      | .error (.failed f) => .failed f (id :: reached)
      | .error (.panicked m) => .panicked m) := by
  rw [forward]
  revert h
  rcases run id w with ⟨w₁, (f | m) | (_ | _)⟩ <;> simp [goesOn]

/-- The forward pass runs the commands up to its stop index, and ends as the answer there says; the commands it
reached are those, the last first, before the ones reached already. -/
theorem forward_eq (reached : List CommandId) : ∀ (cmds : List CommandId) (w : World), cmds ≠ [] →
    w.forward run reached cmds =
      match w.answerAt run cmds (w.stopIndex run cmds) with
      | .ok o => (w.runAll run (cmds.take (w.stopIndex run cmds + 1)),
          .ended o ((cmds.take (w.stopIndex run cmds + 1)).reverse ++ reached))
      | .error (.failed f) => (w.runAll run (cmds.take (w.stopIndex run cmds + 1)),
          .failed f ((cmds.take (w.stopIndex run cmds + 1)).reverse ++ reached))
      | .error (.panicked m) => (w.runAll run (cmds.take (w.stopIndex run cmds + 1)), .panicked m)
  | [], _, hne => absurd rfl hne
  | id :: rest, w, _ => by
    rw [stopIndex_cons]
    by_cases hgo : goesOn (run id w).2 = true ∧ rest ≠ []
    · -- the first command lets the chain go on: the pass goes on with the rest
      rw [if_pos hgo, forward_cons_of_proceed run reached rest (goesOn_iff.mp hgo.1),
        forward_eq (id :: reached) rest _ hgo.2]
      simp [List.take_succ_cons]
    · rw [if_neg hgo]
      simp only [answerAt_cons_zero, List.take_succ_cons, List.take_zero, runAll_cons, runAll_nil,
        List.reverse_cons, List.reverse_nil, List.nil_append, List.singleton_append]
      by_cases hstop : goesOn (run id w).2 = true
      · -- the last command lets the chain go on, and the pass ends after it
        have hnil : rest = [] := by simpa [hstop] using hgo
        have hrun := goesOn_iff.mp hstop
        subst hnil
        rw [forward_cons_of_proceed run reached [] hrun, hrun]
        rfl
      · rw [forward_cons_of_stop run reached rest (Bool.eq_false_iff.mpr hstop)]
        rcases (run id w).2 with (f | m) | o <;> rfl

/-! ## The unwind -/

/-- Cleaning up from an accumulator that already knows of a handled failure keeps knowing of it. -/
theorem cleanupAll_foldl (shown : Option String) : ∀ (ids : List CommandId) (w : World) (b : Bool),
    ids.foldl (cleanupStep shown) (w, b) = ((w.unwind shown ids).1, b || (w.unwind shown ids).2)
  | [], w, b => by simp [unwind]
  | id :: rest, w, b => by
    simp only [List.foldl_cons, unwind, cleanupStep]
    rcases w.postprocess shown (w.command id) with _ | ⟨w', _ | handled⟩
    · exact cleanupAll_foldl shown rest w b
    · exact cleanupAll_foldl shown rest w' b
    · rw [cleanupAll_foldl shown rest w' (b || handled), Bool.or_assoc]

/-- The unwind calls the same cleanups as the reference's left fold, and finds the failure handled exactly when one of
them reported it handled. -/
theorem unwind_eq_cleanupAll (shown : Option String) (ids : List CommandId) (w : World) :
    w.unwind shown ids = w.cleanupAll shown ids := by
  rw [cleanupAll, cleanupAll_foldl, Bool.false_or]

/-! ## The whole execution -/

/-- Executing a chain is its reference: for every way of running its commands, a chain runs exactly its commands up to
the first one that stops it, cleans up exactly the filters among them, the last first, each shown the failure, and ends
as the reference says. -/
theorem executeChain_eq_reference (c : ChainId) (w : World) : w.executeChain run c = w.chainReference run c := by
  unfold executeChain chainReference
  generalize w.freeze c = fz
  obtain ⟨w, cmds⟩ := fz
  simp only [List.isEmpty_iff]
  split
  · rfl
  · rename_i hne
    have hk := stopIndex_lt run hne w
    -- the last command reached is the command at the stop index
    have hhead : (cmds.take (w.stopIndex run cmds + 1)).reverse.headD 0 = cmds.getD (w.stopIndex run cmds) 0 := by
      rw [List.take_add_one, List.reverse_append]
      simp [List.getElem?_eq_getElem hk, List.getD_eq_getElem?_getD]
    rw [forward_eq run [] cmds w hne]
    rcases w.answerAt run cmds (w.stopIndex run cmds) with (f | m) | o
    · simp only [unwind_eq_cleanupAll, List.append_nil, hhead]
    · rfl
    · simp only [unwind_eq_cleanupAll, List.append_nil]

end World

end CommandEngine
