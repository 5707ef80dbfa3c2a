import CommandEngine.Graph.RunState
import CommandEngine.Proofs.Graph.WellFormed

/-!
# Settling a node

When a node ends, `RunState.complete` settles every edge out of it, and, for a failure under the policy that skips
dependents, every edge out of each dependent it skips, through a stack of skipped nodes still to be settled.

The counters of a run agree with its node states (`RunState.Tally`): the counter of a node is the number of edges into
it from nodes that have not released theirs, where a node releases its edges once it succeeded, failed or was skipped
(a cancelled node never does). Under the policy that skips dependents, every dependent of a failed or skipped node is
skipped, and every skipped node lies below a failed one.

`complete_spec` says what completing a running node does: it ends the node, skips exactly the pending nodes it must,
takes every released edge off its counter once and only once (so no counter is ever found at zero), and reports as
ready exactly the pending nodes whose counter reached zero. Its proof carries the invariant `RunState.Drain` through
every edge the work stack settles.
-/

namespace CommandEngine

/-- Whether a node in this state has released the edges out of it: it succeeded, failed or was skipped. -/
def NodeState.releases : NodeState → Bool
  | .succeeded | .failed | .skipped => true
  | _ => false

namespace Graph

namespace RunState

/-- How many edges into `x` are still to be settled. -/
def pendingOf (s : RunState) (x : Nat) : Nat :=
  s.pending.getD x 0

/-- The dependents of node `u`, as the run keeps them. -/
def dependentsOf (s : RunState) (u : Nat) : List Nat :=
  s.dependents.getD u []

/-- The edge `u → x`, as the run keeps it. -/
def Edge (s : RunState) (u x : Nat) : Prop :=
  x ∈ s.dependentsOf u

/-- The number of edges into `x` from nodes that have not released theirs. -/
def owed (s : RunState) (x : Nat) : Nat :=
  ∑ u ∈ Finset.range s.states.size, if (s.stateOf u).releases then 0 else (s.dependentsOf u).count x

/-- The number of pending nodes. -/
def pendingCount (s : RunState) : Nat :=
  ∑ u ∈ Finset.range s.states.size, if s.stateOf u = .pending then 1 else 0

/-- The edges into `x` from the nodes of a work stack. -/
def debt (s : RunState) (W : List Nat) (x : Nat) : Nat :=
  (W.map fun u => (s.dependentsOf u).count x).sum

/-- The counters agree with the node states. -/
structure Tally (s : RunState) : Prop where
  pending_size : s.pending.size = s.states.size
  dependents_lt : ∀ u, ∀ x ∈ s.dependentsOf u, x < s.states.size
  counter : ∀ x < s.states.size, s.pendingOf x = s.owed x
  /-- A node that is neither pending nor skipped has seen every edge into it settle. -/
  released : ∀ x < s.states.size, s.stateOf x ≠ .pending → s.stateOf x ≠ .skipped → s.pendingOf x = 0
  closure : s.policy = .skipDependents →
    ∀ u x, s.Edge u x → s.stateOf u = .failed ∨ s.stateOf u = .skipped → s.stateOf x = .skipped
  origin : ∀ x, s.stateOf x = .skipped → ∃ f, s.stateOf f = .failed ∧ Relation.TransGen s.Edge f x
  noSkip : s.policy = .runDependents → ∀ x, s.stateOf x ≠ .skipped

/-! ## Writing one counter or one state -/

section Writes

variable (s : RunState) (v x : Nat)

@[simp] theorem pendingOf_setPending (k : Nat) :
    ({ s with pending := s.pending.setIfInBounds v k } : RunState).pendingOf x =
      if v = x ∧ v < s.pending.size then k else s.pendingOf x := by
  simp only [pendingOf, Array.getD_eq_getD_getElem?, Array.getElem?_setIfInBounds]
  by_cases h : v = x
  · subst h
    by_cases hv : v < s.pending.size <;> simp [hv]
  · simp [h]

@[simp] theorem stateOf_setPending (k : Nat) :
    ({ s with pending := s.pending.setIfInBounds v k } : RunState).stateOf x = s.stateOf x := rfl

@[simp] theorem dependentsOf_setPending (k : Nat) :
    ({ s with pending := s.pending.setIfInBounds v k } : RunState).dependentsOf x = s.dependentsOf x := rfl

@[simp] theorem pendingOf_setState (st : NodeState) :
    ({ s with states := s.states.setIfInBounds v st } : RunState).pendingOf x = s.pendingOf x := rfl

@[simp] theorem dependentsOf_setState (st : NodeState) :
    ({ s with states := s.states.setIfInBounds v st } : RunState).dependentsOf x = s.dependentsOf x := rfl

theorem owed_setPending (k : Nat) :
    ({ s with pending := s.pending.setIfInBounds v k } : RunState).owed = s.owed := rfl

end Writes

/-- Two sums over a range whose terms differ at one index differ by those two terms. -/
theorem sum_range_update {f g : Nat → Nat} {n v : Nat} (hv : v < n) (h : ∀ u, u ≠ v → f u = g u) :
    ∑ u ∈ Finset.range n, f u + g v = ∑ u ∈ Finset.range n, g u + f v := by
  have hm : v ∈ Finset.range n := Finset.mem_range.mpr hv
  have hf := Finset.add_sum_erase _ f hm
  have hg := Finset.add_sum_erase _ g hm
  have hrest : ∑ u ∈ (Finset.range n).erase v, f u = ∑ u ∈ (Finset.range n).erase v, g u :=
    Finset.sum_congr rfl fun u hu => h u (Finset.ne_of_mem_erase hu)
  omega

/-- Releasing the edges of one node takes them off what is owed. -/
theorem owed_release {s : RunState} {v : Nat} (hv : v < s.states.size) {st : NodeState}
    (hst : (s.stateOf v).releases = false) (hst' : st.releases = true) (x : Nat) :
    ({ s with states := s.states.setIfInBounds v st } : RunState).owed x + (s.dependentsOf v).count x = s.owed x := by
  unfold owed
  rw [Array.size_setIfInBounds]
  have := sum_range_update (n := s.states.size) (v := v) hv
    (f := fun u => if (({ s with states := s.states.setIfInBounds v st } : RunState).stateOf u).releases then 0
      else (s.dependentsOf u).count x)
    (g := fun u => if (s.stateOf u).releases then 0 else (s.dependentsOf u).count x)
    (fun u hu => by simp [stateOf_setIfInBounds, Ne.symm hu])
  simp only [stateOf_setIfInBounds, hv, and_true, if_true, hst', hst, dependentsOf_setState] at this ⊢
  simpa using this

/-- A state that neither is nor becomes one that releases leaves what is owed as it was. -/
theorem owed_keep {s : RunState} {v : Nat} {st : NodeState} (hst : (s.stateOf v).releases = st.releases) :
    ({ s with states := s.states.setIfInBounds v st } : RunState).owed = s.owed := by
  funext x
  unfold owed
  rw [Array.size_setIfInBounds]
  refine Finset.sum_congr rfl (fun u _ => ?_)
  rw [stateOf_setIfInBounds]
  split
  · rename_i h
    obtain ⟨rfl, -⟩ := h
    simp [hst]
  · rfl

/-- Moving one node out of the pending state takes it off the pending count. -/
theorem pendingCount_leave {s : RunState} {v : Nat} (hv : v < s.states.size) {st : NodeState}
    (hst : s.stateOf v = .pending) (hst' : st ≠ .pending) :
    ({ s with states := s.states.setIfInBounds v st } : RunState).pendingCount + 1 = s.pendingCount := by
  unfold pendingCount
  rw [Array.size_setIfInBounds]
  have := sum_range_update (n := s.states.size) (v := v) hv
    (f := fun u => if ({ s with states := s.states.setIfInBounds v st } : RunState).stateOf u = .pending then 1 else 0)
    (g := fun u => if s.stateOf u = .pending then 1 else 0)
    (fun u hu => by simp [stateOf_setIfInBounds, Ne.symm hu])
  simp only [stateOf_setIfInBounds, hv, and_true, if_true, hst', hst] at this ⊢
  simpa using this

/-- At most the nodes other than a node that is not pending are pending. -/
theorem pendingCount_lt {s : RunState} {v : Nat} (hv : v < s.states.size) (hst : s.stateOf v ≠ .pending) :
    s.pendingCount < s.states.size := by
  unfold pendingCount
  have hle : ∀ u ∈ Finset.range s.states.size, (if s.stateOf u = .pending then 1 else 0) ≤ 1 := by
    intro u _
    split <;> omega
  have hlt : (if s.stateOf v = .pending then 1 else 0) < 1 := by simp [hst]
  calc ∑ u ∈ Finset.range s.states.size, (if s.stateOf u = .pending then 1 else 0)
      < ∑ _u ∈ Finset.range s.states.size, 1 := Finset.sum_lt_sum hle ⟨v, Finset.mem_range.mpr hv, hlt⟩
    _ = s.states.size := by simp

theorem debt_cons (s : RunState) (u : Nat) (W : List Nat) (x : Nat) :
    s.debt (u :: W) x = (s.dependentsOf u).count x + s.debt W x := by
  simp [debt]

theorem debt_perm (s : RunState) {W W' : List Nat} (h : W.Perm W') (x : Nat) : s.debt W x = s.debt W' x :=
  (h.map _).sum_eq

/-! ## The invariant of the work stack -/

/-- What holds at every step of `complete` once the completed node's own state is written (`s₀`): each counter owes
the edges of the nodes that have not released theirs, of the nodes on the work stack `W`, and the edges `L` of the node
`cur` in hand; only pending nodes were skipped, each listed once; the nodes reported ready are pending with a counter
at zero, and so is every pending node whose counter is at zero; every dependent of a failed or skipped node is skipped
unless its edge is still to be settled; and every skipped node lies below a failed one. -/
structure Drain (skip : Bool) (s₀ : RunState) (W : List Nat) (cur : Nat) (L : List Nat) (s : RunState)
    (st : SettleStep) : Prop where
  dependents_eq : s.dependents = s₀.dependents
  policy_eq : s.policy = s₀.policy
  states_size : s.states.size = s₀.states.size
  pending_size : s.pending.size = s.states.size
  dependents_lt : ∀ u, ∀ x ∈ s.dependentsOf u, x < s.states.size
  counter : ∀ x < s.states.size, s.pendingOf x = s.owed x + s.debt W x + L.count x
  work : ∀ u ∈ W, u < s.states.size ∧ (skip → s.stateOf u = .failed ∨ s.stateOf u = .skipped) ∧
    (s.policy = .skipDependents → s.stateOf u = .failed ∨ s.stateOf u = .skipped → skip)
  hand : L ≠ [] → (∀ x ∈ L, s.Edge cur x) ∧ (skip → s.stateOf cur = .failed ∨ s.stateOf cur = .skipped) ∧
    (s.policy = .skipDependents → s.stateOf cur = .failed ∨ s.stateOf cur = .skipped → skip)
  states : ∀ x, s.stateOf x = s₀.stateOf x ∨ (skip ∧ s₀.stateOf x = .pending ∧ s.stateOf x = .skipped)
  skipped_nodup : st.skipped.Nodup
  mem_skipped : ∀ x, x ∈ st.skipped ↔ s₀.stateOf x = .pending ∧ s.stateOf x = .skipped
  ready_nodup : st.ready.Nodup
  mem_ready : ∀ x ∈ st.ready, x < s.states.size ∧ s.stateOf x = .pending ∧ s.pendingOf x = 0
  ready_skip : skip → st.ready = []
  live : ∀ x < s.states.size, s.stateOf x = .pending → 0 < s.pendingOf x ∨ x ∈ st.ready
  released : ∀ x < s.states.size, s.stateOf x ≠ .pending → s.stateOf x ≠ .skipped → s.pendingOf x = 0
  closure : s.policy = .skipDependents → ∀ u x, s.Edge u x → s.stateOf u = .failed ∨ s.stateOf u = .skipped →
    s.stateOf x = .skipped ∨ u ∈ W ∨ (u = cur ∧ x ∈ L)
  origin : ∀ x, s.stateOf x = .skipped → ∃ f, s.stateOf f = .failed ∧ Relation.TransGen s.Edge f x
  /-- What is owed has dropped by exactly the edges of the nodes skipped so far. -/
  owed_skipped : ∀ x, s.owed x + s.debt st.skipped x = s₀.owed x

section Drain

variable {skip : Bool} {s₀ : RunState} {W : List Nat} {cur dep : Nat} {L : List Nat} {s : RunState}
  {st : SettleStep}

/-- The counter of the dependent at the head of the edges in hand is not zero. -/
theorem Drain.pendingOf_pos (h : Drain skip s₀ W cur (dep :: L) s st) :
    dep < s.states.size ∧ 0 < s.pendingOf dep := by
  have hedge : s.Edge cur dep := (h.hand (List.cons_ne_nil _ _)).1 dep List.mem_cons_self
  have hdep := h.dependents_lt cur dep hedge
  have := h.counter dep hdep
  simp only [List.count_cons_self] at this
  exact ⟨hdep, by omega⟩

/-- The state `s` with the counter of `dep` lowered by one. -/
abbrev lower (s : RunState) (dep : Nat) : RunState :=
  { s with pending := s.pending.setIfInBounds dep (s.pendingOf dep - 1) }

theorem pendingOf_lower {s : RunState} {dep : Nat} (hdep : dep < s.pending.size) (x : Nat) :
    (s.lower dep).pendingOf x = if x = dep then s.pendingOf dep - 1 else s.pendingOf x := by
  rw [pendingOf_setPending]
  by_cases hx : x = dep
  · subst hx
    simp [hdep]
  · simp [hx, Ne.symm hx]

/-- Lowering the counter of a dependent that is not skipped here keeps the invariant, given what the step reported. -/
theorem Drain.lower (h : Drain skip s₀ W cur (dep :: L) s st) (st' : SettleStep)
    (hns : s.stateOf dep = .pending → skip = false) (hsk : st'.skipped = st.skipped) (hrn : st'.ready.Nodup)
    (hrm : ∀ x ∈ st'.ready, x < s.states.size ∧ s.stateOf x = .pending ∧ (s.lower dep).pendingOf x = 0)
    (hrs : skip → st'.ready = [])
    (hlive : ∀ x < s.states.size, s.stateOf x = .pending → 0 < (s.lower dep).pendingOf x ∨ x ∈ st'.ready) :
    Drain skip s₀ W cur L (s.lower dep) st' := by
  obtain ⟨hdep, hpos⟩ := h.pendingOf_pos
  have hdp : dep < s.pending.size := h.pending_size ▸ hdep
  -- a dependent that is not pending has an edge still owed, so it can only be skipped
  have hskipped : s.stateOf dep ≠ .pending → s.stateOf dep = .skipped := by
    intro hp
    by_contra hs
    have := h.released dep hdep hp hs
    omega
  have hlow := pendingOf_lower hdp
  refine ⟨h.dependents_eq, h.policy_eq, h.states_size, by simpa using h.pending_size, h.dependents_lt, ?_, h.work,
    fun hL => ?_, h.states, hsk ▸ h.skipped_nodup, hsk ▸ h.mem_skipped, hrn, hrm, hrs, hlive, ?_, ?_, h.origin,
    fun x => by rw [hsk]; exact h.owed_skipped x⟩
  · intro x hx
    have hc := h.counter x hx
    rw [hlow, owed_setPending]
    by_cases hxd : x = dep
    · subst hxd
      simp only [List.count_cons_self] at hc
      simp only [if_true]
      unfold debt at hc ⊢
      simp only [dependentsOf_setPending]
      omega
    · simp [hxd, Ne.symm hxd, debt] at hc ⊢
      exact hc
  · obtain ⟨h1, h2, h3⟩ := h.hand (List.cons_ne_nil _ _)
    exact ⟨fun x hx => h1 x (List.mem_cons_of_mem _ hx), h2, h3⟩
  · intro x hx hp hs
    rw [hlow]
    split
    · rename_i hxd
      subst hxd
      exact absurd (hskipped hp) hs
    · exact h.released x hx hp hs
  · intro hpol u x he hu
    rcases h.closure hpol u x he hu with hx | hx | ⟨rfl, hx⟩
    · exact .inl hx
    · exact .inr (.inl hx)
    · rcases List.mem_cons.mp hx with rfl | hx
      · by_cases hp : s.stateOf x = .pending
        · have := (h.hand (List.cons_ne_nil _ _)).2.2 hpol hu
          simp [hns hp] at this
        · exact .inl (hskipped hp)
      · exact .inr (.inr ⟨rfl, hx⟩)

/-- The state `s` with the counter of `dep` lowered by one and `dep` skipped. -/
abbrev skipOne (s : RunState) (dep : Nat) : RunState :=
  { s.lower dep with states := (s.lower dep).states.setIfInBounds dep .skipped }

/-- Skipping a pending dependent keeps the invariant, with the dependent pushed onto the work stack. -/
theorem Drain.skipOne (h : Drain skip s₀ W cur (dep :: L) s st) (hp : s.stateOf dep = .pending) (hskip : skip = true) :
    Drain skip s₀ (dep :: W) cur L (s.skipOne dep) { st with skipped := st.skipped ++ [dep] } ∧
      (s.skipOne dep).pendingCount + 1 = s.pendingCount := by
  obtain ⟨hdep, hpos⟩ := h.pendingOf_pos
  have hdp : dep < s.pending.size := h.pending_size ▸ hdep
  obtain ⟨hL, hcur, -⟩ := h.hand (List.cons_ne_nil _ _)
  have hcur := hcur hskip
  have hcd : cur ≠ dep := by
    rintro rfl
    rcases hcur with hc | hc <;> simp [hc] at hp
  have hst : ∀ x, (s.skipOne dep).stateOf x = if x = dep then .skipped else s.stateOf x := by
    intro x
    rw [stateOf_setIfInBounds]
    by_cases hx : x = dep
    · subst hx
      simp [hdep]
    · simp [hx, Ne.symm hx]
  have hlow := pendingOf_lower hdp
  have hedge : (s.skipOne dep).Edge = s.Edge := rfl
  have hs₀ : s₀.stateOf dep = .pending := by
    rcases h.states dep with h' | ⟨-, -, h'⟩
    · rw [← h', hp]
    · simp [hp] at h'
  have hW : dep ∉ W := by
    intro hd
    rcases (h.work dep hd).2.1 hskip with h' | h' <;> simp [hp] at h'
  refine ⟨⟨h.dependents_eq, h.policy_eq, by simpa using h.states_size, by simpa using h.pending_size,
    by simpa using h.dependents_lt, ?_, ?_, fun _ => ?_, ?_, ?_, ?_, ?_, ?_, ?_, ?_, ?_, ?_, ?_, ?_⟩, ?_⟩
  · intro x hx
    simp only [Array.size_setIfInBounds] at hx
    have hc := h.counter x hx
    have hrel : (s.skipOne dep).owed x + (s.dependentsOf dep).count x = s.owed x :=
      owed_release (s := s.lower dep) hdep (by simp [hp, NodeState.releases]) rfl x
    have hdebt : (s.skipOne dep).debt (dep :: W) x = (s.dependentsOf dep).count x + s.debt W x := debt_cons _ _ _ _
    have hpx : (s.skipOne dep).pendingOf x = if x = dep then s.pendingOf dep - 1 else s.pendingOf x := hlow x
    rw [hpx, hdebt]
    by_cases hxd : x = dep
    · subst hxd
      simp only [List.count_cons_self, if_true] at hc ⊢
      omega
    · simp only [hxd, if_false, List.count_cons_of_ne (Ne.symm hxd)] at hc ⊢
      omega
  · intro u hu
    rcases List.mem_cons.mp hu with rfl | hu
    · exact ⟨by simpa using hdep, fun _ => .inr (by simp [hst]), fun _ _ => hskip⟩
    · have hud : u ≠ dep := fun e => hW (e ▸ hu)
      obtain ⟨h1, h2, h3⟩ := h.work u hu
      exact ⟨by simpa using h1, by simpa [hst, hud] using h2, by simpa [hst, hud] using h3⟩
  · obtain ⟨-, -, h3⟩ := h.hand (List.cons_ne_nil _ _)
    exact ⟨fun x hx => hL x (List.mem_cons_of_mem _ hx), by simpa [hst, hcd] using fun _ => hcur,
      by simpa [hst, hcd] using h3⟩
  · intro x
    by_cases hxd : x = dep
    · subst hxd
      exact .inr ⟨hskip, hs₀, by simp [hst]⟩
    · simpa [hst, hxd] using h.states x
  · refine List.nodup_append.mpr ⟨h.skipped_nodup, List.nodup_singleton _, ?_⟩
    intro a ha b hb
    rw [List.mem_singleton] at hb
    subst hb
    rintro rfl
    have := ((h.mem_skipped a).mp ha).2
    simp [hp] at this
  · intro x
    by_cases hxd : x = dep
    · subst hxd
      simp [hst, hs₀]
    · simp [hst, hxd, h.mem_skipped x]
  · simpa using h.ready_nodup
  · simp [h.ready_skip hskip]
  · simp [h.ready_skip hskip]
  · intro x hx hxp
    have hxd : x ≠ dep := by
      rintro rfl
      simp [hst] at hxp
    simp only [hst, hxd, if_false] at hxp
    simp only [Array.size_setIfInBounds] at hx
    have := h.live x hx hxp
    simp only [h.ready_skip hskip, List.not_mem_nil, or_false] at this ⊢
    simpa [hlow, hxd] using this
  · intro x hx hxp hxs
    have hxd : x ≠ dep := by
      rintro rfl
      simp [hst] at hxs
    simp only [hst, hxd, if_false] at hxp hxs
    simp only [Array.size_setIfInBounds] at hx
    simpa [hlow, hxd] using h.released x hx hxp hxs
  · intro hpol u x he hu
    rw [hedge] at he
    by_cases hxd : x = dep
    · exact .inl (by simp [hst, hxd])
    · by_cases hud : u = dep
      · exact .inr (.inl (by simp [hud]))
      · simp only [hst, hud, hxd, if_false] at hu ⊢
        rcases h.closure hpol u x he hu with hx | hx | ⟨rfl, hx⟩
        · exact .inl hx
        · exact .inr (.inl (List.mem_cons_of_mem _ hx))
        · exact .inr (.inr ⟨rfl, (List.mem_cons.mp hx).resolve_left hxd⟩)
  · intro x hx
    rw [hedge]
    have hfail : ∀ f, s.stateOf f = .failed → (s.skipOne dep).stateOf f = .failed := by
      intro f hf
      have : f ≠ dep := by
        rintro rfl
        simp [hp] at hf
      simp [hst, this, hf]
    by_cases hxd : x = dep
    · subst hxd
      rcases hcur with hc | hc
      · exact ⟨cur, hfail cur hc, .single (hL x List.mem_cons_self)⟩
      · obtain ⟨f, hf, hr⟩ := h.origin cur hc
        exact ⟨f, hfail f hf, hr.tail (hL x List.mem_cons_self)⟩
    · simp only [hst, hxd, if_false] at hx
      obtain ⟨f, hf, hr⟩ := h.origin x hx
      exact ⟨f, hfail f hf, hr⟩
  · intro x
    have hrel : (s.skipOne dep).owed x + (s.dependentsOf dep).count x = s.owed x :=
      owed_release (s := s.lower dep) hdep (by simp [hp, NodeState.releases]) rfl x
    have hd : (s.skipOne dep).debt (st.skipped ++ [dep]) x = s.debt st.skipped x + (s.dependentsOf dep).count x := by
      simp [debt]
    rw [hd, ← h.owed_skipped x]
    omega
  · exact pendingCount_leave (s := s.lower dep) hdep hp (by decide)

/-- Settling one edge keeps the invariant; a dependent it skips goes onto the work stack and off the pending count. -/
theorem Drain.settleEdge (h : Drain skip s₀ W cur (dep :: L) s st) :
    Drain skip s₀ (if (s.settleEdge skip st dep).2.2 then dep :: W else W) cur L (s.settleEdge skip st dep).1
        (s.settleEdge skip st dep).2.1 ∧
      (s.settleEdge skip st dep).1.pendingCount + (if (s.settleEdge skip st dep).2.2 then 1 else 0) =
        s.pendingCount := by
  obtain ⟨hdep, hpos⟩ := h.pendingOf_pos
  have hdp : dep < s.pending.size := h.pending_size ▸ hdep
  have hlow := pendingOf_lower hdp
  -- the nodes already reported ready have a counter at zero, so none of them is `dep`
  have hready : ∀ x ∈ st.ready, x < s.states.size ∧ s.stateOf x = .pending ∧ (s.lower dep).pendingOf x = 0 := by
    intro x hx
    obtain ⟨h1, h2, h3⟩ := h.mem_ready x hx
    have hxd : x ≠ dep := by
      rintro rfl
      omega
    exact ⟨h1, h2, by simp [hlow, hxd, h3]⟩
  have hlive : ∀ x < s.states.size, s.stateOf x = .pending → x ≠ dep →
      0 < (s.lower dep).pendingOf x ∨ x ∈ st.ready := by
    intro x hx hxp hxd
    simpa [hlow, hxd] using h.live x hx hxp
  have hleft : s.pending.getD dep 0 = s.pendingOf dep := rfl
  have hp0 : (s.pendingOf dep = 0) = False := by simp; omega
  simp only [RunState.settleEdge, hleft, hp0, if_false]
  by_cases hp : s.stateOf dep = .pending
  · have hp' : (s.lower dep).stateOf dep = .pending := hp
    simp only [hp', ne_eq, not_true_eq_false, if_false]
    cases skip
    · by_cases h1 : s.pendingOf dep - 1 = 0
      · rw [if_pos h1]
        simp only [Bool.false_eq_true, if_false, Nat.add_zero]
        refine ⟨h.lower _ (fun _ => rfl) rfl ?_ ?_ (by simp) ?_, rfl⟩
        · refine List.nodup_append.mpr ⟨h.ready_nodup, List.nodup_singleton _, ?_⟩
          intro a ha b hb
          rw [List.mem_singleton] at hb
          subst hb
          rintro rfl
          have := (h.mem_ready a ha).2.2
          omega
        · intro x hx
          rcases List.mem_append.mp hx with hx | hx
          · exact hready x hx
          · rw [List.mem_singleton] at hx
            subst hx
            exact ⟨hdep, hp, by simp [hlow, h1]⟩
        · intro x hx hxp
          by_cases hxd : x = dep
          · exact .inr (by simp [hxd])
          · rcases hlive x hx hxp hxd with h' | h'
            · exact .inl h'
            · exact .inr (List.mem_append_left _ h')
      · rw [if_neg h1]
        simp only [Bool.false_eq_true, if_false, Nat.add_zero]
        refine ⟨h.lower _ (fun _ => rfl) rfl h.ready_nodup hready (by simp) ?_, rfl⟩
        intro x hx hxp
        by_cases hxd : x = dep
        · subst hxd
          simp only [hlow, if_true]
          omega
        · exact hlive x hx hxp hxd
    · simp only [if_true]
      exact h.skipOne hp rfl
  · have hp' : ((s.lower dep).stateOf dep = .pending) = False := by simpa using hp
    simp only [hp', ne_eq, not_false_eq_true, if_true]
    refine ⟨h.lower _ (fun h' => absurd h' hp) rfl h.ready_nodup hready h.ready_skip ?_, rfl⟩
    intro x hx hxp
    exact hlive x hx hxp (by rintro rfl; exact hp hxp)

/-- The invariant sees the work stack only as a collection. -/
theorem Drain.perm {W' : List Nat} (h : Drain skip s₀ W cur L s st) (hp : W.Perm W') :
    Drain skip s₀ W' cur L s st := by
  refine ⟨h.dependents_eq, h.policy_eq, h.states_size, h.pending_size, h.dependents_lt, fun x hx => ?_,
    fun u hu => h.work u (hp.mem_iff.mpr hu), h.hand, h.states, h.skipped_nodup, h.mem_skipped, h.ready_nodup,
    h.mem_ready, h.ready_skip, h.live, h.released, fun hpol u x he hu => ?_, h.origin, h.owed_skipped⟩
  · rw [← debt_perm s hp]
    exact h.counter x hx
  · rcases h.closure hpol u x he hu with h' | h' | h'
    · exact .inl h'
    · exact .inr (.inl (hp.mem_iff.mp h'))
    · exact .inr (.inr h')

/-- Settling the edges in hand keeps the invariant; the dependents skipped go onto the work stack and off the pending
count. -/
theorem Drain.settleEdges (h : Drain skip s₀ W cur L s st) :
    Drain skip s₀ ((s.settleEdges skip L st).2.2 ++ W) cur [] (s.settleEdges skip L st).1
        (s.settleEdges skip L st).2.1 ∧
      (s.settleEdges skip L st).1.pendingCount + (s.settleEdges skip L st).2.2.length = s.pendingCount := by
  induction L generalizing W s st with
  | nil => exact ⟨h, rfl⟩
  | cons dep rest ih =>
    obtain ⟨h1, hc1⟩ := h.settleEdge
    obtain ⟨h2, hc2⟩ := ih h1
    simp only [RunState.settleEdges]
    generalize s.settleEdge skip st dep = r at h1 hc1 h2 hc2
    obtain ⟨s1, st1, pushed⟩ := r
    generalize RunState.settleEdges skip rest s1 st1 = r' at h2 hc2
    obtain ⟨s2, st2, more⟩ := r'
    cases pushed
    · simp only [Bool.false_eq_true, if_false] at h2 hc1 hc2 ⊢
      exact ⟨h2, by omega⟩
    · simp only [if_true, List.length_cons] at h2 hc1 hc2 ⊢
      exact ⟨h2.perm (by simp), by omega⟩

/-- Taking the top node off the work stack puts its edges in hand. -/
theorem Drain.pop {u : Nat} {rest : List Nat} (h : Drain skip s₀ (u :: rest) cur [] s st) :
    Drain skip s₀ rest u (s.dependentsOf u) s st := by
  obtain ⟨-, hu1, hu2⟩ := h.work u List.mem_cons_self
  refine ⟨h.dependents_eq, h.policy_eq, h.states_size, h.pending_size, h.dependents_lt, fun x hx => ?_,
    fun u' hu' => h.work u' (List.mem_cons_of_mem _ hu'), fun _ => ⟨fun _ hx => hx, hu1, hu2⟩, h.states,
    h.skipped_nodup, h.mem_skipped, h.ready_nodup, h.mem_ready, h.ready_skip, h.live, h.released,
    fun hpol u' x he hu => ?_, h.origin, h.owed_skipped⟩
  · rw [h.counter x hx, debt_cons]
    simp
    omega
  · rcases h.closure hpol u' x he hu with h' | h' | ⟨-, h'⟩
    · exact .inl h'
    · rcases List.mem_cons.mp h' with rfl | h'
      · exact .inr (.inr ⟨rfl, he⟩)
      · exact .inr (.inl h')
    · simp at h'

/-- With fuel beyond the work stack and the pending nodes, the work stack empties and the invariant holds at the end. -/
theorem Drain.drain : ∀ (fuel : Nat) (W : List Nat) (cur : Nat) (s : RunState) (st : SettleStep),
    Drain skip s₀ W cur [] s st → W.length + s.pendingCount < fuel →
      ∃ c, Drain skip s₀ [] c [] (s.drain skip fuel W st).1 (s.drain skip fuel W st).2
  | 0, _, _, _, _, _, hf => absurd hf (Nat.not_lt_zero _)
  | _ + 1, [], cur, _, _, h, _ => ⟨cur, h⟩
  | fuel + 1, u :: rest, _, s, st, h, hf => by
    obtain ⟨h1, hc1⟩ := h.pop.settleEdges
    have hdeps : s.dependents.getD u [] = s.dependentsOf u := rfl
    simp only [RunState.drain, hdeps]
    generalize s.settleEdges skip (s.dependentsOf u) st = r at h1 hc1
    obtain ⟨s1, st1, pushed⟩ := r
    dsimp only at h1 hc1 ⊢
    refine Drain.drain fuel _ u s1 st1 (h1.perm (List.perm_append_right_iff _ |>.mpr (List.reverse_perm _).symm)) ?_
    simp only [List.length_cons] at hf
    simp only [List.length_append, List.length_reverse]
    omega

end Drain

/-! ## Completing a node -/

/-- The state `s` with node `v` ended, succeeded or failed: what completing a node does before it settles an edge. -/
def ended (s : RunState) (v : Nat) (b : Bool) : RunState :=
  { s with states := s.states.setIfInBounds v (if b then .succeeded else .failed) }

@[simp] theorem ended_states_size (s : RunState) (v : Nat) (b : Bool) : (s.ended v b).states.size = s.states.size := by
  simp [ended]

@[simp] theorem ended_pending (s : RunState) (v : Nat) (b : Bool) : (s.ended v b).pending = s.pending := rfl

@[simp] theorem ended_dependents (s : RunState) (v : Nat) (b : Bool) : (s.ended v b).dependents = s.dependents := rfl

@[simp] theorem ended_policy (s : RunState) (v : Nat) (b : Bool) : (s.ended v b).policy = s.policy := rfl

@[simp] theorem dependentsOf_ended (s : RunState) (v : Nat) (b : Bool) : (s.ended v b).dependentsOf = s.dependentsOf :=
  rfl

@[simp] theorem pendingOf_ended (s : RunState) (v : Nat) (b : Bool) : (s.ended v b).pendingOf = s.pendingOf := rfl

theorem stateOf_ended {s : RunState} {v : Nat} (hv : v < s.states.size) (b : Bool) (x : Nat) :
    (s.ended v b).stateOf x = if x = v then (if b then .succeeded else .failed) else s.stateOf x := by
  rw [ended, stateOf_setIfInBounds]
  by_cases hx : x = v
  · subst hx
    simp [hv]
  · simp [hx, Ne.symm hx]

/-- Completing a node that has not ended ends it and drains the work stack that holds it alone. -/
theorem complete_eq {s : RunState} {v : Nat} (h : (s.stateOf v).isTerminal = false) (b : Bool) :
    s.complete v b =
      (s.ended v b).drain (!b && decide (s.policy = .skipDependents)) ((s.ended v b).states.size + 1) [v] {} := by
  rw [complete, if_neg (by simp [h])]
  rfl

/-- Before any edge is settled, the ended node alone is on the work stack, and the counters still count its edges. -/
theorem Drain.init {s : RunState} (ht : s.Tally)
    (hlive : ∀ x < s.states.size, s.stateOf x = .pending → 0 < s.pendingOf x) {v : Nat} (hv : v < s.states.size)
    (hrun : s.stateOf v = .running) (b : Bool) :
    Drain (!b && decide (s.policy = .skipDependents)) (s.ended v b) [v] v [] (s.ended v b) {} := by
  have hst₀ := stateOf_ended hv b
  have hself : (s.ended v b).stateOf v ≠ .pending ∧ (s.ended v b).stateOf v ≠ .skipped := by
    cases b <;> simp [hst₀]
  have hrel : ∀ x, (s.ended v b).owed x + (s.dependentsOf v).count x = s.owed x :=
    owed_release hv (by simp [hrun, NodeState.releases]) (by cases b <;> rfl)
  refine ⟨rfl, rfl, rfl, ?_, ?_, fun x hx => ?_, fun u hu => ?_, fun hL => absurd rfl hL, fun x => .inl rfl,
    List.nodup_nil, fun x => ?_, List.nodup_nil, fun x hx => absurd hx List.not_mem_nil, fun _ => rfl,
    fun x hx hxp => ?_, fun x hx hxp hxs => ?_, fun hp u x he hu => ?_, fun x hx => ?_, fun x => by simp [debt]⟩
  · simpa using ht.pending_size
  · simpa using ht.dependents_lt
  · rw [ended_states_size] at hx
    rw [pendingOf_ended, ht.counter x hx, ← hrel x, debt, dependentsOf_ended]
    simp
  · rw [List.mem_singleton] at hu
    subst hu
    refine ⟨by simpa using hv, fun hk => ?_, fun hp hf => ?_⟩
    · cases b <;> simp_all
    · cases b <;> simp_all
  · simp only [List.not_mem_nil, false_iff, not_and]
    intro hp hs
    simp [hs] at hp
  · left
    have hxv : x ≠ v := by rintro rfl; exact hself.1 hxp
    rw [hst₀, if_neg hxv] at hxp
    rw [ended_states_size] at hx
    simpa using hlive x hx hxp
  · rw [pendingOf_ended]
    rw [ended_states_size] at hx
    by_cases hxv : x = v
    · subst hxv
      exact ht.released x hx (by simp [hrun]) (by simp [hrun])
    · rw [hst₀, if_neg hxv] at hxp hxs
      exact ht.released x hx hxp hxs
  · by_cases huv : u = v
    · exact .inr (.inl (by simp [huv]))
    · left
      rw [hst₀, if_neg huv] at hu
      have hx := ht.closure hp u x he hu
      have hxv : x ≠ v := by rintro rfl; simp [hrun] at hx
      rw [hst₀, if_neg hxv, hx]
  · have hxv : x ≠ v := by rintro rfl; exact hself.2 hx
    rw [hst₀, if_neg hxv] at hx
    obtain ⟨f, hf, hr⟩ := ht.origin x hx
    have hfv : f ≠ v := by rintro rfl; simp [hrun] at hf
    exact ⟨f, by rw [hst₀, if_neg hfv, hf], hr⟩

/-- What completing node `v` of `s` with success `b` brought about, as the state `s'` and the step `st` reported. -/
structure Completed (s : RunState) (v : Nat) (b : Bool) (s' : RunState) (st : SettleStep) : Prop where
  tally : s'.Tally
  states_size : s'.states.size = s.states.size
  dependents_eq : s'.dependents = s.dependents
  policy_eq : s'.policy = s.policy
  stateOf_self : s'.stateOf v = if b then .succeeded else .failed
  /-- Besides the node itself, only pending nodes change, and only to skipped after a failure that skips. -/
  stateOf_other : ∀ x, x ≠ v → s'.stateOf x = s.stateOf x ∨
    (b = false ∧ s.policy = .skipDependents ∧ s.stateOf x = .pending ∧ s'.stateOf x = .skipped)
  skipped_nodup : st.skipped.Nodup
  mem_skipped : ∀ x, x ∈ st.skipped ↔ s.stateOf x = .pending ∧ s'.stateOf x = .skipped
  ready_nodup : st.ready.Nodup
  mem_ready : ∀ x ∈ st.ready, x < s.states.size ∧ s'.stateOf x = .pending ∧ s'.pendingOf x = 0
  live : ∀ x < s.states.size, s'.stateOf x = .pending → 0 < s'.pendingOf x ∨ x ∈ st.ready
  /-- Every edge out of the node and out of each node it skipped is taken off its counter exactly once. -/
  settled_once : ∀ x < s.states.size, s'.pendingOf x + s.debt (v :: st.skipped) x = s.pendingOf x

/-- Completing a running node, in a run whose counters agree with its states and whose pending nodes all wait for an
edge, ends the node, skips what it must, settles each released edge once, and reports the nodes that became ready. -/
theorem complete_spec {s : RunState} (ht : s.Tally)
    (hlive : ∀ x < s.states.size, s.stateOf x = .pending → 0 < s.pendingOf x) {v : Nat} (hv : v < s.states.size)
    (hrun : s.stateOf v = .running) (b : Bool) :
    Completed s v b (s.complete v b).1 (s.complete v b).2 := by
  rw [complete_eq (by simp [hrun, NodeState.isTerminal])]
  have hst₀ := stateOf_ended hv b
  have hself : (s.ended v b).stateOf v ≠ .pending := by
    cases b <;> simp [hst₀]
  have hrel : ∀ x, (s.ended v b).owed x + (s.dependentsOf v).count x = s.owed x :=
    owed_release hv (by simp [hrun, NodeState.releases]) (by cases b <;> rfl)
  have hfuel : [v].length + (s.ended v b).pendingCount < (s.ended v b).states.size + 1 := by
    have := pendingCount_lt (s := s.ended v b) (by simpa using hv) hself
    simp only [List.length_singleton]
    omega
  obtain ⟨c, hd⟩ := Drain.drain _ _ _ _ _ (Drain.init ht hlive hv hrun b) hfuel
  generalize (s.ended v b).drain _ ((s.ended v b).states.size + 1) [v] {} = r at hd
  obtain ⟨s', st⟩ := r
  dsimp only at hd ⊢
  have hskip : (!b && decide (s.policy = .skipDependents)) = true ↔ b = false ∧ s.policy = .skipDependents := by
    cases b <;> simp
  have hstates : ∀ x, x ≠ v → s'.stateOf x = s.stateOf x ∨
      (b = false ∧ s.policy = .skipDependents ∧ s.stateOf x = .pending ∧ s'.stateOf x = .skipped) := by
    intro x hxv
    rcases hd.states x with h' | ⟨hk, hp, hs⟩
    · rw [h', hst₀, if_neg hxv]
      exact .inl rfl
    · rw [hst₀, if_neg hxv] at hp
      exact .inr ⟨(hskip.mp hk).1, (hskip.mp hk).2, hp, hs⟩
  have hdebt : s'.debt = s.debt := by
    funext W x
    simp [debt, dependentsOf, hd.dependents_eq]
  have hsv : s'.stateOf v = if b then .succeeded else .failed := by
    rcases hd.states v with h' | ⟨-, h', -⟩
    · simp [h', hst₀]
    · exact absurd h' hself
  refine ⟨⟨hd.pending_size, hd.dependents_lt, fun x hx => ?_, hd.released, fun hp u x he hu => ?_, hd.origin,
    fun hp x hx => ?_⟩, by rw [hd.states_size, ended_states_size], by rw [hd.dependents_eq, ended_dependents],
    by rw [hd.policy_eq, ended_policy],
    hsv, hstates, hd.skipped_nodup, fun x => ?_, hd.ready_nodup, fun x hx => ?_, fun x hx => ?_, fun x hx => ?_⟩
  · simpa [debt] using hd.counter x hx
  · rcases hd.closure hp u x he hu with h' | h' | ⟨-, h'⟩
    · exact h'
    · simp at h'
    · simp at h'
  · have hxv : x ≠ v := by rintro rfl; cases b <;> simp [hsv] at hx
    have hp' : s.policy = .runDependents := by rw [← ended_policy s v b, ← hd.policy_eq]; exact hp
    rcases hstates x hxv with h' | ⟨-, h', -⟩
    · exact ht.noSkip hp' x (h' ▸ hx)
    · rw [hp'] at h'
      cases h'
  · rw [hd.mem_skipped x]
    by_cases hxv : x = v
    · subst hxv
      simp [hself, hrun]
    · rw [hst₀, if_neg hxv]
  · obtain ⟨h1, h2, h3⟩ := hd.mem_ready x hx
    exact ⟨by simpa [hd.states_size] using h1, h2, h3⟩
  · exact hd.live x (by rw [hd.states_size, ended_states_size]; exact hx)
  · have hc := hd.counter x (by rw [hd.states_size, ended_states_size]; exact hx)
    have ho := hd.owed_skipped x
    simp only [debt, List.map_nil, List.sum_nil, List.count_nil, add_zero] at hc
    rw [hdebt] at ho
    rw [debt_cons, ht.counter x hx, ← hrel x, hc]
    omega

end RunState

end Graph

end CommandEngine
