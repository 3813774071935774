import TestRig.Session

/-!
# TestRig.Proofs.Admission — what an admission does

A registry treats a key in one of three ways (`Registry.enroll_cases`): the selection leaves it out,
it has run before, or it is admitted.  A rig performs a test only in the third case.

* `Rig.admitted?_eq_some`: a test is admitted exactly when its number is one, it is selected and it
  has not run.
* `Rig.run_of_admitted`: the run of an admitted test is a tally of its performance.
* `Rig.run_of_not_admitted`: any other run changes the selection at most.
* `Rig.moment_of_admitted` and `Rig.moment_of_not_admitted`: both as moments of a session.
* `Rig.forall_mem_session`: what holds of every request holds of every moment of a session.
-/

namespace TestRig

namespace Registry

variable (r : Registry) (k : Key)

@[simp] theorem spend_group : (r.spend k).group = r.group := by
  unfold spend; split <;> rfl

@[simp] theorem spend_haveRun : (r.spend k).haveRun = r.haveRun := by
  unfold spend; split <;> rfl

@[simp] theorem spend_selective : (r.spend k).selective = r.selective := by
  unfold spend; split <;> rfl

theorem isSelected_eq_false {r : Registry} {k : Key} :
    r.isSelected k = false ↔ r.selective = true ∧ k ∉ r.selection := by
  simp [isSelected]

theorem mem_spend {r : Registry} {k j : Key} (hr : ∀ j ∈ r.selection, r.selective = true) :
    j ∈ (r.spend k).selection ↔ j ∈ r.selection ∧ j ≠ k := by
  unfold spend
  split
  · simp [consume, and_comm]
  · rename_i hs
    have hempty : ∀ j, j ∉ r.selection := fun j hj => hs (hr j hj)
    simp [hempty]

/-- The three ways in which a registry treats a key. -/
theorem enroll_cases :
    (r.isSelected k = false ∧ r.enroll k = (.ok false, r)) ∨
    (r.isSelected k = true ∧ k ∈ r.haveRun ∧
      r.enroll k = (.error (.duplicate (r.identity k)), r.spend k)) ∨
    (r.isSelected k = true ∧ k ∉ r.haveRun ∧ r.enroll k = (.ok true, (r.spend k).record k)) := by
  cases hs : r.isSelected k with
  | false => exact Or.inl ⟨rfl, by simp [enroll, hs]⟩
  | true =>
    by_cases hk : k ∈ r.haveRun
    · refine Or.inr (Or.inl ⟨rfl, hk, ?_⟩)
      simp [enroll, hs, hk, identity]
    · refine Or.inr (Or.inr ⟨rfl, hk, ?_⟩)
      simp [enroll, hs, hk]

end Registry

namespace Rig

variable {r : Rig} {subgroup : String} {number : Value} {k : Key}

/-- The rig when a test has been admitted and not yet performed. -/
def enter (r : Rig) (k : Key) : Rig :=
  { r with registry := (r.registry.spend k).record k, executed := r.executed + 1 }

/-- A test is admitted when its number is one, it is selected and it has not run. -/
theorem admitted?_eq_some : r.admitted? subgroup number = some k ↔
    numberOf number = .ok k.2 ∧ k.1 = subgroup ∧ r.registry.isSelected k = true ∧
      k ∉ r.registry.haveRun := by
  unfold admitted?
  cases hn : numberOf number with
  | error f => simp
  | ok n =>
    rcases r.registry.enroll_cases (subgroup, n) with ⟨hs, he⟩ | ⟨hs, hk, he⟩ | ⟨hs, hk, he⟩
    all_goals
      simp only [he]
      grind

/-- An admitted test is performed, and the rig counts what comes of it. -/
theorem run_of_admitted (h : r.admitted? subgroup number = some k) (body : Body) :
    r.run subgroup number body =
      (r.enter k).tally ((r.enter k).perform (r.registry.identity k) body) := by
  obtain ⟨hn, rfl, hs, hk⟩ := admitted?_eq_some.mp h
  rcases r.registry.enroll_cases k with ⟨hs', -⟩ | ⟨-, hk', -⟩ | ⟨-, -, he⟩
  · rw [hs] at hs'; cases hs'
  · exact absurd hk' hk
  · have hid : (r.enter k).registry.identity k = r.registry.identity k := by
      simp [enter, Registry.identity, Registry.record]
    rw [← hid]
    simp only [run, hn, runKey, he]
    rfl

/-- A test that is not admitted changes the selection at most: the selection leaves it out, or
something is raised.  Only the registry decides on that. -/
theorem run_of_not_admitted (h : r.admitted? subgroup number = none) (body : Body) :
    ∃ v registry, (∀ r' : Rig, r'.registry = r.registry →
        r'.run subgroup number body = (v, { r' with registry })) ∧
      registry.haveRun = r.registry.haveRun ∧ registry.group = r.registry.group ∧
      (v = .ok none ∨ ∃ e, v = .error (.ofException e)) := by
  cases hn : numberOf number with
  | error f =>
    refine ⟨_, r.registry, fun r' hr => ?_, rfl, rfl, Or.inr ⟨f.exception, rfl⟩⟩
    rw [← hr]
    simp only [run, hn]
  | ok n =>
    rcases r.registry.enroll_cases (subgroup, n) with ⟨-, he⟩ | ⟨-, -, he⟩ | ⟨hs, hk, -⟩
    · refine ⟨.ok none, r.registry, fun r' hr => ?_, rfl, rfl, Or.inl rfl⟩
      simp only [run, hn, runKey, hr, he]
    · let fault := Registry.Fault.duplicate (r.registry.identity (subgroup, n))
      refine ⟨.error (.ofException fault.exception), r.registry.spend (subgroup, n),
        fun r' hr => ?_, r.registry.spend_haveRun _, r.registry.spend_group _, Or.inr ⟨_, rfl⟩⟩
      simp only [run, hn, runKey, hr, he, fault]
    · rw [admitted?_eq_some.mpr ⟨hn, rfl, hs, hk⟩] at h
      cases h

def points : Except Halt Bool → Nat
  | .ok true => 1
  | _ => 0

@[simp] theorem tally_fst (r : Rig) (p : Except Halt Bool × Supervision.Host) :
    (r.tally p).1 = p.1.map some := by
  obtain ⟨(h | (_ | _)), host⟩ := p <;> rfl

@[simp] theorem tally_snd (r : Rig) (p : Except Halt Bool × Supervision.Host) :
    (r.tally p).2 = { r with host := p.2, passed := r.passed + points p.1 } := by
  obtain ⟨(h | (_ | _)), host⟩ := p <;> rfl

/-! ## Moments of runs -/

/-- The moment at which an admitted test is run. -/
theorem moment_of_admitted (h : r.admitted? subgroup number = some k) (body : Body) :
    r.moment (.run subgroup number body) =
      ⟨r, .run subgroup number body,
        .ran (((r.enter k).perform (r.registry.identity k) body).1.map some),
        ((r.enter k).tally ((r.enter k).perform (r.registry.identity k) body)).2⟩ := by
  simp only [Rig.moment, Request.serve, run_of_admitted h, tally_fst]

/-- The moment of a run that is not admitted: nothing but the selection changes. -/
theorem moment_of_not_admitted (h : r.admitted? subgroup number = none) (body : Body) :
    ∃ v registry, r.moment (.run subgroup number body) =
        ⟨r, .run subgroup number body, .ran v, { r with registry }⟩ ∧
      registry.haveRun = r.registry.haveRun ∧ (v = .ok none ∨ ∃ e, v = .error (.ofException e)) := by
  obtain ⟨v, g, hrun, hg, -, hv⟩ := run_of_not_admitted h body
  refine ⟨v, g, ?_, hg, hv⟩
  simp only [Rig.moment, Request.serve, hrun r rfl]

/-! ## Sessions -/

theorem session_append (ps : List Request) : ∀ (qs : List Request) (r : Rig),
    r.session (qs ++ ps) = r.session qs ++ (r.served qs).session ps
  | [], _ => rfl
  | q :: qs, r => congrArg (r.moment q :: ·) (session_append ps qs _)

theorem served_append (r : Rig) (qs ps : List Request) :
    r.served (qs ++ ps) = (r.served qs).served ps := List.foldl_append

/-- What holds of all requests of a kind holds of all moments of sessions that make only such
requests, and it may rest on what every one of them keeps. -/
theorem forall_mem_session {I : Rig → Prop} {C : Request → Prop} {P : Moment → Prop}
    (hP : ∀ r q, I r → C q → P (r.moment q)) (hI : ∀ r q, I r → C q → I (r.moment q).after) :
    ∀ (qs : List Request) (r : Rig), I r → (∀ q ∈ qs, C q) → ∀ m ∈ r.session qs, P m
  | [], _, _, _, _, h => by cases h
  | q :: qs, r, hr, hqs, m, h => by
    have hq := hqs q List.mem_cons_self
    rcases List.mem_cons.mp h with rfl | h
    · exact hP r q hr hq
    · exact forall_mem_session hP hI qs _ (hI r q hr hq)
        (fun q hq => hqs q (List.mem_cons_of_mem _ hq)) m h

end Rig

end TestRig
