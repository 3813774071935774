import TestRig.Proofs.Reading
import TestRig.Session

/-!
# TestRig.Proofs.Setup — what a rig is when it has been set up

Setting a rig up has four steps, each of which can fail.  A rig that comes out of them is known from
what the steps give: its options, its named values, its selection and its log.

* `Rig.set_eq_ok`: a rig is set up exactly when the four steps give something, and then it is made
  of that.
* `Rig.selectTests_haveRun`: selecting tests runs none.
-/

namespace TestRig

/-- A journal is opened without a log, or with the one that a path leads to. -/
theorem Journal.openLog_cases {colored verbose : Bool} {d : Disk} {p : Option Path} {j : Journal}
    (h : openLog colored verbose d p = .ok j) :
    (p = none ∧ j = { colored, verbose, disk := d }) ∨ ∃ path l d', p = some path ∧
      d.openToAppend path = .ok (l, d') ∧
      j = { colored, verbose, disk := d', log := some { location := l } } := by
  unfold openLog at h
  cases p with
  | none =>
    cases h
    exact Or.inl ⟨rfl, rfl⟩
  | some path =>
    cases ho : d.openToAppend path with
    | error f =>
      simp only [ho] at h
      cases h
    | ok o =>
      simp only [ho] at h
      cases h
      exact Or.inr ⟨path, o.1, o.2, rfl, ho, rfl⟩

/-- A setup for a command line, on a system that starts no programs. -/
def Setup.bare (argv : List String) : Setup :=
  { group := "g", argv, interpreter := "python3", launcher := fun _ _ => .error .holdsNul }

namespace Rig

variable {s : Setup} {r : Rig}

def assemble (s : Setup) (c : Configuration) (a : Arguments) (g : Registry) (j : Journal) : Rig :=
  { configuration := c, arguments := a, registry := g
    dumper := s.dumper
    command := s.command.getD [s.interpreter, c.program.text]
    host := { journal := j, faults := s.faults, launcher := s.launcher, nextPid := s.firstPid } }

/-- A rig is set up when its four steps give something, and it is made of that. -/
theorem set_eq_ok : Rig.set s = .ok r ↔ ∃ c a g j,
    Configuration.ofArgv s.argv = .ok c ∧ storeArguments Arguments.empty c.arguments = .ok a ∧
    selectTests (Registry.ofGroup s.group) c.selection = .ok g ∧
    Journal.openLog s.terminal c.verbose s.disk c.logFile = .ok j ∧ r = assemble s c a g j := by
  simp only [Rig.set, bind_eq_ok, mapError_eq_ok, pure, Except.pure, Except.ok.injEq, assemble]
  constructor
  · rintro ⟨c, hc, a, ha, g, hg, j, hj, rfl⟩
    exact ⟨c, a, g, j, hc, ha, hg, hj, rfl⟩
  · rintro ⟨c, a, g, j, hc, ha, hg, hj, rfl⟩
    exact ⟨c, hc, a, ha, g, hg, j, hj, rfl⟩

theorem selectTests_haveRun : ∀ {words : List Options.Word} {g g' : Registry},
    selectTests g words = .ok g' → g'.haveRun = g.haveRun
  | [], g, g', h => by
    cases h
    rfl
  | none :: words, g, g', h => by
    cases h
  | some w :: words, g, g', h => by
    simp only [selectTests, Registry.select] at h
    cases hk : g.readSpec w with
    | ok k =>
      simp only [hk] at h
      exact (selectTests_haveRun h).trans rfl
    | error f =>
      simp only [hk] at h
      cases h

/-- A setup that is seen to give a rig with some property. -/
theorem exists_set {p : Rig → Prop} [DecidablePred p]
    (h : (Rig.set s).toOption.any (fun r => decide (p r)) = true) : ∃ r, Rig.set s = .ok r ∧ p r :=
  exists_eq_ok h

theorem haveRun_of_set (h : Rig.set s = .ok r) : r.registry.haveRun = KeySet.empty := by
  obtain ⟨c, a, g, j, -, -, hg, -, rfl⟩ := set_eq_ok.mp h
  exact selectTests_haveRun hg

end Rig

end TestRig
