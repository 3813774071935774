import Mathlib
import TestRig.Invocation
import TestRig.Proofs.Counting
import TestRig.Proofs.Spelling

/-!
# TestRig.Proofs.ExitCodes — when a program reports success

A program of tests and the command that runs a suite set a rig up, run the steps up to the first one
that raises, and turn some of what is raised into the exit code 1.  The command turns more into it, and
it can print a summary; otherwise both come to the same.

* `ending`: how steps end, before anything that was raised is caught.  `Program.run_exit` and
  `Invocation.run_exit` say what the two make of it.
* `Rig.Flawless`: nothing was caught, every admitted test returned true, no selection is left.
* `ending_law`: whatever is caught, the exit code is 0 or 1, and 0 exactly for flawless steps.
* `Invocation.ofArgv_noSummary`: the flag `--no-summary` changes nothing else.
* `exit_codes`: all of this for both.
-/

namespace TestRig

/-! ## The moments of a suite -/

/-- What a step asks a rig for; a step that only raises asks for nothing. -/
def Step.request? : Step → Option Request
  | .ask q => some q
  | .raise _ => none

/-- Something was raised instead of an answer. -/
def Moment.halted (m : Moment) : Bool := m.answer.halt?.isSome

namespace Rig

variable {r : Rig} {steps : List Step}

/-- The moments of steps, up to the first one that raises. -/
def watched (r : Rig) : List Step → List Moment
  | [] => []
  | s :: steps => match s.request? with
    | none => []
    | some q =>
      r.moment q :: if (r.moment q).halted then [] else (r.moment q).after.watched steps

/-- Nothing that is caught ended the steps, every admitted test returned true, and no selection is
left. -/
structure Flawless (r : Rig) (caught : Halt → Bool) (steps : List Step) : Prop where
  uncaught : ∀ h, (runSteps steps r).halt = some h → caught h = false
  passed : ∀ m ∈ r.watched steps, m.admitted?.isSome → m.returned true
  spent : ∀ k, k ∉ (runSteps steps r).rig.registry.selection

/-- A step that returns is the moment of a request at which nothing is raised. -/
theorem request_of_perform {s : Step} {a : Answer} {r' : Rig} (h : s.perform r = (.ok a, r')) :
    ∃ q, s.request? = some q ∧ (r.moment q).halted = false ∧ (r.moment q).after = r' := by
  cases s with
  | ask q =>
    refine ⟨q, rfl, ?_⟩
    simp only [Step.perform] at h
    cases hhalt : (q.serve r).1.halt? with
    | some x => simp [hhalt] at h
    | none => exact ⟨by rw [Moment.halted, moment, hhalt]; rfl, congrArg Prod.snd h⟩
  | raise t => cases h

/-- Steps that all return are a session. -/
theorem runSteps_of_returned : ∀ {steps : List Step} {r : Rig}, (runSteps steps r).halt = none →
    ∃ qs, r.watched steps = r.session qs ∧ (runSteps steps r).rig = r.served qs
  | [], _, _ => ⟨[], rfl, rfl⟩
  | s :: steps, r, h => by
    cases hs : s.perform r with
    | mk x r' =>
      cases x with
      | error e => simp [runSteps, hs] at h
      | ok v =>
        simp only [runSteps, hs] at h ⊢
        obtain ⟨q, hq, hnot, rfl⟩ := request_of_perform hs
        obtain ⟨qs, hwatched, hrig⟩ := runSteps_of_returned h
        refine ⟨q :: qs, ?_, hrig⟩
        simp [watched, hq, hnot, hwatched, session]

/-! ## Sessions without a failure -/

/-- A test that was admitted returned true, returned false or raised something. -/
theorem failed_at_moment (r : Rig) (q : Request) :
    ((r.moment q).returned false ∨ (r.moment q).raisedInside) ↔
      (r.moment q).admitted?.isSome ∧ ¬ (r.moment q).returned true := by
  cases q with
  | run subgroup number body =>
    cases ha : r.admitted? subgroup number with
    | none =>
      obtain ⟨v, g, hm, -, hv⟩ := moment_of_not_admitted ha body
      have hin : (r.moment (.run subgroup number body)).admitted? = none := ha
      rw [Moment.raisedInside, hin, hm]
      rcases hv with rfl | ⟨e, rfl⟩ <;> simp [Moment.returned]
    | some k =>
      have hin : (r.moment (.run subgroup number body)).admitted? = some k := ha
      rw [Moment.raisedInside, hin, moment_of_admitted ha body]
      rcases ((r.enter k).perform (r.registry.identity k) body).1 with e | (_ | _) <;>
        simp [Moment.returned, Moment.raised, Except.map]
  | _ =>
    constructor
    · rintro (h | h) <;> cases h
    · rintro ⟨h, -⟩
      cases h

/-- Nothing has failed when every admitted test returned true and no selection is left. -/
theorem failed_served_eq_zero (h : r.Balanced 0 0 0) (qs : List Request) :
    (r.served qs).failed = 0 ↔
      (∀ m ∈ r.session qs, m.admitted?.isSome → m.returned true) ∧
      ∀ k, k ∉ (r.served qs).registry.selection := by
  have hkeys : (r.served qs).registry.selection.size = 0 ↔
      ∀ k, k ∉ (r.served qs).registry.selection :=
    List.length_eq_zero_iff.trans List.eq_nil_iff_forall_not_mem
  have hways : ∀ m ∈ r.session qs, (m.returned false ∨ m.raisedInside) ↔
      m.admitted?.isSome ∧ ¬ m.returned true :=
    forall_mem_session (I := fun _ => True) (C := fun _ => True) (fun r q _ _ => failed_at_moment r q)
      (fun _ _ _ _ => trivial) qs r trivial fun _ _ => trivial
  have hnone : (r.session qs).countP (·.returned false) + (r.session qs).countP (·.raisedInside) = 0 ↔
      ∀ m ∈ r.session qs, m.admitted?.isSome → m.returned true := by
    rw [Nat.add_eq_zero_iff, List.countP_eq_zero, List.countP_eq_zero]
    constructor
    · rintro ⟨hfalse, hraised⟩ m hm hin
      refine Decidable.byContradiction fun hnot => ?_
      rcases (hways m hm).mpr ⟨hin, hnot⟩ with hm' | hm'
      · exact hfalse m hm hm'
      · exact hraised m hm hm'
    · intro h
      refine ⟨fun m hm hm' => ?_, fun m hm hm' => ?_⟩
      · obtain ⟨hin, hnot⟩ := (hways m hm).mp (Or.inl hm')
        exact hnot (h m hm hin)
      · obtain ⟨hin, hnot⟩ := (hways m hm).mp (Or.inr hm')
        exact hnot (h m hm hin)
  rw [(Balanced.served qs h).failed, Nat.zero_add, Nat.zero_add, Nat.add_eq_zero_iff, hnone, hkeys]

end Rig

/-! ## Endings -/

/-- How steps end in a rig that is set up for them: with the exit code of their results, or with what
was raised last. -/
def ending (s : Setup) (steps : List Step) : Except Halt Nat :=
  match Rig.set s with
  | .error f => .error (.ofException f.exception)
  | .ok r => match (runSteps steps r).halt with
    | some h => .error h
    | none => .ok (runSteps steps r).rig.exitStatus.code

/-- What comes of something that is caught: the exit code 1, but all but interrupts are printed before
that, and what is raised in making the text is not caught again. -/
def Halt.printed : Halt → Except Halt Nat
  | .left how => .error (.left how)
  | .raised t =>
    if t.kind.family = .interrupt then .ok ExitStatus.error.code else
    match t.exception.text with
    | .ok _ => .ok ExitStatus.error.code
    | .error x => .error (.ofException x)

/-- An ending of which some are caught. -/
def catching (caught : Halt → Bool) : Except Halt Nat → Except Halt Nat
  | .ok n => .ok n
  | .error h => if caught h then h.printed else .error h

variable {s : Setup} {steps : List Step} {caught : Halt → Bool} {n : Nat}

theorem code_eq_zero {e : ExitStatus} : e.code = 0 ↔ e = .success := by
  cases e <;> simp [ExitStatus.code]

theorem code_cases (e : ExitStatus) : e.code = 0 ∨ e.code = 1 := by
  cases e <;> simp [ExitStatus.code]

theorem catching_of_uncaught {e : Halt} (h : caught e = false) :
    catching caught (.error e) = .error e := if_neg (by simp [h])

theorem Halt.of_printed {e : Halt} (h : e.printed = .ok n) : n = 1 := by
  cases e with
  | left how => cases h
  | raised t =>
    simp only [printed] at h
    split at h
    · exact (Except.ok.inj h).symm
    · split at h
      · exact (Except.ok.inj h).symm
      · cases h

/-- What was raised gives the exit code 1, if it gives one, and then it is caught. -/
theorem of_catching_error {e : Halt} (h : catching caught (.error e) = .ok n) :
    n = 1 ∧ caught e = true := by
  cases hc : caught e with
  | true =>
    rw [catching, hc, if_pos rfl] at h
    exact ⟨Halt.of_printed h, rfl⟩
  | false =>
    rw [catching_of_uncaught hc] at h
    cases h

/-- **Whatever is caught**, the exit code is 0 or 1, and 0 exactly for flawless steps. -/
theorem ending_law (h : catching caught (ending s steps) = .ok n) :
    (n = 0 ∨ n = 1) ∧ (n = 0 ↔ ∃ r, Rig.set s = .ok r ∧ r.Flawless caught steps) := by
  unfold ending at h
  cases hset : Rig.set s with
  | error f =>
    rw [hset] at h
    obtain ⟨rfl, -⟩ := of_catching_error h
    exact ⟨Or.inr rfl, by simp⟩
  | ok r =>
    simp only [hset] at h
    cases hhalt : (runSteps steps r).halt with
    | some e =>
      simp only [hhalt] at h
      obtain ⟨rfl, hcaught⟩ := of_catching_error h
      refine ⟨Or.inr rfl, by simp, ?_⟩
      rintro ⟨r', hr', hflawless⟩
      cases hr'
      exact absurd (hflawless.uncaught e hhalt) (by simp [hcaught])
    | none =>
      simp only [hhalt, catching, Except.ok.injEq] at h
      subst h
      obtain ⟨qs, hwatched, hrig⟩ := Rig.runSteps_of_returned hhalt
      refine ⟨code_cases _, ?_⟩
      rw [code_eq_zero, Rig.exitStatus_eq_success, hrig,
        Rig.failed_served_eq_zero (Rig.balanced_of_set hset)]
      constructor
      · rintro ⟨hpassed, hspent⟩
        exact ⟨r, rfl, by simp [hhalt], by rwa [hwatched], by rwa [hrig]⟩
      · rintro ⟨r', hr', hflawless⟩
        cases hr'
        exact ⟨hwatched ▸ hflawless.passed, hrig ▸ hflawless.spent⟩

theorem exitStatus_close (r : Rig) : r.close.exitStatus = r.exitStatus := by
  unfold Rig.close
  split <;> rfl

/-- A complaint comes out as it is printed. -/
theorem Report.complain_exit (report : Report) {t : Thrown} (h : t.kind.family ≠ .interrupt)
    (style : String → String) : (report.complain t style).exit = Halt.printed (.raised t) := by
  simp only [Report.complain, Halt.printed, if_neg h]
  cases t.exception.text <;> rfl

theorem Program.endWith_exit (report : Report) (h : Halt) :
    (Program.endWith report h).exit = catching Halt.isComplaint (.error h) := by
  cases h with
  | left how => rfl
  | raised t =>
    by_cases hc : t.isComplaint = true
    · have hf : t.kind.family = .complaint := by simpa [Thrown.isComplaint] using hc
      rw [catching, if_pos (show Halt.isComplaint (.raised t) = true from hc)]
      simp only [Program.endWith, if_pos hc]
      exact report.complain_exit (by simp [hf]) id
    · rw [catching, if_neg (show ¬ Halt.isComplaint (.raised t) = true from hc)]
      simp only [Program.endWith, if_neg hc]

/-- A program of tests catches complaints. -/
theorem Program.run_exit (s : Setup) (steps : List Step) :
    (Program.run s steps).exit = catching Halt.isComplaint (ending s steps) := by
  unfold Program.run ending
  cases Rig.set s with
  | error f => exact Program.endWith_exit _ _
  | ok r =>
    dsimp only
    cases (runSteps steps r).halt with
    | some h => exact Program.endWith_exit _ _
    | none => rw [exitStatus_close]; rfl

/-! ## The command -/

/-- Complaints, suites that cannot be loaded and interrupts: what the command catches. -/
def Halt.isCaught : Halt → Bool
  | .raised t => t.kind.family ∈ [Family.complaint, .loading, .interrupt]
  | .left _ => false

namespace Invocation

variable {i : Invocation} {sur : Surroundings} {argv : List String} {group : String}

theorem endWith_exit (report : Report) (h : Halt) :
    (endWith report h).exit = catching Halt.isCaught (.error h) := by
  cases h with
  | left how => rfl
  | raised t =>
    cases hf : t.kind.family with
    | complaint | loading =>
      have hcaught : Halt.isCaught (.raised t) = true := by simp [Halt.isCaught, hf]
      rw [catching, if_pos hcaught]
      simp only [endWith, hf]
      exact report.complain_exit (by simp [hf]) _
    | _ => simp [endWith, catching, Halt.isCaught, Halt.printed, hf]

theorem runSuite_exit (i : Invocation) (sur : Surroundings) (group : String) (steps : List Step) :
    (i.runSuite sur group steps).exit = catching Halt.isCaught (ending (i.setup sur group) steps) := by
  unfold runSuite ending
  cases Rig.set (i.setup sur group) with
  | error f => exact endWith_exit _ _
  | ok r =>
    dsimp only
    cases (runSteps steps r).halt with
    | some h => exact endWith_exit _ _
    | none =>
      have hcode : (runSteps steps r).rig.close.exitStatus.code =
          (runSteps steps r).rig.exitStatus.code := by rw [exitStatus_close]
      cases i.summary <;> exact congrArg Except.ok hcode

/-! ## The summary -/

/-- The invocation without its summary. -/
def quiet (i : Invocation) : Invocation := { i with summary := false }

theorem apply_quiet (i : Invocation) (u : Options.Use Setting) :
    apply i.quiet u = (apply i u).map quiet := by
  unfold apply
  cases u.entry.meaning <;> rfl

theorem takeSuite_quiet (i : Invocation) : ∀ ws : List Options.Word,
    i.quiet.takeSuite ws = (i.takeSuite ws).map quiet
  | [] => rfl
  | w :: ws => by
    simp only [takeSuite]
    by_cases hw : w = separator
    · rw [if_pos hw, if_pos hw]
      cases ws <;> rfl
    · rw [if_neg hw, if_neg hw]
      rfl

/-- **The flag `--no-summary`** in front of a command line leaves the summary out and changes nothing
else of what is read. -/
theorem ofArgv_noSummary (argv : List String) :
    ofArgv ("--no-summary" :: argv) = (ofArgv argv).map quiet := by
  obtain ⟨e, he, hflag⟩ : ∃ e : Options.Entry Setting, e.meaning = .noSummary ∧
      Options.Spells grammar [some "--no-summary"] [⟨e, none⟩] :=
    ⟨_, rfl, .flag (n := "--no-summary".toList) rfl rfl⟩
  have happly : apply {} ⟨e, none⟩ = .ok ({} : Invocation).quiet := by
    simp only [apply, he]
    rfl
  have hfold (us : List (Options.Use Setting)) :
      us.foldlM apply ({} : Invocation).quiet = (us.foldlM apply {}).map quiet :=
    foldlM_map quiet apply apply_quiet us {}
  have hboth := hflag.read_append true (argv.map some)
  rw [List.cons_append, List.nil_append] at hboth
  rcases hboth with ⟨m, hrest, hread⟩ | hread
  · simp only [ofArgv, List.map_cons, hread, hrest]
    rfl
  · simp only [ofArgv, List.map_cons, hread]
    obtain ⟨uses, extras, fault, rest⟩ := Options.read grammar true (argv.map some)
    simp only [Options.Reading.act, Options.Reading.withUses, List.cons_append, List.nil_append,
      List.foldlM_cons, happly]
    show ((uses.foldlM apply ({} : Invocation).quiet >>= _) >>= _) = _
    rw [hfold]
    cases uses.foldlM apply {} with
    | error stop => rfl
    | ok i =>
      cases fault with
      | some m => rfl
      | none =>
        simp only [Except.map, bind, Except.bind, pure, Except.pure, takeSuite_quiet]
        cases i.takeSuite rest with
        | none => rfl
        | some j => cases extras <;> rfl

/-- The exit code of the command, by what its command line is read as. -/
theorem run_exit (argv : List String) (sur : Surroundings) : (run argv sur).exit =
    match ofArgv argv with
    | .error stop => .error (.raised stop.thrown)
    | .ok i => catching Halt.isCaught (match Loader.load sur.disk i.suite with
      | .error f => .error (.raised f.thrown)
      | .ok (group, steps) => ending (i.setup sur (i.groupName group)) steps) := by
  unfold run
  cases ofArgv argv with
  | error stop => rfl
  | ok i =>
    dsimp only
    cases Loader.load sur.disk i.suite with
    | error f => exact endWith_exit _ _
    | ok p => exact runSuite_exit i sur (i.groupName p.1) p.2

/-- The law for the command: it ends with 0 or 1, and with 0 exactly for flawless steps. -/
theorem run_law {n : Nat} (h : (run argv sur).exit = .ok n) : (n = 0 ∨ n = 1) ∧
    (n = 0 ↔ ∃ i group steps r, ofArgv argv = .ok i ∧
      Loader.load sur.disk i.suite = .ok (group, steps) ∧
      Rig.set (i.setup sur (i.groupName group)) = .ok r ∧ r.Flawless Halt.isCaught steps) := by
  rw [run_exit] at h
  cases hi : ofArgv argv with
  | error stop => simp [hi] at h
  | ok i =>
    rw [hi] at h
    cases hload : Loader.load sur.disk i.suite with
    | error f =>
      simp only [hload] at h
      obtain ⟨rfl, -⟩ := of_catching_error h
      exact ⟨Or.inr rfl, by simp [hload]⟩
    | ok p =>
      obtain ⟨group, steps⟩ := p
      simp only [hload] at h
      obtain ⟨hn, hlaw⟩ := ending_law h
      refine ⟨hn, hlaw.trans ⟨fun ⟨r, hr⟩ => ⟨i, group, steps, r, rfl, hload, hr⟩, ?_⟩⟩
      rintro ⟨i', group', steps', r, hi', hload', hr⟩
      cases hi'
      cases hload.symm.trans hload'
      exact ⟨r, hr⟩

/-- Whether a summary is printed makes no difference. -/
theorem run_exit_of_quiet {argv argv' : List String} (h : ofArgv argv' = (ofArgv argv).map quiet)
    (sur : Surroundings) : (run argv' sur).exit = (run argv sur).exit := by
  rw [run_exit, run_exit, h]
  cases ofArgv argv <;> rfl

end Invocation

/-- **Exit codes**, whatever the tests do and whatever fails.  Whenever a program of tests ends with an
exit code, it is 0 or 1, and it is 0 exactly if a rig was set up, no complaint ended the steps, every
admitted test returned true and no selection is left.  The command that runs a suite ends the suite's
steps with its options just as a program does, and catches more: suites that cannot be loaded and
interrupts, also when they come up before there are steps; so the same holds of its exit codes.  They
are the same with and without `--no-summary`. -/
theorem exit_codes (s : Setup) (steps : List Step) (argv : List String) (sur : Invocation.Surroundings) :
    (Program.run s steps).exit = catching Halt.isComplaint (ending s steps) ∧
    (∀ n, (Program.run s steps).exit = .ok n → (n = 0 ∨ n = 1) ∧
      (n = 0 ↔ ∃ r, Rig.set s = .ok r ∧ r.Flawless Halt.isComplaint steps)) ∧
    (∀ i, Invocation.ofArgv argv = .ok i →
      (∀ f, Loader.load sur.disk i.suite = .error f →
        (Invocation.run argv sur).exit = catching Halt.isCaught (.error (.raised f.thrown))) ∧
      ∀ group steps, Loader.load sur.disk i.suite = .ok (group, steps) →
        (Invocation.run argv sur).exit =
          catching Halt.isCaught (ending (i.setup sur (i.groupName group)) steps)) ∧
    (∀ n, (Invocation.run argv sur).exit = .ok n → (n = 0 ∨ n = 1) ∧
      (n = 0 ↔ ∃ i group steps r, Invocation.ofArgv argv = .ok i ∧
        Loader.load sur.disk i.suite = .ok (group, steps) ∧
        Rig.set (i.setup sur (i.groupName group)) = .ok r ∧ r.Flawless Halt.isCaught steps)) ∧
    (Invocation.run ("--no-summary" :: argv) sur).exit = (Invocation.run argv sur).exit ∧
    ∀ argv', Invocation.ofArgv argv' = (Invocation.ofArgv argv).map Invocation.quiet →
      (Invocation.run argv' sur).exit = (Invocation.run argv sur).exit := by
  refine ⟨Program.run_exit s steps, fun n h => ending_law (Program.run_exit s steps ▸ h),
    fun i hi => ⟨fun f hf => ?_, fun group steps hload => ?_⟩, fun n h => Invocation.run_law h,
    Invocation.run_exit_of_quiet (Invocation.ofArgv_noSummary argv) sur,
    fun argv' h => Invocation.run_exit_of_quiet h sur⟩
  · rw [Invocation.run_exit, hi]
    simp only [hf]
  · rw [Invocation.run_exit, hi]
    simp only [hload]

/-- Of two tests the second one fails.  The program whose suite selects the first one is flawless, and so
is the command, with and without a summary. -/
theorem exit_codes_two :
    let steps : List Step := [.ask (.select "s.1"), .ask (.run "s" (.int 1) fun _ => .returned),
      .ask (.run "s" (.int 2) fun _ => .raised (.of .testFailure "no"))]
    let suite : Suite := { functions := [("register", steps)] }
    let sur : Invocation.Surroundings :=
      { interpreter := "python3", disk := Disk.blank.place "a.py" (.suite suite)
        launcher := fun _ _ => .error .holdsNul }
    (∃ r, Rig.set (.bare ["t"]) = .ok r ∧ r.Flawless Halt.isComplaint steps) ∧
    (∃ i group steps r, Invocation.ofArgv ["a.py"] = .ok i ∧
      Loader.load sur.disk i.suite = .ok (group, steps) ∧
      Rig.set (i.setup sur (i.groupName group)) = .ok r ∧ r.Flawless Halt.isCaught steps) ∧
    (Invocation.run ["--no-summary", "a.py"] sur).exit = .ok 0 := by
  intro steps suite sur
  obtain ⟨-, hlaw, hsame, hlaw', hquiet, -⟩ := exit_codes (.bare ["t"]) steps ["a.py"] sur
  obtain ⟨n, hn, rfl⟩ := exists_eq_ok (x := (Program.run (.bare ["t"]) steps).exit)
    (p := (· = 0)) (by decide +kernel)
  obtain ⟨i, hi, rfl⟩ := exists_eq_ok (x := Invocation.ofArgv ["a.py"])
    (p := (· = { suite := "a.py" })) (by decide +kernel)
  have hload : Loader.load sur.disk "a.py" = .ok ("a", steps) := by cbv
  obtain ⟨m, hm, rfl⟩ := exists_eq_ok (p := (· = 0)) (x :=
    ending (Invocation.setup { suite := "a.py" } sur "a") steps) (by decide +kernel)
  have hexit : (Invocation.run ["a.py"] sur).exit = .ok 0 :=
    ((hsame _ hi).2 "a" steps hload).trans (congrArg (catching Halt.isCaught) hm)
  exact ⟨(hlaw 0 hn).2.mp rfl, (hlaw' 0 hexit).2.mp rfl, hquiet.trans hexit⟩

end TestRig
