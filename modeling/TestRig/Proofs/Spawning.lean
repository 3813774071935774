import TestRig.Proofs.Performance

/-!
# TestRig.Proofs.Spawning — a test in a program started for it

A program that is started for a test is waited for up to the time limit.  If it goes on then, or if the
wait is interrupted, it is looked at again, killed and waited for.  Four things can be raised meanwhile
that are no complaints of the harness: the words of the command hold a null character, the time limit
is no number of seconds, an error of a call says something else than that the program is gone, and the
signal that ended the program has a number beyond all signals.

* `Exits`: how a part of the work can end.
* `Spawned.Escapes`: the exceptions that leave the work, and when.
* `Ends.superviseSpawn` and `superviseSpawn_of_escapes`: there are no others, and these do.
* `Rig.keeps_served_all`: what no session changes, in any mode.
-/

namespace TestRig

namespace Supervision

open Journal (Entry)

/-! ## How work can end -/

/-- The ends of work on a test: whether it passed, a complaint about its process, an interrupt if
there is one, or an exception that escapes. -/
inductive Exits (stopped : Prop) (escapes : Exception → Prop) : Except Halt Bool → Prop
  | judged (passed : Bool) : Exits stopped escapes (.ok passed)
  | creation (text : String) :
      Exits stopped escapes (.error (.ofException (.of .processCreationFailure text)))
  | control (text : String) :
      Exits stopped escapes (.error (.ofException (.of .processControlFailure text)))
  | interrupted (h : stopped) : Exits stopped escapes (.error (.raised .interrupted))
  | escaped {e : Exception} (h : escapes e) : Exits stopped escapes (.error (.ofException e))

theorem Exits.mono {stopped stopped' : Prop} {escapes escapes' : Exception → Prop}
    {v : Except Halt Bool} (h : Exits stopped escapes v) (hs : stopped → stopped')
    (he : ∀ e, escapes e → escapes' e) : Exits stopped' escapes' v := by
  cases h with
  | judged passed => exact .judged passed
  | creation text => exact .creation text
  | control text => exact .control text
  | interrupted hi => exact .interrupted (hs hi)
  | escaped hx => exact .escaped (he _ hx)

/-- A part of the work on a host ends so, and keeps what all work keeps. -/
structure Ends (stopped : Prop) (escapes : Exception → Prop) (h : Host)
    (p : Except Halt Bool × Host) : Prop where
  exits : Exits stopped escapes p.1
  onward : h.Onward p.2

/-! ## Exceptions that escape from the work on a program -/

namespace Spawned

/-- What a look at a program finds that has ended or not. -/
def found (ended : Bool) (f : Faults) : Except WaitFault Bool :=
  match f.wait.next with
  | none => .ok ended
  | some (.failed e) => if isNamed e "ChildProcessError" then .ok true else .error (.failed e)
  | some fault => .error fault

/-- The user interrupts a look. -/
def Cut (ended : Bool) (f : Faults) : Prop := ∃ c, found ended f = .error (.interrupted c)

/-- A look does not show that a program has ended, or it fails. -/
def Missed (ended : Bool) (f : Faults) : Prop :=
  found ended f = .ok false ∨ ∃ e, found ended f = .error (.failed e)

/-- A killed program is not collected: a wait fails, or after an interrupt one more wait. -/
inductive Uncollected (f : Faults) : Exception → Prop
  | first {e : Exception} (h : found true f = .error (.failed e)) : Uncollected f e
  | second {e : Exception} (h : Cut true f) (h' : found true (Fate.pastWait f) = .error (.failed e)) :
      Uncollected f e

/-- A program is not killed and collected. -/
inductive Unkilled (f : Faults) : Exception → Prop
  | kill {e : Exception} (h : f.kill.next = some e)
      (he : isNamed e "ProcessLookupError" = false) : Unkilled f e
  | collect {e : Exception} (hk : ∀ x, f.kill.next = some x → isNamed x "ProcessLookupError" = true)
      (h : Uncollected { f with kill := f.kill.later } e) : Unkilled f e

/-- A program is not stopped that has ended or not. -/
inductive Unstopped (ended : Bool) (f : Faults) : Exception → Prop
  | missed {e : Exception} (h : Missed ended f) (h' : Unkilled (Fate.pastWait f) e) :
      Unstopped ended f e

/-- A program is not stopped after an interrupt. -/
inductive Recoils (ended : Bool) (f : Faults) : Exception → Prop
  | wait {e : Exception} (h : found ended f = .error (.failed e)) : Recoils ended f e
  | stop {e : Exception} (h : found ended f = .ok false ∨ Cut ended f)
      (h' : Unstopped ended (Fate.pastWait f) e) : Recoils ended f e

section

variable (k : Course) (ms : Nat) (life : Option Nat → Disk × Option Status) (f : Faults)

/-- Has a program ended when it is looked at again at its time limit? -/
def atLimit : Bool := (life (some (ms + k.extra))).2.isSome

/-- What escapes from waiting for a program. -/
inductive Slips : Exception → Prop
  | waiting {e : Exception} (h : f.wait.next = some (.failed e))
      (he : isNamed e "ChildProcessError" = false) : Slips e
  /-- The number of the signal is beyond all signals. -/
  | signal {s : Status} {e : Exception} (hw : f.wait.next = none) (hs : (life (some ms)).2 = some s)
      (h : describeReturnCode .posix s.returnCode = .error e) : Slips e
  | limit {e : Exception} (hw : f.wait.next = none) (hs : (life (some ms)).2 = none)
      (h : Unstopped (atLimit k ms life) (Fate.pastWait f) e) : Slips e
  | interrupted {c : Bool} {e : Exception} (hw : f.wait.next = some (.interrupted c))
      (h : Recoils (life (some k.extra)).2.isSome (Fate.pastWait f) e) : Slips e

/-- The user interrupts the wait for a program, a look at it at its time limit, or the wait for it when
it has been killed. -/
inductive Interrupts : Prop
  | waiting {c : Bool} (h : f.wait.next = some (.interrupted c)) : Interrupts
  | stopping (hw : f.wait.next = none) (hs : (life (some ms)).2 = none)
      (h : Cut (atLimit k ms life) (Fate.pastWait f)) : Interrupts
  | collecting (hw : f.wait.next = none) (hs : (life (some ms)).2 = none)
      (hm : Missed (atLimit k ms life) (Fate.pastWait f))
      (h : Cut true (Fate.pastWait (Fate.pastWait f))) : Interrupts

end

/-- The faults behind the start of a program. -/
def pastStart (f : Faults) : Faults := { f with courses := fun n => f.courses (n + 1) }

/-- What escapes from running a test by a program. -/
inductive Escapes (launcher : Launcher) (cfg : Configuration) (words : List String) (disk : Disk)
    (f : Faults) : Exception → Prop
  | nul (h : launcher words disk = .error .holdsNul) :
      Escapes launcher cfg words disk f (.of .valueError "embedded null byte")
  | limit {life : Option Nat → Disk × Option Status} {t : Configuration.TimeFault}
      (hl : launcher words disk = .ok life) (h : cfg.seconds = .error t) :
      Escapes launcher cfg words disk f t.exception
  | slips {life : Option Nat → Disk × Option Status} {seconds : Binary64} {e : Exception}
      (hl : launcher words disk = .ok life) (hs : cfg.seconds = .ok seconds)
      (h : Slips (f.courses 0) (cfg.timeout.getD 0) life (pastStart f) e) :
      Escapes launcher cfg words disk f e

/-- The user interrupts the work on a program. -/
def Interrupted (launcher : Launcher) (cfg : Configuration) (words : List String) (disk : Disk)
    (f : Faults) : Prop :=
  ∃ life, launcher words disk = .ok life ∧
    Interrupts (f.courses 0) (cfg.timeout.getD 0) life (pastStart f)

end Spawned

variable {h h' : Host} {test : Identity} {pid ms : Nat} {k : Course} {words : List String}
  {life : Option Nat → Disk × Option Status} {cfg : Configuration} {command : List String}
  {e : Exception} {p : Launched} {next : Host → Except Halt Bool × Host} {stopped : Prop}
  {escapes : Exception → Prop}

open Spawned

/-! ## Looking at a program -/

theorem Launched.onward_settle (p : Launched) (h : Host) : h.Onward (p.settle h) := .onDisk p.disk h

theorem Launched.onward_leave (p : Launched) (h : Host) : h.Onward (p.leave h) := by
  unfold Launched.leave
  split
  · exact p.onward_settle h
  · exact .desert h _

/-- A look at a program finds what it finds, and uses up a call. -/
theorem Launched.look_eq (p : Launched) (h : Host) : ∃ h', p.look h = (found p.hasEnded h.faults, h') ∧
    h'.faults = Fate.pastWait h.faults ∧ h.Onward h' := by
  have hwait : h.wait = (h.faults.wait.next, { h with faults := Fate.pastWait h.faults }) := rfl
  have ho : h.Onward { h with faults := Fate.pastWait h.faults } := ⟨rfl, rfl, id, .pastWait _⟩
  unfold Launched.look found
  rw [hwait]
  rcases h.faults.wait.next with _ | _ | e
  · refine ⟨_, rfl, ?_, ?_⟩
    · split <;> rfl
    · split
      · exact ho.trans (.log _ _)
      · exact ho
  · exact ⟨_, rfl, rfl, ho⟩
  · dsimp only
    split <;> exact ⟨_, rfl, rfl, ho⟩

namespace Ends

theorem mono {stopped' : Prop} {escapes' : Exception → Prop} {p : Except Halt Bool × Host}
    (hp : Ends stopped escapes h p) (hs : stopped → stopped') (he : ∀ e, escapes e → escapes' e) :
    Ends stopped' escapes' h p :=
  ⟨hp.exits.mono hs he, hp.onward⟩

theorem after {p : Except Halt Bool × Host} (hp : Ends stopped escapes h' p) (ho : h.Onward h') :
    Ends stopped escapes h p := ⟨hp.exits, ho.trans hp.onward⟩

theorem interrupted (hs : stopped) (ho : h.Onward h') : Ends stopped escapes h (passInterrupt h') :=
  ⟨.interrupted hs, ho⟩

theorem escaped (he : escapes e) (ho : h.Onward h') :
    Ends stopped escapes h (.error (.ofException e), h') :=
  ⟨.escaped he, ho⟩

/-! ## Stopping a program -/

theorem collect (hp : p.hasEnded = true) (hn : ∀ h', Ends stopped escapes h' (next h'))
    (he : ∀ e, Uncollected h.faults e → escapes e) (hi : Cut true h.faults → stopped) :
    Ends stopped escapes h (p.collect h next) := by
  obtain ⟨h₁, hlook, hf, ho⟩ := p.look_eq h
  unfold Launched.collect
  rw [hlook, hp]
  rcases hfound : found true h.faults with (c | e) | b
  · obtain ⟨h₂, hlook', -, ho'⟩ := p.look_eq h₁
    dsimp only
    rw [hlook', hp, hf]
    rcases hfound' : found true (Fate.pastWait h.faults) with (c' | e) | b
    · exact interrupted (hi ⟨c, hfound⟩) (ho.trans ho')
    · exact escaped (he e (.second ⟨c, hfound⟩ hfound')) (ho.trans ho')
    · exact interrupted (hi ⟨c, hfound⟩) (ho.trans ho')
  · exact escaped (he e (.first hfound)) ho
  · exact (hn h₁).after ho

theorem kill (hn : ∀ h', Ends stopped escapes h' (next h'))
    (he : ∀ e, Unkilled h.faults e → escapes e) (hi : Cut true h.faults → stopped) :
    Ends stopped escapes h (p.kill h next) := by
  obtain ⟨h₁, hkill, hpast⟩ := h.kill_eq p.pid [] []
  have ho : h.Onward h₁ := .of_past hpast (.pastKill _)
  have hf : h₁.faults = { h.faults with kill := h.faults.kill.later } := by
    obtain ⟨_, rfl⟩ := hpast
    rfl
  unfold Launched.kill
  dsimp only
  rw [hkill]
  have hcollect : (∀ x, h.faults.kill.next = some x → isNamed x "ProcessLookupError" = true) →
      Ends stopped escapes h
        (({ p with status := some (.killed 9) } : Launched).collect (p.settle h₁) next) := by
    intro hk
    have hsettle : (p.settle h₁).faults = h₁.faults := rfl
    refine (collect rfl hn (fun e hu => he e (.collect hk ?_)) fun hc => hi ?_).after
      (ho.trans (p.onward_settle h₁))
    · rwa [hsettle, hf] at hu
    · rwa [hsettle, hf] at hc
  rcases hk : h.faults.kill.next with _ | e
  · exact hcollect fun x hx => by rw [hk] at hx; cases hx
  · cases hx : isNamed e "ProcessLookupError" with
    | true =>
      simp only [hx, if_true]
      exact hcollect fun x hx' => by rw [hk] at hx'; cases hx'; exact hx
    | false =>
      simp only [hx]
      exact escaped (he e (.kill hk hx)) (ho.trans (p.onward_leave h₁))

theorem stop (hn : ∀ h', Ends stopped escapes h' (next h'))
    (he : ∀ e, Unstopped p.hasEnded h.faults e → escapes e) (hi : Cut p.hasEnded h.faults → stopped)
    (hi' : Missed p.hasEnded h.faults → Cut true (Fate.pastWait h.faults) → stopped) :
    Ends stopped escapes h (p.stop h next) := by
  obtain ⟨h₁, hlook, hf, ho⟩ := p.look_eq h
  unfold Launched.stop
  rw [hlook]
  have hkill : Missed p.hasEnded h.faults → Ends stopped escapes h (p.kill h₁ next) := fun hm =>
    (kill hn (fun e hu => he e (.missed hm (hf ▸ hu))) fun hc => hi' hm (hf ▸ hc)).after ho
  rcases hfound : found p.hasEnded h.faults with (c | e) | _ | _
  · exact interrupted (hi ⟨c, hfound⟩) (ho.trans (p.onward_leave h₁))
  · exact hkill (Or.inr ⟨e, hfound⟩)
  · exact hkill (Or.inl hfound)
  · exact (hn _).after (ho.trans (p.onward_leave h₁))

theorem stopInterrupted (hs : stopped) (he : ∀ e, Recoils p.hasEnded h.faults e → escapes e) :
    Ends stopped escapes h (p.stopInterrupted h) := by
  obtain ⟨h₁, hlook, hf, ho⟩ := p.look_eq h
  unfold Launched.stopInterrupted
  rw [hlook]
  have hstop : found p.hasEnded h.faults = .ok false ∨ Cut p.hasEnded h.faults →
      Ends stopped escapes h (p.stop h₁ passInterrupt) := fun hm =>
    (stop (fun h' => interrupted hs (.refl h')) (fun e hu => he e (.stop hm (hf ▸ hu)))
      (fun _ => hs) fun _ _ => hs).after ho
  rcases hfound : found p.hasEnded h.faults with (c | e) | _ | _
  · exact hstop (Or.inr ⟨c, hfound⟩)
  · exact escaped (he e (.wait hfound)) (ho.trans (p.onward_leave h₁))
  · exact hstop (Or.inl hfound)
  · exact interrupted hs (ho.trans (p.onward_leave h₁))

/-! ## Waiting for a program -/

/-- The number of an ending is judged, unless it is that of no signal. -/
theorem judgeReturnCode {code : Int} (he : ∀ e, describeReturnCode .posix code = .error e → escapes e) :
    Ends stopped escapes h (judgeReturnCode test pid code h) := by
  unfold Supervision.judgeReturnCode
  rcases hd : describeReturnCode .posix code with e | _ | reason
  · exact escaped (he e hd) (.refl h)
  · unfold judgeExit checkExitCode
    dsimp only
    split
    · exact ⟨.judged _, .enterAll h [.note _]⟩
    · split
      · exact ⟨.judged _, .enterAll h [.note _]⟩
      · exact ⟨.judged _, (Host.Onward.report h _).trans (.enterAll _ [.note _])⟩
  · exact ⟨.judged _, .report h reason⟩

/-- **A program that is waited for.** -/
theorem awaitProgram :
    Ends (Interrupts k ms life h.faults) (Slips k ms life h.faults) h
      (awaitProgram test pid words k ms life h) := by
  have hwait : h.wait = (h.faults.wait.next, { h with faults := Fate.pastWait h.faults }) := rfl
  have ho : h.Onward { h with faults := Fate.pastWait h.faults } := ⟨rfl, rfl, id, .pastWait _⟩
  unfold Supervision.awaitProgram
  dsimp only
  rw [hwait]
  rcases hw : h.faults.wait.next with _ | c | e
  · dsimp only
    cases hs : (life (some ms)).2 with
    | some s =>
      exact (judgeReturnCode fun e he => .signal hw hs he).after
        ((ho.trans (.log _ _)).trans (Launched.onward_settle _ _))
    | none =>
      exact (stop (fun h' => ⟨.judged false, .report h' timedOut⟩) (fun e he => .limit hw hs he)
        (fun hc => .stopping hw hs hc) fun hm hc => .collecting hw hs hm hc).after ho
  · exact (stopInterrupted (.waiting hw) fun e he => .interrupted hw he).after ho
  · have hleft := ho.trans (.desert { h with faults := Fate.pastWait h.faults } (.program words))
    cases hx : isNamed e "ChildProcessError" with
    | true =>
      simp only [hx, if_true]
      exact (judgeReturnCode fun e he => nomatch he).after hleft
    | false =>
      simp only [hx]
      exact escaped (.waiting hw hx) hleft

/-- **A test in a program started for it.** -/
theorem superviseSpawn :
    let words := (childCommand cfg command test).map (·.getD "[]")
    let begun := startLine test (h.note s!"running {test.name}: {commandLine words}")
    Ends (Interrupted h.launcher cfg words begun.journal.disk h.faults)
      (Escapes h.launcher cfg words begun.journal.disk h.faults) h
      (superviseSpawn cfg command test h) := by
  intro words begun
  have ho : h.Onward begun :=
    .enterAll h [.note s!"running {test.name}: {commandLine words}", .name test]
  have hwords : (childCommand cfg command test).map (·.getD "[]") = words := rfl
  have hbegun : startLine test (h.note s!"running {test.name}: {commandLine words}") = begun := rfl
  have hlauncher : begun.launcher = h.launcher := rfl
  unfold Supervision.superviseSpawn
  simp only [hwords, hbegun, hlauncher]
  rcases hl : h.launcher words begun.journal.disk with (_ | reason) | life
  · exact escaped (.nul hl) ho
  · exact ⟨.creation _, ho.trans (.enterAll begun [.blank])⟩
  · have hstarted : h.Onward begun.start.2 := ho.trans ⟨rfl, rfl, id, .pastCourse _⟩
    cases hs : cfg.seconds with
    | error t => exact escaped (.limit hl hs) (hstarted.trans (.desert _ _))
    | ok seconds =>
      have hawait : Ends (Interrupts (h.faults.courses 0) (cfg.timeout.getD 0) life (pastStart h.faults))
          (Slips (h.faults.courses 0) (cfg.timeout.getD 0) life (pastStart h.faults)) begun.start.2
          (Supervision.awaitProgram test begun.start.1 words (h.faults.courses 0)
            (cfg.timeout.getD 0) life begun.start.2) := awaitProgram (h := begun.start.2)
      exact (hawait.mono (fun hi => ⟨life, hl, hi⟩) fun e he => .slips hl hs he).after hstarted

end Ends

/-! ## What escapes is raised -/

end Supervision

namespace Rig

open Supervision

variable {r : Rig}

/-! ## What no session changes, in any mode -/

theorem perform_of_away (hh : ¬ r.StaysHome) {test : Identity} (hw : test.isWritable = true)
    (body : Body) :
    r.perform test body = superviseSpawn r.configuration r.command test r.host := by
  have hdirect : r.configuration.direct = false := by
    cases hd : r.configuration.direct with
    | false => rfl
    | true => exact absurd (Or.inl hd) hh
  have hspawn : r.strategy = .spawn := by
    cases hst : r.strategy with
    | spawn => rfl
    | fork => exact absurd (Or.inr hst) hh
  unfold perform
  simp only [hw, hdirect, hspawn, Bool.not_true, Bool.false_eq_true, if_false]

theorem perform_onward (hh : ¬ r.StaysHome) (test : Identity) (body : Body) :
    r.host.Onward (r.perform test body).2 := by
  cases hw : test.isWritable with
  | false =>
    unfold perform
    rw [hw]
    exact .refl _
  | true =>
    rw [perform_of_away hh hw]
    exact Ends.superviseSpawn.onward

/-- **One request** to a rig that starts programs. -/
theorem keeps_moment_away (hh : ¬ r.StaysHome) (hs : r.journal.Settled) (q : Request) :
    r.Keeps (r.moment q).after := by
  cases hq : (r.moment q).admitted? with
  | none => exact keeps_idle hs hq
  | some k =>
    obtain ⟨subgroup, number, body, rfl, ha⟩ := run_of_admitted? hq
    have ho := perform_onward (r := r.enter k) hh (r.registry.identity k) body
    show r.Keeps (r.run subgroup number body).2
    rw [run_of_admitted ha, tally_snd]
    exact keeps_of_onward hs k _ ho

theorem keeps_served_away : ∀ (qs : List Request) {r : Rig}, ¬ r.StaysHome → r.journal.Settled →
    r.Keeps (r.served qs)
  | [], _, _, hs => .refl hs
  | q :: qs, r, hh, hs => by
    have hkeeps := keeps_moment_away hh hs q
    have haway : ¬ (r.moment q).after.StaysHome := by
      rw [StaysHome, hkeeps.configuration, hkeeps.strategy]
      exact hh
    exact hkeeps.trans (keeps_served_away qs haway hkeeps.settled)

/-- **What no session changes**, in any mode. -/
theorem keeps_served_all {s : Setup} {r₀ : Rig} (h : Rig.set s = .ok r₀) (qs : List Request) :
    r₀.Keeps (r₀.served qs) := by
  by_cases hh : r₀.StaysHome
  · exact keeps_served qs ((fresh_of_set h).homely hh)
  · exact keeps_served_away qs hh (fresh_of_set h).settled

end Rig

end TestRig
