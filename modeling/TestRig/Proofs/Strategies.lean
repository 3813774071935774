import Mathlib.Data.List.Forall2
import TestRig.Proofs.Waiting

/-!
# TestRig.Proofs.Strategies — copies and programs are judged alike

A rig that forks learns how a copy of it ended as a status, one that starts programs as a signed number.
Both write the name of the test before its process starts, and both write the same behind what the
process writes: nothing, or one line that says why the test failed.  So if a program does what a copy
does, the two rigs agree on every test of every session.

* `judgeReturnCode_eq`: the number of an ending is judged as the ending is.
* `closing`: what a rig writes behind what the process of a test writes.
* `Journal.around`: the line of a test, with what its process does in the middle.
* `Rig.Mirrors`: a program does what a copy does.
* `Rig.Abreast.moment`: any request of two rigs of which one forks and the other starts programs.
* `Rig.strategies_judge_alike`: every session of theirs.
-/

namespace TestRig

open Journal (Entry)

namespace Supervision

/-! ## Endings and their numbers -/

/-- An ending that there is: no signal has another number. -/
def Status.Possible (s : Status) : Prop := ∀ n, s = .killed n → 0 < n ∧ n ≤ Signal.lastRealTime

theorem possible_exited (code : Nat) : (Status.exited code).Possible := fun _ h => nomatch h

theorem possible_of_endingStatus {d : Dumper} {name : String} {e : Ending} {s : Status}
    (h : endingStatus d name e = some s) : s.Possible := by
  cases e with
  | left how =>
    cases how with
    | exited code =>
      cases h
      exact possible_exited _
    | signalled m =>
      simp only [endingStatus, Option.ite_none_right_eq_some, Option.some.injEq] at h
      obtain ⟨hends, rfl⟩ := h
      rintro n ⟨⟩
      simp only [Signal.ends, Bool.and_eq_true, decide_eq_true_eq] at hends
      exact hends.1
    | endless => cases h
  | _ =>
    simp only [endingStatus] at h
    split at h
    · cases h
      exact possible_exited _
    · cases h
      exact possible_exited _

variable {h : Host} {test : Identity} {pid : Nat} {status : Option Status}

theorem describeReturnCode_exited (code : Nat) : describeReturnCode .posix code = .ok none :=
  if_neg (by omega)

/-- A signal is described by its number with a minus sign. -/
theorem describeReturnCode_killed {n : Nat} (hpos : 0 < n) (hlast : n ≤ Signal.lastRealTime) :
    describeReturnCode .posix (-(n : Int)) = .ok (some (Signal.describe n)) := by
  have hlimit : Signal.lastRealTime = 64 := rfl
  have hneg : -(n : Int) < 0 := by omega
  have hfits : ¬ ((n : Int) < -2147483648 ∨ 2147483647 < (n : Int)) := by omega
  have hnumber : Signal.describeNumber (n : Int) = .ok (Signal.describe n) := by
    unfold Signal.describeNumber
    rw [if_neg hfits]
  unfold describeReturnCode
  rw [if_pos hneg, Int.neg_neg, hnumber]
  rfl

/-- **The number of an ending is judged as the ending is.** -/
theorem judgeReturnCode_eq {s : Status} (hs : s.Possible) (h : Host) :
    judgeReturnCode test pid s.returnCode h = judge test pid s h := by
  unfold judgeReturnCode
  cases s with
  | exited code =>
    have hreturn : (Status.exited code).returnCode = (code : Int) := rfl
    rw [hreturn, describeReturnCode_exited]
    rfl
  | killed n =>
    obtain ⟨hpos, hlast⟩ := hs n rfl
    have hreturn : (Status.killed n).returnCode = -(n : Int) := rfl
    rw [hreturn, describeReturnCode_killed hpos hlast]
    rfl

/-! ## What stands behind the outcome -/

/-- What a rig writes behind what the process of a test has written: nothing if the process has exited
with 0 or 1, else why the test failed.  A process without a status was killed at the time limit. -/
def closing : Option Status → List Entry
  | none => [.outcome s!"FAIL ({timedOut})\n"]
  | some (.killed n) => [.outcome s!"FAIL ({Signal.describe n})\n"]
  | some (.exited code) =>
    if code ≤ 1 then [] else [.outcome s!"FAIL (exit status {Text.showInt code})\n"]

/-- Nothing, or one reason. -/
theorem closing_cases (status : Option Status) :
    closing status = [] ∨ ∃ reason : String, closing status = [.outcome s!"FAIL ({reason})\n"] := by
  match status with
  | none => exact Or.inr ⟨_, rfl⟩
  | some (.killed n) => exact Or.inr ⟨_, rfl⟩
  | some (.exited code) =>
    by_cases hcode : code ≤ 1
    · exact Or.inl (if_pos hcode)
    · have hsplit : "FAIL (exit status " = "FAIL (" ++ "exit status " := rfl
      refine Or.inr ⟨"exit status " ++ Text.showInt code, (if_neg hcode).trans ?_⟩
      show [Entry.outcome ("FAIL (exit status " ++ Text.showInt code ++ ")\n")] =
        [Entry.outcome ("FAIL (" ++ ("exit status " ++ Text.showInt code) ++ ")\n")]
      simp only [hsplit, String.append_assoc]

/-- Without notes, that is what is written about an ending. -/
theorem enterAll_entries {j : Journal} (hv : j.verbose = false) (s : Status) :
    j.enterAll (s.entries test pid) = j.enterAll (closing (some s)) := by
  cases s with
  | killed n => rfl
  | exited code =>
    have halike := Journal.alike_enterAll j (closing (some (.exited code)))
    have hquiet := halike.verbose.trans hv
    unfold Status.entries
    rw [Journal.enterAll_append]
    exact Journal.enter_note hquiet _

/-- Without notes, that is what is done with an ending. -/
theorem judge_of_verbose (hv : h.journal.verbose = false) (test : Identity) (pid : Nat) (s : Status) :
    (judge test pid s h).1 = .ok (some s == some (.exited 0)) ∧
    (judge test pid s h).2.journal = h.journal.enterAll (closing (some s)) ∧
    (judge test pid s h).2.strays = h.strays := by
  have hcomes : Comes none 0 h (s.entries test pid) (.ok s.passes) (judge test pid s h) :=
    Comes.judge s h
  refine ⟨hcomes.result, hcomes.journal.trans (enterAll_entries hv s), ?_⟩
  cases s with
  | killed n => rfl
  | exited code =>
    show (checkExitCode code h).2.strays = h.strays
    unfold checkExitCode
    split
    · rfl
    · split <;> rfl

/-! ## Programs -/

/-- What a program does within a time limit: it has ended by then and has left this disk, or it goes on,
and has left this disk when it is looked at again. -/
def Lives (life : Option Nat → Disk × Option Status) (ms extra : Nat) (disk : Disk) :
    Option Status → Prop
  | some s => life (some ms) = (disk, some s)
  | none => (life (some ms)).2 = none ∧ life (some (ms + extra)) = (disk, none)

/-- A part of the work returns a verdict, behind some entries and without a process left behind. -/
structure Returns (passed : Bool) (disk : Disk) (es : List Entry) (h : Host)
    (p : Except Halt Bool × Host) : Prop where
  result : p.1 = .ok passed
  journal : p.2.journal = ({ h.journal with disk } : Journal).enterAll es
  strays : p.2.strays = h.strays

/-- A program that goes on is killed where nothing fails. -/
theorem stop_of_quiet (hq : h.faults.Quiet) {p : Launched} (hp : p.status = none) :
    Returns false p.disk (closing none) h
      (p.stop h fun h => (.ok false, h.reportFailure timedOut)) := by
  have hwait : ∀ {h : Host}, h.faults.wait.Succeed →
      h.wait = (none, { h with faults := Fate.pastWait h.faults }) := by
    intro h hs
    have hnone : h.faults.wait 0 = none := hs 0
    simp [Host.wait, Faults.callWait, Calls.next, hnone, Fate.pastWait]
  have hlater : (Fate.pastWait h.faults).Quiet := (Faults.Later.pastWait h.faults).quiet hq
  have hkill : (Fate.pastWait h.faults).kill.next = none := hlater.kill 0
  have hcollect : ∀ {h : Host}, h.faults.wait.Succeed → ∀ next,
      ({ p with status := some (.killed 9) } : Launched).collect h next =
        next ({ h with faults := Fate.pastWait h.faults }.log (.reaped p.pid)) := by
    intro h hs next
    simp [Launched.collect, Launched.look, hwait hs, Launched.hasEnded]
  have hstop : p.stop h (fun h => (.ok false, h.reportFailure timedOut)) =
      p.kill { h with faults := Fate.pastWait h.faults } fun h =>
        (.ok false, h.reportFailure timedOut) := by
    simp [Launched.stop, Launched.look, hwait hq.wait, Launched.hasEnded, hp]
  rw [hstop]
  unfold Launched.kill Host.kill
  simp only [hkill]
  rw [hcollect hlater.wait]
  exact ⟨rfl, rfl, rfl⟩

/-- **A program that is waited for where nothing fails** is judged by its ending, or killed at the time
limit. -/
theorem awaitProgram_of_quiet (hq : h.faults.Quiet) (hv : h.journal.verbose = false)
    (hs : ∀ s ∈ status, s.Possible) {k : Course} {ms : Nat} {disk : Disk}
    {life : Option Nat → Disk × Option Status} (hl : Lives life ms k.extra disk status)
    (test : Identity) (pid : Nat) (words : List String) :
    Returns (status == some (.exited 0)) disk (closing status) h
      (awaitProgram test pid words k ms life h) := by
  have hwait : h.wait = (none, { h with faults := Fate.pastWait h.faults }) := by
    have hnone : h.faults.wait 0 = none := hq.wait 0
    simp [Host.wait, Faults.callWait, Calls.next, hnone, Fate.pastWait]
  have hlater : (Fate.pastWait h.faults).Quiet := (Faults.Later.pastWait h.faults).quiet hq
  unfold awaitProgram
  simp only [hwait]
  cases status with
  | some s =>
    have hlife : life (some ms) = (disk, some s) := hl
    simp only [hlife, judgeReturnCode_eq (hs s rfl)]
    let settled : Host := Launched.settle ⟨pid, words, disk, some s⟩
      ({ h with faults := Fate.pastWait h.faults }.log (.reaped pid))
    obtain ⟨hresult, hjournal, hstrays⟩ := judge_of_verbose (h := settled) hv test pid s
    exact ⟨hresult, hjournal, hstrays⟩
  | none =>
    obtain ⟨hgoes, hlife⟩ := hl
    simp only [hgoes, hlife]
    obtain ⟨hresult, hjournal, hstrays⟩ := stop_of_quiet
      (h := { h with faults := Fate.pastWait h.faults }) hlater (p := ⟨pid, words, disk, none⟩) rfl
    exact ⟨hresult, hjournal, hstrays⟩

end Supervision

/-! ## Journals of two parents -/

namespace Journal

/-- The line of a test: its name is written, its process does something, and `rest` is written. -/
def around (test : Identity) (process : Journal → Journal) (rest : List Entry) (j : Journal) :
    Journal :=
  (process (j.enter (.name test))).enterAll rest

/-- A copy writes to the journal, and a program does the same to the disk only. -/
theorem Paired.around {j j' : Journal} (h : j.Paired j') (test : Identity) (own rest : List Entry) :
    (j.around test (·.enterAll own) rest).Paired
      (j'.around test (fun j => { j with disk := (j.enterAll own).disk }) rest) := by
  have hnamed := h.enter (.name test)
  have hdone := hnamed.enterAll own
  have halike := alike_enterAll (j.enter (.name test)) own
  refine Paired.enterAll rest ⟨hdone.settled, ?_, ?_, ?_, ?_, hdone.disk⟩
  · exact ⟨hnamed.settled'.console, hnamed.settled'.log⟩
  · exact hnamed.verbose.trans halike.verbose.symm
  · exact hnamed.colored.trans halike.colored.symm
  · exact hnamed.log.trans halike.log.symm

end Journal

namespace Rig

open Supervision (Status closing Lives)

variable {f s : Rig} {test : Identity} {body : Body}

/-! ## Rigs that fork -/

/-- What the copy for a test writes: all that it reports, or what it has done when it is killed. -/
def told (r : Rig) (test : Identity) (body : Body) : List Entry :=
  match r.inTime? test body with
  | some _ => r.reported test body
  | none => ((r.copy test body).trace r.host.nextCourse.done).map .other

/-- **The line of a test in a copy**: the copy writes in the middle. -/
theorem Decisive.journal_perform (h : f.Decisive) (hv : f.journal.verbose = false)
    (hw : test.isWritable = true) (body : Body) :
    (f.perform test body).2.journal =
      f.journal.around test (·.enterAll (f.told test body)) (closing (f.inTime? test body)) := by
  obtain ⟨others, hbeside, hcomes⟩ := perform_comes h.homely test body
  obtain rfl : others = [] := hbeside.alone h.alone
  have hnamed := Journal.alike_enter f.journal (.name test)
  have hdone := Journal.alike_enterAll (f.journal.enter (.name test)) (f.reported test body)
  have hquiet := hdone.verbose.trans (hnamed.verbose.trans hv)
  have hwrote : f.wrote test body [] = (f.fate test body).entries test f.host.nextPid
      (f.reported test body) (fun n => (f.copy test body).trace n) [] := by
    unfold wrote
    rw [hw, h.direct]
    rfl
  rw [hcomes.journal, hwrote, h.fate, told]
  show (f.journal.enter (.note _)).enterAll _ = _
  rw [Journal.enter_note hv]
  cases hs : f.inTime? test body with
  | none =>
    show (f.journal.enter (.name test)).enterAll (_ ++ _) = _
    rw [Journal.enterAll_append]
    rfl
  | some status =>
    show (f.journal.enter (.name test)).enterAll (_ ++ _) = _
    rw [Journal.enterAll_append]
    exact Supervision.enterAll_entries hquiet status

/-! ## Rigs that start programs -/

/-- A rig that starts programs, where nothing fails, the time limit can be used, and nothing was left
behind. -/
structure SpawnsWell (s : Rig) : Prop where
  direct : s.configuration.direct = false
  strategy : s.strategy = .spawn
  seconds : ∃ x, s.configuration.seconds = .ok x
  quiet : s.host.faults.Quiet
  alone : s.host.strays = []

theorem SpawnsWell.moment (h : s.SpawnsWell) (hs : s.journal.Settled) {q : Request}
    (ha : (s.moment q).after.host.strays = []) : (s.moment q).after.SpawnsWell := by
  have haway : ¬ s.StaysHome := by
    rw [StaysHome, h.direct, h.strategy]
    decide
  have hk := keeps_moment_away haway hs q
  refine ⟨?_, hk.strategy.trans h.strategy, ?_, hk.faults.quiet h.quiet, ha⟩
  · rw [hk.configuration, h.direct]
  · rw [hk.configuration]
    exact h.seconds

/-- The words of the program that a rig starts for a test. -/
def childWords (s : Rig) (test : Identity) : List String :=
  (Supervision.childCommand s.configuration s.command test).map (·.getD "[]")

/-- **The program that is started for a test does what a copy does**: it can be started, it writes these
entries to the log, and it ends in this way within the time limit, or goes on. -/
def Mirrors (s : Rig) (test : Identity) (own : List Entry) (status : Option Status) : Prop :=
  ∃ life, s.host.launcher (s.childWords test) (s.journal.enter (.name test)).disk = .ok life ∧
    Lives life (s.configuration.timeout.getD 0) s.host.nextCourse.extra
      ((s.journal.enter (.name test)).enterAll own).disk status

/-- **A test in a program that does what a copy does**: the program changes the log on the disk. -/
theorem SpawnsWell.perform (h : s.SpawnsWell) (hv : s.journal.verbose = false)
    (hw : test.isWritable = true) {own : List Entry} {status : Option Status}
    (hp : ∀ e ∈ status, e.Possible) (hm : s.Mirrors test own status) (body : Body) :
    (s.perform test body).1 = .ok (status == some (.exited 0)) ∧
    (s.perform test body).2.journal =
      s.journal.around test (fun j => { j with disk := (j.enterAll own).disk }) (closing status) ∧
    (s.perform test body).2.strays = [] := by
  obtain ⟨life, hlaunched, hlives⟩ := hm
  obtain ⟨x, hseconds⟩ := h.seconds
  have hnote : ∀ text, s.host.note text = s.host := by
    intro text
    have hsame : s.host.journal.note text = s.host.journal := Journal.enter_note hv text
    show { s.host with journal := s.host.journal.note text } = s.host
    rw [hsame]
  have hspawn : s.perform test body =
      Supervision.superviseSpawn s.configuration s.command test s.host := by
    unfold Rig.perform
    rw [hw, h.direct, h.strategy]
    rfl
  let begun := (Supervision.startLine test s.host).start.2
  have hawait : Supervision.superviseSpawn s.configuration s.command test s.host =
      Supervision.awaitProgram test s.host.nextPid (s.childWords test) s.host.nextCourse
        (s.configuration.timeout.getD 0) life begun := by
    unfold Supervision.superviseSpawn
    simp only [hnote]
    unfold childWords at hlaunched ⊢
    have hbegun : (Supervision.startLine test s.host).journal = s.journal.enter (.name test) := rfl
    have hlauncher : (Supervision.startLine test s.host).launcher = s.host.launcher := rfl
    rw [hbegun, hlauncher, hlaunched]
    simp only [hseconds]
    rfl
  have hnamed := Journal.alike_enter s.journal (.name test)
  have hquiet : begun.faults.Quiet := (Supervision.Faults.Later.pastCourse s.host.faults).quiet h.quiet
  have hverbose : begun.journal.verbose = false := hnamed.verbose.trans hv
  have hreturns := Supervision.awaitProgram_of_quiet hquiet hverbose hp hlives test s.host.nextPid
    (s.childWords test)
  rw [hspawn, hawait]
  exact ⟨hreturns.result, hreturns.journal, hreturns.strays.trans h.alone⟩

end Rig

/-! ## Moments of both -/

namespace Moment

/-- The program that is started at the second moment, if one is, does what the copy does that is made at
the first one. -/
def Mirrored (m m' : Moment) : Prop :=
  ∀ subgroup number body k, m.request = .run subgroup number body → m.admitted? = some k →
    let test := m.before.registry.identity k
    test.isWritable = true →
      m'.before.Mirrors test (m.before.told test body) (m.before.inTime? test body)

/-- **Two moments judge alike**: they give the same answer and leave the same numbers, the same keys,
the same exit status and the same log.  Where no test is performed they show the same.  Where a test is
performed both write the same around what its process writes: its name, and behind that nothing or why
it failed.  A test whose name cannot be written is not begun, and neither writes anything. -/
structure JudgesAlike (m m' : Moment) : Prop where
  imprint : m'.imprint = m.imprint
  idle : m.admitted? = none → m'.shown = m.shown
  unwritable : ∀ k, m.admitted? = some k → (m.before.registry.identity k).isWritable = false →
    m.after.journal = m.before.journal ∧ m'.after.journal = m'.before.journal
  line : ∀ subgroup number body k, m.request = .run subgroup number body → m.admitted? = some k →
    (m.before.registry.identity k).isWritable = true →
    let test := m.before.registry.identity k
    let own := m.before.told test body
    let rest := Supervision.closing (m.before.inTime? test body)
    (rest = [] ∨ ∃ reason : String, rest = [.outcome s!"FAIL ({reason})\n"]) ∧
    m.after.journal = m.before.journal.around test (·.enterAll own) rest ∧
    m'.after.journal = m'.before.journal.around test
      (fun j => { j with disk := (j.enterAll own).disk }) rest

end Moment

namespace Rig

open Supervision (closing Status)

variable {f s : Rig} {test : Identity} {body : Body}

/-- A rig that forks and one that starts programs, with the same books and the same log, without notes. -/
structure Abreast (f s : Rig) : Prop where
  books : f.SameBooks s
  configuration : ∃ v, s.configuration = { f.configuration with spawn := v }
  dumper : s.dumper = f.dumper
  journal : f.journal.Paired s.journal
  verbose : f.journal.verbose = false

namespace Abreast

/-- What a request leaves of the two rigs, if the books are the same and the logs are. -/
theorem left (h : f.Abreast s) {a a' : Rig} {k k' : Supervision.Host} (hbooks : a.SameBooks a')
    (hleft : f.Leaves k a) (hleft' : s.Leaves k' a') (hj : k.journal.Paired k'.journal)
    (hv : k.journal.verbose = false) : a.Abreast a' := by
  refine ⟨hbooks, ?_, ?_, ?_, ?_⟩
  · rw [hleft.configuration, hleft'.configuration]
    exact h.configuration
  · rw [hleft.dumper, hleft'.dumper, h.dumper]
  · rw [Rig.journal, Rig.journal, hleft.host, hleft'.host]
    exact hj
  · rw [Rig.journal, hleft.host, hv]

/-- **A request for which no test is performed.** -/
theorem idle (h : f.Abreast s) (hf : f.Decisive) (hs : s.SpawnsWell) {q : Request}
    (hq : (f.moment q).admitted? = none) :
    (f.moment q).JudgesAlike (s.moment q) ∧ (f.moment q).after.Abreast (s.moment q).after ∧
      (s.moment q).after.SpawnsWell := by
  obtain ⟨hanswer, hbooks, order, chore, hchore, hleft, hleft'⟩ := h.books.idle hq
  rw [Supervision.Host.elapse_of_alone order _ hf.alone] at hleft
  rw [Supervision.Host.elapse_of_alone order _ hs.alone] at hleft'
  have hkeeps := keeps_moment hf.homely q
  have hjournal : (f.moment q).after.journal = chore f.journal := by
    rw [Rig.journal, hleft.host]
    rfl
  have hjournal' : (s.moment q).after.journal = chore s.journal := by
    rw [Rig.journal, hleft'.host]
    rfl
  have hverbose : (chore f.journal).verbose = false := by
    rw [← hjournal, hkeeps.verbose, h.verbose]
  have hafter := h.left hbooks hleft hleft' (h.journal.chore hchore) hverbose
  obtain ⟨cs, hcs⟩ := hchore.items
  have hshown : (s.moment q).shown = (f.moment q).shown := by
    rw [Moment.shown_of_items ((congrArg (·.console.items) hjournal).trans (hcs _ h.journal.settled)),
      Moment.shown_of_items ((congrArg (·.console.items) hjournal').trans (hcs _ h.journal.settled')),
      hafter.journal.colored]
  refine ⟨⟨Moment.imprint_eq hanswer hbooks hafter.journal.disk, fun _ => hshown, fun k hk => ?_,
    fun _ _ _ k _ hk => ?_⟩, hafter, hs.moment h.journal.settled' ?_⟩
  · cases hq.symm.trans hk
  · cases hq.symm.trans hk
  · rw [hleft'.host]
    exact hs.alone

/-- **A test** of which the one rig makes a copy, and for which the other one starts a program that does
what the copy does. -/
theorem perform (h : f.Abreast s) (hf : f.Decisive) (hs : s.SpawnsWell) (hw : test.isWritable = true)
    (hm : s.Mirrors test (f.told test body) (f.inTime? test body)) :
    let own := f.told test body
    let rest := closing (f.inTime? test body)
    (s.perform test body).1 = (f.perform test body).1 ∧
    (f.perform test body).2.journal = f.journal.around test (·.enterAll own) rest ∧
    (s.perform test body).2.journal = s.journal.around test
      (fun j => { j with disk := (j.enterAll own).disk }) rest ∧
    (s.perform test body).2.strays = [] := by
  intro own rest
  have hpossible : ∀ e ∈ f.inTime? test body, e.Possible := fun e he =>
    Supervision.possible_of_endingStatus (Supervision.ended?_eq_some.mp he).2
  obtain ⟨hresult, hjournal, hstrays⟩ :=
    hs.perform (h.journal.verbose.trans h.verbose) hw hpossible hm body
  obtain ⟨others, -, hcomes⟩ := perform_comes hf.homely test body
  refine ⟨?_, hf.journal_perform h.verbose hw body, hjournal, hstrays⟩
  rw [hresult, hcomes.result, hf.verdict hw]

/-- **A test that is not begun** because its name cannot be written. -/
theorem unbegun (h : f.Abreast s) (hs : s.SpawnsWell) {subgroup : String} {number : Value} {k : Key}
    (ha : f.admitted? subgroup number = some k)
    (hw : (f.registry.identity k).isWritable = false) (body : Body) :
    let q : Request := .run subgroup number body
    (f.moment q).JudgesAlike (s.moment q) ∧ (f.moment q).after.Abreast (s.moment q).after ∧
      (s.moment q).after.SpawnsWell := by
  intro q
  have hq : (f.moment q).admitted? = some k := ha
  have hnot : ∀ r : Rig, r.perform (f.registry.identity k) body =
      (.error (.ofException Exception.unwritable), r.host) := by
    intro r
    unfold Rig.perform
    rw [hw]
    rfl
  obtain ⟨hanswer, hbooks, hleft, hleft'⟩ := h.books.tested ha body (hnot _) (hnot _) rfl
  have hafter := h.left hbooks hleft hleft' h.journal h.verbose
  refine ⟨⟨Moment.imprint_eq hanswer hbooks hafter.journal.disk, fun hn => ?_, fun _ _ _ => ?_, ?_⟩,
    hafter, hs.moment h.journal.settled' ?_⟩
  · cases hn.symm.trans hq
  · exact ⟨congrArg Supervision.Host.journal hleft.host, congrArg Supervision.Host.journal hleft'.host⟩
  · rintro _ _ _ k' - hk' hw'
    obtain rfl : k' = k := Option.some.inj (hk'.symm.trans hq)
    cases hw.symm.trans hw'
  · rw [hleft'.host]
    exact hs.alone

/-- **A test that is begun**, in a copy and in a program that does what the copy does. -/
theorem begun (h : f.Abreast s) (hf : f.Decisive) (hs : s.SpawnsWell) {subgroup : String}
    {number : Value} {k : Key} (ha : f.admitted? subgroup number = some k)
    (hw : (f.registry.identity k).isWritable = true)
    (hm : s.Mirrors (f.registry.identity k) (f.told (f.registry.identity k) body)
      (f.inTime? (f.registry.identity k) body)) :
    let q : Request := .run subgroup number body
    (f.moment q).JudgesAlike (s.moment q) ∧ (f.moment q).after.Abreast (s.moment q).after ∧
      (s.moment q).after.SpawnsWell := by
  intro q
  have hq : (f.moment q).admitted? = some k := ha
  have hk : (f.enter k).Abreast (s.enter k) := { h with books := h.books.enter k }
  have hdecisive : (f.enter k).Decisive := { hf with }
  have hspawns : (s.enter k).SpawnsWell := { hs with }
  obtain ⟨hresult, hjournal, hjournal', hstrays⟩ := hk.perform hdecisive hspawns hw hm
  obtain ⟨p, hp⟩ : ∃ p, (f.enter k).perform (f.registry.identity k) body = p := ⟨_, rfl⟩
  obtain ⟨p', hp'⟩ : ∃ p, (s.enter k).perform (f.registry.identity k) body = p := ⟨_, rfl⟩
  rw [hp] at hresult hjournal
  rw [hp'] at hresult hjournal' hstrays
  obtain ⟨hanswer, hbooks, hleft, hleft'⟩ := h.books.tested ha body hp hp' hresult
  have hkeeps := keeps_moment hf.homely q
  have hverbose : p.2.journal.verbose = false := by
    rw [← hleft.host]
    exact hkeeps.verbose.trans h.verbose
  have hafter : (f.moment q).after.Abreast (s.moment q).after := by
    refine h.left hbooks hleft hleft' ?_ hverbose
    rw [hjournal, hjournal']
    exact h.journal.around _ _ _
  refine ⟨⟨Moment.imprint_eq hanswer hbooks hafter.journal.disk, fun hn => ?_, ?_, ?_⟩, hafter,
    hs.moment h.journal.settled' ?_⟩
  · cases hn.symm.trans hq
  · intro k' hk' hw'
    obtain rfl : k' = k := Option.some.inj (hk'.symm.trans hq)
    cases hw.symm.trans hw'
  · rintro _ _ _ k' ⟨⟩ hk' -
    obtain rfl : k' = k := Option.some.inj (hk'.symm.trans hq)
    exact ⟨Supervision.closing_cases _,
      (congrArg Supervision.Host.journal hleft.host).trans hjournal,
      (congrArg Supervision.Host.journal hleft'.host).trans hjournal'⟩
  · rw [hleft'.host]
    exact hstrays

/-- **Any request** that the two rigs get. -/
theorem moment (h : f.Abreast s) (hf : f.Decisive) (hs : s.SpawnsWell) {q : Request}
    (hm : (f.moment q).Mirrored (s.moment q)) :
    (f.moment q).JudgesAlike (s.moment q) ∧ (f.moment q).after.Abreast (s.moment q).after ∧
      (s.moment q).after.SpawnsWell := by
  cases hq : (f.moment q).admitted? with
  | none => exact h.idle hf hs hq
  | some k =>
    obtain ⟨subgroup, number, body, rfl, ha⟩ := run_of_admitted? hq
    cases hw : (f.registry.identity k).isWritable with
    | false => exact h.unbegun hs ha hw body
    | true => exact h.begun hf hs ha hw (hm subgroup number body k rfl hq hw)

/-- **Any session** of the two rigs, one request after the other. -/
theorem session : ∀ (qs : List Request) {f s : Rig}, f.Abreast s → f.Decisive → s.SpawnsWell →
    List.Forall₂ Moment.Mirrored (f.session qs) (s.session qs) →
    List.Forall₂ Moment.JudgesAlike (f.session qs) (s.session qs) ∧
      (f.served qs).Abreast (s.served qs)
  | [], _, _, h, _, _, _ => ⟨.nil, h⟩
  | q :: qs, f, s, h, hf, hs, .cons hm hms => by
    obtain ⟨halike, hafter, hspawns⟩ := h.moment hf hs hm
    obtain ⟨hrest, hserved⟩ := session qs hafter (hf.moment q) hspawns hms
    exact ⟨.cons halike hrest, hserved⟩

end Abreast

end Rig

end TestRig
