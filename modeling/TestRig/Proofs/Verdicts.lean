import TestRig.Proofs.Limits
import TestRig.Proofs.Performance

/-!
# TestRig.Proofs.Verdicts — which tests of a forking rig pass

A rig that forks learns from a test's process one number.  Where no call fails, a test passes exactly
when the wait for the process finds that number to be 0 (`Rig.verdict_of_quiet`), and the number is 0 in
two cases (`Supervision.endingStatus_eq_zero`): the body returned, and then `PASS` has been written, or
the body ended its process with a code that is 0 in one byte, and then nothing has been written.

* `Rig.forked_verdict`: the verdict on any test of any session, and the line of a test that passes.
* `Rig.Unhindered`: a rig that forks, where nothing fails; `Rig.Unhindered.moment`: any request leaves it
  so.
-/

namespace TestRig

open Supervision (Comes Fate Status limitFault? endingStatus)
open Journal (Entry Other)

/-! ## Codes of verdicts -/

theorem Classifier.passed_of_raised {d : Dumper} {name : String} {t : Thrown} {v : Verdict}
    (h : classify d name (.raised t) = .ok v) : v.passed = false := by
  cases hf : t.kind.family with
  | failure =>
    simp only [classify, hf] at h
    cases hm : t.exception.failureMessage with
    | error x => simp [hm, Except.mapError, Except.map] at h
    | ok m =>
      simp only [hm, Except.mapError, Except.map, Except.ok.injEq] at h
      rw [← h]
  | interrupt => simp [classify, hf] at h
  | departure =>
    simp only [classify, hf, mapError_eq_ok, verdictOnDeparture, bind_eq_ok, pure, Except.pure,
      Except.ok.injEq] at h
    obtain ⟨-, -, rfl⟩ := h
    rfl
  | _ =>
    simp only [classify, hf, mapError_eq_ok, verdictOnError, bind_eq_ok, pure, Except.pure,
      Except.ok.injEq] at h
    obtain ⟨-, -, -, -, rfl⟩ := h
    rfl

/-- A body that raises something never passes. -/
theorem Classifier.passed_of_report {d : Dumper} {name : String} {t : Thrown} {v : Verdict}
    (h : (report d name (.raised t)).1 = .ok v) : v.passed = false := by
  unfold report at h
  cases hc : classify d name (.raised t) with
  | error x => simp [hc] at h
  | ok v' =>
    cases ht : v'.text with
    | error x => simp [hc, ht] at h
    | ok text =>
      simp only [hc, ht, Except.ok.injEq] at h
      exact h ▸ passed_of_raised hc

/-- The code 0 comes from a body that returns, or from one that ends its process with it. -/
theorem Supervision.endingStatus_eq_zero (d : Dumper) (name : String) (e : Ending) :
    endingStatus d name e = some (.exited 0) ↔
      e = .returned ∨ ∃ code, e = .left (.exited code) ∧ code % 256 = 0 := by
  cases e with
  | returned => exact ⟨fun _ => Or.inl rfl, fun _ => rfl⟩
  | left how =>
    cases how with
    | exited code => simp [endingStatus]
    | signalled n => simp [endingStatus]
    | endless => simp [endingStatus]
  | raised t =>
    simp only [endingStatus, reduceCtorEq, false_and, exists_false, or_false, iff_false]
    cases hc : (Classifier.report d name (.raised t)).1 with
    | ok v => simp [Verdict.exitCode, Verdict.status, Classifier.passed_of_report hc,
        ExitStatus.code]
    | error h => simp [ExitStatus.code]

namespace Rig

variable {r : Rig} {test : Identity} {body : Body}

/-- Why a test is not judged where no call fails: its name cannot be written, or the time limit cannot be
used. -/
def hindrance? (r : Rig) (test : Identity) : Option Exception :=
  if !test.isWritable then some Exception.unwritable
  else limitFault? r.configuration r.host.faults

/-- What the wait for the copy finds that runs a test, if it finds that the copy has ended. -/
def seen? (r : Rig) (test : Identity) (e : Ending) : Option Status :=
  Fate.seen? r.configuration (endingStatus r.dumper test.name e) r.host.faults

/-- **The verdict of a forking rig where nothing fails**: the wait finds the number 0. -/
theorem verdict_of_quiet (hd : r.configuration.direct = false) (hq : r.host.faults.Quiet)
    (test : Identity) (body : Body) : r.verdict test body = match r.hindrance? test with
    | some x => .error (.ofException x)
    | none => .ok (r.seen? test (body r.arguments) == some (.exited 0)) := by
  have hfork : r.host.faults.fork.next = none := hq.fork 0
  unfold verdict hindrance? fate
  rw [hd]
  cases test.isWritable with
  | false => rfl
  | true =>
    cases hl : limitFault? r.configuration r.host.faults with
    | some x =>
      obtain ⟨done, hfate⟩ := Fate.of_limitFault hfork hl
        (endingStatus r.dumper test.name (body r.arguments))
      rw [hfate]
      simp [Fate.result]
    | none =>
      rw [Fate.of_quiet hq hl]
      unfold seen?
      cases Fate.seen? r.configuration (endingStatus r.dumper test.name (body r.arguments))
        r.host.faults <;> rfl

/-- The line of a test that passes, with the notes around it and what copies say meanwhile that were left
behind. -/
def passingLine (r : Rig) (test : Identity) (others : List Other) (outcome : List Entry) :
    List Entry :=
  [.note s!"running {test.name} in a forked process", .name test] ++ others.map .other ++ outcome ++
    [.note s!"{test.name}: child process {Text.showNat r.host.nextPid} exited with {Text.showInt 0}"]

/-- What a forking rig writes about a test that passes. -/
theorem wrote_of_passed (hd : r.configuration.direct = false) (hq : r.host.faults.Quiet)
    (hh : r.hindrance? test = none) (hz : r.seen? test (body r.arguments) = some (.exited 0))
    (others : List Other) :
    r.wrote test body others = r.passingLine test others (r.reported test body) := by
  unfold hindrance? at hh
  unfold wrote fate
  cases hw : test.isWritable with
  | false => simp [hw] at hh
  | true =>
    simp only [hw, Bool.not_true, Bool.false_eq_true, if_false] at hh ⊢
    rw [hd, Fate.of_quiet hq hh]
    unfold seen? at hz
    rw [hz]
    rfl

/-- The wait finds that the copy has ended, and the body returned or ended its process with a code that
is 0 in one byte. -/
structure Succeeds (r : Rig) (test : Identity) (e : Ending) : Prop where
  found : (r.seen? test e).isSome = true
  ending : e = .returned ∨ ∃ code, e = .left (.exited code) ∧ code % 256 = 0

/-- The wait finds a copy to have ended as it ends by itself. -/
theorem seen?_eq_some {e : Ending} {s : Status} (hq : r.host.faults.Quiet)
    (hl : limitFault? r.configuration r.host.faults = none) (h : r.seen? test e = some s) :
    endingStatus r.dumper test.name e = some s := by
  have hfound := Fate.sighting_of_quiet hq hl (endingStatus r.dumper test.name e)
  unfold seen? at h
  rw [h] at hfound
  exact (Supervision.ended?_eq_some.mp (Fate.ended_of_sighting hfound)).2

theorem limitFault?_of_hindrance? (h : r.hindrance? test = none) :
    limitFault? r.configuration r.host.faults = none := by
  unfold hindrance? at h
  split at h
  · cases h
  · exact h

theorem succeeds_iff {e : Ending} (hq : r.host.faults.Quiet) (hh : r.hindrance? test = none) :
    r.Succeeds test e ↔ r.seen? test e = some (.exited 0) := by
  have hstatus := Supervision.endingStatus_eq_zero r.dumper test.name e
  have hseen : ∀ s, r.seen? test e = some s → endingStatus r.dumper test.name e = some s := fun _ =>
    seen?_eq_some hq (limitFault?_of_hindrance? hh)
  constructor
  · rintro ⟨hfound, hending⟩
    obtain ⟨s, hs⟩ := Option.isSome_iff_exists.mp hfound
    have hzero := (hseen s hs).symm.trans (hstatus.mpr hending)
    rw [hs, hzero]
  · exact fun h => ⟨by rw [h]; rfl, hstatus.mp (hseen _ h)⟩

/-- **Of a copy that ends by its time limit** the test passes by the ending alone. -/
theorem succeeds_of_prompt {e : Ending} (hq : r.host.faults.Quiet) (hh : r.hindrance? test = none)
    (hp : (r.host.faults.courses 0).Prompt (1000 * r.configuration.timeout.getD 0)) :
    r.Succeeds test e ↔ e = .returned ∨ ∃ code, e = .left (.exited code) ∧ code % 256 = 0 := by
  rw [succeeds_iff hq hh, seen?, Fate.seen?_of_prompt hq (limitFault?_of_hindrance? hh) hp]
  exact Supervision.endingStatus_eq_zero r.dumper test.name e

/-- **Of a copy that outlives its time limit** the test never passes. -/
theorem not_succeeds_of_late {e : Ending} (hq : r.host.faults.Quiet) (hh : r.hindrance? test = none)
    (hp : (r.host.faults.courses 0).Late (1000 * r.configuration.timeout.getD 0)) :
    ¬ r.Succeeds test e := by
  rw [succeeds_iff hq hh, seen?, Fate.seen?_of_late hq (limitFault?_of_hindrance? hh) hp]
  exact fun h => nomatch h

/-- **The verdict of a forking rig** on a test that is admitted at any time of any session, where no
call fails.  The test passes exactly when the wait for its copy finds that this has ended, and the body
returned or ended its process with a code that is 0 in one byte.  In the first case its line says `PASS`,
in the second it says nothing.  The wait finds what ends by the time limit, and nothing that outlives
it. -/
theorem forked_verdict {s : Setup} {r₀ : Rig} (hset : Rig.set s = .ok r₀)
    (hd : r₀.configuration.direct = false) (hf : r₀.strategy = .fork) (hq : s.faults.Quiet)
    (qs : List Request) {subgroup : String} {number : Value} {k : Key}
    (ha : (r₀.served qs).admitted? subgroup number = some k) (body : Body) :
    let r := r₀.served qs
    let test := r.registry.identity k
    let e := body r.arguments
    let p := r.run subgroup number body
    let course := r.host.faults.courses 0
    let limit := 1000 * r.configuration.timeout.getD 0
    (∀ x, r.hindrance? test = some x → p.1 = .error (.ofException x) ∧ p.2.passed = r.passed) ∧
    (r.hindrance? test = none →
      (r.Succeeds test e ∧ p.1 = .ok (some true) ∧ p.2.passed = r.passed + 1 ∨
        ¬ r.Succeeds test e ∧ p.1 = .ok (some false) ∧ p.2.passed = r.passed) ∧
      (∃ others, r.Beside (r₀.journal.log.map (·.location)) others ∧
        (r.Succeeds test e → e = .returned →
          p.2.journal = r.journal.enterAll (r.passingLine test others [.outcome "PASS\n"])) ∧
        (r.Succeeds test e → e ≠ .returned →
          p.2.journal = r.journal.enterAll (r.passingLine test others []))) ∧
      (course.Prompt limit → (r.Succeeds test e ↔
        e = .returned ∨ ∃ code, e = .left (.exited code) ∧ code % 256 = 0)) ∧
      (course.Late limit → ¬ r.Succeeds test e)) := by
  intro r test e p course limit
  have hfresh := fresh_of_set hset
  have hhomely := hfresh.homely (Or.inr hf)
  have hkeeps := keeps_served qs hhomely
  have hd' : r.configuration.direct = false := by rw [hkeeps.configuration, hd]
  have hq' : r.host.faults.Quiet := hkeeps.faults.quiet (hfresh.faults ▸ hq)
  obtain ⟨others, host, hbeside, hcomes, hrun⟩ := run_comes (hhomely.served qs) ha body
  have hp : p = ((r.verdict test body).map some, _) := hrun
  have hjournal : p.2.journal = r.journal.enterAll (r.wrote test body others) := by
    rw [hp]
    exact hcomes.journal
  have hverdict := verdict_of_quiet hd' hq' test body
  refine ⟨fun x hx => ?_, fun hx => ⟨?_, ⟨others, hbeside, fun hsucc he => ?_, fun hsucc he => ?_⟩,
    succeeds_of_prompt hq' hx, not_succeeds_of_late hq' hx⟩⟩
  · rw [hp, hverdict, hx]
    exact ⟨rfl, rfl⟩
  · have hiff : r.Succeeds test e ↔ _ := succeeds_iff hq' hx
    rw [hp, hverdict, hx]
    by_cases hsucc : r.Succeeds test e
    · rw [beq_iff_eq.mpr (hiff.mp hsucc)]
      exact Or.inl ⟨hsucc, rfl, rfl⟩
    · rw [beq_eq_false_iff_ne.mpr (mt hiff.mpr hsucc)]
      exact Or.inr ⟨hsucc, rfl, rfl⟩
  · have hreport : r.reported test body = [.outcome "PASS\n"] := by
      simp only [reported, Classifier.reportEntries]
      rw [show body r.arguments = .returned from he]
      rfl
    rw [hjournal, wrote_of_passed hd' hq' hx ((succeeds_iff hq' hx).mp hsucc), hreport]
  · obtain ⟨code, hcode, -⟩ := hsucc.ending.resolve_left he
    have hreport : r.reported test body = [] := by
      simp only [reported, Classifier.reportEntries]
      rw [show body r.arguments = .left (.exited code) from hcode]
      rfl
    rw [hjournal, wrote_of_passed hd' hq' hx ((succeeds_iff hq' hx).mp hsucc), hreport]

/-- A body that ends its process with 0 passes, and its line says nothing. -/
theorem forked_verdict_exit : ∃ r, Rig.set (.bare ["t"]) = .ok r ∧
    (r.run "s" (.int 1) fun _ => .left (.exited 0)).1 = .ok (some true) ∧
    (r.run "s" (.int 1) fun _ => .left (.exited 0)).2.journal =
      r.journal.enterAll (r.passingLine ⟨"g", "s", 1⟩ [] []) := by
  obtain ⟨r, hr, hd, hf, ha, hid, hh, hseen, hstrays⟩ := exists_set (s := .bare ["t"])
    (p := fun r => r.configuration.direct = false ∧ r.strategy = .fork ∧
      r.admitted? "s" (.int 1) = some ("s", 1) ∧ r.registry.identity ("s", 1) = ⟨"g", "s", 1⟩ ∧
      (r.hindrance? ⟨"g", "s", 1⟩).isNone = true ∧
      (r.seen? ⟨"g", "s", 1⟩ (.left (.exited 0))).isSome = true ∧ r.host.strays = [])
    (by decide +kernel)
  have hsucc : r.Succeeds ⟨"g", "s", 1⟩ (.left (.exited 0)) := ⟨hseen, Or.inr ⟨0, rfl, rfl⟩⟩
  have hnone : r.hindrance? ⟨"g", "s", 1⟩ = none := Option.isNone_iff_eq_none.mp hh
  obtain ⟨hv, ⟨others, hbeside, -, hline⟩, -⟩ :=
    (forked_verdict hr hd hf Supervision.Faults.quiet_default [] ha
      fun _ => .left (.exited 0)).2 (hid ▸ hnone)
  obtain rfl : others = [] := hbeside.alone hstrays
  rcases hv with ⟨-, htrue, -⟩ | ⟨hno, -⟩
  · exact ⟨r, hr, htrue, hid ▸ hline (hid ▸ hsucc) fun h => nomatch h⟩
  · exact absurd (hid ▸ hsucc) hno

/-! ## Rigs that fork without hindrance -/

/-- A rig that forks, where nothing fails, the time limit can be used, and nothing was left behind. -/
structure Unhindered (r : Rig) : Prop where
  direct : r.configuration.direct = false
  strategy : r.strategy = .fork
  time : ∃ ms, r.configuration.timeout = some ms ∧ ms < Supervision.pollLimit
  quiet : r.host.faults.Quiet
  settled : r.journal.Settled
  alone : r.host.strays = []

theorem Unhindered.homely (h : r.Unhindered) : r.Homely (r.journal.log.map (·.location)) := by
  refine ⟨Or.inr h.strategy, h.settled, fun l hl => ?_, fun s hs => ?_⟩
  · have hlog : r.journal.log = some l := hl
    rw [hlog, Option.map_some]
  · rw [h.alone] at hs
    cases hs

theorem Unhindered.limitFault? (h : r.Unhindered) :
    Supervision.limitFault? r.configuration r.host.faults = none := by
  obtain ⟨ms, hms, hlimit⟩ := h.time
  exact Supervision.limitFault?_eq_none hms hlimit _

/-- The fate of a test is what the wait for its copy finds. -/
theorem Unhindered.fate (h : r.Unhindered) (test : Identity) (body : Body) :
    (∃ s, r.seen? test (body r.arguments) = some s ∧ r.fate test body = .ended s) ∨
      r.seen? test (body r.arguments) = none ∧ ∃ done, r.fate test body = .expired done := by
  rw [Rig.fate, Fate.of_quiet h.quiet h.limitFault?]
  unfold seen?
  cases Fate.seen? r.configuration _ r.host.faults with
  | none => exact Or.inr ⟨rfl, _, rfl⟩
  | some s => exact Or.inl ⟨s, rfl, rfl⟩

/-- A test that can be written passes or fails by what the wait for its copy finds. -/
theorem Unhindered.verdict (h : r.Unhindered) (hw : test.isWritable = true) (body : Body) :
    r.verdict test body = .ok (r.seen? test (body r.arguments) == some (.exited 0)) := by
  have hh : r.hindrance? test = none := by
    rw [hindrance?, hw]
    exact h.limitFault?
  rw [verdict_of_quiet h.direct h.quiet, hh]

/-- A test leaves no process behind. -/
theorem Unhindered.alone_perform (h : r.Unhindered) (test : Identity) (body : Body) :
    (r.perform test body).2.strays = [] := by
  cases hw : test.isWritable with
  | false =>
    unfold perform
    rw [hw]
    exact h.alone
  | true =>
    obtain ⟨others, -, hcomes⟩ := perform_comes h.homely test body
    exact hcomes.tidy h.alone _ (h.verdict hw body)

theorem Unhindered.alone_moment (h : r.Unhindered) (q : Request) :
    (r.moment q).after.host.strays = [] := by
  cases hq : (r.moment q).admitted? with
  | none =>
    obtain ⟨order, f, -, hleft⟩ := idle_moment hq
    rw [hleft.host, Supervision.Host.elapse_of_alone order _ h.alone]
    exact h.alone
  | some k =>
    obtain ⟨subgroup, number, body, rfl, ha⟩ := run_of_admitted? hq
    have hentered : (r.enter k).Unhindered := { h with }
    have hafter : (r.moment (.run subgroup number body)).after.host =
        ((r.enter k).perform (r.registry.identity k) body).2 := by
      rw [moment_of_admitted ha body, tally_snd]
    rw [hafter]
    exact hentered.alone_perform (r.registry.identity k) body

/-- **One request** hinders nothing. -/
theorem Unhindered.moment (h : r.Unhindered) (q : Request) : (r.moment q).after.Unhindered := by
  have hkeeps := keeps_moment h.homely q
  exact ⟨by rw [hkeeps.configuration, h.direct], by rw [hkeeps.strategy, h.strategy],
    by rw [hkeeps.configuration]; exact h.time, hkeeps.faults.quiet h.quiet, hkeeps.settled,
    h.alone_moment q⟩

theorem unhindered_of_set {s : Setup} {ms : Nat} (h : Rig.set s = .ok r)
    (hdirect : r.configuration.direct = false) (hfork : r.strategy = .fork)
    (htime : r.configuration.timeout = some ms) (hlimit : ms ≤ 2147483647)
    (hq : s.faults.Quiet) : r.Unhindered := by
  have hfresh := fresh_of_set h
  have hshort : ms < Supervision.pollLimit := Nat.lt_of_le_of_lt hlimit (by decide)
  exact ⟨hdirect, hfork, ⟨ms, htime, hshort⟩, hfresh.faults ▸ hq, hfresh.settled, hfresh.strays⟩

end Rig

end TestRig
