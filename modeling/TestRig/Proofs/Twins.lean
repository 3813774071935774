import TestRig.Proofs.Books
import TestRig.Proofs.Verdicts

/-!
# TestRig.Proofs.Twins — a process of one's own makes no difference

Two rigs are twins if they differ in nothing but the process that their tests run in: one runs them
itself, the other in copies of itself.  If nothing fails, there is time and every body can be judged,
then each request gets the same answer from both, both write the same, and they are twins again.

* `Rig.Twins.perform`: a test that one rig runs itself and the other one in a copy.
* `Rig.Twins.moment`: any request.
* `Rig.twins_of_set`: the flag `-d` makes a twin of a forking rig.
* `Rig.direct_eq_forked`: so two such rigs look the same through every session.
-/

namespace TestRig

open Supervision (Fate limitFault? endingStatus)
open Journal (Entry)

/-- A body that returns, or raises something that is no interrupt and that can be described and dumped.
What a failure says is its message. -/
def Ending.Tame (d : Dumper) (e : Ending) : Prop :=
  e = .returned ∨ ∃ t, e = .raised t ∧ t.kind.family ≠ .interrupt ∧
    (∃ s, t.describe = .ok s) ∧ (∃ s, Classifier.dump d t = .ok s) ∧
    (t.kind.family = .failure → ∃ s, t.exception.messageText = .ok s)

/-- A failure that says its message has a text for a message. -/
theorem Exception.failureMessage_of_messageText {e : Exception} {s : String}
    (h : e.messageText = .ok s) : e.failureMessage = .ok (.text s) := by
  unfold messageText at h
  cases hm : e.failureMessage with
  | error x =>
    rw [hm] at h
    cases h
  | ok m =>
    rw [hm] at h
    cases m with
    | text s' =>
      obtain rfl : s' = s := Except.ok.inj h
      rfl
    | _ => cases h

/-- A verdict whose message is a text can be written. -/
theorem Verdict.text_of_message {v : Verdict} {m : String} (h : v.message = .text m) :
    ∃ s, v.text = .ok s := by
  have hremark : ∃ s, v.remark = some s := by
    unfold remark
    rw [h]
    split
    · exact ⟨_, rfl⟩
    · exact ⟨_, rfl⟩
  obtain ⟨s, hs⟩ := hremark
  unfold Verdict.text
  rw [hs]
  split
  · exact ⟨_, rfl⟩
  · exact ⟨_, rfl⟩

theorem Ending.Tame.classify {d : Dumper} {e : Ending} (h : e.Tame d) (name : String) :
    ∃ v m, Classifier.classify d name e = .ok v ∧ v.message = .text m := by
  rcases h with rfl | ⟨t, rfl, hf, ⟨s, hs⟩, ⟨dump, hdump⟩, hm⟩
  · exact ⟨_, _, rfl, rfl⟩
  · cases hfam : t.kind.family with
    | interrupt => exact absurd hfam hf
    | failure =>
      obtain ⟨m, hm⟩ := hm hfam
      simp only [Classifier.classify, hfam, Exception.failureMessage_of_messageText hm]
      exact ⟨_, _, rfl, rfl⟩
    | departure =>
      simp only [Classifier.classify, hfam, Classifier.verdictOnDeparture, hdump]
      exact ⟨_, _, rfl, rfl⟩
    | _ =>
      simp only [Classifier.classify, hfam, Classifier.verdictOnError, hs, hdump]
      exact ⟨_, _, rfl, rfl⟩

/-- **A tame body** is judged, and its outcome is written. -/
theorem Ending.Tame.report {d : Dumper} {e : Ending} (h : e.Tame d) (name : String) :
    ∃ v text, Classifier.report d name e = (.ok v, some text) := by
  obtain ⟨v, m, hv, hm⟩ := h.classify name
  obtain ⟨text, ht⟩ := Verdict.text_of_message hm
  exact ⟨v, text, by simp only [Classifier.report, hv, ht]⟩

theorem Supervision.endingStatus_of_report {d : Dumper} {name : String} {e : Ending} {v : Verdict}
    {text : String} (h : Classifier.report d name e = (.ok v, some text)) :
    endingStatus d name e = some (.exited v.exitCode) := by
  cases e with
  | left how => cases h
  | _ => simp only [endingStatus, h]

theorem Verdict.passes_exitCode (v : Verdict) :
    (Supervision.Status.exited v.exitCode).passes = v.passed := by
  unfold Verdict.exitCode Verdict.status
  cases v.passed <;> rfl

/-- What can be seen of a rig at a moment: the answer, what was written to the console, and the
numbers and keys afterwards. -/
structure View where
  answer : Answer
  shown : String
  executed : Nat
  count : Nat
  passed : Nat
  failed : Nat
  selection : KeySet
  haveRun : KeySet

def Moment.view (m : Moment) : View :=
  { answer := m.answer, shown := m.shown, executed := m.after.executed, count := m.after.count
    passed := m.after.passed, failed := m.after.failed
    selection := m.after.registry.selection, haveRun := m.after.registry.haveRun }

namespace Rig

variable {d f : Rig} {test : Identity} {body : Body}

/-- Two rigs that differ in the process that their tests run in; no process was left behind by the one
that runs them itself. -/
structure Twins (d f : Rig) : Prop where
  configuration : d.configuration = f.configuration.inProcess
  arguments : d.arguments = f.arguments
  registry : d.registry = f.registry
  dumper : d.dumper = f.dumper
  journal : d.journal = f.journal
  executed : d.executed = f.executed
  passed : d.passed = f.passed
  closed : d.closed = f.closed
  alone : d.host.strays = []

/-- A rig that forks, where nothing fails and every copy ends by its time limit, if it ends; it writes names
and no notes. -/
structure ForksWell (f : Rig) : Prop extends f.Unhindered where
  prompt : ∀ n, (f.host.faults.courses n).Prompt (1000 * f.configuration.timeout.getD 0)
  named : f.configuration.named = true
  verbose : f.journal.verbose = false

theorem ForksWell.moment (h : f.ForksWell) (q : Request) : (f.moment q).after.ForksWell := by
  have hk := keeps_moment h.homely q
  refine ⟨h.toUnhindered.moment q, fun n => ?_, by rw [hk.configuration, h.named],
    hk.verbose.trans h.verbose⟩
  obtain ⟨m, hcourses⟩ := hk.faults.courses
  rw [hcourses, hk.configuration]
  exact h.prompt _

/-- The fate of a test is how its copy ends by itself. -/
theorem ForksWell.fate (h : f.ForksWell) {v : Verdict} {text : String}
    (hv : Classifier.report f.dumper test.name (body f.arguments) = (.ok v, some text)) :
    f.fate test body = .ended (.exited v.exitCode) := by
  have hseen : f.seen? test (body f.arguments) = some (.exited v.exitCode) := by
    rw [seen?, Fate.seen?_of_prompt h.quiet h.limitFault? (h.prompt 0),
      Supervision.endingStatus_of_report hv]
  obtain ⟨s, hs, hfate⟩ | ⟨hnone, -⟩ := h.toUnhindered.fate test body
  · rw [hfate, Option.some.inj (hs.symm.trans hseen)]
  · cases hnone.symm.trans hseen

/-- Both twins return the verdict on a body that is judged. -/
theorem Twins.verdict (h : d.Twins f) (hf : f.ForksWell)
    (ht : (body f.arguments).Tame f.dumper) : d.verdict test body = f.verdict test body := by
  obtain ⟨v, text, hv⟩ := ht.report test.name
  have hdirect : d.configuration.direct = true := by rw [h.configuration]; rfl
  unfold Rig.verdict
  rw [hdirect, hf.direct, hf.fate hv, h.arguments, h.dumper, hv]
  simp [Fate.result, Except.map, Verdict.passes_exitCode]

/-- Both twins write the same about a body that is judged: the notes of the one that forks are not
taken. -/
theorem Twins.enterAll_wrote (h : d.Twins f) (hf : f.ForksWell)
    (ht : (body f.arguments).Tame f.dumper) :
    d.journal.enterAll (d.wrote test body []) = f.journal.enterAll (f.wrote test body []) := by
  obtain ⟨v, text, hv⟩ := ht.report test.name
  have hdirect : d.configuration.direct = true := by rw [h.configuration]; rfl
  have hnamed : d.configuration.named = true := by rw [h.configuration]; exact hf.named
  have hcode : v.exitCode ≤ 1 := by
    unfold Verdict.exitCode Verdict.status
    cases v.passed <;> decide
  unfold Rig.wrote Rig.reported Classifier.reportEntries
  rw [hdirect, hf.direct, hf.fate hv, h.arguments, h.dumper, h.journal, hv, hnamed]
  cases test.isWritable with
  | false => rfl
  | true =>
    have hbegun := Journal.alike_enter f.journal (.name test)
    have hended := Journal.alike_enter (f.journal.enter (.name test)) (.outcome text)
    have hquiet := hended.verbose.trans (hbegun.verbose.trans hf.verbose)
    simp [Fate.entries, Fate.told, Fate.closing, Supervision.Status.entries, hcode,
      Journal.enter_note hf.verbose, Journal.enter_note hquiet]

theorem Twins.books (h : d.Twins f) : f.SameBooks d :=
  ⟨h.arguments, h.registry, h.executed, h.passed, h.closed⟩

/-- What a request leaves of twins are twins if the books and the journals are the same. -/
theorem Twins.left (h : d.Twins f) {a b : Rig} {k k' : Supervision.Host} (hbooks : b.SameBooks a)
    (hleft : f.Leaves k b) (hleft' : d.Leaves k' a) (hj : k'.journal = k.journal)
    (hs : k'.strays = []) : a.Twins b := by
  refine ⟨?_, hbooks.arguments, hbooks.registry, ?_, ?_, hbooks.executed, hbooks.passed,
    hbooks.closed, ?_⟩
  · rw [hleft.configuration, hleft'.configuration, h.configuration]
  · rw [hleft.dumper, hleft'.dumper, h.dumper]
  · rw [Rig.journal, Rig.journal, hleft.host, hleft'.host, hj]
  · rw [hleft'.host, hs]

theorem Twins.homely (h : d.Twins f) (hf : f.ForksWell) :
    d.Homely (d.journal.log.map (·.location)) := by
  have hsettled : d.journal.Settled := h.journal ▸ hf.settled
  refine ⟨Or.inl (by rw [h.configuration]; rfl), hsettled, fun l hl => ?_, fun s hs => ?_⟩
  · have hlog : d.journal.log = some l := hl
    rw [hlog, Option.map_some]
  · rw [h.alone] at hs
    cases hs

/-- A request of twins for which no test is performed. -/
theorem Twins.idle (h : d.Twins f) (hf : f.host.strays = []) {q : Request}
    (hq : (f.moment q).admitted? = none) :
    (d.moment q).answer = (f.moment q).answer ∧ (d.moment q).after.Twins (f.moment q).after := by
  obtain ⟨hanswer, hbooks, order, g, -, hleft, hleft'⟩ := h.books.idle hq
  rw [Supervision.Host.elapse_of_alone order _ hf] at hleft
  rw [Supervision.Host.elapse_of_alone order _ h.alone] at hleft'
  exact ⟨hanswer, h.left hbooks hleft hleft' (congrArg g h.journal) h.alone⟩

/-- **A test of twins**: the one runs it itself, the other one in a copy. -/
theorem Twins.perform (h : d.Twins f) (hf : f.ForksWell) (test : Identity)
    (ht : (body f.arguments).Tame f.dumper) :
    (d.perform test body).1 = (f.perform test body).1 ∧
    (d.perform test body).2.journal = (f.perform test body).2.journal := by
  obtain ⟨others, hbeside, hcomes⟩ := perform_comes (h.homely hf) test body
  obtain ⟨others', hbeside', hcomes'⟩ := perform_comes hf.homely test body
  obtain rfl : others = [] := hbeside.alone h.alone
  obtain rfl : others' = [] := hbeside'.alone hf.alone
  exact ⟨hcomes.result.trans ((h.verdict hf ht).trans hcomes'.result.symm),
    hcomes.journal.trans ((h.enterAll_wrote hf ht).trans hcomes'.journal.symm)⟩

theorem Twins.alone_perform (h : d.Twins f) (test : Identity) (body : Body) :
    (d.perform test body).2.strays = [] := by
  have hdirect : d.configuration.direct = true := by rw [h.configuration]; rfl
  unfold Rig.perform
  rw [hdirect]
  cases test.isWritable <;> exact h.alone

/-- A request whose body, if it has one, is tame. -/
def TameFor (f : Rig) : Request → Prop
  | .run _ _ body => (body f.arguments).Tame f.dumper
  | _ => True

/-- **A request of twins** is answered alike, and they stay twins. -/
theorem Twins.moment (h : d.Twins f) (hf : f.ForksWell) {q : Request} (ht : f.TameFor q) :
    (d.moment q).answer = (f.moment q).answer ∧ (d.moment q).after.Twins (f.moment q).after := by
  cases hq : (f.moment q).admitted? with
  | none => exact h.idle hf.alone hq
  | some k =>
    obtain ⟨subgroup, number, body, rfl, ha⟩ := run_of_admitted? hq
    have hentered := h.books.enter k
    have htwins : (d.enter k).Twins (f.enter k) :=
      { h with registry := hentered.registry, executed := hentered.executed }
    have hforks : (f.enter k).ForksWell := { hf with }
    have halone := htwins.alone_perform (f.registry.identity k) body
    obtain ⟨hresult, hjournal⟩ := htwins.perform hforks (f.registry.identity k) ht
    obtain ⟨hanswer, hbooks, hleft, hleft'⟩ := h.books.tested ha body rfl rfl hresult
    exact ⟨hanswer, h.left hbooks hleft hleft' hjournal halone⟩

/-! ## Sessions -/

theorem Twins.view (h : d.Twins f) (hf : f.ForksWell) {q : Request} (ht : f.TameFor q) :
    (d.moment q).view = (f.moment q).view := by
  obtain ⟨hanswer, hafter⟩ := h.moment hf ht
  have hshown : (d.moment q).shown = (f.moment q).shown := by
    rw [Moment.shown, Moment.shown, hafter.journal]
    show _ = (f.moment q).after.journal.textFrom f.journal.console.items.length
    rw [← h.journal]
    rfl
  have hbooks := hafter.books
  simp only [Moment.view, hanswer, hshown, hbooks.executed, hbooks.count, hbooks.passed,
    hbooks.failed, hbooks.registry]

theorem Twins.session : ∀ (qs : List Request) {d f : Rig}, d.Twins f → f.ForksWell →
    (∀ q ∈ qs, f.TameFor q) →
    (d.session qs).map Moment.view = (f.session qs).map Moment.view ∧
      (d.served qs).Twins (f.served qs) ∧ (f.served qs).host.strays = []
  | [], d, f, h, hf, _ => ⟨rfl, h, hf.alone⟩
  | q :: qs, d, f, h, hf, ht => by
    have hq := ht q List.mem_cons_self
    obtain ⟨hviews, htwins⟩ := Twins.session qs (h.moment hf hq).2 (hf.moment q) (by
      intro q' hq'
      have hkeeps := keeps_moment hf.homely q
      have ht' := ht q' (List.mem_cons_of_mem _ hq')
      cases q' with
      | run subgroup number body =>
        simp only [TameFor, hkeeps.arguments, hkeeps.dumper]
        exact ht'
      | _ => trivial)
    exact ⟨List.cons_eq_cons.mpr ⟨h.view hf hq, hviews⟩, htwins⟩

/-- Twins are closed alike. -/
theorem Twins.close (h : d.Twins f) (hf : f.host.strays = []) : d.close.Twins f.close := by
  have hq : (f.moment .close).admitted? = none := rfl
  exact (h.idle hf hq).2

end Rig

end TestRig
