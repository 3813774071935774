import TestRig.Proofs.Fate
import TestRig.Proofs.Reading

/-!
# TestRig.Proofs.Containment — what a body raises becomes a verdict

Whatever a body raises, a verdict is given on it, and a dump is asked for where it belongs into the
verdict.  Interrupts go on, and there are three more ways out: an error that has no text cannot be
described, a failure that has no message cannot be judged, and a message that holds an integer of too
many digits cannot be written.  What is raised instead goes on as well.

* `Classifier.Judges`: the verdict on each ending, with the questions to the dumper.
* `Classifier.Passes`: the endings on which no verdict is given, with what goes on instead.
* `Verdict.Unwritable`: the verdicts that cannot be written.
* `Classifier.classifyIn`: classification with a dumper that acts in a monad, so that the questions to
  it can be counted; without effects it is `Classifier.classify` (`classifyIn_id`).
* `Classifier.run_judges`: one of the three, with exactly the text that is written.
-/

namespace TestRig

open Journal (Entry)

namespace Verdict

/-! ## Verdicts that cannot be written -/

/-- A test did not pass, and the message on it holds an integer of too many digits. -/
structure Unwritable (v : Verdict) : Prop where
  passed : v.passed = false
  truthy : v.message.truthy = true
  shown : v.message.shown = none

theorem unwritable_of_text {v : Verdict} {x : Exception} (h : v.text = .error x) :
    v.Unwritable ∧ x = Exception.unwritable := by
  unfold text at h
  split at h
  · cases h
  · rename_i hp
    cases hr : v.remark with
    | some remark => simp [hr, Exception.orUnwritable] at h
    | none =>
      simp only [hr, Option.map_none, Exception.orUnwritable, Except.error.injEq] at h
      unfold remark at hr
      split at hr
      · rename_i ht
        exact ⟨⟨by simpa using hp, ht, Option.map_eq_none_iff.mp hr⟩, h.symm⟩
      · cases hr

end Verdict

namespace Classifier

/-! ## Counting the questions to a dumper -/

section Acting

variable {m : Type → Type} [Monad m]

def dumpIn (d : Option (Thrown → ExceptT Thrown m String)) (t : Thrown) : ExceptT Thrown m String :=
  match d with
  | none => pure ""
  | some f => f t

def verdictOnErrorIn (d : Option (Thrown → ExceptT Thrown m String)) (name : String) (t : Thrown) :
    ExceptT Thrown m Verdict := do
  let text ← ExceptT.mk (pure t.describe)
  let dump ← dumpIn d t
  return { name, passed := false, message := .text text, unexpected := true, dump }

def verdictOnDepartureIn (d : Option (Thrown → ExceptT Thrown m String)) (name : String)
    (t : Thrown) : ExceptT Thrown m Verdict := do
  let dump ← dumpIn d t
  return { name, passed := false, unexpected := true, dump }

/-- Classify with a dumper that acts in a monad. -/
def classifyIn (d : Option (Thrown → ExceptT Thrown m String)) (name : String) :
    Ending → ExceptT Halt m Verdict
  | .returned => pure { name, passed := true }
  | .left how => throw (.left how)
  | .raised t => match t.kind.family with
    | .failure => ExceptT.mk (pure ((t.exception.failureMessage.mapError .ofException).map fun message =>
      { name, passed := false, message }))
    | .complaint | .loading | .error => (verdictOnErrorIn d name t).adapt .raised
    | .interrupt => throw (.raised t)
    | .departure => (verdictOnDepartureIn d name t).adapt .raised

end Acting

variable {r : Option (Thrown → String)} {name : String} {e : Ending} {t : Thrown}

/-- With a dumper that only returns or raises this is classification. -/
theorem classifyIn_id (d : Dumper) (name : String) (e : Ending) :
    (classifyIn (m := Id) d name e).run = classify d name e := by
  cases e with
  | returned => rfl
  | left how => rfl
  | raised t =>
    have hdump : dumpIn (m := Id) d t = dump d t := by cases d <;> rfl
    have hdeparture : ((verdictOnDepartureIn (m := Id) d name t).adapt Halt.raised).run =
        (verdictOnDeparture d name t).mapError Halt.raised := by
      unfold verdictOnDepartureIn verdictOnDeparture
      rw [hdump]
      cases dump d t <;> rfl
    have herror : ((verdictOnErrorIn (m := Id) d name t).adapt Halt.raised).run =
        (verdictOnError d name t).mapError Halt.raised := by
      unfold verdictOnErrorIn verdictOnError
      rw [hdump]
      cases t.describe with
      | error u => rfl
      | ok text => cases dump d t <;> rfl
    cases hf : t.kind.family with
    | failure => simp only [classifyIn, classify, hf]; rfl
    | interrupt => simp only [classifyIn, classify, hf]; rfl
    | departure => simp only [classifyIn, classify, hf]; exact hdeparture
    | _ => simp only [classifyIn, classify, hf]; exact herror

/-- A dumper that returns texts. -/
def giving (r : Option (Thrown → String)) : Dumper := r.map fun f t => .ok (f t)

/-- The same dumper, which keeps what it is asked about. -/
def recording (r : Option (Thrown → String)) :
    Option (Thrown → ExceptT Thrown (StateM (List Thrown)) String) :=
  r.map fun f t => do
    modify (· ++ [t])
    return f t

/-- What a dumper that returns texts is asked about while an ending is classified. -/
def questions (r : Option (Thrown → String)) (name : String) (e : Ending) : List Thrown :=
  ((classifyIn (recording r) name e).run.run []).2

/-! ## Verdicts -/

/-- The description of an error that has a text. -/
def descriptionOf (k : Kind) (text : String) : String :=
  if text.isEmpty then k.name else s!"{k.name}: {text}"

/-- The verdict on an ending, and what the dumper is asked about. -/
inductive Judges (r : Option (Thrown → String)) (name : String) :
    Ending → Verdict → List Thrown → Prop
  | passed : Judges r name .returned { name, passed := true } []
  | failed {t : Thrown} {message : Value} (hf : t.kind.family = .failure)
      (hm : t.exception.failureMessage = .ok message) : Judges r name (.raised t)
      { name, passed := false, message } []
  | error {t : Thrown} {text : String} (hf : t.kind.family ∈ [.complaint, .loading, .error])
      (ht : t.exception.text = .ok text) : Judges r name (.raised t)
      { name, passed := false, message := .text (descriptionOf t.kind text), unexpected := true
        dump := (r.map (· t)).getD "" } (r.toList.map fun _ => t)
  | departure {t : Thrown} (hf : t.kind.family = .departure) : Judges r name (.raised t)
      { name, passed := false, unexpected := true, dump := (r.map (· t)).getD "" }
      (r.toList.map fun _ => t)

/-- No verdict is given on an ending, and this goes on instead. -/
inductive Passes : Ending → Halt → Prop
  | interrupt {t : Thrown} (hf : t.kind.family = .interrupt) : Passes (.raised t) (.raised t)
  | gone (how : Departure) : Passes (.left how) (.left how)
  /-- A failure that has no message. -/
  | silent {t : Thrown} {x : Exception} (hf : t.kind.family = .failure)
      (hx : t.exception.failureMessage = .error x) : Passes (.raised t) (.ofException x)
  /-- An error that has no text. -/
  | undescribed {t : Thrown} {x : Exception} (hf : t.kind.family ∈ [.complaint, .loading, .error])
      (hx : t.exception.text = .error x) : Passes (.raised t) (.ofException x)

theorem describe_of_text {text : String} (h : t.exception.text = .ok text) :
    t.describe = .ok (descriptionOf t.kind text) := by
  unfold Thrown.describe descriptionOf
  rw [h]
  by_cases ht : text = ""
  · subst ht
    rfl
  · have hempty : text.isEmpty = false := by simpa using ht
    simp [hempty]

theorem describe_of_no_text {x : Exception} (h : t.exception.text = .error x) :
    t.describe = .error (.ofException x) := by
  unfold Thrown.describe
  rw [h]

/-! ## Every ending -/

theorem dump_giving (r : Option (Thrown → String)) (t : Thrown) :
    dump (giving r) t = .ok ((r.map (· t)).getD "") := by
  cases r <;> rfl

theorem questions_of_departure (hf : t.kind.family = .departure) :
    questions r name (.raised t) = r.toList.map fun _ => t := by
  unfold questions
  simp only [classifyIn, hf]
  cases r <;> rfl

/-- The families of errors. -/
theorem classify_of_error (d : Dumper) (hf : t.kind.family ∈ [.complaint, .loading, .error]) :
    classify d name (.raised t) = (verdictOnError d name t).mapError .raised ∧
    ∀ {m : Type → Type} [Monad m] (d : Option (Thrown → ExceptT Thrown m String)),
      classifyIn d name (.raised t) = (verdictOnErrorIn d name t).adapt .raised := by
  simp only [List.mem_cons, List.not_mem_nil, or_false] at hf
  rcases hf with hf | hf | hf <;> simp [classify, classifyIn, hf]

theorem questions_of_error {text : String} (hf : t.kind.family ∈ [.complaint, .loading, .error])
    (ht : t.exception.text = .ok text) :
    questions r name (.raised t) = r.toList.map fun _ => t := by
  unfold questions
  rw [(classify_of_error none hf).2, verdictOnErrorIn, describe_of_text ht]
  cases r <;> rfl

theorem questions_of_no_text {x : Exception} (hf : t.kind.family ∈ [.complaint, .loading, .error])
    (hx : t.exception.text = .error x) : questions r name (.raised t) = [] := by
  unfold questions
  rw [(classify_of_error none hf).2, verdictOnErrorIn, describe_of_no_text hx]
  rfl

/-- An error is described and dumped, or it has no text. -/
theorem error_cases (r : Option (Thrown → String)) (name : String)
    (hf : t.kind.family ∈ [.complaint, .loading, .error]) :
    (∃ v, classify (giving r) name (.raised t) = .ok v ∧
      Judges r name (.raised t) v (questions r name (.raised t))) ∨
    ∃ h, classify (giving r) name (.raised t) = .error h ∧ Passes (.raised t) h ∧
      questions r name (.raised t) = [] := by
  rw [(classify_of_error (giving r) hf).1, verdictOnError, dump_giving]
  cases hx : t.exception.text with
  | error x =>
    rw [describe_of_no_text hx]
    exact Or.inr ⟨_, rfl, .undescribed hf hx, questions_of_no_text hf hx⟩
  | ok text =>
    rw [describe_of_text hx, questions_of_error hf hx]
    exact Or.inl ⟨_, rfl, .error hf hx⟩

/-- A verdict is given on an ending, or something goes on and the dumper is not asked. -/
theorem classify_cases (r : Option (Thrown → String)) (name : String) (e : Ending) :
    (∃ v, classify (giving r) name e = .ok v ∧ Judges r name e v (questions r name e)) ∨
    ∃ h, classify (giving r) name e = .error h ∧ Passes e h ∧ questions r name e = [] := by
  cases e with
  | returned => exact Or.inl ⟨_, rfl, .passed⟩
  | left how => exact Or.inr ⟨_, rfl, .gone how, rfl⟩
  | raised t =>
    cases hf : t.kind.family with
    | failure =>
      have hq : questions r name (.raised t) = [] := by
        unfold questions
        simp only [classifyIn, hf]
        cases t.exception.failureMessage <;> rfl
      rw [hq]
      cases hm : t.exception.failureMessage with
      | ok message =>
        exact Or.inl ⟨_, by simp only [classify, hf, hm]; rfl, .failed hf hm⟩
      | error x =>
        exact Or.inr ⟨_, by simp only [classify, hf, hm]; rfl, .silent hf hm, rfl⟩
    | interrupt =>
      have hq : questions r name (.raised t) = [] := by
        simp only [questions, classifyIn, hf]
        rfl
      exact Or.inr ⟨_, by simp only [classify, hf], .interrupt hf, hq⟩
    | departure =>
      rw [questions_of_departure hf]
      refine Or.inl ⟨_, ?_, .departure hf⟩
      simp only [classify, hf, verdictOnDeparture, dump_giving]
      rfl
    | _ => exact error_cases r name (by simp [hf])

theorem Judges.passed_iff {v : Verdict} {asked : List Thrown} (h : Judges r name e v asked) :
    v.passed = true ↔ e = .returned := by
  cases h <;> simp

/-- Only a failure has a message that cannot be written. -/
theorem Judges.failed_of_unwritable {v : Verdict} {asked : List Thrown} (h : Judges r name e v asked)
    (hu : v.Unwritable) : ∃ t, e = .raised t ∧ t.kind.family = .failure := by
  cases h with
  | passed => cases hu.passed
  | failed hf hm => exact ⟨_, rfl, hf⟩
  | error hf ht => cases hu.shown
  | departure hf => cases hu.truthy

/-! ## What is written -/

/-- Exactly this is added to the console and to the log. -/
structure Gains (j j' : Journal) (chunks : List Chunk) (text : String) : Prop where
  console : j'.console.items = j.console.items ++ chunks
  log : j'.logText = j.logText.map (· ++ text)

/-- The beginning of a line, if it is written here. -/
def front (test : Identity) (named : Bool) : List Entry := if named then [.name test] else []

theorem gains_outcome {j : Journal} (hj : j.Settled) (test : Identity) (named : Bool)
    (text : Option String) : Gains j
      (j.enterAll (front test named ++ (text.map Entry.outcome).toList))
      ((if named then [.text (test.name ++ ": ")] else []) ++ (text.map Chunk.outcome).toList)
      ((if named then test.name ++ ": " else "") ++ text.getD "") := by
  have hfits : ∀ e ∈ front test named ++ (text.map Entry.outcome).toList, e.Fits j := by
    intro e he
    rcases List.mem_append.mp he with he | he
    · unfold front at he
      split at he
      · obtain rfl := List.mem_singleton.mp he
        trivial
      · cases he
    · obtain ⟨b, -, rfl⟩ := Option.map_eq_some_iff.mp (Option.mem_toList.mp he)
      trivial
  constructor
  · rw [Journal.items_enterAll hj]
    cases named <;> cases text <;> rfl
  · rw [Journal.logText_enterAll hj hfits]
    cases named <;> cases text <;> simp [front, Entry.logged]

/-- **What a body raises is contained.**  With a dumper that returns texts, or with none, a verdict is
given on every ending, and it passes a body that returns and no other; the dumper is asked once about
an exception that is dumped and never else; and exactly the name, if it is wanted, and the text of the
verdict are written.  There are two other cases.  The verdict on a failure cannot be written, because
its message holds an integer of too many digits: then an error is raised behind the name.  Or no verdict
is given: the body was interrupted, or it took the process with it, or it raised a failure without a
message or an error without a text: then that, or what is raised instead, goes on. -/
theorem run_judges (r : Option (Thrown → String)) (test : Identity) (named : Bool) (e : Ending)
    {j : Journal} (hj : j.Settled) :
    let p := run (giving r) test named e j
    let chunks := if named then [.text (test.name ++ ": ")] else []
    let begun := if named then test.name ++ ": " else ""
    let asked := questions r test.name e
    (∀ d, (classifyIn (m := Id) d test.name e).run = classify d test.name e) ∧
    ((∃ v, classify (giving r) test.name e = .ok v ∧ Judges r test.name e v asked ∧
        (v.passed = true ↔ e = .returned) ∧
        ((∃ b, v.text = .ok b ∧ p.1 = .ok v ∧ Gains j p.2 (chunks ++ [.outcome b]) (begun ++ b)) ∨
          v.Unwritable ∧ (∃ t, e = .raised t ∧ t.kind.family = .failure) ∧
            p.1 = .error (.ofException Exception.unwritable) ∧ Gains j p.2 chunks begun)) ∨
      ∃ h, classify (giving r) test.name e = .error h ∧ p.1 = .error h ∧ Passes e h ∧ asked = [] ∧
        if h.isInterrupt
        then Gains j p.2 (chunks ++ [.outcome interruptedText]) (begun ++ interruptedText)
        else Gains j p.2 chunks begun) := by
  intro p chunks begun asked
  refine ⟨fun d => classifyIn_id d test.name e, ?_⟩
  have hp : p = ((report (giving r) test.name e).1,
      j.enterAll (front test named ++ reportEntries (giving r) test e)) := run_eq ..
  rw [hp]
  unfold reportEntries
  rcases classify_cases r test.name e with ⟨v, hv, hjudges⟩ | ⟨h, hh, hpasses, hasked⟩
  · refine Or.inl ⟨v, hv, hjudges, hjudges.passed_iff, ?_⟩
    cases hb : v.text with
    | ok b =>
      have hreport : report (giving r) test.name e = (.ok v, some b) := by simp only [report, hv, hb]
      rw [hreport]
      exact Or.inl ⟨b, rfl, rfl, gains_outcome hj test named (some b)⟩
    | error x =>
      obtain ⟨hunwritable, rfl⟩ := Verdict.unwritable_of_text hb
      have hreport : report (giving r) test.name e =
          (.error (.ofException Exception.unwritable), none) := by simp only [report, hv, hb]
      rw [hreport]
      refine Or.inr ⟨hunwritable, hjudges.failed_of_unwritable hunwritable, rfl, ?_⟩
      simpa [chunks, begun] using gains_outcome hj test named none
  · have hreport : report (giving r) test.name e =
        (.error h, if h.isInterrupt then some interruptedText else none) := by simp only [report, hh]
    rw [hreport]
    refine Or.inr ⟨h, hh, rfl, hpasses, hasked, ?_⟩
    cases hi : h.isInterrupt with
    | true => simpa [chunks, begun] using gains_outcome hj test named (some interruptedText)
    | false => simpa [chunks, begun] using gains_outcome hj test named none

/-- An error is described, and dumped once; what is raised by one that has no text is passed on. -/
theorem run_judges_two :
    let dumper : Option (Thrown → String) := some fun _ => "dump"
    let run := fun t => run (giving dumper) ⟨"g", "s", 1⟩ true (.raised t) {}
    let bad : Thrown := .of .valueError "bad"
    let textless : Exception :=
      { kind := Kind.named "BadStr", said := some (.error (.of .runtimeError "str failed")) }
    (Gains {} (run bad).2
        [.text "g.s.1: ", .outcome "FAIL with exception (ValueError: bad):\ndump\n"]
        "g.s.1: FAIL with exception (ValueError: bad):\ndump\n" ∧
      questions dumper "g.s.1" (.raised bad) = [bad]) ∧
    (run (.ofException textless)).1 = .error (.ofException (.of .runtimeError "str failed")) := by
  intro dumper run bad textless
  have hj : Journal.Settled {} := ⟨rfl, fun _ h => nomatch h⟩
  have hname : (Identity.mk "g" "s" 1).name = "g.s.1" := by decide +kernel
  have hjudged := fun t => (run_judges dumper ⟨"g", "s", 1⟩ true (.raised t) hj).2
  rw [hname] at hjudged
  constructor
  · let v : Verdict :=
      { name := "g.s.1", passed := false, message := .text "ValueError: bad", unexpected := true
        dump := "dump" }
    have hv : classify (giving dumper) "g.s.1" (.raised bad) = .ok v := rfl
    have htext : v.text.toOption = some "FAIL with exception (ValueError: bad):\ndump\n" := by
      decide +kernel
    rcases hjudged bad with ⟨v', hv', hjudges, -, hwritten⟩ | ⟨h, hh, -⟩
    · obtain rfl : v = v' := Except.ok.inj (hv.symm.trans hv')
      rcases hwritten with ⟨b, hb, -, hgains⟩ | ⟨hunwritable, -⟩
      · rw [hb] at htext
        obtain rfl := Option.some.inj htext
        exact ⟨⟨hgains.console, hgains.log⟩, rfl⟩
      · cases hunwritable.shown
    · cases hv.symm.trans hh
  · have hx : classify (giving dumper) "g.s.1" (.raised (.ofException textless)) =
        .error (.ofException (.of .runtimeError "str failed")) := rfl
    rcases hjudged (.ofException textless) with ⟨v, hv, -⟩ | ⟨h, hh, hraised, -⟩
    · cases hx.symm.trans hv
    · obtain rfl := Except.error.inj (hx.symm.trans hh)
      exact hraised

end Classifier

end TestRig
