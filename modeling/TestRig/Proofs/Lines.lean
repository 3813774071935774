import TestRig.Proofs.Writing

/-!
# TestRig.Proofs.Lines — one line for every test

A rig that takes no notes writes about a test its name, and then whoever knows what became of the test
ends the line.  Nobody does where the process that ran the body says nothing, because it is ended from
inside or outside or cannot describe what was raised, and this process either trusts its exit code or
raises something itself.  Two do where a copy is killed at the time limit when it has said its outcome.
And copies that were left behind may speak at any time.

* `LineForm`: what stands behind the name of a test; `Fate.form` and `Rig.form` say which it is.
* `Rig.chunks_wrote` and `Rig.logged_wrote`: what is written about a test, on the console and in the log.
* `Rig.lines_of_session`: the line of every test of a session; if none is left open, every test
  begins on a line of its own.
-/

namespace TestRig

open Supervision (Fate Status endingStatus Child)
open Journal (Entry Other)

/-! ## The line of a test -/

/-- What stands behind the name of a test. -/
inductive LineForm
  /-- Nothing: the line stays open. -/
  | opened
  /-- One outcome. -/
  | whole
  /-- The mere end of the line. -/
  | blank
  /-- The outcome that a copy wrote, and then that it was killed at its time limit. -/
  | late
  deriving DecidableEq

inductive LineTail : LineForm → List Chunk → Prop
  | opened : LineTail .opened []
  | whole {b : String} (h : IsOutcome b) : LineTail .whole [.outcome b]
  | blank : LineTail .blank [.text "\n"]
  | late {b : String} (h : IsOutcome b) :
      LineTail .late [.outcome b, .outcome s!"FAIL ({Supervision.timedOut})\n"]

/-- A line that is not open is ended, with colours or without. -/
theorem LineTail.ended {form : LineForm} {cs : List Chunk} (h : LineTail form cs)
    (ho : form ≠ .opened) (colored : Bool) : ∃ u, Chunk.renderAll colored cs = u ++ "\n" := by
  cases h with
  | opened => exact absurd rfl ho
  | blank => exact ⟨"", rfl⟩
  | whole hb =>
    obtain ⟨u, hu⟩ := Chunk.ended_render colored hb
    exact ⟨u, (Chunk.renderAll_singleton ..).trans hu⟩
  | @late b hb =>
    have htimed : IsOutcome s!"FAIL ({Supervision.timedOut})\n" :=
      isOutcome_failure " (" Supervision.timedOut ")"
    obtain ⟨u, hu⟩ := Chunk.ended_render colored htimed
    refine ⟨Chunk.render colored (.outcome b) ++ u, ?_⟩
    rw [Chunk.renderAll_cons, Chunk.renderAll_singleton, hu, String.append_assoc]

/-! ## Lines of copies -/

namespace Supervision

variable {d : Dumper} {name : String} {e : Ending}

/-- Is an ending left to the process itself to report?  Its exit code says so. -/
def Status.isTold : Status → Bool
  | .exited code => code ≤ 1
  | .killed _ => false

/-- A process that ends in another way has said nothing. -/
theorem report_of_not_isTold {s : Status} (h : endingStatus d name e = some s)
    (hs : s.isTold = false) : (Classifier.report d name e).2 = none := by
  have hverdict : ∀ v : Verdict, (Status.exited v.exitCode).isTold = true := by
    intro v
    unfold Verdict.exitCode Verdict.status
    cases v.passed <;> rfl
  cases e with
  | left how => rfl
  | _ =>
    simp only [endingStatus] at h
    split at h
    · cases h
      rw [hverdict] at hs
      cases hs
    · cases h
      cases hs

/-- What this process says when a copy of it has ended in another way. -/
theorem Status.chunks_entries (test : Identity) (pid : Nat) (s : Status) :
    if s.isTold then (s.entries test pid).flatMap (Entry.chunks false) = []
    else ∃ b, IsOutcome b ∧ (s.entries test pid).flatMap (Entry.chunks false) = [.outcome b] := by
  cases s with
  | killed n => exact ⟨_, isOutcome_failure " (" (Signal.describe n) ")", rfl⟩
  | exited code =>
    unfold isTold entries
    by_cases hc : code ≤ 1
    · simp [hc, Entry.chunks]
    · simp only [hc, decide_false, Bool.false_eq_true, if_false]
      exact ⟨_, isOutcome_failure " (exit status " (Text.showInt code) ")", rfl⟩

namespace Fate

variable {cfg : Configuration} {status : Option Status} {f : Faults} {s : Status} {own : Option String}
  {acts : Nat} {fate : Fate} {test : Identity} {pid : Nat} {part : Nat → List Other}

/-- Only how a copy ends by itself is taken for its ending. -/
theorem of_eq_ended (h : of cfg status f = ended s) : status = some s := by
  have hstopping : ∀ done f, stopping done f ≠ ended s := by
    intro done f
    unfold stopping
    split <;> exact fun h => nomatch h
  have hexpiring : ∀ done f, expiring done f ≠ ended s := by
    intro done f
    unfold expiring
    split <;> exact fun h => nomatch h
  have hreaping : ∀ s' f, reaping s' f = ended s → s' = s := by
    intro s' f h
    unfold reaping at h
    split at h
    · exact Fate.ended.inj h
    · exact absurd h (hstopping _ _)
    · cases h
  unfold of at h
  split at h
  · cases h
  unfold awaited at h
  split at h
  · cases h
  unfold concluding at h
  split at h
  · rename_i s' hfound
    have hs : s' = s := by
      split at h
      · exact hreaping s' _ h
      · exact Fate.ended.inj h
    exact hs ▸ (ended?_eq_some.mp (ended_of_sighting hfound)).2
  · exact absurd h (hexpiring _ _)
  · cases h
  · exact absurd h (hstopping _ _)

/-- Does a copy come so far in its work as to say its outcome, with so many acts? -/
def reaches (acts : Nat) (done : Option Nat) : Bool := done.all fun n => decide (acts ≤ n)

/-- What stands behind the name of a test in a copy; `reports` says whether the copy would say an
outcome, and `acts` with how many acts of its work. -/
def form (reports : Bool) (acts : Nat) : Fate → LineForm
  | unmade _ => .blank
  | ended s => if s.isTold && !reports then .opened else .whole
  | expired done => if reports && reaches acts done then .late else .whole
  | broken _ done => if reports && reaches acts done then .whole else .opened

/-- What a copy has said. -/
def said (own : Option String) (acts : Nat) : Fate → List Chunk
  | unmade _ => []
  | ended _ => (own.map .outcome).toList
  | expired done | broken _ done => if reaches acts done then (own.map .outcome).toList else []

/-- What stands behind the name. -/
def lineTail (own : Option String) (acts : Nat) (test : Identity) (pid : Nat) (fate : Fate) :
    List Chunk :=
  fate.said own acts ++ (fate.closing test pid).flatMap (Entry.chunks false)

/-- **Who ends the line** of a test in a copy. -/
theorem lineTail_form (hown : ∀ b ∈ own, IsOutcome b)
    (hsilent : ∀ s, fate = ended s → s.isTold = false → own = none) (acts : Nat) (test : Identity)
    (pid : Nat) : LineTail (fate.form own.isSome acts) (fate.lineTail own acts test pid) := by
  have htimed : IsOutcome s!"FAIL ({timedOut})\n" := isOutcome_failure " (" timedOut ")"
  cases fate with
  | unmade e => exact .blank
  | ended s =>
    have hs := s.chunks_entries test pid
    simp only [lineTail, said, form, closing]
    cases ht : s.isTold with
    | true =>
      rw [ht, if_pos rfl] at hs
      rw [hs]
      cases own with
      | none => exact .opened
      | some b => exact .whole (hown b rfl)
    | false =>
      rw [ht, if_neg (by simp)] at hs
      obtain ⟨b, hb, hchunks⟩ := hs
      rw [hchunks, hsilent s rfl ht]
      exact .whole hb
  | expired done =>
    simp only [lineTail, said, form, closing]
    cases reaches acts done <;> cases own with
    | none => exact .whole htimed
    | some b => first | exact .whole htimed | exact .late (hown b rfl)
  | broken h done =>
    simp only [lineTail, said, form, closing]
    cases reaches acts done <;> cases own with
    | none => exact .opened
    | some b => first | exact .opened | exact .whole (hown b rfl)

/-- Only where no copy could be made the line has no outcome but its end. -/
theorem of_form_blank {reports : Bool} (h : fate.form reports acts = .blank) :
    ∃ e, fate = unmade e := by
  cases fate with
  | unmade e => exact ⟨e, rfl⟩
  | _ =>
    simp only [form] at h
    split at h <;> cases h

/-- Only where a copy is killed at its time limit there are two outcomes. -/
theorem of_form_late {reports : Bool} (h : fate.form reports acts = .late) :
    ∃ done, fate = expired done := by
  cases fate with
  | expired done => exact ⟨done, rfl⟩
  | unmade => cases h
  | _ =>
    simp only [form] at h
    split at h <;> cases h

/-! ## On the console and in the log -/

theorem chunks_told (fate : Fate) (own : Option String) {part : Nat → List Other}
    (hpart : ∀ n, (part n).flatMap Other.chunks =
      if Child.showing ≤ n then (own.map Chunk.outcome).toList else []) :
    (fate.told (own.map Entry.outcome).toList part).flatMap (Entry.chunks false) =
      fate.said own Child.showing := by
  have hown : (own.map Entry.outcome).toList.flatMap (Entry.chunks false) =
      (own.map Chunk.outcome).toList := by cases own <;> rfl
  have hdone : ∀ done : Option Nat, (done.elim (own.map Entry.outcome).toList fun n =>
      (part n).map .other).flatMap (Entry.chunks false) =
        if reaches Child.showing done then (own.map Chunk.outcome).toList else [] := by
    intro done
    cases done with
    | none => exact hown
    | some n =>
      rw [Option.elim_some, List.flatMap_map]
      exact (hpart n).trans (by simp [reaches])
  cases fate with
  | unmade e => rfl
  | ended s => exact hown
  | expired done => exact hdone done
  | broken h done => exact hdone done

theorem logged_told (fate : Fate) (own : Option String) {part : Nat → List Other}
    (hpart : ∀ n, String.join ((part n).map Other.logged) =
      if Child.logging ≤ n then own.getD "" else "") :
    String.join ((fate.told (own.map Entry.outcome).toList part).map Entry.logged) =
      Chunk.renderAll false (fate.said own Child.logging) := by
  have hown : String.join ((own.map Entry.outcome).toList.map Entry.logged) =
      Chunk.renderAll false (own.map Chunk.outcome).toList := by cases own <;> rfl
  have hget : own.getD "" = Chunk.renderAll false (own.map Chunk.outcome).toList := by
    cases own <;> simp [Chunk.renderAll, Chunk.render]
  have hdone : ∀ done : Option Nat, String.join ((done.elim (own.map Entry.outcome).toList fun n =>
      (part n).map .other).map Entry.logged) =
        Chunk.renderAll false
          (if reaches Child.logging done then (own.map Chunk.outcome).toList else []) := by
    intro done
    cases done with
    | none => exact hown
    | some n =>
      rw [Option.elim_some, List.map_map]
      refine (hpart n).trans ?_
      by_cases hn : Child.logging ≤ n
      · simp [reaches, hn, hget]
      · simp [reaches, hn, Chunk.renderAll]
  cases fate with
  | unmade e => rfl
  | ended s => exact hown
  | expired done => exact hdone done
  | broken h done => exact hdone done

end Fate

end Supervision

/-- The texts that another process has put at the end of the log. -/
def Journal.Other.texts : Other → List String
  | appended _ texts => texts
  | _ => []

theorem Journal.Other.join_logged : ∀ os : List Other,
    String.join (os.map Other.logged) = String.join (os.flatMap Other.texts)
  | [] => rfl
  | o :: os => by
    have hone : o.logged = String.join o.texts := by cases o <;> rfl
    rw [List.map_cons, List.flatMap_cons, String.join_cons, String.join_append, join_logged os, hone]

/-- Copies say nothing but outcomes. -/
theorem Journal.Other.outcomes_of_plain {loc : Option Location} {os : List Other}
    (h : ∀ o ∈ os, Supervision.IsPlain loc o) : (∀ c ∈ os.flatMap Other.chunks, c.IsOutcome) ∧
    ∀ t ∈ os.flatMap Other.texts, IsOutcome t := by
  refine ⟨fun c hc => ?_, fun t ht => ?_⟩
  · obtain ⟨o, ho, hmem⟩ := List.mem_flatMap.mp hc
    have hplain := h o ho
    cases o with
    | showed cs => exact hplain c hmem
    | _ => cases hmem
  · obtain ⟨o, ho, hmem⟩ := List.mem_flatMap.mp ht
    have hplain := h o ho
    cases o with
    | appended l texts => exact hplain.2 t hmem
    | _ => cases hmem

/-- Without notes reports are logged as they are shown on a plain console. -/
theorem Journal.renderAll_chunks {es : List Entry} (hes : ∀ e ∈ es, e.IsReport) :
    Chunk.renderAll false (es.flatMap (Entry.chunks false)) = String.join (es.map Entry.logged) := by
  induction es with
  | nil => rfl
  | cons e es ih =>
    have he : Chunk.renderAll false (e.chunks false) = e.logged := by
      cases hes e List.mem_cons_self <;>
        simp [Chunk.renderAll, Entry.chunks, Entry.logged, Chunk.render]
    rw [List.flatMap_cons, List.map_cons, String.join_cons, Chunk.renderAll_append, he,
      ih fun e' he' => hes e' (List.mem_cons_of_mem _ he')]

namespace Rig

variable {r : Rig} {test : Identity} {body : Body} {loc : Option Location} {others : List Other}

/-! ## What is written about a test -/

/-- The outcome that the process would say that runs the body of a test. -/
def outcome? (r : Rig) (test : Identity) (body : Body) : Option String :=
  (Classifier.report r.dumper test.name (body r.arguments)).2

/-- What stands behind the name of a test; a copy says its outcome with so many acts. -/
def form (r : Rig) (acts : Nat) (test : Identity) (body : Body) : LineForm :=
  if r.configuration.direct then (if (r.outcome? test body).isSome then .whole else .opened)
  else (r.fate test body).form (r.outcome? test body).isSome acts

theorem isOutcome_outcome? : ∀ b ∈ r.outcome? test body, IsOutcome b := fun _ =>
  Classifier.isOutcome_report

/-- What stands behind the name of a test in a copy. -/
theorem lineTail_fate (r : Rig) (test : Identity) (body : Body) (acts : Nat) :
    LineTail ((r.fate test body).form (r.outcome? test body).isSome acts)
      ((r.fate test body).lineTail (r.outcome? test body) acts test r.host.nextPid) :=
  Fate.lineTail_form isOutcome_outcome?
    (fun _ hs => Supervision.report_of_not_isTold (Fate.of_eq_ended hs)) acts test _

/-- **The line of a test on the console**: its name, what copies say meanwhile that were left behind, and
what stands behind the name. -/
theorem chunks_wrote (hw : test.isWritable = true)
    (hn : r.configuration.direct = true → r.configuration.named = true)
    (hb : r.Beside loc others) (body : Body) : ∃ ds cs,
    (r.wrote test body others).flatMap (Entry.chunks false) =
      .text (test.name ++ ": ") :: (ds ++ cs) ∧
    (∀ c ∈ ds, c.IsOutcome) ∧ (r.host.strays = [] → ds = []) ∧
    LineTail (r.form Child.showing test body) cs := by
  unfold wrote form
  rw [hw]
  cases hd : r.configuration.direct with
  | true =>
    refine ⟨[], ((r.outcome? test body).map Chunk.outcome).toList, ?_, fun _ hc => (nomatch hc),
      fun _ => rfl, ?_⟩
    · simp only [Bool.not_true, Bool.false_eq_true, if_false, if_true, hn hd]
      unfold reported Classifier.reportEntries outcome?
      cases (Classifier.report r.dumper test.name (body r.arguments)).2 <;> rfl
    · simp only [if_true]
      cases hr : r.outcome? test body with
      | none => exact .opened
      | some b => exact .whole (isOutcome_outcome? b hr)
  | false =>
    refine ⟨others.flatMap Other.chunks, _, ?_, (Other.outcomes_of_plain hb.plain).1, fun hno => ?_,
      lineTail_fate r test body Child.showing⟩
    · have htold := (r.fate test body).chunks_told (r.outcome? test body) fun n =>
        (Child.chunks_trace n : ((r.copy test body).trace n).flatMap Other.chunks = _)
      have hothers : (others.map Entry.other).flatMap (Entry.chunks false) =
          others.flatMap Other.chunks := by
        rw [List.flatMap_map]
        rfl
      simp only [Bool.not_true, Bool.false_eq_true, if_false, Fate.entries, List.flatMap_append,
        hothers, Fate.lineTail, ← htold]
      simp only [Entry.chunks, Bool.false_eq_true, if_false, List.flatMap_cons, List.flatMap_nil,
        List.append_nil, List.nil_append, List.cons_append, List.append_assoc]
      rfl
    · rw [hb.alone hno]
      rfl

/-- **The line of a test in the log**, where the log is open. -/
theorem logged_wrote {l : Location} (hl : r.journal.log.map (·.location) = some l)
    (hw : test.isWritable = true) (hn : r.configuration.direct = true → r.configuration.named = true)
    (hb : r.Beside loc others) (body : Body) : ∃ ds cs,
    String.join ((r.wrote test body others).map Entry.logged) =
      test.name ++ ": " ++ String.join ds ++ Chunk.renderAll false cs ∧
    (∀ t ∈ ds, IsOutcome t) ∧ (r.host.strays = [] → ds = []) ∧
    LineTail (r.form Child.logging test body) cs := by
  unfold wrote form
  rw [hw]
  cases hd : r.configuration.direct with
  | true =>
    refine ⟨[], ((r.outcome? test body).map Chunk.outcome).toList, ?_, fun _ hc => (nomatch hc),
      fun _ => rfl, ?_⟩
    · simp only [Bool.not_true, Bool.false_eq_true, if_false, if_true, hn hd]
      unfold reported Classifier.reportEntries outcome?
      cases (Classifier.report r.dumper test.name (body r.arguments)).2 <;>
        simp [Entry.logged, Chunk.renderAll, Chunk.render]
    · simp only [if_true]
      cases hr : r.outcome? test body with
      | none => exact .opened
      | some b => exact .whole (isOutcome_outcome? b hr)
  | false =>
    refine ⟨others.flatMap Other.texts, _, ?_, (Other.outcomes_of_plain hb.plain).2, fun hno => ?_,
      lineTail_fate r test body Child.logging⟩
    · have htold := (r.fate test body).logged_told (r.outcome? test body) fun n =>
        show String.join (((r.copy test body).trace n).map Other.logged) = _ by
          rw [copy, hl]
          exact Child.logged_trace n
      have hclosing : Chunk.renderAll false
          (((r.fate test body).closing test r.host.nextPid).flatMap (Entry.chunks false)) =
            String.join (((r.fate test body).closing test r.host.nextPid).map Entry.logged) :=
        Journal.renderAll_chunks (Fate.closing_reports _ _ _)
      have hothers : String.join ((others.map Entry.other).map Entry.logged) =
          String.join (others.flatMap Other.texts) := by
        rw [List.map_map]
        exact Other.join_logged others
      rw [Fate.lineTail, Chunk.renderAll_append, hclosing, ← htold]
      simp only [Bool.not_true, Bool.false_eq_true, if_false, Fate.entries, List.map_append,
        String.join_append, hothers]
      simp [Entry.logged, String.append_assoc]
      rfl
    · rw [hb.alone hno]
      rfl

end Rig

/-! ## Texts of whole lines -/

theorem EndsLine.of_outcomes : ∀ {ts : List String}, (∀ t ∈ ts, IsOutcome t) → EndsLine (String.join ts)
  | [], _ => Or.inl rfl
  | t :: ts, h => by
    have ht : EndsLine t := by
      obtain ⟨m, hm | hm⟩ := h t List.mem_cons_self
      · exact Or.inr ⟨_, hm⟩
      · exact Or.inr ⟨_, hm⟩
    rw [String.join_cons]
    exact ht.append (of_outcomes fun t' ht' => h t' (List.mem_cons_of_mem _ ht'))

theorem EndsLine.of_chunks (colored : Bool) : ∀ {cs : List Chunk}, (∀ c ∈ cs, c.IsOutcome) →
    EndsLine (Chunk.renderAll colored cs)
  | [], _ => Or.inl rfl
  | c :: cs, h => by
    obtain ⟨b, hb, rfl⟩ := h c List.mem_cons_self
    have hone : EndsLine (Chunk.render colored (.outcome b)) := Or.inr (Chunk.ended_render colored hb)
    have hrest := of_chunks colored fun c' hc' => h c' (List.mem_cons_of_mem _ hc')
    rw [Chunk.renderAll_cons]
    exact hone.append hrest

/-! ## Sessions of runs -/

/-- A test is run, or time goes by. -/
def Request.IsRunOrPause : Request → Prop
  | .run _ _ _ | .pause _ => True
  | _ => False

namespace Moment

/-- A verdict is returned, or a complaint is raised. -/
def concludes (m : Moment) : Bool :=
  match m.answer with
  | .ran (.ok (some _)) => true
  | .ran (.error h) => h.isComplaint
  | _ => false

/-- What stands behind the name of the test that was admitted, if its name can be written. -/
def form? (acts : Nat) (m : Moment) : Option LineForm :=
  match m.request, m.admitted? with
  | .run _ _ body, some k =>
    let test := m.before.registry.identity k
    if test.isWritable then some (m.before.form acts test body) else none
  | _, _ => none

/-- **The line of a test** on the console and, where it is open, in the log: the name of the test, then
what copies say that were left behind, if there are any, and then what belongs to its form. -/
structure WritesLine (m : Moment) (test : Identity) : Prop where
  console : ∃ form others cs, m.form? Child.showing = some form ∧
    m.after.journal.console.items = m.before.journal.console.items ++
      .text (test.name ++ ": ") :: (others ++ cs) ∧
    (∀ c ∈ others, c.IsOutcome) ∧ (m.before.host.strays = [] → others = []) ∧ LineTail form cs
  log : ∀ old ∈ m.before.journal.logText, ∃ form others cs, m.form? Child.logging = some form ∧
    m.after.journal.logText = some (old ++
      (test.name ++ ": " ++ String.join others ++ Chunk.renderAll false cs)) ∧
    (∀ t ∈ others, IsOutcome t) ∧ (m.before.host.strays = [] → others = []) ∧ LineTail form cs
  /-- The outcome is left out where no process could be made. -/
  refused : m.form? Child.showing = some .blank →
    ∃ reason, m.answer = .ran (.error (Supervision.creationFailure "fork() failed" test reason))
  /-- There are two where a test was killed at its time limit. -/
  killed : ∀ acts, m.form? acts = some .late → m.answer = .ran (.ok (some false))

end Moment

namespace Rig

variable {r : Rig} {loc : Option Location} {q : Request}

/-- A rig whose tests run at home, each on a line with its name and without notes. -/
structure KeepsLines (loc : Option Location) (r : Rig) : Prop where
  homely : r.Homely loc
  verbose : r.journal.verbose = false
  named : r.configuration.direct = true → r.configuration.named = true

theorem KeepsLines.moment (h : r.KeepsLines loc) (q : Request) : (r.moment q).after.KeepsLines loc := by
  have hk := keeps_moment h.homely q
  refine ⟨h.homely.moment q, hk.verbose.trans h.verbose, ?_⟩
  rw [hk.configuration]
  exact h.named

theorem location_of_logText {j : Journal} {old : String} (h : j.logText = some old) :
    ∃ l, j.log.map (·.location) = some l := by
  unfold Journal.logText at h
  cases hl : j.log with
  | none => rw [hl] at h; cases h
  | some l => exact ⟨_, rfl⟩

/-- In this process no line is blank, and none is late. -/
theorem isolated_of_form {acts : Nat} {form : LineForm} (hf : r.form acts test body = form)
    (hforms : form = .blank ∨ form = .late) : r.configuration.direct = false ∧
      (r.fate test body).form (r.outcome? test body).isSome acts = form := by
  unfold Rig.form at hf
  cases hd : r.configuration.direct with
  | false => simpa [hd] using hf
  | true =>
    simp only [hd, if_true] at hf
    split at hf <;> rcases hforms with rfl | rfl <;> cases hf

theorem verdict_of_blank {acts : Nat} (hw : test.isWritable = true)
    (hf : r.form acts test body = .blank) : ∃ e : Exception, r.verdict test body =
      .error (Supervision.creationFailure "fork() failed" test e.reason) := by
  obtain ⟨hd, hfate⟩ := isolated_of_form hf (Or.inl rfl)
  obtain ⟨e, he⟩ := Fate.of_form_blank hfate
  exact ⟨e, by simp [verdict, hw, hd, he, Fate.result]⟩

theorem verdict_of_late {acts : Nat} (hw : test.isWritable = true)
    (hf : r.form acts test body = .late) : r.verdict test body = .ok false := by
  obtain ⟨hd, hfate⟩ := isolated_of_form hf (Or.inr rfl)
  obtain ⟨done, he⟩ := Fate.of_form_late hfate
  simp [verdict, hw, hd, he, Fate.result]

/-- **An admitted test whose name can be written** writes its line. -/
theorem KeepsLines.writesLine (h : r.KeepsLines loc) {subgroup : String} {number : Value} {k : Key}
    (ha : r.admitted? subgroup number = some k) (hw : (r.registry.identity k).isWritable = true)
    (body : Body) : (r.moment (.run subgroup number body)).WritesLine (r.registry.identity k) := by
  obtain ⟨others, host, hb, hcomes, hrun⟩ := run_comes h.homely ha body
  have hanswer : (r.moment (.run subgroup number body)).answer =
      .ran ((r.verdict (r.registry.identity k) body).map some) := by
    show Answer.ran (r.run subgroup number body).1 = _
    rw [hrun]
  have hjournal : (r.moment (.run subgroup number body)).after.journal =
      r.journal.enterAll (r.wrote (r.registry.identity k) body others) := by
    show (r.run subgroup number body).2.journal = _
    rw [hrun]
    exact hcomes.journal
  have hform : ∀ acts, (r.moment (.run subgroup number body)).form? acts =
      some (r.form acts (r.registry.identity k) body) := by
    intro acts
    have hin : (r.moment (.run subgroup number body)).admitted? = some k := ha
    unfold Moment.form?
    rw [hin]
    exact if_pos hw
  refine ⟨?_, fun old hold => ?_, fun hblank => ?_, fun acts hlate => ?_⟩
  · obtain ⟨ds, cs, hchunks, hds, halone, htail⟩ := chunks_wrote hw h.named hb body
    refine ⟨_, ds, cs, hform _, ?_, hds, halone, htail⟩
    rw [hjournal, Journal.items_enterAll h.homely.settled, h.verbose, hchunks]
    rfl
  · have hlog : r.journal.logText = some old := hold
    obtain ⟨l, hl⟩ := location_of_logText hlog
    obtain ⟨ds, cs, hlogged, hds, halone, htail⟩ := logged_wrote hl hw h.named hb body
    refine ⟨_, ds, cs, hform _, ?_, hds, halone, htail⟩
    rw [hjournal, Journal.logText_enterAll h.homely.settled (h.homely.fits_wrote hb _ body), hlog,
      hlogged]
    rfl
  · rw [hform, Option.some.injEq] at hblank
    obtain ⟨e, he⟩ := verdict_of_blank hw hblank
    exact ⟨e.reason, by rw [hanswer, he]; rfl⟩
  · rw [hform, Option.some.injEq] at hlate
    rw [hanswer, verdict_of_late hw hlate]
    rfl

/-- A test whose name cannot be written raises an exception that is no complaint. -/
theorem concludes_of_not_isWritable {subgroup : String} {number : Value} {k : Key}
    (h : r.KeepsLines loc) (ha : r.admitted? subgroup number = some k)
    (hw : (r.registry.identity k).isWritable = false) (body : Body) :
    (r.moment (.run subgroup number body)).concludes = false ∧
      (r.moment (.run subgroup number body)).after.journal = r.journal := by
  obtain ⟨others, host, hb, hcomes, hrun⟩ := run_comes h.homely ha body
  have hverdict : r.verdict (r.registry.identity k) body =
      .error (.ofException Exception.unwritable) := by simp [verdict, hw]
  have hnone : r.wrote (r.registry.identity k) body others = [] := by simp [wrote, hw]
  have hanswer : (r.moment (.run subgroup number body)).answer =
      .ran ((r.verdict (r.registry.identity k) body).map some) := by
    show Answer.ran (r.run subgroup number body).1 = _
    rw [hrun]
  constructor
  · rw [Moment.concludes, hanswer, hverdict]
    rfl
  · show (r.run subgroup number body).2.journal = _
    rw [hrun]
    have hj := hcomes.journal
    rw [hnone] at hj
    exact hj

/-! ## Whole lines -/

/-- Whole lines have been added to the console, and to the log if it is open. -/
structure AddsLines (shows logs : Prop) (j j' : Journal) : Prop where
  console : shows → ∃ cs, j'.console.items = j.console.items ++ cs ∧
    ∀ colored, EndsLine (Chunk.renderAll colored cs)
  log : logs → ∀ old ∈ j.logText, ∃ t, j'.logText = some (old ++ t) ∧ EndsLine t

theorem AddsLines.refl {shows logs : Prop} (j : Journal) : AddsLines shows logs j j :=
  ⟨fun _ => ⟨[], (List.append_nil _).symm, fun _ => Or.inl rfl⟩,
    fun _ old hold => ⟨"", by rw [String.append_empty]; exact hold, Or.inl rfl⟩⟩

theorem AddsLines.trans {shows logs : Prop} {j j' j'' : Journal} (h : AddsLines shows logs j j')
    (h' : AddsLines shows logs j' j'') : AddsLines shows logs j j'' := by
  refine ⟨fun hs => ?_, fun hl old hold => ?_⟩
  · obtain ⟨cs, hi, hcs⟩ := h.console hs
    obtain ⟨ds, hi', hds⟩ := h'.console hs
    refine ⟨cs ++ ds, by rw [hi', hi, List.append_assoc], fun colored => ?_⟩
    rw [Chunk.renderAll_append]
    exact (hcs colored).append (hds colored)
  · obtain ⟨t, ht, hends⟩ := h.log hl old hold
    obtain ⟨u, hu, hends'⟩ := h'.log hl _ ht
    exact ⟨t ++ u, by rw [hu, String.append_assoc], hends.append hends'⟩

/-- A line that is ended is whole. -/
theorem AddsLines.of_writesLine {m : Moment} {test : Identity} (h : m.WritesLine test) :
    AddsLines (m.form? Child.showing ≠ some .opened) (m.form? Child.logging ≠ some .opened)
      m.before.journal m.after.journal := by
  refine ⟨fun ho => ?_, fun ho old hold => ?_⟩
  · obtain ⟨form, others, cs, hform, hitems, -, -, htail⟩ := h.console
    rw [hform, ne_eq, Option.some.injEq] at ho
    refine ⟨_, hitems, fun colored => ?_⟩
    obtain ⟨u, hu⟩ := htail.ended ho colored
    rw [Chunk.renderAll_cons, Chunk.renderAll_append, hu, ← String.append_assoc, ← String.append_assoc]
    exact Or.inr ⟨_, rfl⟩
  · obtain ⟨form, others, cs, hform, hlog, -, -, htail⟩ := h.log old hold
    rw [hform, ne_eq, Option.some.injEq] at ho
    refine ⟨_, hlog, ?_⟩
    obtain ⟨u, hu⟩ := htail.ended ho false
    rw [hu]
    exact Or.inr ⟨_, (String.append_assoc ..).symm⟩

/-- **One request** adds whole lines if it leaves no line open. -/
theorem KeepsLines.addsLines (h : r.KeepsLines loc) (hq : q.IsRunOrPause) :
    AddsLines ((r.moment q).form? Child.showing ≠ some .opened)
      ((r.moment q).form? Child.logging ≠ some .opened) r.journal (r.moment q).after.journal := by
  cases q with
  | run subgroup number body =>
    cases ha : r.admitted? subgroup number with
    | none =>
      obtain ⟨v, g, hm, -⟩ := moment_of_not_admitted ha body
      rw [hm]
      exact .refl _
    | some k =>
      cases hw : (r.registry.identity k).isWritable with
      | true => exact .of_writesLine (h.writesLine ha hw body)
      | false =>
        rw [(concludes_of_not_isWritable h ha hw body).2]
        exact .refl _
  | pause order =>
    obtain ⟨os, hpasses⟩ := Supervision.Host.passes_elapse order h.homely.host.strays
    have hjournal : (r.moment (.pause order)).after.journal = r.journal.enterAll (os.map .other) :=
      hpasses.journal
    have hproper : ∀ e ∈ os.map Entry.other, e.Fits r.journal := by
      intro e he
      obtain ⟨o, ho, rfl⟩ := List.mem_map.mp he
      have hidle : (Entry.other o).Idle loc := hpasses.plain o ho
      exact hidle.proper.fits h.homely.host.log
    have houtcomes := Other.outcomes_of_plain hpasses.plain
    refine ⟨fun _ => ⟨os.flatMap Other.chunks, ?_, fun colored => .of_chunks colored houtcomes.1⟩,
      fun _ old hold => ⟨String.join (os.flatMap Other.texts), ?_, .of_outcomes houtcomes.2⟩⟩
    · rw [hjournal, Journal.items_enterAll h.homely.settled, List.flatMap_map]
      rfl
    · rw [hjournal, Journal.logText_enterAll h.homely.settled hproper, Option.mem_def.mp hold,
        List.map_map, ← Other.join_logged]
      rfl
  | _ => cases hq

/-- **Whole lines**: a session that leaves no line open adds whole lines. -/
theorem KeepsLines.addsLines_served : ∀ (qs : List Request) {r : Rig}, r.KeepsLines loc →
    (∀ q ∈ qs, q.IsRunOrPause) →
    AddsLines (∀ m ∈ r.session qs, m.form? Child.showing ≠ some .opened)
      (∀ m ∈ r.session qs, m.form? Child.logging ≠ some .opened) r.journal (r.served qs).journal
  | [], r, _, _ => .refl _
  | q :: qs, r, h, hqs => by
    have hone := h.addsLines (hqs q List.mem_cons_self)
    have hrest := addsLines_served qs (h.moment q) fun q' hq' => hqs q' (List.mem_cons_of_mem _ hq')
    have hmem : r.moment q ∈ r.session (q :: qs) := List.mem_cons_self
    have htail : ∀ m ∈ (r.moment q).after.session qs, m ∈ r.session (q :: qs) := fun _ hm =>
      List.mem_cons_of_mem _ hm
    have hone' : AddsLines (∀ m ∈ r.session (q :: qs), m.form? Child.showing ≠ some .opened)
        (∀ m ∈ r.session (q :: qs), m.form? Child.logging ≠ some .opened) r.journal
        (r.moment q).after.journal :=
      ⟨fun hs => hone.console (hs _ hmem), fun hl => hone.log (hl _ hmem)⟩
    exact hone'.trans ⟨fun hs => hrest.console fun m hm => hs m (htail m hm),
      fun hl => hrest.log fun m hm => hl m (htail m hm)⟩

/-- **The lines of a session** of runs, on a rig without notes that writes the names of its tests and
starts no programs, whatever the bodies, the dumper and the calls that fail, whenever things happen, and
with time going by between the runs.  A test about which a verdict is returned or a complaint is raised
has written its line: its name, and what stands behind it.  If no line stays open on the console, or in
the log, whole lines have been written there. -/
theorem lines_of_session {s : Setup} {r : Rig} (hset : Rig.set s = .ok r)
    (hmode : r.configuration.direct = true ∧ r.configuration.named = true ∨
      r.configuration.direct = false ∧ r.strategy = .fork)
    (hverbose : r.configuration.verbose = false) (qs : List Request)
    (hqs : ∀ q ∈ qs, q.IsRunOrPause) :
    (∀ m ∈ r.session qs, ∀ k, m.admitted? = some k → m.concludes →
      m.WritesLine (m.before.registry.identity k)) ∧
    ((∀ m ∈ r.session qs, m.form? Child.showing ≠ some .opened) →
      EndsLine (r.served qs).journal.consoleText) ∧
    ((∀ m ∈ r.session qs, m.form? Child.logging ≠ some .opened) → ∀ old ∈ r.journal.logText,
      ∃ t, (r.served qs).journal.logText = some (old ++ t) ∧ EndsLine t) := by
  have hfresh := fresh_of_set hset
  have hhome : r.StaysHome := hmode.imp And.left And.right
  have hlines : r.KeepsLines (r.journal.log.map (·.location)) := by
    refine ⟨hfresh.homely hhome, hfresh.verbose.trans hverbose, fun hd => ?_⟩
    rcases hmode with ⟨-, hn⟩ | ⟨hd', -⟩
    · exact hn
    · rw [hd] at hd'
      cases hd'
  have hadds := KeepsLines.addsLines_served qs hlines hqs
  refine ⟨?_, fun ho => ?_, hadds.log⟩
  · refine forall_mem_session (I := KeepsLines _) (C := fun _ => True) ?_
      (fun r q h _ => h.moment q) qs r hlines fun _ _ => trivial
    intro r q h _ k hk hc
    obtain ⟨subgroup, number, body, rfl, ha⟩ := run_of_admitted? hk
    cases hw : (r.registry.identity k).isWritable with
    | true => exact h.writesLine ha hw body
    | false => rw [(concludes_of_not_isWritable h ha hw body).1] at hc; cases hc
  · obtain ⟨cs, hitems, hends⟩ := hadds.console ho
    have hnone : r.journal.console.items = [] := by rw [hfresh.console]; rfl
    rw [hnone, List.nil_append] at hitems
    simpa only [Journal.consoleText, Journal.textFrom, hitems, List.drop_zero] using hends _

/-- A test that cannot be killed at its time limit leaves its line open. -/
theorem lines_of_session_kill : ∃ r,
    Rig.set { Setup.bare ["t"] with faults := { kill := .always (some (.of .systemError "refused")) } } =
      .ok r ∧
    (r.served [.run "s" (.int 1) fun _ => .left .endless]).journal.console.items =
      [.text "g.s.1: "] := by
  obtain ⟨r, hr, hd, hf, hverbose, ha, hname, hc, hform, hitems, hstrays⟩ := exists_set
    (s := { Setup.bare ["t"] with faults := { kill := .always (some (.of .systemError "refused")) } })
    (p := fun r => r.configuration.direct = false ∧ r.strategy = .fork ∧
      r.configuration.verbose = false ∧ r.admitted? "s" (.int 1) = some ("s", 1) ∧
      (r.registry.identity ("s", 1)).name = "g.s.1" ∧
      (r.moment (.run "s" (.int 1) fun _ => .left .endless)).concludes = true ∧
      (r.moment (.run "s" (.int 1) fun _ => .left .endless)).form? Child.showing = some .opened ∧
      r.journal.console.items = [] ∧ r.host.strays = []) (by decide +kernel)
  have hline := (lines_of_session hr (Or.inr ⟨hd, hf⟩) hverbose
    [.run "s" (.int 1) fun _ => .left .endless] (by simp [Request.IsRunOrPause])).1 _
      List.mem_cons_self _ ha hc
  obtain ⟨form, others, cs, hform', hconsole, -, halone, htail⟩ := hline.console
  obtain rfl : form = .opened := Option.some.inj (hform'.symm.trans hform)
  obtain rfl : others = [] := halone hstrays
  cases htail
  refine ⟨r, hr, ?_⟩
  show (r.moment (.run "s" (.int 1) fun _ => .left .endless)).after.journal.console.items = _
  rw [hconsole, show (Rig.moment _ _).before = r from rfl, hitems, hname]
  rfl

end Rig

end TestRig
