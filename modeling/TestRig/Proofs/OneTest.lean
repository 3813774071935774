import TestRig.Proofs.Performance
import TestRig.Proofs.Reinvocation
import TestRig.Proofs.Selection

/-!
# TestRig.Proofs.OneTest — a program that is started again for one test

The options for one test select that test by its name, and make a rig run it in its own process and
without its name in front of its outcome.  Of all calls that such a rig gets it runs the first one for
that test; the others are left out, before it because their tests are not selected, behind it because
the selection is used up.

* `Rig.session_of_unselected`: calls that are left out change nothing.
* `Rig.Awaits`: a rig in which only one test is selected, and it has not come yet.
* `Rig.Awaits.runsOnly`: what comes of a list of calls to such a rig.
* `Rig.child_runs_one`: the rig that is set up from the options for one test is such a rig.
-/

namespace TestRig

open Journal (Entry)

namespace Rig

variable {r : Rig} {test : Identity} {body : Body}

/-! ## Calls that are left out -/

/-- A call for the test with a key, with its body. -/
abbrev Call := Key × Body

def Call.request (c : Call) : Request := .run c.1.1 (.int c.1.2) c.2

/-- A call that returns nothing and changes nothing. -/
def leftOut (r : Rig) (c : Call) : Moment := ⟨r, c.request, .ran (.ok none), r⟩

theorem moment_of_unselected {c : Call} (h : r.registry.isSelected c.1 = false) :
    r.moment c.request = r.leftOut c := by
  have hrun : r.run c.1.1 (.int c.1.2) c.2 = (.ok none, r) := by
    show r.runKey c.1 c.2 = _
    rcases r.registry.enroll_cases c.1 with ⟨-, he⟩ | ⟨hs, -⟩ | ⟨hs, -⟩
    · simp only [runKey, he]
    · rw [h] at hs; cases hs
    · rw [h] at hs; cases hs
  simp only [Rig.moment, Request.serve, Call.request, leftOut, hrun]

/-- Calls for tests that are not selected change nothing. -/
theorem session_of_unselected : ∀ {cs : List Call}, (∀ c ∈ cs, r.registry.isSelected c.1 = false) →
    r.session (cs.map Call.request) = cs.map r.leftOut ∧ r.served (cs.map Call.request) = r
  | [], _ => ⟨rfl, rfl⟩
  | c :: cs, h => by
    have hc := moment_of_unselected (h c List.mem_cons_self)
    obtain ⟨hsession, hserved⟩ := session_of_unselected fun c' hc' => h c' (List.mem_cons_of_mem _ hc')
    have hafter : (r.moment c.request).after = r := congrArg Moment.after hc
    refine ⟨?_, ?_⟩
    · rw [List.map_cons, session, hafter, hsession, hc, List.map_cons]
    · show (r.moment c.request).after.served _ = r
      rw [hafter, hserved]

/-! ## A rig that awaits one test -/

/-- Nothing has run in a rig, only one test is selected, and it will run in this process and write
nothing but its outcome. -/
structure Awaits (r : Rig) (test : Identity) : Prop where
  group : r.registry.group = test.group
  selective : r.registry.selective = true
  selection : ∀ k, k ∈ r.registry.selection ↔ k = test.key
  pending : test.key ∉ r.registry.haveRun
  direct : r.configuration.direct = true
  unnamed : r.configuration.named = false
  home : r.host.Home (r.journal.log.map (·.location))
  console : r.journal.console.items = []
  executed : r.executed = 0
  passed : r.passed = 0
  writable : test.isWritable = true

theorem Awaits.unselected (h : r.Awaits test) {k : Key} (hk : k ≠ test.key) :
    r.registry.isSelected k = false :=
  Registry.isSelected_eq_false.mpr ⟨h.selective, fun hmem => hk ((h.selection k).mp hmem)⟩

theorem Awaits.admitted (h : r.Awaits test) :
    r.admitted? test.subgroup (.int test.number) = some test.key := by
  refine admitted?_eq_some.mpr ⟨rfl, rfl, ?_, h.pending⟩
  have hmem : test.key ∈ r.registry.selection := (h.selection _).mpr rfl
  simp [Registry.isSelected, hmem]

/-- When the test has been admitted nothing is selected any more. -/
theorem Awaits.exhausted (h : r.Awaits test) (k : Key) :
    k ∉ (r.enter test.key).registry.selection := by
  show k ∉ (r.registry.spend test.key).selection
  rw [Registry.mem_spend fun _ _ => h.selective, h.selection]
  exact fun hk => hk.2 hk.1

/-- The call for the test: its body is judged, and only its outcome is written. -/
theorem Awaits.moment (h : r.Awaits test) (body : Body) :
    let v := (Classifier.report r.dumper test.name (body r.arguments)).1.map (·.passed)
    ∃ host, r.moment (Call.request (test.key, body)) =
        ⟨r, Call.request (test.key, body), .ran (v.map some),
          { r.enter test.key with host, passed := points v }⟩ ∧
      host.journal = r.journal.enterAll (r.reported test body) := by
  intro v
  have hid : r.registry.identity test.key = test := by
    rw [Registry.identity, h.group]
    rfl
  obtain ⟨others, host, -, hcomes, hrun⟩ := run_comes ⟨Or.inl h.direct, h.home⟩ h.admitted body
  rw [hid] at hrun hcomes
  have hverdict : r.verdict test body = v := by simp [Rig.verdict, h.writable, h.direct, v]
  have hwrote : r.wrote test body others = r.reported test body := by
    simp [Rig.wrote, h.writable, h.direct, h.unnamed]
  rw [hverdict, h.passed, Nat.zero_add] at hrun
  refine ⟨host, ?_, hwrote ▸ hcomes.journal⟩
  show Moment.mk r _ (.ran (r.run test.subgroup (.int test.number) body).1)
    (r.run test.subgroup (.int test.number) body).2 = _
  rw [hrun]

/-- What a rig has done that has run one test, where `v` is the verdict on it: the outcome is all that
it has written and will write when it is closed, and it makes the exit code. -/
structure Ran (r r' : Rig) (v : Verdict) : Prop where
  executed : r'.executed = 1
  written : ∃ b, v.text = .ok b ∧ r'.close.journal.console.items = [.outcome b] ∧
    r'.journal.logText = r.journal.logText.map (· ++ b)
  closing : r'.close.journal.disk = r'.journal.disk
  exit : r'.exitStatus.code = v.exitCode

/-- A rig in which nothing is selected has nothing to report when it is closed. -/
theorem journal_close_of_unselected (hs : r.journal.Settled) (hsel : r.registry.selection.keys = []) :
    r.close.journal.console = r.journal.console ∧ r.close.journal.disk = r.journal.disk := by
  have hunrun : r.registry.unrun = [] := by
    simp [Registry.unrun, KeySet.sorted, Key.sort, hsel]
  unfold close
  split
  · exact ⟨rfl, rfl⟩
  · show ((r.registry.unrun.map _).foldl Journal.error r.journal).close.console = _ ∧
      ((r.registry.unrun.map _).foldl Journal.error r.journal).close.disk = _
    rw [hunrun, List.map_nil, List.foldl_nil, Journal.close, hs.flush]
    exact ⟨rfl, rfl⟩

theorem Awaits.ran (h : r.Awaits test) {v : Verdict} {b : String} {host : Supervision.Host}
    (hb : v.text = .ok b) (hj : host.journal = r.journal.enterAll [.outcome b]) :
    r.Ran { r.enter test.key with host, passed := points (.ok v.passed) } v := by
  have hsettled₀ : r.journal.Settled := h.home.settled
  let r' : Rig := { r.enter test.key with host, passed := points (.ok v.passed) }
  have hsettled : r'.journal.Settled := by
    show host.journal.Settled
    rw [hj]
    exact Journal.settled_enterAll hsettled₀ _
  have hsel : r'.registry.selection.keys = [] := List.eq_nil_iff_forall_not_mem.mpr h.exhausted
  obtain ⟨hconsole, hdisk⟩ := journal_close_of_unselected hsettled hsel
  have hexecuted : r'.executed = 1 := congrArg (· + 1) h.executed
  refine ⟨hexecuted, ⟨b, hb, ?_, ?_⟩, hdisk, ?_⟩
  · rw [hconsole]
    show host.journal.console.items = _
    rw [hj, Journal.items_enterAll hsettled₀, h.console]
    rfl
  · show host.journal.logText = _
    rw [hj, Journal.logText_enterAll hsettled₀ (fun e he => ?_)]
    · simp [Entry.logged]
    · obtain rfl := List.mem_singleton.mp he
      trivial
  · have hsize : r'.registry.selection.size = 0 := by rw [KeySet.size, hsel, List.length_nil]
    have hfailed : r'.failed = 1 - points (.ok v.passed) := by
      rw [failed, count, hexecuted, hsize]
    show r'.exitStatus.code = _
    unfold exitStatus Verdict.exitCode Verdict.status
    rw [hfailed]
    cases v.passed <;> rfl

/-! ## A list of calls -/

/-- Calls of which one, with this body, is for the test. -/
def around (test : Identity) (before : List Call) (body : Body) (after : List Call) : List Request :=
  (before ++ (test.key, body) :: after).map Call.request

/-- What comes of such calls if only that one runs a test: its body is judged, and the other calls
return nothing and change nothing. -/
structure RunsOnly (r : Rig) (test : Identity) (before : List Call) (body : Body)
    (after : List Call) (v : Verdict) : Prop where
  judged : Classifier.classify r.dumper test.name (body r.arguments) = .ok v
  answers : (r.session (around test before body after)).map (·.answer) =
    before.map (fun _ => .ran (.ok none)) ++
      .ran (.ok (some v.passed)) :: after.map fun _ => .ran (.ok none)
  skipped : ∀ m ∈ r.session (around test before body after), m.skipped → m.after = m.before
  ran : r.Ran (r.served (around test before body after)) v

/-- The calls before the one for the test and behind it are left out, whatever their bodies are. -/
theorem Awaits.session_around (h : r.Awaits test) (body : Body) {before : List Call}
    (hbefore : ∀ c ∈ before, c.1 ≠ test.key) (after : List Call) :
    let m := r.moment (Call.request (test.key, body))
    r.session (around test before body after) =
      before.map r.leftOut ++ m :: after.map m.after.leftOut ∧
    r.served (around test before body after) = m.after := by
  intro m
  obtain ⟨hsession, hserved⟩ := session_of_unselected fun c hc => h.unselected (hbefore c hc)
  have hafter : ∀ c ∈ after, m.after.registry.isSelected c.1 = false := by
    intro c _
    obtain ⟨host, hmoment, -⟩ := h.moment body
    rw [show m = _ from hmoment]
    exact Registry.isSelected_eq_false.mpr ⟨(r.registry.spend_selective test.key).trans h.selective,
      h.exhausted c.1⟩
  obtain ⟨hsession', hserved'⟩ := session_of_unselected hafter
  rw [around, List.map_append, List.map_cons, session_append, served_append, hsession, hserved,
    session, hsession']
  exact ⟨rfl, hserved'⟩

/-- **Of all calls the first one for the test is run**, if no call raises anything. -/
theorem Awaits.runsOnly (h : r.Awaits test) {before after : List Call}
    (hbefore : ∀ c ∈ before, c.1 ≠ test.key)
    (hcalm : ∀ m ∈ r.session (around test before body after), m.raised = false) :
    ∃ v, r.RunsOnly test before body after v := by
  obtain ⟨hsession, hserved⟩ := h.session_around body hbefore after
  obtain ⟨host, hmoment, hj⟩ := h.moment body
  generalize r.moment (Call.request (test.key, body)) = m at hsession hserved hmoment
  -- the call itself raises nothing, so there is a verdict and it has a text
  obtain ⟨v, b, hv, hb⟩ : ∃ v b, Classifier.classify r.dumper test.name (body r.arguments) = .ok v ∧
      v.text = .ok b := by
    have hraised := hcalm m (by simp [hsession])
    rw [hmoment] at hraised
    unfold Classifier.report at hraised
    cases hc : Classifier.classify r.dumper test.name (body r.arguments) with
    | error x => simp [Moment.raised, hc, Except.map] at hraised
    | ok v => cases hb : v.text with
      | ok b => exact ⟨v, b, rfl, hb⟩
      | error x => simp [Moment.raised, hc, hb, Except.map] at hraised
  have hreport : Classifier.report r.dumper test.name (body r.arguments) = (.ok v, some b) := by
    simp only [Classifier.report, hv, hb]
  have hreported : r.reported test body = [.outcome b] := by
    simp [reported, Classifier.reportEntries, hreport]
  have hanswer : m.answer = .ran (.ok (some v.passed)) := by rw [hmoment, hreport]; rfl
  refine ⟨v, hv, ?_, fun m' hm' hskipped => ?_, ?_⟩
  · rw [hsession, List.map_append, List.map_cons, List.map_map, List.map_map, hanswer]
    rfl
  · rw [hsession, List.mem_append, List.mem_cons, List.mem_map, List.mem_map] at hm'
    rcases hm' with ⟨c, -, rfl⟩ | rfl | ⟨c, -, rfl⟩
    · rfl
    · simp [Moment.skipped, hanswer] at hskipped
    · rfl
  · rw [hserved, hmoment, hreport]
    exact h.ran hb (hreported ▸ hj)

/-! ## The options for one test -/

/-- All named values that have been stored are texts. -/
theorem none_not_mem_of_stored : ∀ {ws : List Options.Word} {a a' : Arguments},
    storeArguments a ws = .ok a' → none ∉ ws
  | [], _, _, _ => List.not_mem_nil
  | none :: ws, a, a', h => nomatch h
  | some w :: ws, a, a', h => by
    obtain ⟨a₁, -, h⟩ := bind_eq_ok.mp h
    simpa using none_not_mem_of_stored h

/-- The name of a test selects it, without blanks in the wrong places. -/
theorem selectTests_name {group : String} (hgroup : group = test.group)
    (hfirst : ∀ x ∈ test.group.toList.head?, Text.isBlank x = false)
    (hlast : ∀ x ∈ test.subgroup.toList.getLast?, Text.isBlank x = false)
    (hn : test.number < 10 ^ Text.maxDigits) :
    selectTests (Registry.ofGroup group) [some test.name] =
      .ok ((Registry.ofGroup group).choose test.key) := by
  have hspec := Registry.readSpec_of_trimmed (r := Registry.ofGroup group) hgroup hfirst hlast hn
  simp only [selectTests, Registry.select, hspec]

theorem exists_openLog (colored verbose : Bool) {d : Disk} : ∀ {l : Option Path},
    (∀ p ∈ l, ∃ x, d.openToAppend p = .ok x) → ∃ j, Journal.openLog colored verbose d l = .ok j
  | none, _ => ⟨_, rfl⟩
  | some p, h => by
    obtain ⟨⟨l, d'⟩, hx⟩ := h p rfl
    refine ⟨{ colored, verbose, disk := d', log := some { location := l } }, ?_⟩
    simp only [Journal.openLog, hx]

/-- What is set up for one test awaits it. -/
theorem awaits_assemble {s : Setup} {c : Configuration} {a : Arguments} {j : Journal}
    (h : Rig.set s = .ok (assemble s (c.forTest test) a
      ((Registry.ofGroup s.group).choose test.key) j))
    (hgroup : s.group = test.group) (hn : test.number < 10 ^ Text.maxDigits) :
    (assemble s (c.forTest test) a ((Registry.ofGroup s.group).choose test.key) j).Awaits test where
  group := hgroup
  selective := rfl
  selection := fun k => by simp [assemble, Registry.choose, Registry.ofGroup]
  pending := KeySet.not_mem_empty _
  direct := rfl
  unnamed := rfl
  home := ((fresh_of_set h).homely (Or.inl rfl)).host
  console := by rw [(fresh_of_set h).console]; rfl
  executed := rfl
  passed := rfl
  writable := Identity.isWritable_iff.mpr hn

/-- **A program that is started again for one test runs that test and nothing else.**  A rig has been
set up; the group of the test is the rig's own and begins with no blank and no dash, its subgroup ends
in no blank, its number can be written, and no named value and no path of a log begins with a dash or
is a blank path.  Then its options for the test are texts, and a rig that is set up from them has the
same named values; of all calls for tests, as long as none raises anything, it runs the first one for
the test and leaves the others out, and writes the outcome of that one and nothing else.  Only if the
time limit of the first rig was dropped no rig is set up from them. -/
theorem child_runs_one {s : Setup} {parent : Rig} {program : String} {words : List String}
    (h : Rig.set s = .ok parent) (hargv : s.argv = program :: words) (hgroup : s.group = test.group)
    (hfirst : ∀ x ∈ test.group.toList.head?, Text.isBlank x = false ∧ x ≠ '-')
    (hlast : ∀ x ∈ test.subgroup.toList.getLast?, Text.isBlank x = false)
    (hn : test.number < 10 ^ Text.maxDigits)
    (hargs : ∀ a ∈ parent.configuration.arguments, ∀ w ∈ a, Configuration.Undashed w)
    (hlog : ∀ p ∈ parent.configuration.logFile,
      Text.isBlankText p.text = false ∧ Configuration.Undashed p.text) :
    ∃ ws, parent.configuration.childArgv test = ws.map some ∧
      ∀ s' : Setup, s'.group = s.group → s'.argv = program :: ws →
        (parent.configuration.timeout = none → ∃ m, Rig.set s' = .error (.stopped (.misuse m))) ∧
        (parent.configuration.timeout ≠ none →
          (∀ p ∈ parent.configuration.logFile, ∃ x, s'.disk.openToAppend p = .ok x) →
          ∃ child, Rig.set s' = .ok child ∧ child.arguments = parent.arguments ∧
            ∀ before body after, (∀ c ∈ before, c.1 ≠ test.key) →
              (∀ m ∈ child.session (around test before body after), m.raised = false) →
              ∃ v, child.RunsOnly test before body after v) := by
  obtain ⟨c, a, g, j, hc, ha, -, -, rfl⟩ := set_eq_ok.mp h
  obtain ⟨ws, hws⟩ := Configuration.exists_texts
    (Configuration.none_not_mem_childArgv (none_not_mem_of_stored ha) test)
  refine ⟨ws, hws, fun s' hgroup' hargv' => ?_⟩
  rw [hargv] at hc
  have hlegible := Configuration.legible_of_ofWords hc
  have hread : Configuration.ofArgv s'.argv =
      Configuration.ofWords (Path.ofString program) (c.childArgv test) := by
    rw [hargv', hws]
    rfl
  constructor
  · intro ht
    obtain ⟨m, hm⟩ := (Configuration.spoils_childArgv hlegible test ht).ofWords
    refine ⟨m, ?_⟩
    rw [Rig.set, hread, hm]
    rfl
  · intro ht hopen
    have hclear : c.Clear test := ⟨hlog, hargs, Configuration.undashed_name fun hd => (hfirst _ hd).2 rfl⟩
    rw [Configuration.ofWords_childArgv hlegible ht hclear] at hread
    have hselected := selectTests_name (hgroup'.trans hgroup) (fun x hx => (hfirst x hx).1) hlast hn
    obtain ⟨j', hj'⟩ := exists_openLog s'.terminal false hopen
    have hset := set_eq_ok.mpr ⟨c.forTest test, a, _, j', hread, ha, hselected, hj', rfl⟩
    exact ⟨_, hset, rfl, fun before body after => (awaits_assemble hset (hgroup'.trans hgroup) hn).runsOnly⟩

/-- Of three calls the second one is for the test; the third one comes too late. -/
theorem child_runs_one_second : ∃ parent child v,
    Rig.set (.bare ["t", "-A", "x=1", "-v"]) = .ok parent ∧
    Rig.set (.bare ["t", "-A", "x=1", "-t", "5000", "-d", "--no-prefix", "-r", "g.s.1"]) = .ok child ∧
    child.arguments = parent.arguments ∧
    child.RunsOnly ⟨"g", "s", 1⟩ [(("s", 2), fun _ => .returned)]
      (fun _ => .raised (.of .testFailure "no")) [(("s", 1), fun _ => .returned)] v := by
  let test : Identity := ⟨"g", "s", 1⟩
  let argv := ["-A", "x=1", "-t", "5000", "-d", "--no-prefix", "-r", "g.s.1"]
  obtain ⟨parent, hparent, ht, hlog, hargs, hwords⟩ := exists_set (s := .bare ["t", "-A", "x=1", "-v"])
    (p := fun r => r.configuration.timeout ≠ none ∧ r.configuration.logFile = none ∧
      (∀ a ∈ r.configuration.arguments, ∀ w ∈ a, Configuration.Undashed w) ∧
      r.configuration.childArgv test = argv.map some) (by decide +kernel)
  obtain ⟨child, hchild, hcalm⟩ := exists_set (s := .bare ("t" :: argv))
    (p := fun r => ∀ m ∈ r.session (around test [(("s", 2), fun _ => .returned)]
      (fun _ => .raised (.of .testFailure "no")) [(("s", 1), fun _ => .returned)]), m.raised = false)
    (by decide +kernel)
  have hfirst : ∀ x ∈ test.group.toList.head?, Text.isBlank x = false ∧ x ≠ '-' := by
    intro x hx
    rw [show test.group.toList.head? = some 'g' by decide] at hx
    cases hx
    decide
  have hlast : ∀ x ∈ test.subgroup.toList.getLast?, Text.isBlank x = false := by
    intro x hx
    rw [show test.subgroup.toList.getLast? = some 's' by decide] at hx
    cases hx
    decide
  obtain ⟨ws, hws, hrun⟩ := child_runs_one hparent rfl (show _ = test.group from rfl) hfirst hlast
    (Identity.isWritable_iff.mp (by decide +kernel)) hargs (by simp [hlog])
  obtain rfl : argv = ws :=
    (List.map_inj_right fun _ _ => Option.some.inj).mp (hwords.symm.trans hws)
  obtain ⟨child', hchild', harguments, honly⟩ := (hrun (.bare ("t" :: argv)) rfl rfl).2 ht (by simp [hlog])
  obtain rfl : child = child' := Except.ok.inj (hchild.symm.trans hchild')
  obtain ⟨v, hv⟩ := honly _ _ _ (by decide) hcalm
  exact ⟨parent, child, v, hparent, hchild, harguments, hv⟩

end Rig

end TestRig
