import TestRig.Proofs.OneTest
import TestRig.Proofs.Writing

/-!
# TestRig.Proofs.Order — the order in which tests come

A call for a test depends on the rig only through what no other call changes: its options, its named
values, and whether the test's own key is selected and has run; and on the course that its process takes.
So a call comes to the same wherever it stands among calls for other tests, and what many calls leave
is a sum over them.

* `Rig.Steady`: a rig in which nothing fails, running its tests in its own process or in copies of it.
* `Rig.Drifts`: what calls for other tests leave of a rig, as far as one test goes.
* `Rig.CallComes`: what one call comes to.
* `Rig.placed`: a call among others comes to what it would come to alone, in a process with its number and
  its course.
* `Rig.Tallied`: what a list of calls for different tests comes to.
* `Rig.session_perm`: any order of the calls comes to the same, but for the numbers of processes.
* `Rig.order_can_matter`: those numbers can differ, and more where processes take other courses.
-/

namespace TestRig

open Journal (Entry Other)
open Supervision (Fate Course Child)

/-! ## Keys that are used up -/

namespace Registry

variable {g : Registry} {j k : Key}

theorem isSelected_spend (hne : k ≠ j) : (g.spend j).isSelected k = g.isSelected k := by
  unfold spend
  cases hs : g.selective with
  | false => simp
  | true => simp [isSelected, consume, hs, hne]

theorem isSelected_enroll (hne : k ≠ j) : (g.enroll j).2.isSelected k = g.isSelected k := by
  rcases g.enroll_cases j with ⟨-, he⟩ | ⟨-, -, he⟩ | ⟨-, -, he⟩
  · rw [he]
  · rw [he]
    exact isSelected_spend hne
  · rw [he]
    exact isSelected_spend hne

/-- A key has run when it had, or when it has just been admitted. -/
theorem mem_haveRun_enroll : k ∈ (g.enroll j).2.haveRun ↔
    k ∈ g.haveRun ∨ (k = j ∧ g.isSelected j = true) := by
  rcases g.enroll_cases j with ⟨hs, he⟩ | ⟨hs, hj, he⟩ | ⟨hs, -, he⟩
  · simp [he, hs]
  · rw [he, spend_haveRun]
    constructor
    · exact Or.inl
    · rintro (h | ⟨rfl, -⟩)
      · exact h
      · exact hj
  · rw [he]
    simp [record, hs, or_comm]

/-- The entries of a selection that are left when a key has been asked for. -/
theorem keys_selection_enroll : (g.enroll j).2.selection.keys =
    if g.selective then g.selection.keys.filter (· != j) else g.selection.keys := by
  have hspend : (g.spend j).selection.keys =
      if g.selective then g.selection.keys.filter (· != j) else g.selection.keys := by
    unfold spend
    split
    · exact List.Nodup.erase_eq_filter g.selection.nodup j
    · rfl
  rcases g.enroll_cases j with ⟨hs, he⟩ | ⟨-, -, he⟩ | ⟨-, -, he⟩
  · obtain ⟨hsel, hj⟩ := isSelected_eq_false.mp hs
    rw [he, hsel, if_pos rfl, eq_comm, List.filter_eq_self]
    intro k hk
    have hne : k ≠ j := fun h => hj (h ▸ hk)
    simpa using hne
  · rw [he]
    exact hspend
  · rw [he]
    exact hspend

theorem selective_enroll : (g.enroll j).2.selective = g.selective := by
  rcases g.enroll_cases j with ⟨-, he⟩ | ⟨-, -, he⟩ | ⟨-, -, he⟩
  · rw [he]
  · rw [he]
    exact g.spend_selective j
  · rw [he]
    exact g.spend_selective j

/-- Asking for a key and then for others leaves of a selection what asking for all of them does. -/
theorem keys_left_enroll (ks : List Key) :
    (if (g.enroll j).2.selective then (g.enroll j).2.selection.keys.filter (· ∉ ks)
      else (g.enroll j).2.selection.keys) =
    if g.selective then g.selection.keys.filter (· ∉ j :: ks) else g.selection.keys := by
  rw [selective_enroll, keys_selection_enroll]
  cases g.selective with
  | false => rfl
  | true =>
    simp only [if_true, List.filter_filter]
    refine List.filter_congr fun k _ => ?_
    rw [Bool.eq_iff_iff]
    simp only [Bool.and_eq_true, decide_eq_true_eq, bne_iff_ne, ne_eq, List.mem_cons, not_or]
    exact and_comm

/-- A key has run behind a request for another key and requests for `ks`. -/
theorem haveRun_enroll_or {ks : List Key} (hj : j ∉ ks) :
    (k ∈ (g.enroll j).2.haveRun ∨ (k ∈ ks ∧ (g.enroll j).2.isSelected k = true)) ↔
    k ∈ g.haveRun ∨ (k ∈ j :: ks ∧ g.isSelected k = true) := by
  have hselected : k ∈ ks → (g.enroll j).2.isSelected k = g.isSelected k := fun hk =>
    isSelected_enroll fun heq => hj (heq ▸ hk)
  rw [mem_haveRun_enroll, List.mem_cons]
  constructor
  · rintro ((h | ⟨rfl, h⟩) | ⟨hk, h⟩)
    · exact Or.inl h
    · exact Or.inr ⟨Or.inl rfl, h⟩
    · exact Or.inr ⟨Or.inr hk, hselected hk ▸ h⟩
  · rintro (h | ⟨rfl | hk, h⟩)
    · exact Or.inl (Or.inl h)
    · exact Or.inl (Or.inr ⟨rfl, h⟩)
    · exact Or.inr ⟨hk, (hselected hk).trans h⟩

end Registry

/-! ## The number of a process -/

/-- The note about how the process of a test exited. -/
def exitNote (test : Identity) (pid : Nat) (code : Int) : String :=
  s!"{test.name}: child process {Text.showNat pid} exited with {Text.showInt code}"

/-- Such a note on the console. -/
def exitLine (test : Identity) (pid : Nat) (code : Int) : String :=
  s!"isotest: {exitNote test pid code}\n"

/-- Two lists of entries that are the same but for the number of the process in such a note at the
end. -/
def SameButProcess (test : Identity) (m n : Nat) (es fs : List Entry) : Prop :=
  es = fs ∨ ∃ ds code, es = ds ++ [.note (exitNote test m code)] ∧
    fs = ds ++ [.note (exitNote test n code)]

variable {test : Identity} {m n : Nat} {es fs : List Entry}

theorem sameButProcess_entries (f : Fate) (test : Identity) (m n : Nat) (own : List Entry)
    (part : Nat → List Other) (others : List Other) :
    SameButProcess test m n (f.entries test m own part others) (f.entries test n own part others) := by
  cases f with
  | ended s =>
    cases s with
    | killed x => exact Or.inl rfl
    | exited code =>
      have hentries : ∀ p, (Fate.ended (.exited code)).entries test p own part others =
          (([.note s!"running {test.name} in a forked process", .name test] ++ others.map .other ++ own) ++
            if code ≤ 1 then [] else [.outcome s!"FAIL (exit status {Text.showInt code})\n"]) ++
          [.note (exitNote test p code)] := fun p => (List.append_assoc _ _ _).symm
      exact Or.inr ⟨_, _, hentries m, hentries n⟩
  | _ => exact Or.inl rfl

theorem SameButProcess.logged (h : SameButProcess test m n es fs) :
    es.map Entry.logged = fs.map Entry.logged := by
  obtain rfl | ⟨ds, code, rfl, rfl⟩ := h
  · rfl
  · simp [Entry.logged]

theorem SameButProcess.chunks (h : SameButProcess test m n es fs) :
    es.flatMap (Entry.chunks false) = fs.flatMap (Entry.chunks false) := by
  obtain rfl | ⟨ds, code, rfl, rfl⟩ := h
  · rfl
  · simp [Entry.chunks]

theorem SameButProcess.text (h : SameButProcess test m n es fs) (colored verbose : Bool) :
    let text := fun es : List Entry => Chunk.renderAll colored (es.flatMap (Entry.chunks verbose))
    text fs = text es ∨ ∃ front code, text es = front ++ exitLine test m code ∧
      text fs = front ++ exitLine test n code := by
  intro text
  cases verbose with
  | false => exact Or.inl (congrArg (Chunk.renderAll colored) h.chunks.symm)
  | true =>
    obtain rfl | ⟨ds, code, rfl, rfl⟩ := h
    · exact Or.inl rfl
    · have htext : ∀ p, text (ds ++ [.note (exitNote test p code)]) =
          text ds ++ exitLine test p code := by
        intro p
        have hline : exitLine test p code = Chunk.render colored (.note (exitNote test p code)) := rfl
        simp [text, Chunk.renderAll, Entry.chunks, hline]
      exact Or.inr ⟨_, _, htext m, htext n⟩

theorem SameButProcess.refl (test : Identity) (m n : Nat) (es : List Entry) :
    SameButProcess test m n es es := Or.inl rfl

/-- Two moments that look the same: the same answer, the same text on the log, and the same text on
the console, but that the note at its end, if there is one, gives the number of another process. -/
structure Moment.Same (m m' : Moment) : Prop where
  answer : m'.answer = m.answer
  logged : ∃ t, m.after.journal.logText = m.before.journal.logText.map (· ++ t) ∧
    m'.after.journal.logText = m'.before.journal.logText.map (· ++ t)
  shown : m'.shown = m.shown ∨ ∃ k front code, m.admitted? = some k ∧
    m.shown = front ++ exitLine (m.before.registry.identity k) m.before.host.nextPid code ∧
    m'.shown = front ++ exitLine (m.before.registry.identity k) m'.before.host.nextPid code
  plain : m.before.configuration.direct = true ∨ m.before.journal.verbose = false →
    m'.shown = m.shown

namespace Rig

variable {r r' r'' : Rig} {k : Key} {c : Call} {loc : Option Location} {course : Key → Course}

/-! ## Rigs in which nothing fails -/

/-- Nothing fails in a rig that runs its tests in its own process or in copies of it, and no copy was
left behind. -/
structure Steady (loc : Option Location) (r : Rig) : Prop where
  homely : r.Homely loc
  alone : r.host.strays = []
  quiet : r.host.faults.Quiet
  descriptor : r.host.faults.descriptor.Succeed

/-- All that one test depends on has stayed as it was. -/
structure Drifts (r r' : Rig) (k : Key) : Prop where
  keeps : r.Keeps r'
  log : r'.journal.log.map (·.location) = r.journal.log.map (·.location)
  selected : r'.registry.isSelected k = r.registry.isSelected k
  haveRun : k ∈ r'.registry.haveRun ↔ k ∈ r.registry.haveRun

theorem Drifts.trans (h : r.Drifts r' k) (h' : r'.Drifts r'' k) : r.Drifts r'' k :=
  ⟨h.keeps.trans h'.keeps, h'.log.trans h.log, h'.selected.trans h.selected,
    h'.haveRun.trans h.haveRun⟩

/-! ## One call -/

/-- Is a test admitted now? -/
def admits (r : Rig) (k : Key) : Bool := r.registry.isSelected k && !decide (k ∈ r.registry.haveRun)

def verdictOn (r : Rig) (c : Call) : Except Halt Bool := r.verdict (r.registry.identity c.1) c.2

def answerTo (r : Rig) (c : Call) : Except Halt (Option Bool) :=
  if r.admits c.1 then (r.verdictOn c).map some
  else if r.registry.isSelected c.1 then
    .error (.ofException (Registry.Fault.duplicate (r.registry.identity c.1)).exception)
  else .ok none

def entriesOf (r : Rig) (c : Call) : List Entry :=
  if r.admits c.1 then r.wrote (r.registry.identity c.1) c.2 [] else []

def pointsOf (r : Rig) (c : Call) : Nat := if r.admits c.1 then points (r.verdictOn c) else 0

/-- What one call comes to: its answer, what is written, and what is counted. -/
structure CallComes (r : Rig) (c : Call) (m : Moment) : Prop where
  before : m.before = r
  request : m.request = c.request
  answer : m.answer = .ran (r.answerTo c)
  journal : m.after.journal = r.journal.enterAll (r.entriesOf c)
  registry : m.after.registry = (r.registry.enroll c.1).2
  executed : m.after.executed = r.executed + (r.admits c.1).toNat
  passed : m.after.passed = r.passed + r.pointsOf c
  /-- No copy is left behind by a call that returns. -/
  alone : (r.admits c.1 = true → ∃ b, r.verdictOn c = .ok b) → m.after.host.strays = []

theorem admitted?_of_admits (h : r.admits c.1 = true) :
    r.admitted? c.1.1 (.int c.1.2) = some c.1 := by
  simp only [admits, Bool.and_eq_true, Bool.not_eq_true', decide_eq_false_iff_not] at h
  exact admitted?_eq_some.mpr ⟨rfl, rfl, h.1, h.2⟩

theorem callComes (hs : r.Steady loc) (c : Call) : r.CallComes c (r.moment c.request) := by
  have hmoment : r.moment c.request = ⟨r, c.request, .ran (r.runKey c.1 c.2).1, (r.runKey c.1 c.2).2⟩ := rfl
  rw [hmoment]
  rcases r.registry.enroll_cases c.1 with ⟨hsel, he⟩ | ⟨hsel, hk, he⟩ | ⟨hsel, hk, he⟩
  · have hadmits : r.admits c.1 = false := by simp [admits, hsel]
    refine ⟨rfl, rfl, ?_, ?_, ?_, ?_, ?_, ?_⟩ <;>
      simp [runKey, he, answerTo, entriesOf, pointsOf, hadmits, hsel, journal, hs.alone]
  · have hadmits : r.admits c.1 = false := by simp [admits, hk]
    refine ⟨rfl, rfl, ?_, ?_, ?_, ?_, ?_, ?_⟩ <;>
      simp [runKey, he, answerTo, entriesOf, pointsOf, hadmits, hsel, journal, hs.alone]
  · have hadmits : r.admits c.1 = true := by simp [admits, hsel, hk]
    obtain ⟨others, host, hb, hcomes, hrun⟩ := run_comes hs.homely (admitted?_of_admits hadmits) c.2
    obtain rfl := hb.alone hs.alone
    have hkey : r.runKey c.1 c.2 = r.run c.1.1 (.int c.1.2) c.2 := rfl
    rw [hkey, hrun]
    refine ⟨rfl, rfl, ?_, ?_, ?_, ?_, ?_, fun hcalm => ?_⟩
    · simp [answerTo, verdictOn, hadmits]
    · rw [entriesOf, if_pos hadmits]
      exact hcomes.journal
    · simp [enter, he]
    · simp [enter, hadmits]
    · simp [pointsOf, verdictOn, hadmits]
    · obtain ⟨b, hb⟩ := hcalm hadmits
      exact hcomes.tidy hs.alone b hb

/-- A call that returns leaves all as it was that another test depends on. -/
theorem drifts_call (hs : r.Steady loc) (hne : k ≠ c.1) :
    r.Drifts (r.moment c.request).after k := by
  have hc := callComes hs c
  refine ⟨keeps_moment hs.homely c.request, ?_, ?_, ?_⟩
  · rw [hc.journal]
    exact (Journal.alike_enterAll _ _).log
  · rw [hc.registry]
    exact Registry.isSelected_enroll hne
  · rw [hc.registry, Registry.mem_haveRun_enroll]
    exact ⟨fun h => h.resolve_right fun h => hne h.1, Or.inl⟩

theorem Steady.moment (hs : r.Steady loc)
    (hcalm : r.admits c.1 = true → ∃ b, r.verdictOn c = .ok b) :
    (r.moment c.request).after.Steady loc :=
  have hkeeps := keeps_moment hs.homely c.request
  ⟨hs.homely.moment c.request, (callComes hs c).alone hcalm, hkeeps.faults.quiet hs.quiet,
    hkeeps.faults.descriptor.succeed hs.descriptor⟩

/-! ## What a call depends on -/

/-- The rig when the next process has this number and takes this course. -/
def placed (r : Rig) (pid : Nat) (k : Course) : Rig :=
  { r with host := { r.host with
      nextPid := pid, faults := { r.host.faults with courses := fun _ => k } } }

theorem Drifts.admits (h : r.Drifts r' k) : r'.admits k = r.admits k := by
  rw [Rig.admits, Rig.admits, h.selected, decide_eq_decide.mpr h.haveRun]

theorem Drifts.identity (h : r.Drifts r' k) : r'.registry.identity k = r.registry.identity k := by
  rw [Registry.identity, Registry.identity, h.keeps.group]

theorem Drifts.fate (h : r.Drifts r' k) (hs : r.Steady loc) (pid : Nat) {course : Course}
    (hk : r'.host.nextCourse = course) (test : Identity) (body : Body) :
    r'.fate test body = (r.placed pid course).fate test body := by
  have hopens : Fate.opens r'.host.faults = Fate.opens (r.placed pid course).host.faults := by
    have hnext : (r.placed pid course).host.faults.descriptor.next = none := hs.descriptor 0
    have hnext' : r'.host.faults.descriptor.next = none :=
      h.keeps.faults.descriptor.succeed hs.descriptor 0
    have hhas : r'.host.faults.hasDescriptors = (r.placed pid course).host.faults.hasDescriptors :=
      h.keeps.faults.hasDescriptors
    rw [Fate.opens, Fate.opens, hhas, hnext, hnext']
  have hquiet : (r.placed pid course).host.faults.Quiet :=
    ⟨hs.quiet.fork, hs.quiet.kill, hs.quiet.wait, hs.quiet.poll⟩
  rw [Rig.fate, Rig.fate, h.keeps.configuration, h.keeps.dumper, h.keeps.arguments]
  exact Fate.of_congr hquiet (h.keeps.faults.quiet hs.quiet) hopens hk _

/-- The course of a process matters only where tests run in copies of this one. -/
theorem Drifts.verdictOn (h : r.Drifts r' c.1) (hs : r.Steady loc) (pid : Nat) {course : Course}
    (hk : r.configuration.direct = false → r'.host.nextCourse = course) :
    r'.verdictOn c = (r.placed pid course).verdictOn c := by
  rw [Rig.verdictOn, Rig.verdictOn, Rig.verdict, Rig.verdict, h.identity, h.keeps.configuration,
    h.keeps.dumper, h.keeps.arguments]
  cases hd : r.configuration.direct with
  | true =>
    have hd' : (r.placed pid course).configuration.direct = true := hd
    rw [if_pos rfl, if_pos hd']
    rfl
  | false =>
    have hd' : (r.placed pid course).configuration.direct = false := hd
    rw [h.fate hs pid (hk hd), hd']
    rfl

/-- **A call is answered alike** when other tests have been called. -/
theorem Drifts.answerTo (h : r.Drifts r' c.1) (hs : r.Steady loc) (pid : Nat) {course : Course}
    (hk : r.configuration.direct = false → r.admits c.1 = true → r'.host.nextCourse = course) :
    r'.answerTo c = (r.placed pid course).answerTo c := by
  rw [Rig.answerTo, h.admits, h.selected, h.identity]
  show _ = if r.admits c.1 = true then _ else _
  split
  · rename_i ha
    rw [h.verdictOn hs pid fun hd => hk hd ha]
  · rfl

theorem Drifts.pointsOf (h : r.Drifts r' c.1) (hs : r.Steady loc) (pid : Nat) {course : Course}
    (hk : r.configuration.direct = false → r.admits c.1 = true → r'.host.nextCourse = course) :
    r'.pointsOf c = (r.placed pid course).pointsOf c := by
  rw [Rig.pointsOf, h.admits]
  show _ = if r.admits c.1 = true then _ else _
  split
  · rename_i ha
    rw [h.verdictOn hs pid fun hd => hk hd ha]
  · rfl

/-- A call writes the same about its test, in a process with its number. -/
theorem Drifts.entriesOf (h : r.Drifts r' c.1) (hs : r.Steady loc) {course : Course}
    (hk : r.configuration.direct = false → r.admits c.1 = true → r'.host.nextCourse = course) :
    r'.entriesOf c = (r.placed r'.host.nextPid course).entriesOf c := by
  rw [Rig.entriesOf, h.admits, h.identity]
  show _ = if r.admits c.1 = true then _ else _
  split
  · rename_i ha
    have hreported : ∀ test body, r'.reported test body = r.reported test body := by
      intro test body
      rw [reported, reported, h.keeps.dumper, h.keeps.arguments]
    have hcopy : ∀ test body, r'.copy test body =
        (r.placed r'.host.nextPid course).copy test body := by
      intro test body
      rw [copy, h.keeps.dumper, h.keeps.arguments, h.log]
      rfl
    rw [wrote, hreported, hcopy, h.keeps.configuration]
    cases hd : r.configuration.direct with
    | true =>
      have hd' : (r.placed r'.host.nextPid course).configuration.direct = true := hd
      rw [wrote, if_pos rfl, if_pos hd']
      rfl
    | false =>
      have hd' : (r.placed r'.host.nextPid course).configuration.direct = false := hd
      rw [wrote, h.fate hs r'.host.nextPid (hk hd ha), hd']
      rfl
  · rfl

/-- The number of its process makes no difference to a test but in a note. -/
theorem sameButProcess_entriesOf (r : Rig) (m n : Nat) (course : Course) (c : Call) :
    SameButProcess (r.registry.identity c.1) m n ((r.placed m course).entriesOf c)
        ((r.placed n course).entriesOf c) ∧
      (r.configuration.direct = true →
        (r.placed n course).entriesOf c = (r.placed m course).entriesOf c) := by
  let test := r.registry.identity c.1
  have hpart : ∀ p i, ((r.placed p course).copy test c.2).trace i = (r.copy test c.2).trace i :=
    fun p i => Child.trace_pid i (r.copy test c.2) p
  have hentries : ∀ p, (r.placed p course).entriesOf c = if r.admits c.1 then
      (if !test.isWritable then [] else if r.configuration.direct then
        (if r.configuration.named then [Entry.name test] else []) ++ r.reported test c.2
      else ((r.placed 0 course).fate test c.2).entries test p (r.reported test c.2)
        (fun i => (r.copy test c.2).trace i) []) else [] := by
    intro p
    rw [← funext (hpart p)]
    rfl
  rw [hentries, hentries]
  split
  · split
    · exact ⟨.refl _ _ _ _, fun _ => rfl⟩
    · split
      · exact ⟨.refl _ _ _ _, fun _ => rfl⟩
      · rename_i hd
        exact ⟨sameButProcess_entries _ _ _ _ _ _ _, fun h => absurd h hd⟩
  · exact ⟨.refl _ _ _ _, fun _ => rfl⟩

/-- What calls leave of a rig when every process takes one course. -/
theorem Drifts.placed (h : r.Drifts r' k) (m n : Nat) (course : Course) :
    (r.placed m course).Drifts (r'.placed n course) k :=
  ⟨⟨h.keeps.configuration, h.keeps.arguments, h.keeps.dumper, h.keeps.group, h.keeps.colored,
      h.keeps.verbose, h.keeps.settled, { h.keeps.faults with courses := ⟨0, fun _ => rfl⟩ }⟩,
    h.log, h.selected, h.haveRun⟩

theorem Steady.placed (h : r.Steady loc) (m : Nat) (course : Course) : (r.placed m course).Steady loc :=
  ⟨⟨h.homely.home, h.homely.host.settled, h.homely.host.log, h.homely.host.strays⟩, h.alone,
    ⟨h.quiet.fork, h.quiet.kill, h.quiet.wait, h.quiet.poll⟩, h.descriptor⟩

theorem Drifts.verdictOn_placed (h : r.Drifts r' c.1) (hs : r.Steady loc) (course : Course) :
    (r'.placed 0 course).verdictOn c = (r.placed 0 course).verdictOn c :=
  (h.placed 0 0 course).verdictOn (hs.placed 0 course) 0 fun _ => rfl

/-! ## Calls among others -/

theorem CallComes.shown {m : Moment} (h : r.CallComes c m) (hs : r.Steady loc) : m.shown =
    Chunk.renderAll r.journal.colored ((r.entriesOf c).flatMap (Entry.chunks r.journal.verbose)) := by
  rw [Moment.shown, h.before, h.journal, Journal.textFrom, Journal.items_enterAll hs.homely.settled,
    List.drop_left, (Journal.alike_enterAll _ _).colored]

theorem CallComes.logged {m : Moment} (h : r.CallComes c m) (hs : r.Steady loc) :
    m.after.journal.logText =
      m.before.journal.logText.map (· ++ String.join ((r.entriesOf c).map Entry.logged)) := by
  have hfits : ∀ e ∈ r.entriesOf c, e.Fits r.journal := by
    intro e he
    unfold entriesOf at he
    split at he
    · exact hs.homely.fits_wrote .none _ _ e he
    · cases he
  rw [h.before, h.journal, Journal.logText_enterAll hs.homely.settled hfits]

/-- The same rig where processes take other courses. -/
def timed (r : Rig) (courses : Nat → Course) : Rig :=
  { r with host := { r.host with faults := { r.host.faults with courses } } }

theorem Steady.timed (h : r.Steady loc) (courses : Nat → Course) : (r.timed courses).Steady loc :=
  ⟨⟨h.homely.home, h.homely.host.settled, h.homely.host.log, h.homely.host.strays⟩, h.alone,
    ⟨h.quiet.fork, h.quiet.kill, h.quiet.wait, h.quiet.poll⟩, h.descriptor⟩

/-- **A call comes to the same** behind different calls for other tests, if its process takes the same
course. -/
theorem Drifts.same {courses : Nat → Course} (h : r.Drifts r' c.1)
    (h' : (r.timed courses).Drifts r'' c.1) (hs : r.Steady loc)
    (hs' : r'.Steady loc) (hs'' : r''.Steady loc) {course : Course}
    (hk : r.configuration.direct = false → r.admits c.1 = true → r'.host.nextCourse = course)
    (hk' : r.configuration.direct = false → r.admits c.1 = true → r''.host.nextCourse = course) :
    (r'.moment c.request).Same (r''.moment c.request) := by
  have hc := callComes hs' c
  have hc' := callComes hs'' c
  have hcolored : r''.journal.colored = r'.journal.colored :=
    h'.keeps.colored.trans h.keeps.colored.symm
  have hverbose : r''.journal.verbose = r'.journal.verbose :=
    h'.keeps.verbose.trans h.keeps.verbose.symm
  obtain ⟨hentries, hdirect⟩ :=
    sameButProcess_entriesOf r r'.host.nextPid r''.host.nextPid course c
  have hentries' : r''.entriesOf c = (r.placed r''.host.nextPid course).entriesOf c :=
    h'.entriesOf (hs.timed courses) hk'
  have hanswer' : r''.answerTo c = (r.placed 0 course).answerTo c :=
    h'.answerTo (hs.timed courses) 0 hk'
  rw [← h.entriesOf hs hk, ← hentries'] at hentries hdirect
  refine ⟨?_, ⟨_, hc.logged hs', ?_⟩, ?_, fun hplain => ?_⟩
  · rw [hc'.answer, hc.answer, hanswer', h.answerTo hs 0 hk]
  · rw [hc'.logged hs'', hentries.logged]
  · rw [hc.shown hs', hc'.shown hs'', hcolored, hverbose]
    cases ha : r.admits c.1 with
    | false =>
      have ha' : r''.admits c.1 = false := h'.admits.trans ha
      have hnone : r'.entriesOf c = [] ∧ r''.entriesOf c = [] := by
        simp [Rig.entriesOf, h.admits, ha', ha]
      rw [hnone.1, hnone.2]
      exact Or.inl rfl
    | true =>
      refine (hentries.text r'.journal.colored r'.journal.verbose).imp_right ?_
      rintro ⟨front, code, hfront, hfront'⟩
      have hadmitted : (r'.moment c.request).admitted? = some c.1 :=
        admitted?_of_admits (h.admits.trans ha)
      refine ⟨c.1, front, code, hadmitted, ?_⟩
      show _ = front ++ exitLine (r'.registry.identity c.1) r'.host.nextPid code ∧
        _ = front ++ exitLine (r'.registry.identity c.1) r''.host.nextPid code
      rw [h.identity]
      exact ⟨hfront, hfront'⟩
  · rw [hc.shown hs', hc'.shown hs'', hcolored, hverbose]
    rcases hplain with hd | hv
    · have hd' : r'.configuration.direct = true := hd
      rw [hdirect (h.keeps.configuration ▸ hd')]
    · have hv' : r'.journal.verbose = false := hv
      rw [hv', hentries.chunks]

/-- The process of every admitted test takes the course that belongs to its key.  In a rig that runs its
tests in its own process there are no such processes. -/
def Follows (r : Rig) (course : Key → Course) (qs : List Request) : Prop :=
  r.configuration.direct = false →
    ∀ m ∈ r.session qs, ∀ k, m.admitted? = some k → m.before.host.nextCourse = course k

/-- No call is admitted for which something is raised. -/
def Calm (r : Rig) (course : Key → Course) (calls : List Call) : Prop :=
  ∀ c ∈ calls, r.admits c.1 = true → ∃ b, (r.placed 0 (course c.1)).verdictOn c = .ok b

theorem Follows.head {calls : List Call} {c : Call} (h : r.Follows course ((c :: calls).map Call.request)) :
    r.configuration.direct = false → r.admits c.1 = true → r.host.nextCourse = course c.1 :=
  fun hd ha => h hd _ List.mem_cons_self _ (admitted?_of_admits ha)

theorem Follows.tail {calls : List Call} {c : Call} (hs : r.Steady loc)
    (h : r.Follows course ((c :: calls).map Call.request)) :
    (r.moment c.request).after.Follows course (calls.map Call.request) := by
  intro hd
  rw [(keeps_moment hs.homely c.request).configuration] at hd
  exact fun m hm => h hd m (List.mem_cons_of_mem _ hm)

theorem Drifts.refl (hs : r.Steady loc) (k : Key) : r.Drifts r k :=
  ⟨.refl hs.homely.settled, rfl, rfl, Iff.rfl⟩

/-- **Calls that raise nothing are calm.** -/
theorem calm_of_session : ∀ {calls : List Call} {r : Rig}, r.Steady loc →
    (calls.map Prod.fst).Nodup → r.Follows course (calls.map Call.request) →
    (∀ m ∈ r.session (calls.map Call.request), m.admitted? ≠ none → m.raised = false) →
    r.Calm course calls
  | [], _, _, _, _, _ => fun _ hc => nomatch hc
  | c :: calls, r, hs, hk, hf, hm => by
    rw [List.map_cons, List.nodup_cons] at hk
    have hcalm : r.admits c.1 = true → ∃ b, r.verdictOn c = .ok b := by
      intro ha
      have hadmitted : (r.moment c.request).admitted? ≠ none := by
        show r.admitted? c.1.1 (.int c.1.2) ≠ none
        rw [admitted?_of_admits ha]
        exact Option.some_ne_none _
      have hraised := hm _ List.mem_cons_self hadmitted
      have hanswer := (callComes hs c).answer
      rw [answerTo, if_pos ha] at hanswer
      unfold Moment.raised at hraised
      rw [hanswer] at hraised
      cases hv : r.verdictOn c with
      | ok b => exact ⟨b, rfl⟩
      | error x => simp [hv, Except.map] at hraised
    intro c' hc' ha
    rcases List.mem_cons.mp hc' with rfl | hc'
    · rw [← (Drifts.refl hs c'.1).verdictOn hs 0 fun hd => hf.head hd ha]
      exact hcalm ha
    · have hne : c'.1 ≠ c.1 := fun heq => hk.1 (heq ▸ List.mem_map_of_mem hc')
      have hdrifts := drifts_call hs hne
      have hrest := calm_of_session (hs.moment hcalm) hk.2 (hf.tail hs)
        (fun m hm' => hm m (List.mem_cons_of_mem _ hm')) c' hc' (hdrifts.admits.trans ha)
      rwa [hdrifts.verdictOn_placed hs] at hrest

theorem Calm.head {calls : List Call} {c : Call} (hc : r.Calm course (c :: calls)) (hs : r.Steady loc)
    (hf : r.Follows course ((c :: calls).map Call.request)) (ha : r.admits c.1 = true) :
    ∃ b, r.verdictOn c = .ok b := by
  rw [(Drifts.refl hs c.1).verdictOn hs 0 fun hd => hf.head hd ha]
  exact hc c List.mem_cons_self ha

theorem Calm.tail {calls : List Call} {c : Call} (hc : r.Calm course (c :: calls)) (hs : r.Steady loc)
    (hk : c.1 ∉ calls.map Prod.fst) : (r.moment c.request).after.Calm course calls := by
  intro c' hc' ha
  have hne : c'.1 ≠ c.1 := fun heq => hk (heq ▸ List.mem_map_of_mem hc')
  have hdrifts := drifts_call hs hne
  rw [hdrifts.verdictOn_placed hs]
  exact hc c' (List.mem_cons_of_mem _ hc') (hdrifts.admits.symm.trans ha)

/-- The calls before one leave all as it was that it depends on. -/
theorem drifts_of_mem_session : ∀ {calls : List Call} {r : Rig}, r.Steady loc →
    (calls.map Prod.fst).Nodup → r.Follows course (calls.map Call.request) → r.Calm course calls →
    ∀ m ∈ r.session (calls.map Call.request), ∃ c ∈ calls, m = m.before.moment c.request ∧
      r.Drifts m.before c.1 ∧ m.before.Steady loc
  | [], _, _, _, _, _, _, hm => nomatch hm
  | c :: calls, r, hs, hk, hf, hc, m, hm => by
    rw [List.map_cons, List.nodup_cons] at hk
    rcases List.mem_cons.mp hm with rfl | hm
    · exact ⟨c, List.mem_cons_self, rfl, .refl hs _, hs⟩
    · obtain ⟨c', hc', hm', hdrifts, hsteady⟩ := drifts_of_mem_session (hs.moment (hc.head hs hf)) hk.2
        (hf.tail hs) (hc.tail hs hk.1) m hm
      have hne : c'.1 ≠ c.1 := fun heq => hk.1 (heq ▸ List.mem_map_of_mem hc')
      exact ⟨c', List.mem_cons_of_mem _ hc', hm', (drifts_call hs hne).trans hdrifts, hsteady⟩

/-- A call that is admitted has a process that takes the course of its key. -/
theorem Follows.nextCourse {qs : List Request} {m : Moment} (hf : r.Follows course qs)
    (hm : m ∈ r.session qs) (hmoment : m = m.before.moment c.request)
    (hdrifts : r.Drifts m.before c.1) (hd : r.configuration.direct = false)
    (ha : r.admits c.1 = true) : m.before.host.nextCourse = course c.1 := by
  refine hf hd m hm c.1 ?_
  rw [hmoment]
  exact admitted?_of_admits (hdrifts.admits.trans ha)

/-! ## What many calls leave -/

/-- What is counted for a call whose process takes the course of its key. -/
def pointsAt (r : Rig) (course : Key → Course) (c : Call) : Nat :=
  (r.placed 0 (course c.1)).pointsOf c

/-- What calls for different tests come to together. -/
structure Tallied (course : Key → Course) (r : Rig) (calls : List Call) (r' : Rig) : Prop where
  group : r'.registry.group = r.registry.group
  executed : r'.executed = r.executed + calls.countP fun c => r.admits c.1
  passed : r'.passed = r.passed + (calls.map (r.pointsAt course)).sum
  selective : r'.registry.selective = r.registry.selective
  selection : r'.registry.selection.keys = if r.registry.selective then
    r.registry.selection.keys.filter (· ∉ calls.map Prod.fst) else r.registry.selection.keys
  haveRun : ∀ k, k ∈ r'.registry.haveRun ↔ k ∈ r.registry.haveRun ∨
    (k ∈ calls.map Prod.fst ∧ r.registry.isSelected k = true)

theorem Tallied.nil (course : Key → Course) (r : Rig) : Tallied course r [] r := by
  refine ⟨rfl, rfl, rfl, rfl, ?_, fun k => ?_⟩
  · split
    · exact (List.filter_eq_self.mpr fun k _ => by simp).symm
    · rfl
  · simp

/-- One call, and behind it calls for other tests. -/
theorem Tallied.cons {calls : List Call} (hs : r.Steady loc) (hc : c.1 ∉ calls.map Prod.fst)
    (hf : r.Follows course ((c :: calls).map Call.request))
    (h : Tallied course (r.moment c.request).after calls r') : Tallied course r (c :: calls) r' := by
  have hcomes := callComes hs c
  have hdrifts : ∀ c' ∈ calls, r.Drifts (r.moment c.request).after c'.1 := fun c' hc' =>
    drifts_call hs fun heq => hc (heq ▸ List.mem_map_of_mem hc')
  refine ⟨h.group.trans (keeps_moment hs.homely c.request).group, ?_, ?_, ?_, ?_, fun k => ?_⟩
  · have hcount : calls.countP (fun c' => (r.moment c.request).after.admits c'.1) =
        calls.countP fun c' => r.admits c'.1 :=
      List.countP_congr fun c' hc' => by rw [(hdrifts c' hc').admits]
    calc r'.executed
        = (r.moment c.request).after.executed +
            calls.countP (fun c' => (r.moment c.request).after.admits c'.1) := h.executed
      _ = r.executed + (r.admits c.1).toNat + calls.countP fun c' => r.admits c'.1 := by
          rw [hcount, hcomes.executed]
      _ = r.executed + (c :: calls).countP fun c' => r.admits c'.1 := by
          rw [List.countP_cons]
          cases r.admits c.1 with
          | false => simp
          | true => simp; omega
  · have hone : r.pointsOf c = r.pointsAt course c := (Drifts.refl hs c.1).pointsOf hs 0 hf.head
    have hpoints : calls.map ((r.moment c.request).after.pointsAt course) = calls.map (r.pointsAt course) :=
      List.map_congr_left fun c' hc' =>
        ((hdrifts c' hc').placed 0 0 _).pointsOf (hs.placed 0 _) 0 fun _ _ => rfl
    calc r'.passed
        = (r.moment c.request).after.passed +
            (calls.map ((r.moment c.request).after.pointsAt course)).sum := h.passed
      _ = r.passed + r.pointsAt course c + (calls.map (r.pointsAt course)).sum := by
          rw [hpoints, hcomes.passed, hone]
      _ = r.passed + ((c :: calls).map (r.pointsAt course)).sum := by
          rw [List.map_cons, List.sum_cons, Nat.add_assoc]
  · rw [h.selective, hcomes.registry]
    exact Registry.selective_enroll
  · rw [h.selection, hcomes.registry, List.map_cons]
    exact Registry.keys_left_enroll _
  · rw [h.haveRun, hcomes.registry, List.map_cons]
    exact Registry.haveRun_enroll_or hc

theorem tallied : ∀ {calls : List Call} {r : Rig}, r.Steady loc → (calls.map Prod.fst).Nodup →
    r.Follows course (calls.map Call.request) → r.Calm course calls →
    Tallied course r calls (r.served (calls.map Call.request))
  | [], r, _, _, _, _ => .nil course r
  | c :: calls, r, hs, hk, hf, hc => by
    rw [List.map_cons, List.nodup_cons] at hk
    exact .cons hs hk.1 hf (tallied (hs.moment (hc.head hs hf)) hk.2 (hf.tail hs) (hc.tail hs hk.1))

/-- Two rigs that have come to the same: the same numbers, and the same keys selected and run. -/
structure SameEnd (r r' : Rig) : Prop where
  executed : r'.executed = r.executed
  passed : r'.passed = r.passed
  selection : r'.registry.selection = r.registry.selection
  haveRun : ∀ k, k ∈ r'.registry.haveRun ↔ k ∈ r.registry.haveRun
  count : r'.count = r.count
  failed : r'.failed = r.failed
  unrun : r'.registry.unrun = r.registry.unrun
  exitStatus : r'.exitStatus = r.exitStatus

/-- The same calls in another order come to the same together. -/
theorem Tallied.sameEnd {calls calls' : List Call} (h : Tallied course r calls r')
    (h' : Tallied course r calls' r'') (hp : calls.Perm calls') : r'.SameEnd r'' := by
  have hmem : ∀ k, k ∈ calls'.map Prod.fst ↔ k ∈ calls.map Prod.fst := fun k =>
    (hp.map Prod.fst).symm.mem_iff
  have hexecuted : r''.executed = r'.executed := by rw [h'.executed, h.executed, hp.countP_eq]
  have hpassed : r''.passed = r'.passed := by
    rw [h'.passed, h.passed, (hp.map (r.pointsAt course)).sum_nat]
  have hkeys : r''.registry.selection.keys = r'.registry.selection.keys := by
    rw [h'.selection, h.selection]
    simp only [hmem]
  have hselection : r''.registry.selection = r'.registry.selection := by
    generalize r''.registry.selection = x at hkeys
    generalize r'.registry.selection = y at hkeys
    cases x
    cases y
    cases hkeys
    rfl
  have hcount : r''.count = r'.count := by rw [count, count, hexecuted, hselection]
  have hfailed : r''.failed = r'.failed := by rw [failed, failed, hcount, hpassed]
  have hgroup : r''.registry.group = r'.registry.group := by rw [h'.group, h.group]
  refine ⟨hexecuted, hpassed, hselection, fun k => ?_, hcount, hfailed, ?_, ?_⟩
  · rw [h'.haveRun, h.haveRun, hmem]
  · have hidentity : r''.registry.identity = r'.registry.identity :=
      funext fun k => by rw [Registry.identity, Registry.identity, hgroup]
    rw [Registry.unrun, Registry.unrun, hselection, hidentity]
  · rw [Rig.exitStatus, Rig.exitStatus, hfailed]

/-- **The order of the calls makes no difference but for the number of a process.**  A rig has been set up
to run its tests in its own process or in copies of it, has served some requests, no copy is left
behind, and no call to the system fails.  Then calls for different tests that raise nothing look the
same one by one in whatever order they come, if the process of each test takes the course of its key in
both orders; with notes the one at the end can give the number of another process.  Together the calls
leave the same numbers and the same keys. -/
theorem session_perm {s : Setup} {r₀ : Rig} (h : Rig.set s = .ok r₀) (hh : r₀.StaysHome)
    (hq : s.faults.Quiet) (hd : s.faults.descriptor.Succeed) (ps : List Request)
    (halone : (r₀.served ps).host.strays = []) {calls calls' : List Call} (hp : calls.Perm calls')
    (hk : (calls.map Prod.fst).Nodup)
    (hm : ∀ m ∈ (r₀.served ps).session (calls.map Call.request), m.admitted? ≠ none → m.raised = false)
    {course : Key → Course} {courses : Nat → Course}
    (hf : (r₀.served ps).Follows course (calls.map Call.request))
    (hf' : ((r₀.served ps).timed courses).Follows course (calls'.map Call.request)) :
    let r := r₀.served ps
    let r' := r.timed courses
    (∀ m ∈ r.session (calls.map Call.request), ∀ m' ∈ r'.session (calls'.map Call.request),
      m.request = m'.request → m.Same m') ∧
    (r.served (calls.map Call.request)).SameEnd (r'.served (calls'.map Call.request)) := by
  intro r r'
  have hfresh := fresh_of_set h
  have hhomely := hfresh.homely hh
  have hkeeps := keeps_served ps hhomely
  have hs : r.Steady (r₀.journal.log.map (·.location)) :=
    ⟨hhomely.served ps, halone, hkeeps.faults.quiet (hfresh.faults ▸ hq),
      hkeeps.faults.descriptor.succeed (hfresh.faults ▸ hd)⟩
  have hs' := hs.timed courses
  have hk' : (calls'.map Prod.fst).Nodup := (hp.map Prod.fst).nodup_iff.mp hk
  have hcalm : r.Calm course calls := calm_of_session hs hk hf hm
  have hcalm' : r'.Calm course calls' := fun c hc => hcalm c (hp.mem_iff.mpr hc)
  refine ⟨fun m hm m' hm' heq => ?_, ?_⟩
  · obtain ⟨c, hc, hmoment, hdrifts, hsteady⟩ := drifts_of_mem_session hs hk hf hcalm m hm
    obtain ⟨c', hc', hmoment', hdrifts', hsteady'⟩ := drifts_of_mem_session hs' hk' hf' hcalm' m' hm'
    have hrequest : c.request = c'.request := by
      rw [hmoment, hmoment'] at heq
      exact heq
    obtain rfl : c = c' := by
      obtain ⟨⟨subgroup, number⟩, body⟩ := c
      obtain ⟨⟨subgroup', number'⟩, body'⟩ := c'
      cases hrequest
      rfl
    -- in both orders the process takes the course of the key
    have hcourse := hf.nextCourse hm hmoment hdrifts
    have hcourse' := hf'.nextCourse hm' hmoment' hdrifts'
    rw [hmoment, hmoment']
    exact hdrifts.same hdrifts' hs hsteady hsteady' hcourse hcourse'
  · have htallied : Tallied course r calls' (r'.served (calls'.map Call.request)) :=
      let ⟨hgroup, hexecuted, hpassed, hselective, hselection, hrun⟩ := tallied hs' hk' hf' hcalm'
      ⟨hgroup, hexecuted, hpassed, hselective, hselection, hrun⟩
    exact (tallied hs hk hf hcalm).sameEnd htallied hp

/-- Where all processes take one course, every test has a process that takes it. -/
theorem follows_const {course : Course} : ∀ (qs : List Request) {r : Rig}, r.Homely loc →
    (∀ n, r.host.faults.courses n = course) → r.Follows (fun _ => course) qs
  | [], _, _, _ => fun _ _ hm => nomatch hm
  | q :: qs, r, h, hk => by
    intro hd m hm k ha
    rcases List.mem_cons.mp hm with rfl | hm
    · exact hk 0
    · have hkeeps := keeps_moment h q
      obtain ⟨i, hi⟩ := hkeeps.faults.courses
      exact follows_const qs (h.moment q) (fun n => (hi n).trans (hk _))
        (hkeeps.configuration ▸ hd) m hm k ha

/-- A test that fails and one that passes, in both orders. -/
theorem session_perm_two :
    let fails : Call := (("s", 1), fun _ => .raised (.of .testFailure "no"))
    let passes : Call := (("s", 2), fun _ => .returned)
    ∃ r, Rig.set (.bare ["t"]) = .ok r ∧
      (r.moment fails.request).shown = "g.s.1: FAIL (no)\n" ∧
      (((r.timed fun _ => {}).moment passes.request).after.moment fails.request).shown =
        "g.s.1: FAIL (no)\n" ∧
      (r.served [fails.request, passes.request]).SameEnd
        ((r.timed fun _ => {}).served [passes.request, fails.request]) := by
  intro fails passes
  obtain ⟨r, hr, hfork, hverbose, hshown, hcalm⟩ := exists_set (s := .bare ["t"])
    (p := fun r => r.strategy = .fork ∧ r.journal.verbose = false ∧
      (r.moment fails.request).shown = "g.s.1: FAIL (no)\n" ∧
      ∀ m ∈ r.session [fails.request, passes.request], m.raised = false) (by decide +kernel)
  have hfresh := fresh_of_set hr
  have hhomely := hfresh.homely (Or.inr hfork)
  have hcourses : ∀ n, r.host.faults.courses n = {} := fun n => by rw [hfresh.faults]; rfl
  obtain ⟨hsame, hend⟩ := session_perm hr (Or.inr hfork) Supervision.Faults.quiet_default
    (fun _ => rfl) [] hfresh.strays (.swap passes fails []) (by decide)
    (fun m hm _ => hcalm m hm) (follows_const _ hhomely hcourses)
    (follows_const _ (r := r.timed fun _ => {}) ⟨hhomely.home, hhomely.host.settled,
      hhomely.host.log, hhomely.host.strays⟩ fun _ => rfl)
  refine ⟨r, hr, hshown, ?_, hend⟩
  rw [← hshown]
  exact (hsame _ List.mem_cons_self _ (List.mem_cons_of_mem _ List.mem_cons_self) rfl).plain
    (Or.inr hverbose)

/-- **The order of the calls can matter**: with notes the one at the end of a test gives the number of its
process, and a process that takes longer in the other order can be killed at its time limit. -/
theorem order_can_matter :
    let one : Call := (("s", 1), fun _ => .returned)
    let two : Call := (("s", 2), fun _ => .returned)
    (∃ r m m', Rig.set (.bare ["t", "-v"]) = .ok r ∧ m ∈ r.session [one.request, two.request] ∧
      m' ∈ r.session [two.request, one.request] ∧ m.request = m'.request ∧ m'.shown ≠ m.shown) ∧
    ∃ r m m', Rig.set { Setup.bare ["t"] with
        faults := { courses := fun n => if n = 0 then {} else { ends := 10000000 } } } = .ok r ∧
      m ∈ r.session [one.request, two.request] ∧ m' ∈ r.session [two.request, one.request] ∧
      m.request = m'.request ∧ m.returned true = true ∧ m'.returned false = true := by
  intro one two
  have hfirst : ∀ r : Rig, r.moment one.request ∈ r.session [one.request, two.request] := fun _ =>
    List.mem_cons_self
  have hsecond : ∀ r : Rig, (r.moment two.request).after.moment one.request ∈
      r.session [two.request, one.request] := fun _ => List.mem_cons_of_mem _ List.mem_cons_self
  refine ⟨?_, ?_⟩
  · obtain ⟨r, hr, hshown⟩ := exists_set (s := .bare ["t", "-v"]) (p := fun r =>
      ((r.moment two.request).after.moment one.request).shown ≠ (r.moment one.request).shown)
      (by decide +kernel)
    exact ⟨r, _, _, hr, hfirst r, hsecond r, rfl, hshown⟩
  · obtain ⟨r, hr, hpasses, hfails⟩ := exists_set
      (s := { Setup.bare ["t"] with
        faults := { courses := fun n => if n = 0 then {} else { ends := 10000000 } } })
      (p := fun r => (r.moment one.request).returned true = true ∧
        ((r.moment two.request).after.moment one.request).returned false = true) (by decide +kernel)
    exact ⟨r, _, _, hr, hfirst r, hsecond r, rfl, hpasses, hfails⟩

end Rig

end TestRig
