import TestRig.Proofs.Books
import TestRig.Proofs.Performance

/-!
# TestRig.Proofs.Kinship — rigs that differ in how they look

Notes and colours are for the reader.  Two rigs of which one writes notes, or shows colours, and the
other does not, are kin: nothing that is not a note differs between them, and no request can tell them
apart, whatever calls to the system fail and whatever programs are started.

* `Journal.Tidy`: what the console of a rig holds.
* `Journal.Kin`, `Host.Kin`, `Rig.Kin`: states that differ in notes and colours only.
* `Entry.Fair`: an entry that shows no notes but as a note, and colours only what has a colour.
* `Agree.superviseFork`, `Agree.superviseSpawn`: tests in processes of their own keep hosts kin.
* `Rig.Kin.moment` and `Rig.Kin.served`: requests are answered alike, and rigs stay kin.
-/

namespace TestRig

open Journal (Entry Other)

/-! ## Journals -/

namespace Chunk

def isNote : Chunk → Bool
  | note _ => true
  | _ => false

/-- A row of the summary is coloured as what it counts. -/
def IsProper : Chunk → Prop
  | tally c s => ∃ n, (c = .green ∧ s = Rig.row "PASS" n) ∨ (c = .red ∧ s = Rig.row "FAIL" n)
  | _ => True

theorem IsOutcome.proper {c : Chunk} (h : c.IsOutcome) : c.IsProper ∧ c.isNote = false := by
  obtain ⟨b, -, rfl⟩ := h
  exact ⟨trivial, rfl⟩

end Chunk

namespace Journal

/-- What is between notes. -/
def said (j : Journal) : List Chunk := j.console.items.filter (!·.isNote)

/-- Nothing is pending, rows have their colours, and there are no notes unless they are wanted. -/
structure Tidy (j : Journal) : Prop where
  settled : j.Settled
  proper : ∀ c ∈ j.console.items, c.IsProper
  unnoted : j.verbose = false → j.said = j.console.items

/-- Two journals that differ in notes and colours only. -/
structure Kin (j j' : Journal) : Prop where
  tidy : j.Tidy
  tidy' : j'.Tidy
  said : j'.said = j.said
  log : j'.log = j.log
  disk : j'.disk = j.disk

/-- What is shown by an entry beside the lines of the tests: rows that have their colours, and the
outcomes of other processes. -/
def Entry.Fair : Entry → Prop
  | aside cs => ∀ c ∈ cs, c.IsProper ∧ c.isNote = false
  | other o => ∀ c ∈ o.chunks, c.IsOutcome
  | _ => True

variable {j j' : Journal} {e : Entry}

theorem Entry.Fair.proper (he : e.Fair) {verbose : Bool} {c : Chunk} (hc : c ∈ e.chunks verbose) :
    c.IsProper := by
  cases e with
  | aside cs => exact (he c hc).1
  | other o => exact (he c hc).proper.1
  | note s =>
    cases verbose with
    | false => cases hc
    | true =>
      rw [List.mem_singleton.mp hc]
      trivial
  | name | outcome | blank =>
    rw [Entry.chunks, List.mem_singleton] at hc
    rw [hc]
    trivial

theorem Entry.Fair.isNote (he : e.Fair) {c : Chunk} (hc : c ∈ e.chunks false) : c.isNote = false := by
  cases e with
  | aside cs => exact (he c hc).2
  | other o => exact (he c hc).proper.2
  | note s => cases hc
  | name | outcome | blank =>
    rw [Entry.chunks, List.mem_singleton] at hc
    rw [hc]
    rfl

theorem filter_chunks_eq_self {cs : List Chunk} (h : ∀ c ∈ cs, c.isNote = false) :
    cs.filter (!·.isNote) = cs :=
  List.filter_eq_self.mpr fun c hc => by rw [h c hc]; rfl

/-- An entry says the same with notes and without. -/
theorem Entry.Fair.filter_chunks (he : e.Fair) (verbose : Bool) :
    (e.chunks verbose).filter (!·.isNote) = e.chunks false := by
  have hplain : (e.chunks false).filter (!·.isNote) = e.chunks false :=
    filter_chunks_eq_self fun _ hc => he.isNote hc
  cases e with
  | note s => cases verbose <;> rfl
  | _ => exact hplain

theorem Tidy.enter (h : j.Tidy) (he : e.Fair) : (j.enter e).Tidy := by
  have hi := items_enter h.settled e
  have hverbose := (alike_enter j e).verbose
  refine ⟨settled_enter h.settled e, fun c hc => ?_, fun hv => ?_⟩
  · rw [hi, List.mem_append] at hc
    exact hc.elim (h.proper c) he.proper
  · rw [hverbose] at hv
    have hsaid : j.said = j.console.items := h.unnoted hv
    unfold Journal.said at hsaid ⊢
    rw [hi, List.filter_append, hsaid, hv, he.filter_chunks]

/-- What an entry does to the log and the disk does not depend on the console. -/
theorem log_enter (hl : j'.log = j.log) (hd : j'.disk = j.disk) (e : Entry) :
    (j'.enter e).log = (j.enter e).log ∧ (j'.enter e).disk = (j.enter e).disk := by
  have hnote : ∀ (j : Journal) (s : String), (j.note s).log = j.log ∧ (j.note s).disk = j.disk := by
    intro j s
    unfold Journal.note
    split <;> exact ⟨rfl, rfl⟩
  cases e with
  | note s =>
    exact ⟨(hnote j' s).1.trans (hl.trans (hnote j s).1.symm),
      (hnote j' s).2.trans (hd.trans (hnote j s).2.symm)⟩
  | aside cs => exact ⟨by rw [log_aside, log_aside, hl], by rw [disk_aside, disk_aside, hd]⟩
  | name | outcome | blank =>
    obtain ⟨colored, verbose, console, log, disk⟩ := j
    obtain ⟨colored', verbose', console', log', disk'⟩ := j'
    cases hl
    cases hd
    cases log <;> exact ⟨rfl, rfl⟩
  | other o =>
    obtain ⟨colored, verbose, console, log, disk⟩ := j
    obtain ⟨colored', verbose', console', log', disk'⟩ := j'
    cases hl
    cases hd
    cases o <;> exact ⟨rfl, rfl⟩

/-- An entry says the same and is logged alike. -/
theorem Kin.enter (h : j.Kin j') (he : e.Fair) : (j.enter e).Kin (j'.enter e) := by
  have hsaid : ∀ {k : Journal}, k.Settled → (k.enter e).said = k.said ++ e.chunks false := by
    intro k hk
    rw [Journal.said, items_enter hk, List.filter_append, he.filter_chunks]
    rfl
  obtain ⟨hlog, hdisk⟩ := log_enter h.log h.disk e
  exact ⟨h.tidy.enter he, h.tidy'.enter he, by rw [hsaid h.tidy.settled, hsaid h.tidy'.settled, h.said],
    hlog, hdisk⟩

theorem Kin.enterAll : ∀ {es : List Entry} {j j' : Journal}, j.Kin j' → (∀ e ∈ es, e.Fair) →
    (j.enterAll es).Kin (j'.enterAll es)
  | [], _, _, h, _ => h
  | e :: es, _, _, h, hes => by
    have hrest : ∀ e ∈ es, e.Fair := fun e he => hes e (List.mem_cons_of_mem _ he)
    rw [enterAll_cons, enterAll_cons]
    exact Kin.enterAll (h.enter (hes e List.mem_cons_self)) hrest

theorem Kin.withDisk (h : j.Kin j') (disk : Disk) : ({ j with disk } : Journal).Kin { j' with disk } :=
  ⟨⟨⟨h.tidy.settled.console, h.tidy.settled.log⟩, h.tidy.proper, h.tidy.unnoted⟩,
    ⟨⟨h.tidy'.settled.console, h.tidy'.settled.log⟩, h.tidy'.proper, h.tidy'.unnoted⟩,
    h.said, h.log, rfl⟩

theorem Kin.close (h : j.Kin j') : j.close.Kin j'.close := by
  have htidy : ∀ k : Journal, k.Tidy → ({ k with log := none } : Journal).Tidy := fun k hk =>
    ⟨⟨hk.settled.console, by simp⟩, hk.proper, hk.unnoted⟩
  rw [h.tidy.settled.close, h.tidy'.settled.close]
  exact ⟨htidy j h.tidy, htidy j' h.tidy', h.said, rfl, h.disk⟩

/-- The rows of a summary have their colours, and it holds no notes. -/
theorem proper_summaryChunks (r : Rig) : ∀ c ∈ r.summaryChunks, c.IsProper ∧ c.isNote = false := by
  simp only [Rig.summaryChunks, List.mem_cons, List.not_mem_nil, or_false, forall_eq_or_imp,
    forall_eq]
  exact ⟨⟨trivial, rfl⟩, ⟨trivial, rfl⟩, ⟨⟨_, Or.inl ⟨rfl, rfl⟩⟩, rfl⟩,
    ⟨⟨_, Or.inr ⟨rfl, rfl⟩⟩, rfl⟩, ⟨trivial, rfl⟩⟩

/-- **A chore keeps journals kin.** -/
theorem Kin.chore (h : j.Kin j') {f : Journal → Journal} (hf : Chore f) : (f j).Kin (f j') := by
  cases hf with
  | none => exact h
  | summary r => exact h.enter (e := .aside r.summaryChunks) (proper_summaryChunks r)
  | close texts =>
    have hfair : (Entry.aside (texts.map .line)).Fair := by
      intro c hc
      obtain ⟨s, -, rfl⟩ := List.mem_map.mp hc
      exact ⟨trivial, rfl⟩
    have hentered := h.enter hfair
    rw [← errors_eq_aside texts h.tidy.settled, ← errors_eq_aside texts h.tidy'.settled] at hentered
    exact hentered.close

end Journal

namespace Supervision

/-! ## Hosts -/

/-- Two hosts that differ in notes and colours only; of what was left behind, copies show nothing but
outcomes. -/
structure Host.Kin (h h' : Host) : Prop where
  journal : h.journal.Kin h'.journal
  faults : h'.faults = h.faults
  launcher : h'.launcher = h.launcher
  nextPid : h'.nextPid = h.nextPid
  strays : h'.strays = h.strays
  plain : ∀ c, .copy c ∈ h.strays → ∃ loc, c.Plain loc

/-- Two hosts answer alike, and they are kin behind that. -/
structure Agree {α : Type} (p p' : α × Host) : Prop where
  result : p'.1 = p.1
  kin : p.2.Kin p'.2

variable {h h' : Host} {c : Child} {test : Identity} {pid : Nat} {loc : Option Location}

theorem Agree.split {α : Type} {p p' : α × Host} (hp : Agree p p') :
    ∃ v h₁ h₁', p = (v, h₁) ∧ p' = (v, h₁') ∧ h₁.Kin h₁' := by
  obtain ⟨v, h₁⟩ := p
  obtain ⟨v', h₁'⟩ := p'
  obtain rfl : v' = v := hp.result
  exact ⟨_, _, _, rfl, rfl, hp.kin⟩

namespace Host.Kin

theorem enterAll (hk : h.Kin h') {es : List Entry} (hes : ∀ e ∈ es, e.Fair) :
    (h.onJournal (·.enterAll es)).Kin (h'.onJournal (·.enterAll es)) :=
  { hk with journal := hk.journal.enterAll hes }

theorem enter (hk : h.Kin h') {e : Entry} (he : e.Fair) :
    (h.onJournal (·.enter e)).Kin (h'.onJournal (·.enter e)) :=
  { hk with journal := hk.journal.enter he }

theorem report (hk : h.Kin h') (reason : String) :
    (h.reportFailure reason).Kin (h'.reportFailure reason) :=
  hk.enter (e := .outcome s!"FAIL ({reason})\n") trivial

theorem note (hk : h.Kin h') (s : String) : (h.note s).Kin (h'.note s) :=
  hk.enter (e := .note s) trivial

theorem withDisk (hk : h.Kin h') (disk : Disk) :
    (h.onJournal fun j => { j with disk }).Kin (h'.onJournal fun j => { j with disk }) :=
  { hk with journal := hk.journal.withDisk disk }

theorem withFaults (hk : h.Kin h') (f : Faults) :
    ({ h with faults := f } : Host).Kin { h' with faults := f } := { hk with faults := rfl }

theorem log (hk : h.Kin h') (e : Event) : (h.log e).Kin (h'.log e) := { hk with }

/-! ## Calls -/

theorem kill (hk : h.Kin h') (pid : Nat) (cs : List Chunk) (texts : List String) :
    Agree (h.kill pid cs texts) (h'.kill pid cs texts) := by
  unfold Host.kill
  rw [hk.faults]
  cases h.faults.kill.next <;> exact ⟨rfl, { hk with faults := rfl }⟩

theorem fork (hk : h.Kin h') : Agree h.fork h'.fork := by
  unfold Host.fork
  rw [hk.faults, hk.nextPid]
  cases h.faults.fork.next <;> exact ⟨rfl, { hk with faults := rfl, nextPid := rfl }⟩

theorem start (hk : h.Kin h') : Agree h.start h'.start := by
  unfold Host.start
  rw [hk.faults, hk.nextPid]
  exact ⟨rfl, { hk with faults := rfl, nextPid := rfl }⟩

theorem wait (hk : h.Kin h') : Agree h.wait h'.wait := by
  unfold Host.wait
  rw [hk.faults]
  exact ⟨rfl, { hk with faults := rfl }⟩

theorem reap (hk : h.Kin h') (pid : Nat) : Agree (h.reap pid) (h'.reap pid) := by
  obtain ⟨v, h₁, h₁', he, he', hk₁⟩ := hk.wait.split
  unfold Host.reap
  rw [he, he']
  rcases v with _ | (_ | _) | _
  · exact ⟨rfl, hk₁.log _⟩
  · exact ⟨rfl, hk₁⟩
  · exact ⟨rfl, hk₁.log _⟩
  · exact ⟨rfl, hk₁⟩

theorem reapOnce (hk : h.Kin h') (pid : Nat) (collected : Bool) :
    Agree (h.reapOnce pid collected) (h'.reapOnce pid collected) := by
  cases collected with
  | true => exact hk.wait
  | false => exact hk.reap pid

theorem openDescriptor (hk : h.Kin h') : Agree h.openDescriptor h'.openDescriptor := by
  unfold Host.openDescriptor
  rw [hk.faults]
  cases h.faults.hasDescriptors with
  | false => exact ⟨rfl, hk⟩
  | true => exact ⟨rfl, { hk with faults := rfl }⟩

/-! ## Processes that go on -/

theorem desert (hk : h.Kin h') {s : Stray} (hs : ∀ c, s = .copy c → ∃ loc, c.Plain loc) :
    (h.desert s).Kin (h'.desert s) :=
  { hk with
    strays := congrArg (· ++ [s]) hk.strays
    plain := fun c hc => (List.mem_append.mp hc).elim (hk.plain c) fun hc =>
      hs c (List.mem_singleton.mp hc).symm }

theorem desertProgram (hk : h.Kin h') (words : List String) :
    (h.desert (.program words)).Kin (h'.desert (.program words)) :=
  hk.desert fun _ hc => nomatch hc

theorem leave (hk : h.Kin h') (hc : c.Plain loc) : (h.leave c).Kin (h'.leave c) := by
  unfold Host.leave
  split
  · exact hk
  · exact hk.desert fun c' hc' => by cases hc'; exact ⟨loc, hc⟩

/-- What is left behind of a host changes alike. -/
theorem withStrays (hk : h.Kin h') {strays : List Stray}
    (hs : ∀ c, .copy c ∈ strays → ∃ loc, c.Plain loc) :
    ({ h with strays } : Host).Kin { h' with strays } :=
  { hk with strays := rfl, plain := hs }

theorem step (hk : h.Kin h') (hc : c.Plain loc) : Agree (step c h) (step c h') := by
  cases hw : c.work with
  | cons a work =>
    rw [step_of_work hw, step_of_work hw]
    refine ⟨rfl, hk.enterAll fun e he => ?_⟩
    obtain ⟨o, ho, rfl⟩ := List.mem_map.mp he
    have hplain := hc.does o ho
    cases o with
    | showed cs => exact hplain
    | _ => exact fun _ hk => nomatch hk
  | nil =>
    rw [step_of_done hw, step_of_done hw]
    unfold close
    split
    · exact ⟨rfl, hk.log _⟩
    · exact ⟨rfl, hk⟩

theorem plain_step (hc : c.Plain loc) (h : Host) : (Host.step c h).1.Plain loc := by
  cases hw : c.work with
  | cons a work =>
    rw [step_of_work hw]
    exact hc.next
  | nil =>
    rw [step_of_done hw]
    unfold close
    split
    · exact hc.ended
    · exact hc

theorem advance : ∀ (n : Nat) {c : Child} {h h' : Host}, h.Kin h' → c.Plain loc →
    Agree (Host.advance n c h) (Host.advance n c h')
  | 0, _, _, _, hk, _ => ⟨rfl, hk⟩
  | n + 1, c, h, h', hk, hc => by
    obtain ⟨c₁, h₁, h₁', he, he', hk₁⟩ := (hk.step hc).split
    have hc₁ : c₁.Plain loc := by
      have hstep := plain_step hc h
      rwa [he] at hstep
    simp only [Host.advance, he, he']
    exact advance n hk₁ hc₁

theorem runUntil (hk : h.Kin h') (hc : c.Plain loc) (k : Course) (t : Nat) :
    Agree (Host.runUntil k t c h) (Host.runUntil k t c h') := by
  unfold Host.runUntil
  split
  · exact advance _ hk hc
  · exact advance _ hk hc

theorem wake (hk : h.Kin h') (i : Nat) : (h.wake i).Kin (h'.wake i) := by
  unfold Host.wake
  rw [hk.strays]
  cases hi : h.strays[i]? with
  | none => exact hk
  | some s =>
    have hmem : s ∈ h.strays := List.mem_of_getElem? hi
    have hrest : ∀ c, .copy c ∈ h.strays.eraseIdx i → ∃ loc, c.Plain loc := fun c hc =>
      hk.plain c (List.mem_of_mem_eraseIdx hc)
    cases s with
    | copy c =>
      obtain ⟨loc, hc⟩ := hk.plain c hmem
      obtain ⟨c₁, h₁, h₁', he, he', hk₁⟩ := (hk.step hc).split
      have hc₁ : c₁.Plain loc := by
        have hstep := plain_step hc h
        rwa [he] at hstep
      have hsame : h₁.strays = h.strays ∧ h₁'.strays = h.strays := by
        have hstrays : ∀ h : Host, (Host.step c h).2.strays = h.strays := by
          intro h
          unfold Host.step
          split
          · rfl
          · split <;> rfl
        have hone := hstrays h
        have hone' := hstrays h'
        rw [he] at hone
        rw [he'] at hone'
        exact ⟨hone, hone'.trans hk.strays⟩
      simp only [he, he', hsame]
      refine hk₁.withStrays fun c' hc' => ?_
      split at hc'
      · exact hrest c' hc'
      · rcases List.mem_or_eq_of_mem_set hc' with hc' | hc'
        · exact hk.plain c' hc'
        · cases hc'
          exact ⟨loc, hc₁⟩
    | program words =>
      have hdisk : diskAfter h'.launcher words h'.journal.disk =
          diskAfter h.launcher words h.journal.disk := by rw [hk.launcher, hk.journal.disk]
      simp only [hdisk]
      exact (hk.withDisk _).withStrays hrest

theorem elapse : ∀ (order : List Nat) {h h' : Host}, h.Kin h' →
    (h.elapse order).Kin (h'.elapse order)
  | [], _, _, hk => hk
  | i :: order, _, _, hk => elapse order (hk.wake i)

end Host.Kin

/-! ## Waiting for a copy -/

namespace Agree

theorem returns (hk : h.Kin h') (v : Except Halt Bool) : Agree (v, h) (v, h') := ⟨rfl, hk⟩

theorem failed (hk : h.Kin h') (reason : String) :
    Agree ((.ok false : Except Halt Bool), h.reportFailure reason)
      (.ok false, h'.reportFailure reason) :=
  returns (hk.report reason) _

theorem expire (hk : h.Kin h') (hc : c.Plain loc) : Agree (expire c h) (expire c h') := by
  obtain ⟨v, h₁, h₁', he, he', hk₁⟩ := (hk.kill c.pid c.console c.pendingLog).split
  unfold Supervision.expire Host.killChild
  rw [he, he']
  rcases v with _ | e
  · obtain ⟨v, h₂, h₂', he, he', hk₂⟩ := (hk₁.reap c.pid).split
    simp only [he, he']
    rcases v with _ | _ | e
    · exact failed hk₂ _
    · exact returns hk₂ _
    · exact returns hk₂ _
  · exact returns (hk₁.leave hc) _

theorem passUnless (hk : h.Kin h') (e : Exception) : Agree (passUnless e h) (passUnless e h') := by
  unfold Supervision.passUnless
  split
  · exact returns hk _
  · exact returns hk _

theorem stopChild (hk : h.Kin h') (hc : c.Plain loc) (collected : Bool) :
    Agree (stopChild c collected h) (stopChild c collected h') := by
  obtain ⟨v, h₁, h₁', he, he', hk₁⟩ := (hk.kill c.pid c.console c.pendingLog).split
  unfold Supervision.stopChild Host.killChild
  rw [he, he']
  rcases v with _ | e
  · obtain ⟨v, h₂, h₂', he, he', hk₂⟩ := (hk₁.reapOnce c.pid collected).split
    simp only [he, he']
    rcases v with _ | _ | e
    · exact returns hk₂ _
    · exact returns hk₂ _
    · exact passUnless hk₂ e
  · exact passUnless (hk₁.leave hc) e

theorem judgeExit (hk : h.Kin h') (code : Int) :
    Agree (judgeExit test pid code h) (judgeExit test pid code h') := by
  have hcheck : (checkExitCode code h').1 = (checkExitCode code h).1 ∧
      (checkExitCode code h).2.Kin (checkExitCode code h').2 := by
    unfold checkExitCode
    split
    · exact ⟨rfl, hk⟩
    · split
      · exact ⟨rfl, hk⟩
      · exact ⟨rfl, hk.report _⟩
  exact ⟨congrArg Except.ok hcheck.1, hcheck.2.note _⟩

theorem judge (hk : h.Kin h') (s : Status) : Agree (judge test pid s h) (judge test pid s h') := by
  cases s with
  | killed n => exact failed hk _
  | exited code => exact judgeExit hk code

theorem collect (hk : h.Kin h') (hc : c.Plain loc) (s : Status) :
    Agree (collect test c s h) (collect test c s h') := by
  obtain ⟨v, h₁, h₁', he, he', hk₁⟩ := (hk.reap c.pid).split
  unfold Supervision.collect
  rw [he, he']
  rcases v with _ | collected | e
  · exact judge hk₁ s
  · exact stopChild hk₁ hc collected
  · exact returns hk₁ _

theorem conclude (hk : h.Kin h') (hc : c.Plain loc) (k : Course) (w : Sighting)
    {next : Child → Status → Host → Except Halt Bool × Host}
    (hnext : ∀ {c s h h'}, c.Plain loc → h.Kin h' → Agree (next c s h) (next c s h')) :
    Agree (conclude c k w h next) (conclude c k w h' next) := by
  have hkw := hk.withFaults w.faults
  obtain ⟨c₁, h₁, h₁', he, he', hk₁⟩ := (hkw.runUntil hc k w.time).split
  have hc₁ : c₁.Plain loc := by
    obtain ⟨c₂, h₂, hrun, hplain, -⟩ := Host.runUntil_eq hc k w.time { h with faults := w.faults }
    obtain ⟨rfl, -⟩ := Prod.mk.inj (he.symm.trans hrun)
    exact hplain
  unfold Supervision.conclude
  simp only [he, he']
  rcases w.found with (x | collected) | _ | s
  · exact returns (hk₁.leave hc₁) _
  · cases collected with
    | false => exact stopChild hk₁ hc₁ false
    | true => exact stopChild (hk₁.log _) hc₁ true
  · exact expire hk₁ hc₁
  · exact hnext hc₁ hk₁

theorem await (hk : h.Kin h') (hc : c.Plain loc) (cfg : Configuration) (k : Course) :
    Agree (await cfg test c k h) (await cfg test c k h') := by
  unfold Supervision.await
  cases cfg.seconds with
  | error f =>
    obtain ⟨c₁, h₁, h₁', he, he', hk₁⟩ := (hk.advance (min k.done c.work.length) hc).split
    have hc₁ : c₁.Plain loc := by
      rw [Host.advance_eq h (Nat.min_le_right _ _)] at he
      obtain ⟨rfl, -⟩ := Prod.mk.inj he
      exact hc.after _
    simp only [he, he']
    exact returns (hk₁.leave hc₁) _
  | ok x =>
    obtain ⟨v, h₁, h₁', he, he', hk₁⟩ := hk.openDescriptor.split
    simp only [he, he']
    cases v with
    | true =>
      simp only [Supervision.awaitDescriptor, hk₁.faults]
      exact conclude hk₁ hc k _ fun hc hk => collect hk hc _
    | false =>
      simp only [Supervision.awaitPolling, hk₁.faults]
      exact conclude hk₁ hc k _ fun hc hk => judge (hk.log _) _

/-- **A test in a copy of this process** keeps hosts kin. -/
theorem superviseFork (hk : h.Kin h') (cfg : Configuration) (d : Dumper) (e : Ending) :
    Agree (superviseFork cfg d test e h) (superviseFork cfg d test e h') := by
  have hbegun : (startLine test (h.note s!"running {test.name} in a forked process")).Kin
      (startLine test (h'.note s!"running {test.name} in a forked process")) :=
    (hk.note _).enter (e := .name test) trivial
  unfold Supervision.superviseFork
  generalize startLine test (h.note s!"running {test.name} in a forked process") = b at hbegun ⊢
  generalize startLine test (h'.note s!"running {test.name} in a forked process") = b' at hbegun ⊢
  obtain ⟨v, h₁, h₁', he, he', hk₁⟩ := hbegun.fork.split
  have hcourse : b'.nextCourse = b.nextCourse := by unfold Host.nextCourse; rw [hbegun.faults]
  simp only [he, he', hcourse]
  cases v with
  | error x => exact returns (hk₁.enter (e := .blank) trivial) _
  | ok pid =>
    have hchild : Child.ofEnding pid d test e h₁'.journal = Child.ofEnding pid d test e h₁.journal := by
      rw [Child.ofEnding_of_settled hk₁.journal.tidy'.settled,
        Child.ofEnding_of_settled hk₁.journal.tidy.settled, hk₁.journal.log]
    have hplain : (Child.ofEnding pid d test e h₁.journal).Plain (h₁.journal.log.map (·.location)) := by
      rw [Child.ofEnding_of_settled hk₁.journal.tidy.settled]
      exact Child.plain_begun _ _ _ _ _
    simp only [hchild]
    exact await (hk₁.elapse _) hplain cfg _

/-! ## Programs -/

variable {p : Launched}

theorem leaveProgram (hk : h.Kin h') (p : Launched) : (p.leave h).Kin (p.leave h') := by
  unfold Launched.leave
  split
  · exact hk.withDisk p.disk
  · exact hk.desertProgram p.words

theorem lookProgram (hk : h.Kin h') (p : Launched) : Agree (p.look h) (p.look h') := by
  obtain ⟨v, h₁, h₁', he, he', hk₁⟩ := hk.wait.split
  unfold Launched.look
  rw [he, he']
  rcases v with _ | _ | e
  · cases p.hasEnded with
    | false => exact ⟨rfl, hk₁⟩
    | true => exact ⟨rfl, hk₁.log _⟩
  · exact ⟨rfl, hk₁⟩
  · dsimp only
    split
    · exact ⟨rfl, hk₁⟩
    · exact ⟨rfl, hk₁⟩

section Next

variable {next : Host → Except Halt Bool × Host}

theorem collectProgram (hk : h.Kin h') (p : Launched)
    (hnext : ∀ {h h'}, h.Kin h' → Agree (next h) (next h')) :
    Agree (p.collect h next) (p.collect h' next) := by
  obtain ⟨v, h₁, h₁', he, he', hk₁⟩ := (lookProgram hk p).split
  unfold Launched.collect
  rw [he, he']
  rcases v with (_ | e) | _
  · obtain ⟨v, h₂, h₂', he, he', hk₂⟩ := (lookProgram hk₁ p).split
    simp only [he, he']
    rcases v with (_ | e) | _ <;> exact returns hk₂ _
  · exact returns hk₁ _
  · exact hnext hk₁

theorem killProgram (hk : h.Kin h') (p : Launched)
    (hnext : ∀ {h h'}, h.Kin h' → Agree (next h) (next h')) :
    Agree (p.kill h next) (p.kill h' next) := by
  obtain ⟨v, h₁, h₁', he, he', hk₁⟩ := (hk.kill p.pid [] []).split
  unfold Launched.kill
  rw [he, he']
  rcases v with _ | e
  · exact collectProgram (hk₁.withDisk p.disk) _ hnext
  · dsimp only
    split
    · exact collectProgram (hk₁.withDisk p.disk) _ hnext
    · exact returns (leaveProgram hk₁ p) _

theorem stopProgram (hk : h.Kin h') (p : Launched)
    (hnext : ∀ {h h'}, h.Kin h' → Agree (next h) (next h')) :
    Agree (p.stop h next) (p.stop h' next) := by
  obtain ⟨v, h₁, h₁', he, he', hk₁⟩ := (lookProgram hk p).split
  unfold Launched.stop
  rw [he, he']
  rcases v with (_ | e) | _ | _
  · exact returns (leaveProgram hk₁ p) _
  · exact killProgram hk₁ p hnext
  · exact killProgram hk₁ p hnext
  · exact hnext (leaveProgram hk₁ p)

end Next

theorem stopInterrupted (hk : h.Kin h') (p : Launched) :
    Agree (p.stopInterrupted h) (p.stopInterrupted h') := by
  obtain ⟨v, h₁, h₁', he, he', hk₁⟩ := (lookProgram hk p).split
  unfold Launched.stopInterrupted
  rw [he, he']
  rcases v with (_ | e) | _ | _
  · exact stopProgram hk₁ p fun hk => returns hk _
  · exact returns (leaveProgram hk₁ p) _
  · exact stopProgram hk₁ p fun hk => returns hk _
  · exact returns (leaveProgram hk₁ p) _

theorem judgeReturnCode (hk : h.Kin h') (code : Int) :
    Agree (judgeReturnCode test pid code h) (judgeReturnCode test pid code h') := by
  unfold Supervision.judgeReturnCode
  rcases describeReturnCode .posix code with e | _ | reason
  · exact returns hk _
  · exact judgeExit hk code
  · exact failed hk reason

theorem awaitProgram (hk : h.Kin h') (words : List String) (k : Course) (ms : Nat)
    (life : Option Nat → Disk × Option Status) :
    Agree (awaitProgram test pid words k ms life h) (awaitProgram test pid words k ms life h') := by
  obtain ⟨v, h₁, h₁', he, he', hk₁⟩ := hk.wait.split
  unfold Supervision.awaitProgram
  simp only [he, he']
  rcases v with _ | _ | e
  · cases (life (some ms)).2 with
    | some s => exact judgeReturnCode ((hk₁.log _).withDisk _) s.returnCode
    | none => exact stopProgram hk₁ _ fun hk => failed hk _
  · exact stopInterrupted hk₁ _
  · have hk₂ := hk₁.desertProgram words
    dsimp only
    split
    · exact judgeReturnCode hk₂ 0
    · exact returns hk₂ _

/-- **A test in a program started for it** keeps hosts kin: the program cannot tell them apart. -/
theorem superviseSpawn (hk : h.Kin h') (cfg : Configuration) (command : List String) :
    Agree (superviseSpawn cfg command test h) (superviseSpawn cfg command test h') := by
  let words := (childCommand cfg command test).map (·.getD "[]")
  have hbegun : (startLine test (h.note s!"running {test.name}: {commandLine words}")).Kin
      (startLine test (h'.note s!"running {test.name}: {commandLine words}")) :=
    (hk.note _).enter (e := .name test) trivial
  unfold Supervision.superviseSpawn
  dsimp only
  generalize startLine test (h.note s!"running {test.name}: {commandLine words}") = b at hbegun ⊢
  generalize startLine test (h'.note s!"running {test.name}: {commandLine words}") = b' at hbegun ⊢
  have hcourse : b'.nextCourse = b.nextCourse := by unfold Host.nextCourse; rw [hbegun.faults]
  rw [hbegun.launcher, hbegun.journal.disk, hcourse]
  rcases b.launcher words b.journal.disk with ⟨_ | reason⟩ | life
  · exact returns hbegun _
  · exact returns (hbegun.enter (e := .blank) trivial) _
  · obtain ⟨pid, h₁, h₁', he, he', hk₁⟩ := hbegun.start.split
    simp only [he, he']
    cases cfg.seconds with
    | error t => exact returns (hk₁.desertProgram words) _
    | ok x => exact awaitProgram hk₁ words _ _ life

end Agree

end Supervision

namespace Rig

open Supervision (Agree)

/-! ## Rigs -/

/-- Two rigs that differ in notes and colours only. -/
structure Kin (r r' : Rig) : Prop where
  configuration : ∃ v, r'.configuration = { r.configuration with verbose := v }
  arguments : r'.arguments = r.arguments
  registry : r'.registry = r.registry
  dumper : r'.dumper = r.dumper
  command : r'.command = r.command
  executed : r'.executed = r.executed
  passed : r'.passed = r.passed
  closed : r'.closed = r.closed
  host : r.host.Kin r'.host

namespace Kin

variable {r r' : Rig}

theorem books (h : r.Kin r') : r.SameBooks r' :=
  ⟨h.arguments, h.registry, h.executed, h.passed, h.closed⟩

theorem exitStatus (h : r.Kin r') : r'.exitStatus = r.exitStatus := h.books.exitStatus

theorem strategy (h : r.Kin r') : r'.strategy = r.strategy := by
  obtain ⟨v, hv⟩ := h.configuration
  rw [Rig.strategy, Rig.strategy, hv, h.host.faults]

/-- **A test is performed alike.** -/
theorem perform (h : r.Kin r') (test : Identity) (body : Body) :
    Agree (r.perform test body) (r'.perform test body) := by
  obtain ⟨v, hv⟩ := h.configuration
  unfold Rig.perform
  rw [h.strategy, h.arguments, h.dumper, h.command, hv]
  cases test.isWritable with
  | false => exact ⟨rfl, h.host⟩
  | true =>
    cases hd : r.configuration.direct with
    | true =>
      simp only [hd, Bool.not_true, Bool.false_eq_true, if_false, if_true, Classifier.run_eq]
      refine ⟨rfl, h.host.enterAll fun e he => ?_⟩
      rcases List.mem_append.mp he with he | he
      · split at he
        · exact List.mem_singleton.mp he ▸ trivial
        · cases he
      · obtain ⟨b, -, rfl⟩ := Option.map_eq_some_iff.mp (Option.mem_toList.mp he)
        trivial
    | false =>
      simp only [hd, Bool.not_true, Bool.false_eq_true, if_false]
      cases r.strategy with
      | fork => exact Agree.superviseFork h.host r.configuration r.dumper (body r.arguments)
      | spawn => exact Agree.superviseSpawn h.host r.configuration r.command

/-- What a request leaves of kin are kin if the books and the hosts are. -/
theorem left (h : r.Kin r') {a a' : Rig} {k k' : Supervision.Host} (hbooks : a.SameBooks a')
    (hleft : r.Leaves k a) (hleft' : r'.Leaves k' a') (hk : k.Kin k') : a.Kin a' := by
  refine ⟨?_, hbooks.arguments, hbooks.registry, ?_, ?_, hbooks.executed, hbooks.passed,
    hbooks.closed, ?_⟩
  · rw [hleft.configuration, hleft'.configuration]
    exact h.configuration
  · rw [hleft.dumper, hleft'.dumper, h.dumper]
  · rw [hleft.command, hleft'.command, h.command]
  · rw [hleft.host, hleft'.host]
    exact hk

/-- **A request of kin** is answered alike, and they stay kin. -/
theorem moment (h : r.Kin r') (q : Request) : (r'.moment q).answer = (r.moment q).answer ∧
    (r.moment q).after.Kin (r'.moment q).after := by
  cases hq : (r.moment q).admitted? with
  | none =>
    obtain ⟨hanswer, hbooks, order, f, hf, hleft, hleft'⟩ := h.books.idle hq
    have helapse := h.host.elapse order
    exact ⟨hanswer, h.left hbooks hleft hleft' { helapse with journal := helapse.journal.chore hf }⟩
  | some k =>
    obtain ⟨subgroup, number, body, rfl, ha⟩ := run_of_admitted? hq
    have hentered := h.books.enter k
    have hkin : (r.enter k).Kin (r'.enter k) :=
      { h with registry := hentered.registry, executed := hentered.executed }
    obtain ⟨hresult, hhost⟩ := hkin.perform (r.registry.identity k) body
    obtain ⟨hanswer, hbooks, hleft, hleft'⟩ := h.books.tested ha body rfl rfl hresult
    exact ⟨hanswer, h.left hbooks hleft hleft' hhost⟩

theorem served : ∀ (qs : List Request) {r r' : Rig}, r.Kin r' → (r.served qs).Kin (r'.served qs)
  | [], _, _, h => h
  | q :: qs, _, _, h => Kin.served qs (h.moment q).2

end Kin

end Rig

end TestRig
