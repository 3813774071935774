import TestRig.Proofs.Fate

/-!
# TestRig.Proofs.Forking — a test in a copy of this process

Running a test in a copy of this process comes to what the fate of the copy says
(`Comes.superviseFork`): that is returned, those entries are written to the journal, and of the calls
to the system only those that are still to come are left.  In between, the processes go on that were
left behind before.

* `Host.Home`: a host on which only copies of this process were left behind.
* `Comes`: what a part of the work returns, writes and leaves.
* `Host.Past`: single calls leave everything but the faults and the events.
* `Host.runUntil_eq`: what a copy does while it is waited for.
-/

namespace TestRig.Supervision

open Journal (Entry Other)

variable {loc : Option Location} {h h' : Host} {c : Child} {es fs : List Entry}
  {v : Except Halt Bool} {p : Except Halt Bool × Host} {test : Identity} {pid m n : Nat}
  {f : Faults} {status : Option Status} {done : Option Nat}

/-- Nothing is pending in the journal of a host, its log is the one at this location, and only copies of
this process were left behind. -/
structure Host.Home (loc : Option Location) (h : Host) : Prop where
  settled : h.journal.Settled
  log : ∀ l ∈ h.journal.log, loc = some l.location
  strays : ∀ s ∈ h.strays, s.Plain loc

theorem Host.Home.entered (hh : h.Home loc) (hj : h'.journal = h.journal.enterAll es)
    (hs : ∀ s ∈ h'.strays, s.Plain loc) : h'.Home loc := by
  have halike := Journal.alike_enterAll h.journal es
  rw [← hj] at halike
  refine ⟨hj ▸ Journal.settled_enterAll hh.settled es, fun l hl => ?_, hs⟩
  have hlocation : h.journal.log.map (·.location) = some l.location := by
    rw [← halike.log, Option.mem_def.mp hl, Option.map_some]
  obtain ⟨f, hf, hsame⟩ := Option.map_eq_some_iff.mp hlocation
  exact hsame ▸ hh.log f hf

/-! ## What a part of the work comes to -/

/-- A part of the work on a host returns a value, writes some entries, and makes some calls, among them
those for `n` copies of this process.  If it returns a verdict it leaves no process behind. -/
structure Comes (loc : Option Location) (n : Nat) (h : Host) (es : List Entry) (v : Except Halt Bool)
    (p : Except Halt Bool × Host) : Prop where
  result : p.1 = v
  journal : p.2.journal = h.journal.enterAll es
  faults : h.faults.Later p.2.faults
  strays : ∀ s ∈ p.2.strays, s ∈ h.strays ∨ s.Plain loc
  tidy : h.strays = [] → ∀ b, v = .ok b → p.2.strays = []
  nextPid : p.2.nextPid = h.nextPid + n
  courses : ∀ i, p.2.faults.courses i = h.faults.courses (i + n)

/-- A part of the work behind another one. -/
theorem Comes.behind (hc : Comes loc n h' fs v p) (hj : h'.journal = h.journal.enterAll es)
    (hf : h.faults.Later h'.faults) (hs : ∀ s ∈ h'.strays, s ∈ h.strays ∨ s.Plain loc)
    (ht : h.strays = [] → h'.strays = []) (hn : h'.nextPid = h.nextPid + m)
    (hk : ∀ i, h'.faults.courses i = h.faults.courses (i + m)) :
    Comes loc (m + n) h (es ++ fs) v p :=
  ⟨hc.result, by rw [hc.journal, hj, Journal.enterAll_append], hf.trans hc.faults,
    fun s hs' => (hc.strays s hs').elim (hs s) Or.inr, fun hno => hc.tidy (ht hno),
    by rw [hc.nextPid, hn, Nat.add_assoc],
    fun i => by rw [hc.courses, hk, Nat.add_assoc, Nat.add_comm n m]⟩

/-- A part of the work behind something that leaves no process. -/
theorem Comes.after (hc : Comes loc n h' fs v p) (hj : h'.journal = h.journal.enterAll es)
    (hf : h.faults.Later h'.faults) (hs : h'.strays = h.strays) (hn : h'.nextPid = h.nextPid + m)
    (hk : ∀ i, h'.faults.courses i = h.faults.courses (i + m)) :
    Comes loc (m + n) h (es ++ fs) v p :=
  hc.behind hj hf (fun _ hs' => Or.inl (hs ▸ hs')) hs.trans hn hk

/-- A host behind some calls, of which only the faults and the events tell. -/
def Host.Past (h : Host) (f : Faults) (h' : Host) : Prop :=
  ∃ events, h' = { h with faults := f, events }

theorem Comes.past (hc : Comes loc 0 h' es v p) (hp : h.Past f h') (hf : h.faults.Later f)
    (hk : f.courses = h.faults.courses) : Comes loc 0 h es v p := by
  obtain ⟨events, rfl⟩ := hp
  exact hc.after (m := 0) (show _ = h.journal.enterAll [] from rfl) hf rfl rfl fun i => congrFun hk i

/-- A part of the work that only returns something. -/
theorem Comes.nothing (v : Except Halt Bool) (h : Host) : Comes loc 0 h [] v (v, h) :=
  ⟨rfl, rfl, .refl _, fun _ => Or.inl, fun hno _ _ => hno, rfl, fun _ => rfl⟩

/-- A child is left behind when something is raised. -/
theorem Comes.left (hc : c.Plain loc) (x : Halt) (h : Host) :
    Comes loc 0 h [] (.error x) (.error x, h.leave c) := by
  unfold Host.leave
  split
  · exact .nothing _ _
  · refine ⟨rfl, rfl, .refl _, fun s hs => ?_, fun _ _ hv => (nomatch hv), rfl, fun _ => rfl⟩
    refine (List.mem_append.mp hs).imp_right fun hs => ?_
    obtain rfl := List.mem_singleton.mp hs
    exact hc

/-- A part of the work that writes some entries. -/
theorem Comes.written (v : Except Halt Bool) (hj : h' = h.onJournal (·.enterAll es)) :
    Comes loc 0 h es v (v, h') := by
  subst hj
  exact ⟨rfl, rfl, .refl _, fun _ => Or.inl, fun hno _ _ => hno, rfl, fun _ => rfl⟩

/-- An outcome that is written. -/
theorem Comes.report (v : Except Halt Bool) (reason : String) (h : Host) :
    Comes loc 0 h [.outcome s!"FAIL ({reason})\n"] v (v, h.reportFailure reason) := .written v rfl

/-! ## Single calls -/

theorem Host.kill_eq (h : Host) (pid : Nat) (cs : List Chunk) (texts : List String) : ∃ h',
    h.kill pid cs texts = (h.faults.kill.next, h') ∧
      h.Past { h.faults with kill := h.faults.kill.later } h' := by
  unfold Host.kill
  cases h.faults.kill.next <;> exact ⟨_, rfl, _, rfl⟩

theorem Host.reap_eq (h : Host) (pid : Nat) : ∃ h',
    h.reap pid = (h.faults.wait.next, h') ∧ h.Past (Fate.pastWait h.faults) h' := by
  have hwait : h.wait = (h.faults.wait.next, { h with faults := Fate.pastWait h.faults }) := rfl
  unfold Host.reap
  rw [hwait]
  rcases h.faults.wait.next with _ | (_ | _) | _ <;> exact ⟨_, rfl, _, rfl⟩

theorem Host.reapOnce_eq (h : Host) (pid : Nat) (collected : Bool) : ∃ h',
    h.reapOnce pid collected = (h.faults.wait.next, h') ∧ h.Past (Fate.pastWait h.faults) h' := by
  cases collected with
  | true => exact ⟨_, rfl, _, rfl⟩
  | false => exact h.reap_eq pid

/-- Opening a descriptor uses up a call, if there are descriptors. -/
theorem Host.openDescriptor_eq (h : Host) : h.openDescriptor =
    (Fate.opens h.faults, { h with faults := Fate.pastOpen h.faults }) := by
  unfold Host.openDescriptor Fate.opens Fate.pastOpen
  cases hd : h.faults.hasDescriptors with
  | false => simp
  | true =>
    simp only [if_true, Bool.true_and]
    rw [← hd]

/-- The host on which the line of a test is begun. -/
def Host.begun (h : Host) (test : Identity) : Host :=
  startLine test (h.note s!"running {test.name} in a forked process")

/-- The host when the copy for a test has been made. -/
def Host.forked (h : Host) (test : Identity) : Host :=
  { h.begun test with
    faults := Fate.pastFork h.faults
    nextPid := h.nextPid + 1
    events := h.events ++ [.forked h.nextPid (h.begun test).journal.console.pending
      (pendingLog (h.begun test).journal)] }

/-- No copy can be made. -/
theorem superviseFork_of_failed (cfg : Configuration) (d : Dumper) (test : Identity) (e : Ending)
    {x : Exception} (hf : h.faults.fork.next = some x) : superviseFork cfg d test e h =
      (.error (creationFailure "fork() failed" test x.reason), Host.abandonLine { h.begun test with
        faults := { h.faults with fork := h.faults.fork.later } }) := by
  have hnext : (h.begun test).faults.fork.next = some x := hf
  have hfailed : (h.begun test).fork = (.error x, { h.begun test with
      faults := { h.faults with fork := h.faults.fork.later } }) := by
    unfold Host.fork
    rw [hnext]
    rfl
  unfold Host.begun at hfailed
  unfold superviseFork
  simp only [hfailed]
  rfl

/-- A copy is made, processes go on that were left behind before, and the copy is waited for. -/
theorem superviseFork_of_forked (cfg : Configuration) (d : Dumper) (test : Identity) (e : Ending)
    (hf : h.faults.fork.next = none) : superviseFork cfg d test e h =
      await cfg test (.ofEnding h.nextPid d test e (h.forked test).journal) (h.faults.courses 0)
        ((h.forked test).elapse (h.faults.courses 0).others) := by
  have hnext : (h.begun test).faults.fork.next = none := hf
  have hmade : (h.begun test).fork = (.ok h.nextPid, h.forked test) := by
    unfold Host.fork
    rw [hnext]
    rfl
  unfold Host.begun at hmade
  unfold superviseFork
  simp only [hmade]
  rfl

theorem passUnless_eq (e : Exception) (h : Host) : passUnless e h = (.error (Fate.passed e), h) := by
  unfold passUnless Fate.passed
  split <;> rfl

/-! ## A child while it is waited for -/

/-- What is seen of a child that does some of its work, or all of it. -/
def Child.upTo (c : Child) (done : Option Nat) : List Other :=
  done.elim (c.trace c.work.length) fun n => c.trace n

theorem Child.map_upTo (c : Child) (done : Option Nat) : (c.upTo done).map Entry.other =
    done.elim ((c.trace c.work.length).map .other) fun n => (c.trace n).map .other := by
  cases done <;> rfl

/-- Whether a child has ended does not matter to what it still does. -/
theorem Child.Plain.ended (hc : c.Plain loc) : ({ c with ended := true } : Child).Plain loc := by
  have hnext : ∀ c : Child, ({ c with ended := true } : Child).next = { c.next with ended := true } := by
    intro c
    unfold Child.next
    dsimp only
    split
    · rfl
    · rename_i a _ _
      cases a <;> rfl
  have hafter : ∀ n (c : Child), ({ c with ended := true } : Child).after n =
      { c.after n with ended := true } := by
    intro n
    induction n with
    | zero => exact fun _ => rfl
    | succ n ih => exact fun c => by rw [Child.after, hnext, ih, Child.after]
  have hdrains := hc.drains
  refine ⟨hc.pending, hc.coming, hc.log, hc.recording, ?_⟩
  rw [hafter]
  exact hdrains

theorem Host.close_eq (hc : c.Plain loc) (h : Host) : ∃ c' h', close c h = (c', h') ∧ c'.Plain loc ∧
    c'.pid = c.pid ∧ h.Past h.faults h' := by
  unfold close
  split
  · exact ⟨_, _, rfl, hc.ended, rfl, _, rfl⟩
  · exact ⟨_, _, rfl, hc, rfl, _, rfl⟩

/-- **What a child does by a time**: some of its work is seen, and it stays what it is. -/
theorem Host.runUntil_eq (hc : c.Plain loc) (k : Course) (t : Nat) (h : Host) : ∃ c' h',
    runUntil k t c h = (c', h') ∧ c'.Plain loc ∧ c'.pid = c.pid ∧
      (h.sees (c.upTo (k.done? c.status t))).Past h.faults h' := by
  unfold runUntil Course.done?
  split
  · obtain ⟨c', h', hclose, hplain, hpid, hpast⟩ := close_eq (hc.after c.work.length)
      (h.sees (c.trace c.work.length))
    rw [finish_eq]
    exact ⟨c', h', hclose, hplain, hpid.trans (Child.same_after _ c).1, hpast⟩
  · rw [advance_eq h (Nat.min_le_right _ _), Child.trace_min]
    exact ⟨_, _, rfl, hc.after _, (Child.same_after _ c).1, _, rfl⟩

/-! ## Children that do not end by themselves -/

/-- A child that is killed at its time limit. -/
theorem Comes.expire (hc : c.Plain loc) (h : Host) (done : Option Nat) :
    Comes loc 0 h ((Fate.expiring done h.faults).closing test pid)
      ((Fate.expiring done h.faults).result test) (expire c h) := by
  obtain ⟨h₁, hkill, hp₁⟩ := h.kill_eq c.pid c.console c.pendingLog
  obtain ⟨h₂, hreap, hp₂⟩ := h₁.reap_eq c.pid
  have hwait : h₁.faults.wait = h.faults.wait := by
    obtain ⟨_, rfl⟩ := hp₁
    rfl
  have hpast : h.Past { h.faults with kill := h.faults.kill.later, wait := h.faults.wait.later } h₂ := by
    obtain ⟨_, rfl⟩ := hp₁
    exact hp₂
  have hlater := (Faults.Later.pastKill h.faults).trans (Faults.Later.pastWait _)
  unfold Supervision.expire Host.killChild Fate.expiring
  rw [hkill]
  cases h.faults.kill.next with
  | some e => exact (Comes.left hc _ h₁).past hp₁ (.pastKill _) rfl
  | none =>
    simp only [hreap, hwait]
    rcases h.faults.wait.next with _ | _ | e
    · exact (Comes.report _ _ h₂).past hpast hlater rfl
    · exact (Comes.nothing _ h₂).past hpast hlater rfl
    · exact (Comes.nothing _ h₂).past hpast hlater rfl

/-- A child that is killed after an interrupt. -/
theorem Comes.stopChild (hc : c.Plain loc) (collected : Bool) (h : Host) (done : Option Nat) :
    Comes loc 0 h ((Fate.stopping done h.faults).closing test pid)
      ((Fate.stopping done h.faults).result test) (stopChild c collected h) := by
  obtain ⟨h₁, hkill, hp₁⟩ := h.kill_eq c.pid c.console c.pendingLog
  obtain ⟨h₂, hreap, hp₂⟩ := h₁.reapOnce_eq c.pid collected
  have hwait : h₁.faults.wait = h.faults.wait := by
    obtain ⟨_, rfl⟩ := hp₁
    rfl
  have hpast : h.Past { h.faults with kill := h.faults.kill.later, wait := h.faults.wait.later } h₂ := by
    obtain ⟨_, rfl⟩ := hp₁
    exact hp₂
  have hlater := (Faults.Later.pastKill h.faults).trans (Faults.Later.pastWait _)
  unfold Supervision.stopChild Host.killChild Fate.stopping
  rw [hkill]
  cases h.faults.kill.next with
  | some e =>
    simp only [passUnless_eq]
    exact (Comes.left hc _ h₁).past hp₁ (.pastKill _) rfl
  | none =>
    simp only [hreap, hwait]
    rcases h.faults.wait.next with _ | _ | e
    · exact (Comes.nothing _ h₂).past hpast hlater rfl
    · exact (Comes.nothing _ h₂).past hpast hlater rfl
    · simp only [passUnless_eq]
      exact (Comes.nothing _ h₂).past hpast hlater rfl

/-! ## Children that end by themselves -/

/-- Of the exit codes only 0 and 1 are passed over. -/
theorem Comes.judge (s : Status) (h : Host) :
    Comes loc 0 h (s.entries test pid) (.ok s.passes) (judge test pid s h) := by
  cases s with
  | killed n => exact .written _ rfl
  | exited code =>
    match code with
    | 0 | 1 => exact .written _ rfl
    | n + 2 =>
      have hzero : ((n + 2 : Nat) : Int) ≠ (ExitStatus.success.code : Int) := by
        simp only [ExitStatus.code]; omega
      have hone : ((n + 2 : Nat) : Int) ≠ (ExitStatus.error.code : Int) := by
        simp only [ExitStatus.code]; omega
      have hcheck : ∀ h, checkExitCode ((n + 2 : Nat) : Int) h =
          (false, h.reportFailure s!"exit status {Text.showInt ((n + 2 : Nat) : Int)}") := by
        intro h
        rw [checkExitCode, if_neg hzero, if_neg hone]
      simp only [Supervision.judge, judgeExit, hcheck]
      exact .written _ rfl

/-- A child that was seen to have ended is collected. -/
theorem Comes.collect (hc : c.Plain loc) (s : Status) (h : Host) :
    Comes loc 0 h ((Fate.reaping s h.faults).closing test c.pid)
      ((Fate.reaping s h.faults).result test) (collect test c s h) := by
  obtain ⟨h', hreap, hp⟩ := h.reap_eq c.pid
  have hfaults : h'.faults = Fate.pastWait h.faults := by
    obtain ⟨_, rfl⟩ := hp
    rfl
  have hlater := Faults.Later.pastWait h.faults
  unfold Supervision.collect Fate.reaping
  rw [hreap]
  rcases h.faults.wait.next with _ | collected | e
  · exact (Comes.judge s h').past hp hlater rfl
  · rw [← hfaults]
    exact (Comes.stopChild hc collected h' none).past hp hlater rfl
  · exact (Comes.nothing _ h').past hp hlater rfl

/-! ## Waiting -/

/-- **What follows on a wait**: the child goes on until it is over, and then this process concludes. -/
theorem Comes.conclude (hc : c.Plain loc) (k : Course) (w : Sighting) (h : Host) (opened : Bool)
    {next : Child → Status → Host → Except Halt Bool × Host}
    (hnext : ∀ c' s h', c'.Plain loc → c'.pid = c.pid →
      Comes loc 0 h' ((if opened then Fate.reaping s h'.faults else .ended s).closing test c.pid)
        ((if opened then Fate.reaping s h'.faults else .ended s).result test) (next c' s h'))
    (hf : h.faults.Later w.faults) (hk : w.faults.courses = h.faults.courses) :
    Comes loc 0 h ((c.upTo (k.done? c.status w.time)).map .other ++
        (Fate.concluding k c.status opened w).closing test c.pid)
      ((Fate.concluding k c.status opened w).result test) (conclude c k w h next) := by
  obtain ⟨c', h', hrun, hc', hpid, events, rfl⟩ :=
    Host.runUntil_eq hc k w.time { h with faults := w.faults }
  unfold Supervision.conclude Fate.concluding
  simp only [hrun]
  let os := c.upTo (k.done? c.status w.time)
  have hafter : ∀ {es v p}, Comes loc 0 ({ h.sees os with faults := w.faults, events }) es v p →
      Comes loc 0 h (os.map .other ++ es) v p := fun hc =>
    hc.after (m := 0) rfl hf rfl rfl fun i => congrFun hk i
  rcases w.found with (x | collected) | _ | s
  · exact hafter (.left hc' x _)
  · refine hafter ?_
    cases collected with
    | false => exact .stopChild hc' false _ _
    | true => exact (Comes.stopChild hc' true _ _).past ⟨_, rfl⟩ (.refl _) rfl
  · exact hafter (.expire hc' _ _)
  · exact hafter (hnext c' s _ hc' hpid)

/-- Of the calls a wait with a descriptor makes only polls. -/
theorem faults_watch (k : Course) (status : Option Status) (limit n t : Nat) (f : Faults) :
    ∃ poll, (watch k status limit n t f).faults = { f with poll } := by
  fun_induction watch k status limit n t f with
  | case1 | case2 => exact ⟨_, rfl⟩
  | case3 n t f _ _ f' hf | case4 n t f _ _ f' hf =>
    obtain ⟨-, rfl⟩ := Prod.mk.inj hf
    exact ⟨_, rfl⟩
  | case5 n t f _ _ f' hf _ _ ih =>
    obtain ⟨-, rfl⟩ := Prod.mk.inj hf
    exact ih

theorem faults_look (k : Course) (status : Option Status) (limit n t : Nat) (f : Faults) :
    ∃ wait, (look k status limit n t f).faults = { f with wait } := by
  fun_induction look k status limit n t f with
  | case1 n t f e f' hf | case2 n t f c f' hf | case3 n t f f' hf | case4 n t f f' hf =>
    obtain ⟨-, rfl⟩ := Prod.mk.inj hf
    exact ⟨_, rfl⟩
  | case5 n t f f' hf _ _ ih =>
    obtain ⟨-, rfl⟩ := Prod.mk.inj hf
    exact ih

theorem courses_sighting (cfg : Configuration) (status : Option Status) (f : Faults) :
    (Fate.sighting cfg status f).faults.courses = (Fate.pastOpen (Fate.pastFork f)).courses := by
  unfold Fate.sighting
  dsimp only
  split
  · obtain ⟨_, hwatch⟩ := faults_watch (f.courses 0) status (1000 * cfg.timeout.getD 0) 0
      (f.courses 0).begins (Fate.pastOpen (Fate.pastFork f))
    rw [hwatch]
  · obtain ⟨_, hlook⟩ := faults_look (f.courses 0) status (1000 * cfg.timeout.getD 0) 0
      (f.courses 0).begins (Fate.pastOpen (Fate.pastFork f))
    rw [hlook]

/-- What a copy has done that was waited for. -/
theorem Fate.told_concluding {k : Course} {opened : Bool} {w : Sighting} {own : List Entry}
    {part : Nat → List Other} (hw : ∀ s, w.found = .ok (some s) → k.ended? status w.time = some s) :
    (concluding k status opened w).told own part =
      (k.done? status w.time).elim own fun n => (part n).map .other := by
  have hstopping : ∀ done f, (stopping done f).told own part =
      done.elim own fun n => (part n).map .other := by
    intro done f
    unfold stopping
    split <;> rfl
  have hexpiring : ∀ done f, (expiring done f).told own part =
      done.elim own fun n => (part n).map .other := by
    intro done f
    unfold expiring
    split <;> rfl
  unfold concluding
  rcases hfound : w.found with (x | collected) | _ | s
  · rfl
  · exact hstopping _ _
  · exact hexpiring _ _
  · have hdone : k.done? status w.time = none := by
      rw [Course.done?, hw s hfound]
      rfl
    rw [hdone]
    cases opened with
    | false => rfl
    | true =>
      simp only [if_true, reaping, Option.elim_none]
      rcases w.faults.wait.next with _ | _ | _
      · rfl
      · exact hstopping _ _
      · rfl

theorem Fate.copies_awaited (cfg : Configuration) (status : Option Status) (f : Faults) :
    (awaited cfg status f).copies = 1 := by
  unfold awaited concluding reaping expiring stopping
  repeat' split
  all_goals rfl

/-- What follows on the wait for a copy, when a descriptor has been opened or not. -/
theorem Comes.sighted (hc : c.Plain loc) (cfg : Configuration) (hf : h.faults = Fate.pastFork f)
    {opened : Bool} {next : Child → Status → Host → Except Halt Bool × Host}
    (hnext : ∀ c' s h', c'.Plain loc → c'.pid = c.pid →
      Comes loc 0 h' ((if opened then Fate.reaping s h'.faults else .ended s).closing test c.pid)
        ((if opened then Fate.reaping s h'.faults else .ended s).result test) (next c' s h')) :
    let fate := Fate.concluding (f.courses 0) c.status opened (Fate.sighting cfg c.status f)
    Comes loc 0 h
      (fate.told ((c.trace c.work.length).map .other) (fun n => c.trace n) ++ fate.closing test c.pid)
      (fate.result test)
      (Supervision.conclude c (f.courses 0) (Fate.sighting cfg c.status f)
        { h with faults := Fate.pastOpen h.faults } next) := by
  intro fate
  have hcourses : (Fate.pastOpen h.faults).courses = h.faults.courses := by
    unfold Fate.pastOpen
    split <;> rfl
  have hconcluded := Comes.conclude hc (f.courses 0) (Fate.sighting cfg c.status f)
    { h with faults := Fate.pastOpen h.faults } opened hnext
    (hf ▸ Faults.Later.sighting f cfg c.status) (hf ▸ courses_sighting cfg c.status f)
  rw [Fate.told_concluding fun s => Fate.ended_of_sighting, ← Child.map_upTo]
  exact hconcluded.past ⟨h.events, rfl⟩ (.pastOpen _) hcourses

/-- **A copy is waited for** up to the time limit. -/
theorem Comes.await (hc : c.Plain loc) (cfg : Configuration) (test : Identity)
    (hf : h.faults = Fate.pastFork f) :
    Comes loc 0 h ((Fate.awaited cfg c.status f).told ((c.trace c.work.length).map .other)
        (fun n => c.trace n) ++ (Fate.awaited cfg c.status f).closing test c.pid)
      ((Fate.awaited cfg c.status f).result test) (await cfg test c (f.courses 0) h) := by
  unfold Supervision.await Fate.awaited
  cases cfg.seconds with
  | error t =>
    simp only [Host.advance_eq h (Nat.min_le_right _ _), Child.trace_min]
    exact (Comes.left (hc.after _) _ _).after (m := 0) rfl (.refl _) rfl rfl fun _ => rfl
  | ok x =>
    have hopens : Fate.opens h.faults = Fate.opens f := by rw [hf]; rfl
    have hsight : Fate.sighting cfg c.status f = if Fate.opens f
        then watch (f.courses 0) c.status (1000 * cfg.timeout.getD 0) 0 (f.courses 0).begins
          (Fate.pastOpen h.faults)
        else look (f.courses 0) c.status (1000 * cfg.timeout.getD 0) 0 (f.courses 0).begins
          (Fate.pastOpen h.faults) := by
      rw [hf]
      rfl
    simp only [Host.openDescriptor_eq, hopens]
    cases ho : Fate.opens f with
    | true =>
      rw [ho, if_pos rfl] at hsight
      simp only [awaitDescriptor, ← hsight]
      exact .sighted hc cfg hf fun c' s h' hc' hpid => hpid ▸ .collect hc' s h'
    | false =>
      rw [ho, if_neg Bool.false_ne_true] at hsight
      simp only [awaitPolling, ← hsight]
      refine .sighted hc cfg hf fun c' s h' _ hpid => ?_
      exact hpid ▸ (Comes.judge s _).past ⟨_, rfl⟩ (.refl _) rfl

/-! ## Running a test -/

/-- Entries that come to the same. -/
theorem Comes.congr (hc : Comes loc n h es v p) (he : h.journal.enterAll es = h.journal.enterAll fs) :
    Comes loc n h fs v p :=
  { hc with journal := hc.journal.trans he }

theorem Fate.enterAll_told {j : Journal} {own own' : List Entry} {part : Nat → List Other}
    (hj : j.enterAll own = j.enterAll own') {fate : Fate} :
    j.enterAll (fate.told own part ++ fs) = j.enterAll (fate.told own' part ++ fs) := by
  rw [Journal.enterAll_append, Journal.enterAll_append]
  refine congrArg (Journal.enterAll · fs) ?_
  rcases fate with _ | _ | (_ | _) | ⟨_, _ | _⟩
  · rfl
  · exact hj
  · exact hj
  · rfl
  · exact hj
  · rfl

theorem Child.Plain.mono {loc' : Option Location} (hc : c.Plain loc')
    (h : ∀ l, loc' = some l → loc = some l) : c.Plain loc :=
  { hc with log := fun l hl => ⟨h _ (hc.log l hl).1, (hc.log l hl).2⟩ }

/-- **A test in a copy of this process** returns and writes what the fate of the copy says. -/
theorem Comes.superviseFork (hh : h.Home loc) (cfg : Configuration) (d : Dumper) (test : Identity)
    (e : Ending) :
    let c := Child.begun h.nextPid d test e (h.journal.log.map (·.location))
    let fate := Fate.of cfg (endingStatus d test.name e) h.faults
    ∃ others, (∀ o ∈ others, IsPlain loc o) ∧ (h.strays = [] → others = []) ∧
      Comes loc fate.copies h
        (fate.entries test h.nextPid (Classifier.reportEntries d test e) (fun n => c.trace n) others)
        (fate.result test) (superviseFork cfg d test e h) := by
  intro c fate
  let note : Entry := .note s!"running {test.name} in a forked process"
  have hbegun : (h.forked test).journal = h.journal.enterAll [note, .name test] := rfl
  have hsettled : (h.forked test).journal.Settled := hbegun ▸ Journal.settled_enterAll hh.settled _
  have hlog : (h.forked test).journal.log.map (·.location) = h.journal.log.map (·.location) :=
    (Journal.alike_enterAll h.journal [note, .name test]).log
  cases hfork : h.faults.fork.next with
  | some x =>
    have hfate : fate = .unmade x := by simp only [fate, Fate.of, hfork]
    refine ⟨[], by simp, fun _ => rfl, ?_⟩
    rw [hfate, superviseFork_of_failed cfg d test e hfork]
    have hblank : ∀ v (h : Host), Comes loc 0 h [.blank] v (v, h.abandonLine) := fun v _ => .written v rfl
    exact (hblank _ _).after (m := 0) hbegun (.unforked _) rfl rfl fun _ => rfl
  | none =>
    have hfate : fate = Fate.awaited cfg (endingStatus d test.name e) h.faults := by
      simp only [fate, Fate.of, hfork]
    have hchild := Child.ofEnding_of_settled hsettled h.nextPid d test e
    rw [hlog] at hchild
    obtain ⟨others, hpasses⟩ := Host.passes_elapse (h.faults.courses 0).others (h := h.forked test)
      hh.strays
    refine ⟨others, hpasses.plain, fun hn => (hpasses.alone hn).2, ?_⟩
    have hplain : c.Plain loc := by
      refine (Child.plain_begun h.nextPid d test e (h.journal.log.map (·.location))).mono fun l hl => ?_
      obtain ⟨f, hf, rfl⟩ := Option.map_eq_some_iff.mp hl
      exact hh.log f hf
    have hcome : Comes loc 0 _ _ _ _ := Comes.await hplain cfg test hpasses.faults
    rw [Child.status_begun, ← hfate] at hcome
    -- what the copy does with all of its work comes to what it reports
    have hjournal := hpasses.journal
    have hsettled₂ : ((h.forked test).journal.enterAll (others.map .other)).Settled :=
      Journal.settled_enterAll hsettled _
    have hown := Child.enterAll_trace hsettled₂ h.nextPid d test e
    rw [(Journal.alike_enterAll (h.forked test).journal (others.map .other)).log, hlog, ← hjournal]
      at hown
    have htold := hcome.congr (Fate.enterAll_told hown)
    have hpassed : (h.forked test).journal.enterAll (others.map .other) =
        h.journal.enterAll ([note, .name test] ++ others.map .other) := by
      rw [Journal.enterAll_append, hbegun]
    have hall := htold.behind (h := h) (m := 1) (hjournal.trans hpassed) (hpasses.faults ▸ .pastFork _)
      (fun s hs => Or.inr (hpasses.strays s hs)) (fun hno => by rw [(hpasses.alone hno).1]; exact hno)
      hpasses.nextPid fun _ => by rw [hpasses.faults]; rfl
    have hcopies : fate.copies = 1 := hfate ▸ Fate.copies_awaited cfg _ _
    have hentries : fate.entries test h.nextPid (Classifier.reportEntries d test e)
        (fun n => c.trace n) others = [note, .name test] ++ others.map .other ++
          (fate.told (Classifier.reportEntries d test e) (fun n => c.trace n) ++
            fate.closing test h.nextPid) := List.append_assoc ..
    rw [hcopies, hentries, superviseFork_of_forked cfg d test e hfork, hchild]
    exact hall

/-- A host stays at home, whatever a part of the work on it comes to. -/
theorem Comes.home (hc : Comes loc n h es v p) (hh : h.Home loc) : p.2.Home loc :=
  hh.entered hc.journal fun s hs => (hc.strays s hs).elim (hh.strays s) id

/-! ## What all work on a host keeps -/

/-- One host has become another. -/
structure Host.Onward (h h' : Host) : Prop where
  colored : h'.journal.colored = h.journal.colored
  verbose : h'.journal.verbose = h.journal.verbose
  settled : h.journal.Settled → h'.journal.Settled
  faults : h.faults.Later h'.faults

namespace Host.Onward

variable {h'' : Host}

theorem refl (h : Host) : h.Onward h := ⟨rfl, rfl, id, .refl _⟩

theorem trans (h₁ : h.Onward h') (h₂ : h'.Onward h'') : h.Onward h'' :=
  ⟨h₂.colored.trans h₁.colored, h₂.verbose.trans h₁.verbose, fun hs => h₂.settled (h₁.settled hs),
    h₁.faults.trans h₂.faults⟩

theorem of_past (hp : h.Past f h') (hf : h.faults.Later f) : h.Onward h' := by
  obtain ⟨events, rfl⟩ := hp
  exact ⟨rfl, rfl, id, hf⟩

theorem enterAll (h : Host) (es : List Entry) : h.Onward (h.onJournal (·.enterAll es)) :=
  ⟨(Journal.alike_enterAll _ es).colored, (Journal.alike_enterAll _ es).verbose,
    fun hs => Journal.settled_enterAll hs es, .refl _⟩

theorem of_comes (hc : Comes loc n h es v p) : h.Onward p.2 := by
  have halike := Journal.alike_enterAll h.journal es
  rw [← hc.journal] at halike
  exact ⟨halike.colored, halike.verbose, fun hs => hc.journal ▸ Journal.settled_enterAll hs es,
    hc.faults⟩

theorem onDisk (disk : Disk) (h : Host) : h.Onward (h.onJournal fun j => { j with disk }) :=
  ⟨rfl, rfl, fun hs => ⟨hs.console, hs.log⟩, .refl _⟩

theorem log (h : Host) (e : Event) : h.Onward (h.log e) := ⟨rfl, rfl, id, .refl _⟩

theorem report (h : Host) (reason : String) : h.Onward (h.reportFailure reason) :=
  .enterAll h [.outcome s!"FAIL ({reason})\n"]

theorem desert (h : Host) (s : Stray) : h.Onward (h.desert s) := ⟨rfl, rfl, id, .refl _⟩

/-- Also where programs were left behind. -/
theorem wake (h : Host) (i : Nat) : h.Onward (h.wake i) := by
  unfold Host.wake
  split
  · exact refl h
  · rename_i c _
    have hstep : h.Onward (step c h).2 := by
      cases hw : c.work with
      | cons a work =>
        rw [step_of_work hw]
        exact enterAll h _
      | nil =>
        rw [step_of_done hw]
        unfold Host.close
        split
        · exact log h _
        · exact refl h
    exact ⟨hstep.colored, hstep.verbose, hstep.settled, hstep.faults⟩
  · exact ⟨rfl, rfl, fun hs => ⟨hs.console, hs.log⟩, .refl _⟩

theorem elapse : ∀ (order : List Nat) (h : Host), h.Onward (h.elapse order)
  | [], h => refl h
  | i :: order, h => (wake h i).trans (elapse order (h.wake i))

end Host.Onward

end TestRig.Supervision
