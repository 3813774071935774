import TestRig.Proofs.Forking
import TestRig.Proofs.Limits

/-!
# TestRig.Proofs.Collecting — no process is left behind

A copy of this process has to be waited for once, when it has ended; and it may not be killed after
that, since its number may belong to another process by then.

* `CollectedOnce`: what the events say of a process for which this was done.
* `Fate.Strands`: the one way in which a copy is not collected where killing and waiting do not fail.
  It has been killed, at its time limit or in the handling of an interrupt, and the wait for its ending
  is interrupted.
* `Fate.Forestalls`: the one way in which a copy is killed after it was collected.  The wait that
  collects it is interrupted, and the handler cannot know.
* `superviseFork_collects`: any other copy is collected exactly once and not killed after that.
-/

namespace TestRig.Supervision

variable {f : Faults} {h h' : Host} {c : Child} {test : Identity} {pid ms : Nat}
  {cfg : Configuration} {status : Option Status} {p : Except Halt Bool × Host}

/-! ## Events of a process -/

/-- The ending of a process is collected exactly once, and the process is not killed after that. -/
def CollectedOnce (pid : Nat) (es : List Event) : Prop :=
  ∃ before after, es = before ++ .reaped pid :: after ∧
    .reaped pid ∉ before ∧ .reaped pid ∉ after ∧ ∀ console log, .killed pid console log ∉ after

/-- A process is killed, and its ending is not collected. -/
def LeftBehind (pid : Nat) (es : List Event) : Prop :=
  (∃ console log, .killed pid console log ∈ es) ∧ .reaped pid ∉ es

/-- The ending of a process is collected exactly once, and the process is killed after that. -/
def KilledLate (pid : Nat) (es : List Event) : Prop :=
  ∃ before after, es = before ++ .reaped pid :: after ∧
    .reaped pid ∉ before ∧ .reaped pid ∉ after ∧ ∃ console log, .killed pid console log ∈ after

/-- Nothing happens but that processes end by themselves. -/
def OnlyEndings (es : List Event) : Prop := ∀ e ∈ es, ∃ pid console log, e = .ended pid console log

theorem OnlyEndings.append {es fs : List Event} (h : OnlyEndings es) (h' : OnlyEndings fs) :
    OnlyEndings (es ++ fs) := fun e he => (List.mem_append.mp he).elim (h e) (h' e)

theorem OnlyEndings.reaped {es : List Event} (h : OnlyEndings es) : .reaped pid ∉ es := by
  intro hmem
  obtain ⟨_, _, _, he⟩ := h _ hmem
  cases he

/-- A history in which processes only end by themselves says nothing of the collecting of one. -/
theorem CollectedOnce.behind {es fs : List Event} (h : CollectedOnce pid fs)
    (hes : OnlyEndings es) : CollectedOnce pid (es ++ fs) := by
  obtain ⟨before, after, rfl, hbefore, hafter⟩ := h
  refine ⟨es ++ before, after, (List.append_assoc ..).symm, ?_, hafter⟩
  simp [hes.reaped, hbefore]

theorem LeftBehind.behind {es fs : List Event} (h : LeftBehind pid fs) (hes : OnlyEndings es) :
    LeftBehind pid (es ++ fs) := by
  obtain ⟨⟨console, log, hkilled⟩, hreaped⟩ := h
  exact ⟨⟨console, log, List.mem_append_right _ hkilled⟩, by simp [hes.reaped, hreaped]⟩

theorem KilledLate.behind {es fs : List Event} (h : KilledLate pid fs) (hes : OnlyEndings es) :
    KilledLate pid (es ++ fs) := by
  obtain ⟨before, after, rfl, hbefore, hafter⟩ := h
  refine ⟨es ++ before, after, (List.append_assoc ..).symm, ?_, hafter⟩
  simp [hes.reaped, hbefore]

variable {cs : List Chunk} {texts : List String}

theorem collectedOnce_reaped : CollectedOnce pid [.reaped pid] :=
  ⟨[], [], rfl, by simp, by simp, by simp⟩

theorem collectedOnce_killed : CollectedOnce pid [.killed pid cs texts, .reaped pid] :=
  ⟨[.killed pid cs texts], [], rfl, by simp, by simp, by simp⟩

theorem leftBehind_killed : LeftBehind pid [.killed pid cs texts] :=
  ⟨⟨cs, texts, List.mem_singleton_self _⟩, by simp⟩

theorem killedLate_reaped : KilledLate pid [.reaped pid, .killed pid cs texts] :=
  ⟨[], [_], rfl, by simp, by simp, cs, texts, List.mem_singleton_self _⟩

/-! ## Processes that go on -/

/-- A host on which processes have gone on and some have ended. -/
structure Host.GoesOn (h h' : Host) : Prop where
  events : ∃ es, h'.events = h.events ++ es ∧ OnlyEndings es
  faults : h'.faults = h.faults

namespace Host.GoesOn

variable {h'' : Host}

theorem of_same (he : h'.events = h.events) (hf : h'.faults = h.faults) : h.GoesOn h' :=
  ⟨⟨[], by rw [he, List.append_nil], fun _ he => nomatch he⟩, hf⟩

theorem trans (hg : h.GoesOn h') (hg' : h'.GoesOn h'') : h.GoesOn h'' := by
  obtain ⟨es, he, hes⟩ := hg.events
  obtain ⟨fs, he', hfs⟩ := hg'.events
  exact ⟨⟨es ++ fs, by rw [he', he, List.append_assoc], hes.append hfs⟩, hg'.faults.trans hg.faults⟩

theorem step (c : Child) (h : Host) : h.GoesOn (Host.step c h).2 := by
  unfold Host.step
  split
  · exact of_same rfl rfl
  · split
    · exact ⟨⟨[_], rfl, fun e he => ⟨_, _, _, List.mem_singleton.mp he⟩⟩, rfl⟩
    · exact of_same rfl rfl

theorem advance : ∀ (n : Nat) (c : Child) (h : Host), h.GoesOn (Host.advance n c h).2
  | 0, _, _ => of_same rfl rfl
  | n + 1, c, h => (step c h).trans (advance n (Host.step c h).1 (Host.step c h).2)

theorem runUntil (k : Course) (t : Nat) (c : Child) (h : Host) :
    h.GoesOn (Host.runUntil k t c h).2 := by
  unfold Host.runUntil
  split
  · exact advance _ _ _
  · exact advance _ _ _

theorem wake (h : Host) (i : Nat) : h.GoesOn (h.wake i) := by
  unfold Host.wake
  split
  · exact of_same rfl rfl
  · exact ⟨(step _ h).events, (step _ h).faults⟩
  · exact of_same rfl rfl

theorem elapse : ∀ (order : List Nat) (h : Host), h.GoesOn (h.elapse order)
  | [], _ => of_same rfl rfl
  | i :: order, h => (wake h i).trans (elapse order (h.wake i))

end Host.GoesOn

theorem Host.pid_step (c : Child) (h : Host) : (step c h).1.pid = c.pid := by
  unfold step
  split
  · rename_i a _ _
    rw [Child.act_eq]
    cases a <;> rfl
  · split <;> rfl

theorem Host.pid_advance : ∀ (n : Nat) (c : Child) (h : Host), (advance n c h).1.pid = c.pid
  | 0, _, _ => rfl
  | n + 1, c, h => (pid_advance n (step c h).1 (step c h).2).trans (pid_step c h)

theorem Host.pid_runUntil (k : Course) (t : Nat) (c : Child) (h : Host) :
    (runUntil k t c h).1.pid = c.pid := by
  unfold runUntil
  split
  · exact pid_advance _ _ _
  · exact pid_advance _ _ _

/-! ## Single calls -/

/-- Has a wait collected an ending?  An interrupted one may have. -/
def WaitFault.collects : Option WaitFault → Bool
  | none => true
  | some (.interrupted collected) => collected
  | some (.failed _) => false

theorem Host.events_reap (h : Host) (pid : Nat) : (h.reap pid).2.events = h.events ++
    if WaitFault.collects h.faults.wait.next then [.reaped pid] else [] := by
  have hwait : h.wait = (h.faults.wait.next, { h with faults := Fate.pastWait h.faults }) := rfl
  unfold Host.reap
  rw [hwait]
  rcases h.faults.wait.next with _ | (_ | _) | _ <;>
    simp [WaitFault.collects, Host.log]

theorem Host.events_reapOnce (h : Host) (pid : Nat) (collected : Bool) :
    (h.reapOnce pid collected).2.events = h.events ++
      if !collected && WaitFault.collects h.faults.wait.next then [.reaped pid] else [] := by
  cases collected with
  | true => exact (List.append_nil _).symm
  | false => exact h.events_reap pid

/-- A child is killed; of the calls only those to kill change. -/
theorem Host.killChild_of_ok (hk : h.faults.kill.next = none) (c : Child) : ∃ h',
    h.killChild c = (none, h') ∧ h'.faults.wait = h.faults.wait ∧
    h'.events = h.events ++ [.killed c.pid c.console c.pendingLog] := by
  unfold Host.killChild Host.kill
  rw [hk]
  exact ⟨_, rfl, rfl, rfl⟩

theorem events_judge (s : Status) (h : Host) : (judge test pid s h).2.events = h.events := by
  cases s with
  | killed n => rfl
  | exited code =>
    simp only [judge, judgeExit, checkExitCode]
    split
    · rfl
    · split <;> rfl

theorem events_passUnless (e : Exception) (h : Host) : (passUnless e h).2.events = h.events := by
  unfold passUnless
  split <;> rfl

/-! ## Parts of the work -/

/-- What a part of the work on a host adds to the events. -/
def Adds (p : Except Halt Bool × Host) (h : Host) (es : List Event) : Prop :=
  p.2.events = h.events ++ es

/-- A child that is killed at its time limit. -/
theorem adds_expire (hk : h.faults.kill.next = none) : Adds (expire c h) h
    (.killed c.pid c.console c.pendingLog ::
      if WaitFault.collects h.faults.wait.next then [.reaped c.pid] else []) := by
  obtain ⟨h₁, hkill, hwait, he⟩ := h.killChild_of_ok hk c
  have hreap := h₁.events_reap c.pid
  rw [he, hwait, List.append_assoc] at hreap
  unfold Adds expire
  rw [hkill]
  rcases hr : h₁.reap c.pid with ⟨_ | _ | _, h₂⟩ <;> rw [hr] at hreap <;> simp only [hr] <;>
    exact hreap

theorem expire_result (hk : h.faults.kill.next = none)
    (hw : h.faults.wait.next = some (.interrupted false)) :
    (expire c h).1 = .error (.raised .interrupted) := by
  obtain ⟨h₁, hkill, hwait, -⟩ := h.killChild_of_ok hk c
  obtain ⟨h₂, hreap, -⟩ := h₁.reap_eq c.pid
  unfold expire
  simp only [hkill, hreap, hwait, hw]
  rfl

/-- A child that is killed after an interrupt. -/
theorem adds_stopChild (hk : h.faults.kill.next = none) (collected : Bool) :
    Adds (stopChild c collected h) h (.killed c.pid c.console c.pendingLog ::
      if !collected && WaitFault.collects h.faults.wait.next then [.reaped c.pid] else []) := by
  obtain ⟨h₁, hkill, hwait, he⟩ := h.killChild_of_ok hk c
  have hreap := h₁.events_reapOnce c.pid collected
  rw [he, hwait, List.append_assoc] at hreap
  unfold Adds stopChild
  rw [hkill]
  rcases hr : h₁.reapOnce c.pid collected with ⟨_ | _ | e, h₂⟩ <;> rw [hr] at hreap <;> simp only [hr]
  · exact hreap
  · exact hreap
  · exact (events_passUnless e h₂).trans hreap

theorem stopChild_result (hk : h.faults.kill.next = none) (collected : Bool)
    (hw : ∀ e, h.faults.wait.next ≠ some (.failed e)) :
    (stopChild c collected h).1 = .error (.raised .interrupted) := by
  obtain ⟨h₁, hkill, hwait, -⟩ := h.killChild_of_ok hk c
  obtain ⟨h₂, hreap, -⟩ := h₁.reapOnce_eq c.pid collected
  unfold stopChild
  simp only [hkill, hreap, hwait]
  rcases hnext : h.faults.wait.next with _ | _ | e
  · rfl
  · rfl
  · exact absurd hnext (hw e)

/-! ## Waiting -/

/-- No call to kill or to wait fails, and only the first wait can be interrupted. -/
structure Faults.Obliging (f : Faults) : Prop where
  kill : f.kill.Succeed
  first : f.wait.next = none ∨ ∃ collected, f.wait.next = some (.interrupted collected)
  others : f.wait.later.Succeed

/-- A wait has come to its end and has seen that the process has ended. -/
def Sighting.seesEnd (w : Sighting) : Bool :=
  match w.found with
  | .ok (some _) => true
  | _ => false

/-- The first wait is interrupted before it has collected the copy, and it comes behind a kill: there is
a descriptor to poll, and the poll has not shown that the copy has ended. -/
def Fate.Strands (cfg : Configuration) (status : Option Status) (f : Faults) : Prop :=
  opens f = true ∧ f.wait.next = some (.interrupted false) ∧ (sighting cfg status f).seesEnd = false

/-- The first wait is interrupted when it has collected the copy, which has ended by itself. -/
def Fate.Forestalls (cfg : Configuration) (status : Option Status) (f : Faults) : Prop :=
  f.wait.next = some (.interrupted true) ∧
    if opens f then (sighting cfg status f).seesEnd = true
    else ((f.courses 0).ended? status (f.courses 0).begins).isSome = true

/-- What a part of the work on a host adds to the events behind endings of processes. -/
def Trails (h : Host) (p : Except Halt Bool × Host) (tail : List Event) : Prop :=
  ∃ es, OnlyEndings es ∧ p.2.events = h.events ++ (es ++ tail)

/-- A copy was seen to have ended, and is collected: by the first wait or, if that is interrupted, by the
handler of the interrupt. -/
theorem adds_collect (hf : h.faults.Obliging) (test : Identity) (c : Child) (s : Status) :
    ∃ console log,
    (h.faults.wait.next = none → Adds (collect test c s h) h [.reaped c.pid]) ∧
    (h.faults.wait.next = some (.interrupted false) →
      Adds (collect test c s h) h [.killed c.pid console log, .reaped c.pid]) ∧
    (h.faults.wait.next = some (.interrupted true) →
      (collect test c s h).1 = .error (.raised .interrupted) ∧
      Adds (collect test c s h) h [.reaped c.pid, .killed c.pid console log]) := by
  obtain ⟨h', hreap, events, hpast⟩ := h.reap_eq c.pid
  have he := h.events_reap c.pid
  have hkill : h'.faults.kill.next = none := by rw [hpast]; exact hf.kill 0
  have hwait : h'.faults.wait.next = none := by rw [hpast]; exact hf.others 0
  rw [hreap] at he
  dsimp only at he
  have hstop := adds_stopChild (c := c) hkill
  unfold Adds at hstop ⊢
  unfold collect
  simp only [hreap]
  refine ⟨c.console, c.pendingLog, fun hw => ?_, fun hw => ?_, fun hw => ?_⟩
  · simp only [hw, events_judge, he]
    rfl
  · simp only [hw, hstop, hwait, he]
    simp [WaitFault.collects]
  · simp only [hw, hstop, he]
    exact ⟨stopChild_result hkill true (by simp [hwait]), by simp [WaitFault.collects]⟩

/-- What follows on a wait, when the copy has gone on. -/
theorem conclude_eq (c : Child) (k : Course) (w : Sighting) (h : Host)
    (next : Child → Status → Host → Except Halt Bool × Host) : ∃ c' h', c'.pid = c.pid ∧
      ({ h with faults := w.faults } : Host).GoesOn h' ∧ conclude c k w h next =
        match w.found with
        | .ok (some s) => next c' s h'
        | .ok none => expire c' h'
        | .error (.raised x) => (.error x, h'.leave c')
        | .error (.interrupted collected) =>
          stopChild c' collected (if collected then h'.log (.reaped c'.pid) else h') :=
  ⟨_, _, Host.pid_runUntil k w.time c _, .runUntil k w.time c _, rfl⟩

theorem Trails.of_adds {es : List Event} (hg : ({ h with faults := f } : Host).GoesOn h')
    (ha : Adds p h' es) : Trails h p es := by
  obtain ⟨fs, he, hfs⟩ := hg.events
  exact ⟨fs, hfs, by rw [ha, he, List.append_assoc]⟩

/-- What the first wait was for: a wait with a descriptor makes no calls that count. -/
theorem Faults.Obliging.sighting_of_opens (hf : f.Obliging) (ho : Fate.opens f = true)
    (hms : ms < pollLimit) (ht : cfg.timeout = some ms) (status : Option Status) :
    let w := Fate.sighting cfg status f
    w.faults.Obliging ∧ w.faults.wait = f.wait ∧
      ((∃ s, w.found = .ok s) ∨ w.found = .error (.interrupted false)) := by
  intro w
  have hw : w = watch (f.courses 0) status (1000 * cfg.timeout.getD 0) 0 (f.courses 0).begins
      (Fate.pastOpen (Fate.pastFork f)) := by
    simp only [w, Fate.sighting, ho, if_true]
  obtain ⟨poll, hfaults⟩ := faults_watch (f.courses 0) status (1000 * cfg.timeout.getD 0) 0
    (f.courses 0).begins (Fate.pastOpen (Fate.pastFork f))
  have hsame : (Fate.pastOpen (Fate.pastFork f)).kill = f.kill ∧
      (Fate.pastOpen (Fate.pastFork f)).wait = f.wait := by
    unfold Fate.pastOpen
    split <;> exact ⟨rfl, rfl⟩
  rw [← hw] at hfaults
  have hwait : w.faults.wait = f.wait := by rw [hfaults]; exact hsame.2
  refine ⟨⟨?_, hwait ▸ hf.first, hwait ▸ hf.others⟩, hwait, ?_⟩
  · rw [hfaults]
    exact hsame.1 ▸ hf.kill
  · rw [hw]
    refine (watch_found fun _ => ?_).imp_right And.left
    rw [ht]
    exact Nat.lt_of_le_of_lt (span_le _ _) (Nat.max_lt.mpr ⟨by decide, hms⟩)

/-- Repeated looks: the first one is interrupted, or none. -/
theorem Faults.Obliging.sighting_of_not_opens (hf : f.Obliging) (ho : Fate.opens f = false)
    (cfg : Configuration) (status : Option Status) :
    let w := Fate.sighting cfg status f
    let ended := ((f.courses 0).ended? status (f.courses 0).begins).isSome
    w.faults.kill.next = none ∧ w.faults.wait.next = none ∧
      ((f.wait.next = none ∧ ∃ s, w.found = .ok s) ∨
        ∃ collected, f.wait.next = some (.interrupted collected) ∧
          w.found = .error (.interrupted (collected && ended))) := by
  intro w ended
  have hsame : (Fate.pastOpen (Fate.pastFork f)).kill = f.kill ∧
      (Fate.pastOpen (Fate.pastFork f)).wait = f.wait := by
    unfold Fate.pastOpen
    split <;> exact ⟨rfl, rfl⟩
  have hw : w = look (f.courses 0) status (1000 * cfg.timeout.getD 0) 0 (f.courses 0).begins
      (Fate.pastOpen (Fate.pastFork f)) := by
    simp only [w, Fate.sighting, ho, Bool.false_eq_true, if_false]
  have hlater := Faults.Later.look (Fate.pastOpen (Fate.pastFork f)) (f.courses 0) status
    (1000 * cfg.timeout.getD 0) 0 (f.courses 0).begins
  have hkill : w.faults.kill.next = none :=
    (hw ▸ hlater.kill).succeed (hsame.1 ▸ hf.kill) 0
  rcases hf.first with hfirst | ⟨collected, hfirst⟩
  · have hwaits : (Fate.pastOpen (Fate.pastFork f)).wait.Succeed := by
      rw [hsame.2]
      rintro (_ | n)
      · exact hfirst
      · exact hf.others n
    exact ⟨hkill, (hw ▸ hlater.wait).succeed hwaits 0, Or.inl ⟨hfirst, hw ▸ look_of_succeed hwaits⟩⟩
  · have hcall : (Fate.pastOpen (Fate.pastFork f)).callWait = (some (.interrupted collected),
        Fate.pastWait (Fate.pastOpen (Fate.pastFork f))) := by
      unfold Faults.callWait
      rw [hsame.2, hfirst, Fate.pastWait, hsame.2]
    rw [look] at hw
    simp only [hcall] at hw
    refine ⟨hkill, ?_, Or.inr ⟨collected, hfirst, by rw [hw]⟩⟩
    rw [hw]
    show (Fate.pastOpen (Fate.pastFork f)).wait.later.next = none
    rw [hsame.2]
    exact hf.others 0

/-- What becomes of a copy behind a wait for it: it is collected once and not killed after that, or it is
killed late, or it is left behind. -/
structure Settles (cfg : Configuration) (status : Option Status) (f : Faults) (pid : Nat)
    (p : Except Halt Bool × Host) (es : List Event) : Prop where
  once : ¬ Fate.Strands cfg status f → ¬ Fate.Forestalls cfg status f → CollectedOnce pid es
  late : Fate.Forestalls cfg status f → p.1 = .error (.raised .interrupted) ∧ KilledLate pid es
  never : Fate.Strands cfg status f → p.1 = .error (.raised .interrupted) ∧ LeftBehind pid es

theorem Settles.behind {es fs : List Event} (hs : Settles cfg status f pid p fs)
    (hes : OnlyEndings es) : Settles cfg status f pid p (es ++ fs) :=
  ⟨fun hno hno' => (hs.once hno hno').behind hes, fun h => (hs.late h).imp_right (·.behind hes),
    fun h => (hs.never h).imp_right (·.behind hes)⟩

theorem Settles.collected {es : List Event} (hs : ¬ Fate.Strands cfg status f)
    (hf : ¬ Fate.Forestalls cfg status f) (h : CollectedOnce pid es) : Settles cfg status f pid p es :=
  ⟨fun _ _ => h, fun hno => absurd hno hf, fun hno => absurd hno hs⟩

theorem Settles.killedLate {es : List Event} (hs : ¬ Fate.Strands cfg status f)
    (hf : Fate.Forestalls cfg status f) (hp : p.1 = .error (.raised .interrupted))
    (h : KilledLate pid es) : Settles cfg status f pid p es :=
  ⟨fun _ hno => absurd hf hno, fun _ => ⟨hp, h⟩, fun hno => absurd hno hs⟩

theorem Settles.leftBehind {es : List Event} (hs : Fate.Strands cfg status f)
    (hf : ¬ Fate.Forestalls cfg status f) (hp : p.1 = .error (.raised .interrupted))
    (h : LeftBehind pid es) : Settles cfg status f pid p es :=
  ⟨fun hno => absurd hs hno, fun hno => absurd hno hf, fun _ => ⟨hp, h⟩⟩

theorem Fate.not_forestalls_of_first (hw : f.wait.next ≠ some (.interrupted true)) :
    ¬ Forestalls cfg status f := fun h => hw h.1

/-- With a descriptor: a copy that was seen to have ended is collected. -/
theorem settles_of_seen (ho : Fate.opens f = true)
    (hsees : (Fate.sighting cfg status f).seesEnd = true) (hf : h.faults.Obliging)
    (hw : h.faults.wait.next = f.wait.next) (test : Identity) (c : Child) (s : Status) :
    ∃ tail, Adds (collect test c s h) h tail ∧
      Settles cfg status f c.pid (collect test c s h) tail := by
  have hstrands : ¬ Fate.Strands cfg status f := fun ⟨_, _, hno⟩ => by simp [hsees] at hno
  obtain ⟨console, log, hnone, hfalse, htrue⟩ := adds_collect hf test c s
  rcases hf.first with hfirst | ⟨_ | _, hfirst⟩
  · exact ⟨_, hnone hfirst, .collected hstrands
      (Fate.not_forestalls_of_first (by simp [← hw, hfirst])) collectedOnce_reaped⟩
  · exact ⟨_, hfalse hfirst, .collected hstrands
      (Fate.not_forestalls_of_first (by simp [← hw, hfirst])) collectedOnce_killed⟩
  · obtain ⟨hresult, hadds⟩ := htrue hfirst
    have hforestalls : Fate.Forestalls cfg status f := ⟨hw ▸ hfirst, by rw [if_pos ho]; exact hsees⟩
    exact ⟨_, hadds, .killedLate hstrands hforestalls hresult killedLate_reaped⟩

/-- With a descriptor: a copy that was not seen to have ended is killed, and the first wait comes behind
that. -/
theorem settles_of_unseen (ho : Fate.opens f = true)
    (hsees : (Fate.sighting cfg status f).seesEnd = false) (hf : f.Obliging)
    (hp : f.wait.next = some (.interrupted false) → p.1 = .error (.raised .interrupted)) :
    Settles cfg status f c.pid p (.killed c.pid c.console c.pendingLog ::
      if WaitFault.collects f.wait.next then [.reaped c.pid] else []) := by
  have hforestalls : ¬ Fate.Forestalls cfg status f := by
    rintro ⟨-, hlate⟩
    rw [if_pos ho, hsees] at hlate
    cases hlate
  rcases hf.first with hfirst | ⟨_ | _, hfirst⟩
  · have hstrands : ¬ Fate.Strands cfg status f := fun ⟨_, hno, _⟩ => by simp [hfirst] at hno
    rw [hfirst]
    exact .collected hstrands hforestalls collectedOnce_killed
  · rw [hfirst]
    exact .leftBehind ⟨ho, hfirst, hsees⟩ hforestalls (hp hfirst) leftBehind_killed
  · have hstrands : ¬ Fate.Strands cfg status f := fun ⟨_, hno, _⟩ => by simp [hfirst] at hno
    rw [hfirst]
    exact .collected hstrands hforestalls collectedOnce_killed

/-- With a descriptor: a copy is collected behind the wait for it, or killed. -/
theorem settles_of_opens (hf : f.Obliging) (ho : Fate.opens f = true) (hms : ms < pollLimit)
    (ht : cfg.timeout = some ms) (c : Child) (k : Course) (h : Host) :
    let p := conclude c k (Fate.sighting cfg status f) h (collect test)
    ∃ tail, Trails h p tail ∧ Settles cfg status f c.pid p tail := by
  intro p
  obtain ⟨hw, hsame, hfound⟩ := hf.sighting_of_opens ho hms ht status
  obtain ⟨c', h', hpid, hgoes, hp⟩ := conclude_eq c k (Fate.sighting cfg status f) h (collect test)
  have hfaults : h'.faults = (Fate.sighting cfg status f).faults := hgoes.faults
  have hwait : h'.faults.wait.next = f.wait.next := by rw [hfaults, hsame]
  have hobliging : h'.faults.Obliging := hfaults ▸ hw
  rw [← hpid]
  rcases hfound with ⟨_ | s, hs⟩ | hs
  · have hp : p = expire c' h' := by simp only [p, hp, hs]
    have hadds := adds_expire (c := c') (hobliging.kill 0)
    have hresult := expire_result (c := c') (hobliging.kill 0)
    rw [hwait, ← hp] at hadds hresult
    exact ⟨_, .of_adds hgoes hadds,
      settles_of_unseen ho (by rw [Sighting.seesEnd, hs]) hf hresult⟩
  · have hp : p = collect test c' s h' := by simp only [p, hp, hs]
    obtain ⟨tail, hadds, hsettles⟩ := settles_of_seen ho
      (by rw [Sighting.seesEnd, hs]) hobliging hwait test c' s
    rw [← hp] at hadds hsettles
    exact ⟨tail, .of_adds hgoes hadds, hsettles⟩
  · have hp : p = stopChild c' false h' := by simp only [p, hp, hs, Bool.false_eq_true, if_false]
    have hadds := adds_stopChild (c := c') (hobliging.kill 0) false
    have hresult := stopChild_result (c := c') (hobliging.kill 0) false
    rw [hwait, ← hp] at hadds hresult
    exact ⟨_, .of_adds hgoes hadds, settles_of_unseen ho (by rw [Sighting.seesEnd, hs]) hf
      fun hw => hresult (by simp [hw])⟩

/-- By repeated looks: the first look is interrupted, and the copy killed, whether that look has collected
it or not. -/
theorem settles_of_pressed {late : Bool} (hstrands : ¬ Fate.Strands cfg status f)
    (hforestalls : Fate.Forestalls cfg status f ↔ late = true)
    (hk : h.faults.kill.next = none) (hw : h.faults.wait.next = none) (c : Child) :
    let p := stopChild c late (if late then h.log (.reaped c.pid) else h)
    ∃ tail, Adds p h tail ∧ Settles cfg status f c.pid p tail := by
  cases late with
  | true =>
    have hadds := adds_stopChild (h := h.log (.reaped c.pid)) (c := c) hk true
    have hresult := stopChild_result (h := h.log (.reaped c.pid)) (c := c) hk true
      (by rw [show (h.log (.reaped c.pid)).faults = h.faults from rfl, hw]; simp)
    refine ⟨[.reaped c.pid, .killed c.pid c.console c.pendingLog], ?_,
      .killedLate hstrands (hforestalls.mpr rfl) hresult killedLate_reaped⟩
    rw [if_pos rfl, Adds, hadds]
    simp [Host.log]
  | false =>
    have hadds := adds_stopChild (c := c) hk false
    rw [hw] at hadds
    exact ⟨_, hadds, .collected hstrands (by simp [hforestalls]) collectedOnce_killed⟩

/-- By repeated looks: a copy is collected by a look, or by the wait behind a kill. -/
theorem settles_of_not_opens (hf : f.Obliging) (ho : Fate.opens f = false) (c : Child) (k : Course)
    (h : Host) :
    let p := conclude c k (Fate.sighting cfg status f) h fun c s h =>
      judge test c.pid s (h.log (.reaped c.pid))
    ∃ tail, Trails h p tail ∧ Settles cfg status f c.pid p tail := by
  intro p
  obtain ⟨hkill, hwait, hfound⟩ := hf.sighting_of_not_opens ho cfg status
  obtain ⟨c', h', hpid, hgoes, hp⟩ := conclude_eq c k (Fate.sighting cfg status f) h fun c s h =>
    judge test c.pid s (h.log (.reaped c.pid))
  have hfaults : h'.faults = (Fate.sighting cfg status f).faults := hgoes.faults
  rw [← hfaults] at hkill hwait
  rw [← hpid]
  have hstrands : ¬ Fate.Strands cfg status f := fun ⟨hyes, _⟩ => by simp [ho] at hyes
  rcases hfound with ⟨hfirst, _ | s, hs⟩ | ⟨collected, hfirst, hs⟩
  · have hp : p = expire c' h' := by simp only [p, hp, hs]
    have hadds := adds_expire (c := c') hkill
    rw [← hp, hwait] at hadds
    exact ⟨_, .of_adds hgoes hadds, .collected hstrands
      (Fate.not_forestalls_of_first (by simp [hfirst])) collectedOnce_killed⟩
  · have hp : p = judge test c'.pid s (h'.log (.reaped c'.pid)) := by simp only [p, hp, hs]
    have hadds : Adds p h' [.reaped c'.pid] := by
      rw [Adds, hp, events_judge]
      rfl
    exact ⟨_, .of_adds hgoes hadds, .collected hstrands
      (Fate.not_forestalls_of_first (by simp [hfirst])) collectedOnce_reaped⟩
  · let late := collected && ((f.courses 0).ended? status (f.courses 0).begins).isSome
    have hforestalls : Fate.Forestalls cfg status f ↔ late = true := by
      simp [late, Fate.Forestalls, ho, hfirst]
    have hp : p = stopChild c' late (if late then h'.log (.reaped c'.pid) else h') := by
      simp only [p, hp, hs, late]
    obtain ⟨tail, hadds, hsettles⟩ := settles_of_pressed hstrands hforestalls hkill hwait c'
    rw [← hp] at hadds hsettles
    exact ⟨tail, .of_adds hgoes hadds, hsettles⟩

/-! ## Running a test -/

/-- Running a test in a copy comes to concluding from a wait for it. -/
theorem superviseFork_eq (d : Dumper) (test : Identity) (e : Ending) {x : Binary64}
    (hx : cfg.seconds = .ok x) (hfork : h.faults.fork.next = none) :
    let status := endingStatus d test.name e
    let w := Fate.sighting cfg status h.faults
    ∃ c h₂, c.pid = h.nextPid ∧
      (∃ console log es, OnlyEndings es ∧
        h₂.events = h.events ++ .forked h.nextPid console log :: es) ∧
      superviseFork cfg d test e h = conclude c (h.faults.courses 0) w h₂
        (if Fate.opens h.faults then collect test
          else fun c s h => judge test c.pid s (h.log (.reaped c.pid))) := by
  intro status w
  have hgoes := Host.GoesOn.elapse (h.faults.courses 0).others (h.forked test)
  obtain ⟨es, he, hes⟩ := hgoes.events
  let c := Child.ofEnding h.nextPid d test e (h.forked test).journal
  have hstatus : c.status = status := Child.status_begun h.nextPid d test e none
  have hopens : Fate.opens (h.forked test).faults = Fate.opens h.faults := rfl
  refine ⟨c, { (h.forked test).elapse (h.faults.courses 0).others with
    faults := Fate.pastOpen (h.forked test).faults }, rfl,
    ⟨(h.begun test).journal.console.pending, Host.pendingLog (h.begun test).journal, es, hes, ?_⟩, ?_⟩
  · rw [he, Host.forked, List.append_assoc]
    rfl
  · rw [superviseFork_of_forked cfg d test e hfork]
    unfold Supervision.await
    simp only [hx, Host.openDescriptor_eq, hgoes.faults, hopens, w, Fate.sighting, ← hstatus]
    cases Fate.opens h.faults <;> rfl

/-- **A test in a copy of this process**, where killing and waiting do not fail, but the first wait
can be interrupted: the copy is collected exactly once and not killed after that, unless the interrupted
wait has collected it, or comes behind a kill.  In the first case the copy is killed after it was
collected once, in the second case it has been killed but is never collected; both times the interrupt is
passed on. -/
theorem superviseFork_collects (d : Dumper) (test : Identity) (e : Ending)
    (ht : cfg.timeout = some ms) (hms : ms ≤ 2147483647) (hfork : h.faults.fork.next = none)
    (hf : h.faults.Obliging) :
    let p := superviseFork cfg d test e h
    let strands := Fate.Strands cfg (endingStatus d test.name e) h.faults
    let forestalls := Fate.Forestalls cfg (endingStatus d test.name e) h.faults
    ∃ console log es, p.2.events = h.events ++ .forked h.nextPid console log :: es ∧
      (¬ strands → ¬ forestalls → CollectedOnce h.nextPid es) ∧
      (forestalls → p.1 = .error (.raised .interrupted) ∧ KilledLate h.nextPid es) ∧
      (strands → p.1 = .error (.raised .interrupted) ∧ LeftBehind h.nextPid es) := by
  intro p strands forestalls
  have hlimit : ms < pollLimit := Nat.lt_of_le_of_lt hms (by decide)
  obtain ⟨x, hx⟩ := seconds_of_timeout ht hlimit
  obtain ⟨c, h₂, hpid, ⟨console, log, es, hes, he⟩, hp⟩ := superviseFork_eq d test e hx hfork
  obtain ⟨tail, ⟨fs, hfs, hadds⟩, hsettles⟩ : ∃ tail, Trails h₂ p tail ∧
      Settles cfg (endingStatus d test.name e) h.faults h.nextPid p tail := by
    rw [show p = _ from hp, ← hpid]
    cases ho : Fate.opens h.faults with
    | true => exact settles_of_opens hf ho hlimit ht c _ h₂
    | false => exact settles_of_not_opens hf ho c _ h₂
  have hall := (hsettles.behind hfs).behind hes
  refine ⟨console, log, es ++ (fs ++ tail), ?_, hall.once, hall.late, hall.never⟩
  rw [hadds, he]
  simp

/-- A host whose first wait is interrupted, and has collected an ending then, or not. -/
def Host.pressed (collected : Bool) : Host :=
  { journal := {}
    launcher := fun _ disk => .ok fun _ => (disk, none)
    faults := { wait := fun n => if n = 0 then some (.interrupted collected) else none } }

theorem obliging_pressed (collected : Bool) : (Host.pressed collected).faults.Obliging :=
  ⟨fun _ => rfl, Or.inr ⟨collected, rfl⟩, fun _ => rfl⟩

/-- When the first wait is interrupted, a copy that has ended is collected, once, and one that was killed
at its time limit is left behind; if the interrupted wait has collected the copy it is killed after
that. -/
theorem superviseFork_collects_pressed :
    let run := superviseFork { program := Path.ofString "t" } none ⟨"g", "s", 1⟩
    (∃ console log es, (run .returned (.pressed false)).2.events = .forked 1 console log :: es ∧
      CollectedOnce 1 es) ∧
    (∃ console log es, (run .returned (.pressed true)).2.events = .forked 1 console log :: es ∧
      KilledLate 1 es) ∧
    ∃ console log es, (run (.left .endless) (.pressed false)).2.events =
        .forked 1 console log :: es ∧ LeftBehind 1 es := by
  intro run
  let cfg : Configuration := { program := Path.ofString "t" }
  have ht : cfg.timeout = some defaultTimeout := rfl
  have hms : defaultTimeout ≤ 2147483647 := by decide
  -- the copy of a body that returns has ended when the wait with a descriptor comes back
  have hends : ∀ collected, (Fate.sighting cfg (endingStatus none "g.s.1" .returned)
      (Host.pressed collected).faults).seesEnd = true := by
    intro collected
    cases collected <;> decide +kernel
  have hlasts : (Fate.sighting cfg (endingStatus none "g.s.1" (.left .endless))
      (Host.pressed false).faults).seesEnd = false := by decide +kernel
  refine ⟨?_, ?_, ?_⟩
  · obtain ⟨console, log, es, he, hone, -⟩ := superviseFork_collects none ⟨"g", "s", 1⟩ .returned
      ht hms rfl (obliging_pressed false)
    refine ⟨console, log, es, he, hone ?_ ?_⟩
    · rintro ⟨-, -, hno⟩
      exact Bool.false_ne_true (hno.symm.trans (hends false))
    · rintro ⟨hno, -⟩
      cases hno
  · obtain ⟨console, log, es, he, -, hlate, -⟩ := superviseFork_collects none ⟨"g", "s", 1⟩ .returned
      ht hms rfl (obliging_pressed true)
    exact ⟨console, log, es, he, (hlate ⟨rfl, hends true⟩).2⟩
  · obtain ⟨console, log, es, he, -, -, hleft⟩ := superviseFork_collects none ⟨"g", "s", 1⟩
      (.left .endless) ht hms rfl (obliging_pressed false)
    exact ⟨console, log, es, he, (hleft ⟨rfl, rfl, hlasts⟩).2⟩

end TestRig.Supervision
