import TestRig.Proofs.Children
import TestRig.Supervision.Fork

/-!
# TestRig.Proofs.Fate — how the process of a test ends

What becomes of a test in a copy of this process depends on four things: how the copy ends by itself,
when this happens, the time limit, and which calls to the system fail.  `Fate.of` computes it from
these alone, without a journal, and `Fate.result` and `Fate.entries` say what is returned and written.

* `Classifier.run_eq`: a process that runs a body writes what is reported about the body's ending, and
  nothing else.
* `Fate.sighting`: what the wait for a copy comes to, and when.
* `Fate.of_quiet`: the fate of a process when no call fails and nobody interrupts.
-/

namespace TestRig

open Journal (Entry Other)

namespace Classifier

/-- What is reported about an ending, if anything is. -/
def reportEntries (d : Dumper) (test : Identity) (e : Ending) : List Entry :=
  ((report d test.name e).2.map Entry.outcome).toList

theorem reports (d : Dumper) (test : Identity) (e : Ending) :
    ∀ x ∈ reportEntries d test e, x.IsReport := by
  intro x hx
  obtain ⟨b, -, rfl⟩ := Option.map_eq_some_iff.mp (Option.mem_toList.mp hx)
  exact .outcome b

/-- A body is run by classifying its ending and writing what is reported about it. -/
theorem run_eq (d : Dumper) (test : Identity) (named : Bool) (e : Ending) (j : Journal) :
    run d test named e j = ((report d test.name e).1,
      j.enterAll ((if named then [Entry.name test] else []) ++ reportEntries d test e)) := by
  have hname : (if named then beginLine test j else j) =
      j.enterAll (if named then [Entry.name test] else []) := by
    cases named <;> rfl
  rw [run, hname, Journal.enterAll_append]
  unfold reportEntries
  rcases report d test.name e with ⟨v, _ | text⟩ <;> rfl

end Classifier

namespace Supervision

/-! ## The copy -/

/-- How a copy of this process that runs a body ends by itself, if it does. -/
def endingStatus (d : Dumper) (name : String) : Ending → Option Status
  | .left (.exited code) => some (.exited (code % 256))
  | .left (.signalled n) => if Signal.ends n then some (.killed n) else none
  | .left .endless => none
  | e => match (Classifier.report d name e).1 with
    | .ok v => some (.exited v.exitCode)
    | .error _ => some (.exited ExitStatus.error.code)

theorem Child.status_begun (pid : Nat) (d : Dumper) (test : Identity) (e : Ending)
    (loc : Option Location) : (begun pid d test e loc).status = endingStatus d test.name e := by
  cases e with
  | left how => cases how <;> rfl
  | _ =>
    simp only [begun, script, endingStatus]
    rcases Classifier.report d test.name _ with ⟨_ | v, outcome⟩ <;> rfl

/-- How much of its work a copy has done by a time; nothing stands for all of it. -/
def Course.done? (k : Course) (s : Option Status) (t : Nat) : Option Nat :=
  if (k.ended? s t).isSome then none else some k.done

/-! ## Fates -/

/-- Only 0 means that a test passed. -/
def Status.passes (s : Status) : Bool := s == .exited ExitStatus.success.code

/-- What this process writes when a copy has ended. -/
def Status.entries (test : Identity) (pid : Nat) : Status → List Entry
  | .killed n => [.outcome s!"FAIL ({Signal.describe n})\n"]
  | .exited code =>
    (if code ≤ 1 then [] else [Entry.outcome s!"FAIL (exit status {Text.showInt code})\n"]) ++
      [.note s!"{test.name}: child process {Text.showNat pid} exited with {Text.showInt code}"]

/-- What becomes of the process of a test.  `done` is how much of its work it did, if not all. -/
inductive Fate
  /-- There is no process. -/
  | unmade (e : Exception)
  /-- It ended by itself, and this was seen. -/
  | ended (s : Status)
  /-- It was killed at the time limit. -/
  | expired (done : Option Nat)
  /-- Something was raised. -/
  | broken (h : Halt) (done : Option Nat)

namespace Fate

def result (test : Identity) : Fate → Except Halt Bool
  | unmade e => .error (creationFailure "fork() failed" test e.reason)
  | ended s => .ok s.passes
  | expired _ => .ok false
  | broken h _ => .error h

/-- What the copy has done; `own` is what it writes with all of its work, and `part` what is seen of
its first acts. -/
def told (own : List Entry) (part : Nat → List Other) : Fate → List Entry
  | unmade _ => []
  | ended _ => own
  | expired done | broken _ done => done.elim own fun n => (part n).map .other

/-- What this process writes at the end. -/
def closing (test : Identity) (pid : Nat) : Fate → List Entry
  | unmade _ => [.blank]
  | ended s => s.entries test pid
  | expired _ => [.outcome s!"FAIL ({timedOut})\n"]
  | broken _ _ => []

/-- All that is written about a test; `others` is what the processes do meanwhile that were left
behind before. -/
def entries (test : Identity) (pid : Nat) (own : List Entry) (part : Nat → List Other)
    (others : List Other) (f : Fate) : List Entry :=
  [.note s!"running {test.name} in a forked process", .name test] ++ others.map .other ++
    f.told own part ++ f.closing test pid

/-- A copy that was waited for has done nothing, all of its work, or some of it. -/
theorem told_cases (f : Fate) (own : List Entry) (part : Nat → List Other) :
    f.told own part = [] ∨ f.told own part = own ∨ ∃ n, f.told own part = (part n).map .other := by
  rcases f with _ | _ | (_ | n) | ⟨_, _ | n⟩
  · exact Or.inl rfl
  · exact Or.inr (Or.inl rfl)
  · exact Or.inr (Or.inl rfl)
  · exact Or.inr (Or.inr ⟨n, rfl⟩)
  · exact Or.inr (Or.inl rfl)
  · exact Or.inr (Or.inr ⟨n, rfl⟩)

/-- What this process writes at the end are reports. -/
theorem closing_reports (f : Fate) (test : Identity) (pid : Nat) :
    ∀ e ∈ f.closing test pid, e.IsReport := by
  intro e he
  cases f with
  | broken => cases he
  | unmade =>
    obtain rfl := List.mem_singleton.mp he
    exact .blank
  | expired =>
    obtain rfl := List.mem_singleton.mp he
    exact .outcome _
  | ended s =>
    cases s with
    | killed n =>
      obtain rfl := List.mem_singleton.mp he
      exact .outcome _
    | exited code =>
      rcases List.mem_append.mp he with he | he
      · split at he
        · cases he
        · obtain rfl := List.mem_singleton.mp he
          exact .outcome _
      · obtain rfl := List.mem_singleton.mp he
        exact .note _

/-- How many copies of this process are made. -/
def copies : Fate → Nat
  | unmade _ => 0
  | _ => 1

/-! ## The calls that fail -/

/-- The faults behind a wait. -/
def pastWait (f : Faults) : Faults := { f with wait := f.wait.later }

/-- The faults behind the making of a copy. -/
def pastFork (f : Faults) : Faults :=
  { f with fork := f.fork.later, courses := fun n => f.courses (n + 1) }

/-- The faults behind the opening of a descriptor. -/
def pastOpen (f : Faults) : Faults :=
  if f.hasDescriptors then { f with descriptor := f.descriptor.later } else f

/-- Is there a descriptor to wait with? -/
def opens (f : Faults) : Bool := f.hasDescriptors && f.descriptor.next.isNone

/-- The exception that is raised when a call fails in the handling of an interrupt. -/
def passed (e : Exception) : Halt := if saysGone e then .raised .interrupted else .ofException e

def expiring (done : Option Nat) (f : Faults) : Fate :=
  match f.kill.next, f.wait.next with
  | some e, _ => broken (controlFailure "kill" e) done
  | none, none => expired done
  | none, some (.interrupted _) => broken (.raised .interrupted) done
  | none, some (.failed e) => broken (controlFailure "waitpid" e) done

def stopping (done : Option Nat) (f : Faults) : Fate :=
  match f.kill.next, f.wait.next with
  | some e, _ => broken (passed e) done
  | none, some (.failed e) => broken (passed e) done
  | none, _ => broken (.raised .interrupted) done

/-- A copy that was seen to have ended is collected. -/
def reaping (s : Status) (f : Faults) : Fate :=
  match f.wait.next with
  | none => ended s
  | some (.interrupted _) => stopping none (pastWait f)
  | some (.failed e) => broken (controlFailure "waitpid" e) none

/-- The wait for a copy, with a descriptor if there is one. -/
def sighting (cfg : Configuration) (status : Option Status) (f : Faults) : Sighting :=
  let k := f.courses 0
  let limit := 1000 * cfg.timeout.getD 0
  if opens f then watch k status limit 0 k.begins (pastOpen (pastFork f))
  else look k status limit 0 k.begins (pastOpen (pastFork f))

/-- What becomes of a copy when a wait for it has come to something. -/
def concluding (k : Course) (status : Option Status) (opened : Bool) (w : Sighting) : Fate :=
  match w.found with
  | .ok (some s) => if opened then reaping s w.faults else ended s
  | .ok none => expiring (k.done? status w.time) w.faults
  | .error (.raised x) => broken x (k.done? status w.time)
  | .error (.interrupted _) => stopping (k.done? status w.time) w.faults

/-- There is a process, and it is waited for up to the time limit. -/
def awaited (cfg : Configuration) (status : Option Status) (f : Faults) : Fate :=
  match cfg.seconds with
  | .error t => broken (.ofException t.exception) (some (f.courses 0).done)
  | .ok _ => concluding (f.courses 0) status (opens f) (sighting cfg status f)

/-- **The fate of a process**, from the options, from how it ends by itself, and from the calls that
fail and the course of events. -/
def of (cfg : Configuration) (status : Option Status) (f : Faults) : Fate :=
  match f.fork.next with
  | some e => unmade e
  | none => awaited cfg status f

end Fate

/-! ## Calls that are still to come -/

/-- The calls behind some first ones. -/
def Calls.After {ε : Type} (c c' : Calls ε) : Prop := ∃ k, ∀ n, c' n = c (n + k)

/-- What fails behind some first calls. -/
structure Faults.Later (f f' : Faults) : Prop where
  fork : f.fork.After f'.fork
  kill : f.kill.After f'.kill
  wait : f.wait.After f'.wait
  descriptor : f.descriptor.After f'.descriptor
  poll : f.poll.After f'.poll
  canFork : f'.canFork = f.canFork
  hasDescriptors : f'.hasDescriptors = f.hasDescriptors
  courses : ∃ k, ∀ n, f'.courses n = f.courses (n + k)

theorem Calls.After.refl {ε : Type} (c : Calls ε) : c.After c := ⟨0, fun _ => rfl⟩

theorem Calls.after_later {ε : Type} (c : Calls ε) : c.After c.later := ⟨1, fun _ => rfl⟩

theorem Calls.After.trans {ε : Type} {c c' c'' : Calls ε} (h : c.After c') (h' : c'.After c'') :
    c.After c'' := by
  obtain ⟨k, hk⟩ := h
  obtain ⟨k', hk'⟩ := h'
  exact ⟨k' + k, fun n => by rw [hk', hk, Nat.add_assoc]⟩

theorem Calls.After.succeed {ε : Type} {c c' : Calls ε} (h : c.After c') (hc : c.Succeed) :
    c'.Succeed := by
  obtain ⟨k, hk⟩ := h
  exact fun n => (hk n).trans (hc _)

namespace Faults.Later

theorem refl (f : Faults) : f.Later f :=
  ⟨.refl _, .refl _, .refl _, .refl _, .refl _, rfl, rfl, 0, fun _ => rfl⟩

theorem trans {f f' f'' : Faults} (h : f.Later f') (h' : f'.Later f'') : f.Later f'' := by
  obtain ⟨k, hk⟩ := h.courses
  obtain ⟨k', hk'⟩ := h'.courses
  exact ⟨h.fork.trans h'.fork, h.kill.trans h'.kill, h.wait.trans h'.wait,
    h.descriptor.trans h'.descriptor, h.poll.trans h'.poll, h'.canFork.trans h.canFork,
    h'.hasDescriptors.trans h.hasDescriptors, k' + k,
    fun n => by rw [hk', hk, Nat.add_assoc]⟩

variable (f : Faults)

theorem pastKill : f.Later { f with kill := f.kill.later } :=
  { refl f with kill := Calls.after_later _ }

theorem pastWait : f.Later (Fate.pastWait f) :=
  { refl f with wait := Calls.after_later _ }

theorem pastPoll : f.Later { f with poll := f.poll.later } :=
  { refl f with poll := Calls.after_later _ }

theorem pastCourse : f.Later { f with courses := fun n => f.courses (n + 1) } :=
  { refl f with courses := ⟨1, fun _ => rfl⟩ }

theorem pastFork : f.Later (Fate.pastFork f) :=
  { refl f with fork := Calls.after_later _, courses := ⟨1, fun _ => rfl⟩ }

theorem unforked : f.Later { f with fork := f.fork.later } :=
  { refl f with fork := Calls.after_later _ }

theorem pastOpen : f.Later (Fate.pastOpen f) := by
  unfold Fate.pastOpen
  split
  · exact { refl f with descriptor := Calls.after_later _ }
  · exact refl f

theorem watch (k : Course) (status : Option Status) (limit n t : Nat) :
    f.Later (Supervision.watch k status limit n t f).faults := by
  fun_induction Supervision.watch k status limit n t f with
  | case1 | case2 => exact refl _
  | case3 n t f _ _ f' hf | case4 n t f _ _ f' hf =>
    obtain ⟨-, rfl⟩ := Prod.mk.inj hf
    exact pastPoll _
  | case5 n t f _ _ f' hf _ _ ih =>
    obtain ⟨-, rfl⟩ := Prod.mk.inj hf
    exact (pastPoll _).trans ih

theorem look (k : Course) (status : Option Status) (limit n t : Nat) :
    f.Later (Supervision.look k status limit n t f).faults := by
  fun_induction Supervision.look k status limit n t f with
  | case1 n t f e f' hf | case2 n t f c f' hf | case3 n t f f' hf | case4 n t f f' hf =>
    obtain ⟨-, rfl⟩ := Prod.mk.inj hf
    exact pastWait _
  | case5 n t f f' hf _ _ ih =>
    obtain ⟨-, rfl⟩ := Prod.mk.inj hf
    exact (pastWait _).trans ih

/-- The calls behind a wait. -/
theorem sighting (cfg : Configuration) (status : Option Status) :
    (Fate.pastOpen (Fate.pastFork f)).Later (Fate.sighting cfg status f).faults := by
  unfold Fate.sighting
  dsimp only
  split
  · exact watch _ _ _ _ _ _
  · exact look _ _ _ _ _ _

end Faults.Later

/-! ## Where nothing fails -/

/-- No call fails and nobody interrupts.  That a descriptor cannot be opened is no failure: the
process is looked at then. -/
structure Faults.Quiet (f : Faults) : Prop where
  fork : f.fork.Succeed
  kill : f.kill.Succeed
  wait : f.wait.Succeed
  poll : f.poll.Succeed

/-- Where nothing is said about failures, there are none. -/
theorem Faults.quiet_default : ({} : Faults).Quiet :=
  ⟨fun _ => rfl, fun _ => rfl, fun _ => rfl, fun _ => rfl⟩

theorem Faults.Later.quiet {f f' : Faults} (h : f.Later f') (hq : f.Quiet) : f'.Quiet :=
  ⟨h.fork.succeed hq.fork, h.kill.succeed hq.kill, h.wait.succeed hq.wait, h.poll.succeed hq.poll⟩

/-- Why a time limit cannot be used for waiting, if it cannot.  A wait with a descriptor that begins
behind the limit does not use it. -/
def limitFault? (cfg : Configuration) (f : Faults) : Option Exception :=
  match cfg.seconds with
  | .error t => some t.exception
  | .ok _ =>
    let begins := (f.courses 0).begins
    let limit := 1000 * cfg.timeout.getD 0
    if Fate.opens f && decide (begins < limit) then tooLong? (span limit begins) else none

/-! ## The waits -/

variable {k : Course} {status : Option Status} {limit n t : Nat} {f : Faults} {s : Status}

theorem ended?_eq_some : k.ended? status t = some s ↔ k.ends ≤ t ∧ status = some s := by
  unfold Course.ended?
  split
  · rename_i h
    exact (and_iff_right h).symm
  · rename_i h
    exact ⟨fun h' => (nomatch h'), fun h' => absurd h'.1 h⟩

/-- **What a wait with a descriptor finds** has happened. -/
theorem ended_of_watch (h : (watch k status limit n t f).found = .ok (some s)) :
    k.ended? status (watch k status limit n t f).time = some s := by
  fun_induction watch k status limit n t f with
  | case1 => cases h
  | case2 => cases h
  | case3 => cases h
  | case4 n t f _ _ f' _ t' s' hs => exact Except.ok.inj h ▸ hs
  | case5 n t f _ _ f' _ t' _ ih => exact ih h

/-- **What repeated looks find** has happened. -/
theorem ended_of_look (h : (look k status limit n t f).found = .ok (some s)) :
    k.ended? status (look k status limit n t f).time = some s := by
  fun_induction look k status limit n t f with
  | case1 => cases h
  | case2 => cases h
  | case3 n t f f' _ s' hs => exact Except.ok.inj h ▸ hs
  | case4 => cases h
  | case5 n t f f' _ _ _ ih => exact ih h

theorem span_mono {t' : Nat} (h : t ≤ t') : span limit t' ≤ span limit t := by
  have hdiv : (limit - t') / 1000 ≤ (limit - t) / 1000 := Nat.div_le_div_right (by omega)
  unfold span
  omega

theorem tooLong?_eq_none_iff {ms : Nat} : tooLong? ms = none ↔ ms < pollLimit := by
  have hclock : pollLimit ≤ clockLimit := by decide
  unfold tooLong?
  split
  · simp only [reduceCtorEq, false_iff]
    omega
  · split
    · simp only [reduceCtorEq, false_iff]
      omega
    · simp only [true_iff]
      omega

/-- The wait for a process begins before its time limit, and the process ends by then, if it ends. -/
structure Course.Prompt (k : Course) (limit : Nat) : Prop where
  begins : k.begins < limit
  ends : k.ends ≤ limit

/-- The wait for a process begins before its time limit, and the process goes on for more than a
millisecond behind the limit, and for longer than any step of the wait comes back late. -/
structure Course.Late (k : Course) (limit : Nat) : Prop where
  begins : k.begins < limit
  ends : ∀ n, limit + 1000 + k.lags n < k.ends

/-- A process that ends by its time limit or outlives it, without a doubt. -/
def Course.Decisive (k : Course) (limit : Nat) : Prop := k.Prompt limit ∨ k.Late limit

theorem Course.Decisive.begins (h : k.Decisive limit) : k.begins < limit :=
  h.elim (·.begins) (·.begins)

theorem lt_of_ended?_eq_none (h : k.ended? status t = none) : t < k.ends ∨ status = none := by
  unfold Course.ended? at h
  split at h
  · exact Or.inr h
  · exact Or.inl (by omega)

theorem callPoll_of_succeed (h : f.poll.Succeed) :
    f.callPoll = (false, { f with poll := f.poll.later }) := by
  have hp : f.poll.next = none := h 0
  simp [Faults.callPoll, hp]

theorem callWait_of_succeed (h : f.wait.Succeed) : f.callWait = (none, Fate.pastWait f) := by
  have hw : f.wait.next = none := h 0
  simp [Faults.callWait, hw, Fate.pastWait]

/-- A wait with a descriptor whose time limit can be used comes to its end, unless it is interrupted. -/
theorem watch_found (ht : t < limit → span limit t < pollLimit) :
    (∃ s, (watch k status limit n t f).found = .ok s) ∨
      (watch k status limit n t f).found = .error (.interrupted false) ∧ ¬ f.poll.Succeed := by
  fun_induction watch k status limit n t f with
  | case1 => exact Or.inl ⟨_, rfl⟩
  | case2 n t f hlt e he =>
    have hnone := tooLong?_eq_none_iff.mpr (ht (by omega))
    rw [hnone] at he
    cases he
  | case3 n t f _ _ f' hf =>
    refine Or.inr ⟨rfl, fun h => ?_⟩
    rw [callPoll_of_succeed h] at hf
    cases hf
  | case4 => exact Or.inl ⟨_, rfl⟩
  | case5 n t f hlt _ f' hf t' _ ih =>
    obtain ⟨-, rfl⟩ := Prod.mk.inj hf
    have hless : span limit t' ≤ span limit t := span_mono (by omega)
    exact (ih fun _ => Nat.lt_of_le_of_lt hless (ht (by omega))).imp_right fun ⟨hi, hno⟩ =>
      ⟨hi, fun h => hno ((Faults.Later.pastPoll f).poll.succeed h)⟩

theorem look_of_succeed (hw : f.wait.Succeed) : ∃ s, (look k status limit n t f).found = .ok s := by
  fun_induction look k status limit n t f with
  | case1 n t f e f' hf => rw [callWait_of_succeed hw] at hf; cases hf
  | case2 n t f c f' hf => rw [callWait_of_succeed hw] at hf; cases hf
  | case3 => exact ⟨_, rfl⟩
  | case4 => exact ⟨_, rfl⟩
  | case5 n t f f' hf _ _ ih =>
    rw [callWait_of_succeed hw] at hf
    obtain ⟨-, rfl⟩ := Prod.mk.inj hf
    exact ih ((Faults.Later.pastWait f).wait.succeed hw)

/-- **A process that ends by its limit** is found by a wait with a descriptor that begins before it. -/
theorem watch_of_ended {s : Option Status} (h : (watch k status limit n t f).found = .ok s)
    (he : k.ends ≤ limit) (ht : t < limit ∨ status = none) : s = status := by
  fun_induction watch k status limit n t f with
  | case1 n t f hlt =>
    obtain rfl : none = s := Except.ok.inj h
    exact (ht.resolve_left (by omega)).symm
  | case2 => cases h
  | case3 => cases h
  | case4 n t f _ _ f' _ t' s' hs =>
    obtain rfl : some s' = s := Except.ok.inj h
    exact (ended?_eq_some.mp hs).2.symm
  | case5 n t f _ _ f' _ t' hno ih =>
    exact ih h ((lt_of_ended?_eq_none hno).imp_left fun h => Nat.lt_of_lt_of_le h he)

/-- **A process that ends by its limit** is found by repeated looks. -/
theorem look_of_ended {s : Option Status} (h : (look k status limit n t f).found = .ok s)
    (he : k.ends ≤ limit) : s = status := by
  fun_induction look k status limit n t f with
  | case1 => cases h
  | case2 => cases h
  | case3 n t f f' _ s' hs =>
    obtain rfl : some s' = s := Except.ok.inj h
    exact (ended?_eq_some.mp hs).2.symm
  | case4 n t f f' _ hno hlt =>
    obtain rfl : none = s := Except.ok.inj h
    exact ((lt_of_ended?_eq_none hno).resolve_left (by omega)).symm
  | case5 n t f f' _ _ _ ih => exact ih h

/-- **A process that outlives its limit** is not found by a wait with a descriptor: a step of it is over
at most a millisecond behind the limit, apart from how late it comes back. -/
theorem watch_of_late {s : Option Status} (h : (watch k status limit n t f).found = .ok s)
    (he : ∀ n, limit + 1000 + k.lags n < k.ends) : s = none := by
  fun_induction watch k status limit n t f with
  | case1 => exact (Except.ok.inj h).symm
  | case2 => cases h
  | case3 => cases h
  | case4 n t f _ _ f' _ t' s' hs =>
    have hspan : 1000 * span limit t ≤ max 1000 (limit - t) := by
      unfold span
      omega
    have hends := (ended?_eq_some.mp hs).1
    have hlate := he n
    omega
  | case5 n t f _ _ f' _ t' _ ih => exact ih h

theorem look_of_late {s : Option Status} (h : (look k status limit n t f).found = .ok s)
    (he : ∀ n, limit + 1000 + k.lags n < k.ends) (ht : t < k.ends) : s = none := by
  fun_induction look k status limit n t f with
  | case1 => cases h
  | case2 => cases h
  | case3 n t f f' _ s' hs =>
    have hends := (ended?_eq_some.mp hs).1
    omega
  | case4 => exact (Except.ok.inj h).symm
  | case5 n t f f' _ _ _ ih =>
    have hlate := he n
    exact ih h (by omega)

/-- **A child that is not found** by a wait with a descriptor is running when the wait is over. -/
theorem running_of_watch (h : (watch k status limit n t f).found = .ok none)
    (ht : t < limit ∨ k.ended? status t = none) :
    k.ended? status (watch k status limit n t f).time = none := by
  fun_induction watch k status limit n t f with
  | case1 n t f hlt => exact ht.resolve_left (by omega)
  | case2 => cases h
  | case3 => cases h
  | case4 => cases h
  | case5 n t f _ _ f' _ t' hno ih => exact ih h (Or.inr hno)

theorem running_of_look (h : (look k status limit n t f).found = .ok none) :
    k.ended? status (look k status limit n t f).time = none := by
  fun_induction look k status limit n t f with
  | case1 => cases h
  | case2 => cases h
  | case3 => cases h
  | case4 n t f f' _ hno _ => exact hno
  | case5 n t f f' _ _ _ ih => exact ih h

/-! ## Waits that come to the same -/

/-- Where nothing fails, a wait depends on no call. -/
theorem watch_congr {f' : Faults} (h : f.Quiet) (h' : f'.Quiet) :
    (watch k status limit n t f').found = (watch k status limit n t f).found ∧
      (watch k status limit n t f').time = (watch k status limit n t f).time := by
  fun_induction watch k status limit n t f generalizing f' with
  | case1 n t f hlt => rw [watch, dif_pos hlt]; exact ⟨rfl, rfl⟩
  | case2 n t f hlt e he => rw [watch, dif_neg hlt, he]; exact ⟨rfl, rfl⟩
  | case3 n t f _ _ g hg => rw [callPoll_of_succeed h.poll] at hg; cases hg
  | case4 =>
    rename_i n t f hlt hfit g hg t' s hs
    rw [watch, dif_neg hlt, hfit]
    simp only [callPoll_of_succeed h'.poll]
    rw [hs]
    exact ⟨rfl, rfl⟩
  | case5 =>
    rename_i n t f hlt hfit g hg t' hno ih
    rw [callPoll_of_succeed h.poll] at hg
    obtain ⟨-, rfl⟩ := Prod.mk.inj hg
    rw [watch, dif_neg hlt, hfit]
    simp only [callPoll_of_succeed h'.poll]
    rw [hno]
    exact ih ((Faults.Later.pastPoll f).quiet h) ((Faults.Later.pastPoll f').quiet h')

theorem look_congr {f' : Faults} (h : f.Quiet) (h' : f'.Quiet) :
    (look k status limit n t f').found = (look k status limit n t f).found ∧
      (look k status limit n t f').time = (look k status limit n t f).time := by
  fun_induction look k status limit n t f generalizing f' with
  | case1 n t f e g hg => rw [callWait_of_succeed h.wait] at hg; cases hg
  | case2 n t f c g hg => rw [callWait_of_succeed h.wait] at hg; cases hg
  | case3 n t f g hg s hs =>
    rw [look]
    simp only [callWait_of_succeed h'.wait]
    rw [hs]
    exact ⟨rfl, rfl⟩
  | case4 n t f g hg hno hlt =>
    rw [look]
    simp only [callWait_of_succeed h'.wait]
    rw [hno]
    simp [dif_pos hlt]
  | case5 n t f g hg hno hlt ih =>
    rw [callWait_of_succeed h.wait] at hg
    obtain ⟨-, rfl⟩ := Prod.mk.inj hg
    rw [look]
    simp only [callWait_of_succeed h'.wait]
    rw [hno]
    simp only [dif_neg hlt]
    exact ih ((Faults.Later.pastWait f).quiet h) ((Faults.Later.pastWait f').quiet h')

namespace Fate

variable {cfg : Configuration}

theorem sighting_congr {f' : Faults} (h : f.Quiet) (h' : f'.Quiet) (ho : opens f' = opens f)
    (hk : f'.courses 0 = f.courses 0) (cfg : Configuration) (status : Option Status) :
    (sighting cfg status f').found = (sighting cfg status f).found ∧
      (sighting cfg status f').time = (sighting cfg status f).time := by
  have hpast : ∀ f : Faults, f.Quiet → (pastOpen (pastFork f)).Quiet := fun f hf =>
    ((Faults.Later.pastFork f).trans (Faults.Later.pastOpen _)).quiet hf
  unfold sighting
  rw [ho, hk]
  dsimp only
  split
  · exact watch_congr (hpast f h) (hpast f' h')
  · exact look_congr (hpast f h) (hpast f' h')

/-- What the wait for a copy has found, if anything. -/
def seen? (cfg : Configuration) (status : Option Status) (f : Faults) : Option Status :=
  match (sighting cfg status f).found with
  | .ok s => s
  | .error _ => none

/-- Where the time limit can be used and nothing fails, the wait comes to its end. -/
theorem sighting_of_quiet (h : f.Quiet) (hl : limitFault? cfg f = none) (status : Option Status) :
    (sighting cfg status f).found = .ok (seen? cfg status f) := by
  have hq : (pastOpen (pastFork f)).Quiet :=
    ((Faults.Later.pastFork f).trans (Faults.Later.pastOpen _)).quiet h
  have hfound : ∃ s, (sighting cfg status f).found = .ok s := by
    unfold limitFault? at hl
    unfold sighting
    cases hs : cfg.seconds with
    | error t => rw [hs] at hl; cases hl
    | ok x =>
      simp only [hs] at hl
      cases ho : opens f with
      | false => exact look_of_succeed hq.wait
      | true =>
        refine (watch_found fun hlt => ?_).resolve_right fun hno => hno.2 hq.poll
        simp only [ho, Bool.true_and, hlt, decide_true, if_true] at hl
        exact tooLong?_eq_none_iff.mp hl
  obtain ⟨s, hs⟩ := hfound
  rw [seen?, hs]

/-- How a copy ended that the wait has found. -/
theorem ended_of_sighting {s : Status} (h : (sighting cfg status f).found = .ok (some s)) :
    (f.courses 0).ended? status (sighting cfg status f).time = some s := by
  unfold sighting at h ⊢
  dsimp only at h ⊢
  split at h
  · rename_i ho
    rw [if_pos ho]
    exact ended_of_watch h
  · rename_i ho
    rw [if_neg ho]
    exact ended_of_look h

/-- **Of a copy that ends by its time limit** the wait finds how it ended. -/
theorem seen?_of_prompt (h : f.Quiet) (hl : limitFault? cfg f = none)
    (hp : (f.courses 0).Prompt (1000 * cfg.timeout.getD 0)) (status : Option Status) :
    seen? cfg status f = status := by
  have hfound := sighting_of_quiet h hl status
  revert hfound
  generalize seen? cfg status f = s
  unfold sighting
  dsimp only
  split
  · exact fun hfound => watch_of_ended hfound hp.ends (Or.inl hp.begins)
  · exact fun hfound => look_of_ended hfound hp.ends

/-- **Of a copy that outlives its time limit** the wait finds nothing. -/
theorem seen?_of_late (h : f.Quiet) (hl : limitFault? cfg f = none)
    (hp : (f.courses 0).Late (1000 * cfg.timeout.getD 0)) (status : Option Status) :
    seen? cfg status f = none := by
  have hfound := sighting_of_quiet h hl status
  revert hfound
  generalize seen? cfg status f = s
  unfold sighting
  dsimp only
  split
  · exact fun hfound => watch_of_late hfound hp.ends
  · refine fun hfound => look_of_late hfound hp.ends ?_
    have hbegins := hp.begins
    have hends := hp.ends 0
    omega

/-- **Of a copy that ends by its time limit or outlives it** the wait finds how it has ended by then. -/
theorem seen?_of_decisive (h : f.Quiet) (hl : limitFault? cfg f = none)
    (hd : (f.courses 0).Decisive (1000 * cfg.timeout.getD 0)) (status : Option Status) :
    seen? cfg status f = (f.courses 0).ended? status (1000 * cfg.timeout.getD 0) := by
  rcases hd with hp | hp
  · rw [seen?_of_prompt h hl hp, Course.ended?, if_pos hp.ends]
  · have hends := hp.ends 0
    rw [seen?_of_late h hl hp, Course.ended?, if_neg (by omega)]

theorem expiring_of_quiet (h : f.Quiet) (done : Option Nat) : expiring done f = expired done := by
  have hk : f.kill.next = none := h.kill 0
  have hw : f.wait.next = none := h.wait 0
  simp only [expiring, hk, hw]

/-- Where the time limit cannot be used, something is raised. -/
theorem awaited_of_limitFault {x : Exception} (h : limitFault? cfg f = some x)
    (status : Option Status) : ∃ done, awaited cfg status f = broken (.ofException x) done := by
  unfold limitFault? at h
  unfold awaited
  cases hs : cfg.seconds with
  | error t =>
    rw [hs] at h
    exact ⟨_, by rw [← Option.some.inj h]⟩
  | ok y =>
    simp only [hs, Bool.and_eq_true, decide_eq_true_eq, Option.ite_none_right_eq_some] at h
    obtain ⟨⟨ho, hlt⟩, hx⟩ := h
    have hraised : (sighting cfg status f).found = .error (.raised (.ofException x)) := by
      unfold sighting
      rw [ho, if_pos rfl, watch, dif_neg (by omega)]
      simp only [hx]
    refine ⟨(f.courses 0).done? status (sighting cfg status f).time, ?_⟩
    simp only [concluding, hraised]

/-- **The fate of a process where nothing fails**: the time limit cannot be used, or the process ends
by itself and this is seen, or it is killed. -/
theorem of_quiet (h : f.Quiet) (hl : limitFault? cfg f = none) (status : Option Status) :
    of cfg status f = ((seen? cfg status f).map ended).getD
      (expired ((f.courses 0).done? status (sighting cfg status f).time)) := by
  have hf : f.fork.next = none := h.fork 0
  have hlater := (Faults.Later.pastFork f).trans (Faults.Later.pastOpen _)
  have hq := (hlater.trans (Faults.Later.sighting f cfg status)).quiet h
  have hw : (sighting cfg status f).faults.wait.next = none := hq.wait 0
  have hfound := sighting_of_quiet h hl status
  have hseconds : ∃ x, cfg.seconds = .ok x := by
    unfold limitFault? at hl
    cases hs : cfg.seconds with
    | error t => rw [hs] at hl; cases hl
    | ok x => exact ⟨x, rfl⟩
  obtain ⟨x, hx⟩ := hseconds
  simp only [of, hf, awaited, hx, concluding, hfound]
  cases seen? cfg status f with
  | none => exact expiring_of_quiet hq _
  | some s => simp [reaping, hw]

/-- **The fate of a process that ends by its limit or outlives it**, where nothing fails. -/
theorem of_decisive (h : f.Quiet) (hl : limitFault? cfg f = none)
    (hd : (f.courses 0).Decisive (1000 * cfg.timeout.getD 0)) (status : Option Status) :
    of cfg status f =
      match (f.courses 0).ended? status (1000 * cfg.timeout.getD 0) with
      | some s => ended s
      | none => expired (some (f.courses 0).done) := by
  have hseen := seen?_of_decisive h hl hd status
  rw [of_quiet h hl, hseen]
  cases hended : (f.courses 0).ended? status (1000 * cfg.timeout.getD 0) with
  | some s => rfl
  | none =>
    have hfound := sighting_of_quiet h hl status
    rw [hseen, hended] at hfound
    have hrunning : (f.courses 0).ended? status (sighting cfg status f).time = none := by
      unfold sighting at hfound ⊢
      dsimp only at hfound ⊢
      split at hfound
      · rename_i ho
        rw [if_pos ho]
        exact running_of_watch hfound (Or.inl hd.begins)
      · rename_i ho
        rw [if_neg ho]
        exact running_of_look hfound
    simp [Course.done?, hrunning]

/-- **Where nothing fails, the fate of a process** depends on how it ends by itself, on the time limit, on
whether there is a descriptor, and on its course. -/
theorem of_congr {f' : Faults} (h : f.Quiet) (h' : f'.Quiet) (ho : opens f' = opens f)
    (hk : f'.courses 0 = f.courses 0) (status : Option Status) :
    of cfg status f' = of cfg status f := by
  have hseen : ∀ f : Faults, f.Quiet → (sighting cfg status f).faults.Quiet := fun f hf =>
    (((Faults.Later.pastFork f).trans (Faults.Later.pastOpen _)).trans
      (Faults.Later.sighting f cfg status)).quiet hf
  have hcalls : ∀ f : Faults, f.Quiet → f.fork.next = none ∧ f.kill.next = none ∧ f.wait.next = none :=
    fun f hf => ⟨hf.fork 0, hf.kill 0, hf.wait 0⟩
  obtain ⟨hfound, htime⟩ := sighting_congr h h' ho hk cfg status
  obtain ⟨hfork, -, -⟩ := hcalls f h
  obtain ⟨hfork', -, -⟩ := hcalls f' h'
  obtain ⟨-, hkill, hwait⟩ := hcalls _ (hseen f h)
  obtain ⟨-, hkill', hwait'⟩ := hcalls _ (hseen f' h')
  simp only [of, hfork, hfork', awaited, hk, ho, concluding, hfound, htime, expiring, stopping, reaping,
    hkill, hkill', hwait, hwait']

theorem of_limitFault {x : Exception} (hf : f.fork.next = none) (h : limitFault? cfg f = some x)
    (status : Option Status) : ∃ done, of cfg status f = broken (.ofException x) done := by
  rw [of, hf]
  exact awaited_of_limitFault h status

end Fate

end Supervision

end TestRig
