import Mathlib.Tactic.IntervalCases
import TestRig.Proofs.Entries
import TestRig.Proofs.Outcomes
import TestRig.Supervision.Host

/-!
# TestRig.Proofs.Children — what copies of this process do beside it

A child does its work act by act, and this process sees of it what it does to the sinks.  A child that
reports an outcome writes and flushes it; if it is left to do all of its work, that comes to the same
as if this process had written the outcome.

* `Child.next`, `Child.does`: one act of a child, and what is seen of it.  `Child.after` and
  `Child.trace`: the same of the next acts.
* `Host.advance_eq`, `Host.finish_eq`: a child at work on a host.
* `Journal.enterAll_trace`: all of the work of a copy; `Child.chunks_trace` and `Child.logged_trace`:
  how much of it the first acts put on the console and into the log.
* `Child.Plain`: what holds of every child; `Host.elapse_passes`: of the children that were left behind.
-/

namespace TestRig

open Journal (Entry Other)

/-- A chunk that is an outcome. -/
def Chunk.IsOutcome (k : Chunk) : Prop := ∃ b, TestRig.IsOutcome b ∧ k = .outcome b

namespace Supervision

/-! ## Acts of a child -/

namespace Child

/-- A child behind an act. -/
def past (c : Child) : Journal.Act → Child
  | .display k => { c with console := c.console ++ [k] }
  | .record s => { c with log := c.log.map fun l => { l with pending := l.pending ++ [s] } }
  | .flushConsole => { c with console := [] }
  | .flushLog => { c with log := c.log.map fun l => { l with pending := [] } }

/-- What is seen of an act. -/
def tells (c : Child) : Journal.Act → List Other
  | .display k => [.took k]
  | .record s => if c.log.isSome then [.tookLog s] else []
  | .flushConsole => [.showed c.console]
  | .flushLog => (c.log.map fun l => Other.appended l.location l.pending).toList

theorem act_eq (c : Child) (a : Journal.Act) (j : Journal) :
    c.act a j = (c.past a, j.enterAll ((c.tells a).map .other)) := by
  cases a with
  | display k => rfl
  | flushConsole => rfl
  | record s | flushLog =>
    cases hl : c.log with
    | none =>
      obtain ⟨pid, console, log, work, status, ended⟩ := c
      obtain rfl : log = none := hl
      rfl
    | some l =>
      simp only [act, past, tells, hl]
      rfl

/-- A child behind the next act of its work. -/
def next (c : Child) : Child :=
  match c.work with
  | [] => c
  | a :: work => { c.past a with work }

/-- What is seen of the next act. -/
def does (c : Child) : List Other :=
  match c.work with
  | [] => []
  | a :: _ => c.tells a

def after : Nat → Child → Child
  | 0, c => c
  | n + 1, c => after n c.next

def trace : Nat → Child → List Other
  | 0, _ => []
  | n + 1, c => c.does ++ trace n c.next

variable {c : Child} {n : Nat}

theorem next_of_work (h : c.work = []) : c.next = c := by
  unfold next
  rw [h]

theorem does_of_work (h : c.work = []) : c.does = [] := by
  unfold does
  rw [h]

theorem work_next (c : Child) : c.next.work = c.work.tail := by
  unfold next
  split
  · rename_i h
    rw [h]
    rfl
  · rename_i h
    rw [h]
    rfl

theorem same_next (c : Child) : c.next.pid = c.pid ∧ c.next.status = c.status ∧
    c.next.ended = c.ended := by
  unfold next
  split
  · exact ⟨rfl, rfl, rfl⟩
  · rename_i a _ _
    cases a <;> exact ⟨rfl, rfl, rfl⟩

theorem same_after : ∀ (n : Nat) (c : Child), (after n c).pid = c.pid ∧ (after n c).status = c.status ∧
    (after n c).ended = c.ended
  | 0, _ => ⟨rfl, rfl, rfl⟩
  | n + 1, c => by
    obtain ⟨hpid, hstatus, hended⟩ := same_after n c.next
    obtain ⟨hpid', hstatus', hended'⟩ := c.same_next
    exact ⟨hpid.trans hpid', hstatus.trans hstatus', hended.trans hended'⟩

theorem work_after : ∀ (n : Nat) (c : Child), (after n c).work = c.work.drop n
  | 0, _ => rfl
  | n + 1, c => by rw [after, work_after n, work_next, List.drop_tail]

/-- Nothing more is seen of a child that has done its work. -/
theorem trace_min : ∀ (n : Nat) (c : Child), trace (min n c.work.length) c = trace n c
  | 0, c => by rw [Nat.zero_min]
  | n + 1, c => by
    cases hw : c.work with
    | nil =>
      have hnone : ∀ n, trace n c = [] := by
        intro n
        induction n with
        | zero => rfl
        | succ n ih => rw [trace, does_of_work hw, next_of_work hw, ih, List.append_nil]
      rw [hnone, hnone]
    | cons a work =>
      have hlength : c.next.work.length = work.length := by rw [work_next, hw, List.tail_cons]
      rw [List.length_cons, Nat.add_min_add_right, trace, trace, ← hlength, trace_min n]

/-- The number of a child makes no difference to what it does. -/
theorem trace_pid : ∀ (n : Nat) (c : Child) (pid : Nat), trace n { c with pid } = trace n c
  | 0, _, _ => rfl
  | n + 1, ⟨_, console, log, [], status, ended⟩, pid =>
    trace_pid n ⟨_, console, log, [], status, ended⟩ pid
  | n + 1, ⟨p, console, log, a :: work, status, ended⟩, pid => by
    have hnext := trace_pid n (Child.mk p console log (a :: work) status ended).next pid
    cases a <;> exact congrArg (_ ++ ·) hnext

end Child

/-! ## A child at work on a host -/

namespace Host

/-- Nothing but the journal has changed, by what another process has done. -/
def sees (h : Host) (os : List Other) : Host := h.onJournal (·.enterAll (os.map .other))

variable {c : Child} {h : Host} {n : Nat}

theorem sees_sees (h : Host) (os os' : List Other) : (h.sees os).sees os' = h.sees (os ++ os') := by
  simp only [sees, onJournal, List.map_append, Journal.enterAll_append]

theorem step_of_work {a : Journal.Act} {work : List Journal.Act} (hw : c.work = a :: work) :
    step c h = (c.next, h.sees c.does) := by
  unfold step Child.next Child.does
  rw [hw]
  simp only [Child.act_eq]
  rfl

theorem advance_eq : ∀ {n : Nat} {c : Child} (h : Host), n ≤ c.work.length →
    advance n c h = (c.after n, h.sees (c.trace n))
  | 0, _, _, _ => rfl
  | n + 1, c, h, hn => by
    obtain ⟨a, work, hw⟩ : ∃ a work, c.work = a :: work :=
      List.exists_cons_of_length_pos (Nat.lt_of_lt_of_le n.succ_pos hn)
    have hn' : n ≤ c.next.work.length := by
      rw [Child.work_next, List.length_tail]
      omega
    simp only [advance, step_of_work hw, advance_eq (h.sees c.does) hn', sees_sees]
    rfl

theorem advance_succ : ∀ (n : Nat) (c : Child) (h : Host),
    advance (n + 1) c h = step (advance n c h).1 (advance n c h).2
  | 0, _, _ => rfl
  | n + 1, c, h => advance_succ n (step c h).1 (step c h).2

/-- A child ends that has done its work, if it does. -/
def close (c : Child) (h : Host) : Child × Host :=
  if c.status.isSome && !c.ended then
    ({ c with ended := true }, h.log (.ended c.pid c.console c.pendingLog))
  else (c, h)

theorem step_of_done (hw : c.work = []) (h : Host) : step c h = close c h := by
  unfold step close
  rw [hw]

/-- **A child does all of its work** and ends. -/
theorem finish_eq (c : Child) (h : Host) :
    finish c h = close (c.after c.work.length) (h.sees (c.trace c.work.length)) := by
  rw [finish, advance_succ, advance_eq h (Nat.le_refl _)]
  exact step_of_done (by rw [Child.work_after, List.drop_length]) _

end Host

/-! ## What holds of every child -/

/-- What another process of these tests can do: it shows outcomes, and it appends outcomes to the
log. -/
def IsPlain (loc : Option Location) : Other → Prop
  | .showed cs => ∀ k ∈ cs, k.IsOutcome
  | .appended l texts => loc = some l ∧ ∀ t ∈ texts, IsOutcome t
  | _ => True

namespace Child

/-- A child shows and logs nothing but outcomes, its log is the one at this location, and when its work
is done nothing is pending in it. -/
structure Plain (loc : Option Location) (c : Child) : Prop where
  pending : ∀ k ∈ c.console, k.IsOutcome
  coming : ∀ k, .display k ∈ c.work → k.IsOutcome
  log : ∀ l ∈ c.log, loc = some l.location ∧ ∀ t ∈ l.pending, IsOutcome t
  recording : ∀ t, .record t ∈ c.work → IsOutcome t
  drains : (c.after c.work.length).console = [] ∧ (c.after c.work.length).pendingLog = []

variable {loc : Option Location} {c : Child}

theorem Plain.next (h : c.Plain loc) : c.next.Plain loc := by
  cases hw : c.work with
  | nil => rwa [next_of_work hw]
  | cons a work =>
    have hwork : c.next.work = work := by rw [work_next, hw, List.tail_cons]
    have hrest : ∀ a' ∈ c.next.work, a' ∈ c.work := fun a' ha' => by
      rw [hwork] at ha'
      rw [hw]
      exact List.mem_cons_of_mem _ ha'
    have ha : a ∈ c.work := by
      rw [hw]
      exact List.mem_cons_self
    refine ⟨?_, fun k hk => h.coming k (hrest _ hk), ?_, fun t ht => h.recording t (hrest _ ht), ?_⟩
    · unfold Child.next
      rw [hw]
      cases a with
      | display k =>
        intro k' hk'
        rcases List.mem_append.mp hk' with hk' | hk'
        · exact h.pending k' hk'
        · obtain rfl := List.mem_singleton.mp hk'
          exact h.coming k' ha
      | flushConsole => exact fun k hk => nomatch hk
      | _ => exact h.pending
    · unfold Child.next
      rw [hw]
      cases a with
      | record t =>
        intro l hl
        obtain ⟨l', hl', rfl⟩ := Option.map_eq_some_iff.mp hl
        obtain ⟨hloc, hpending⟩ := h.log l' hl'
        refine ⟨hloc, fun t' ht' => (List.mem_append.mp ht').elim (hpending t') fun ht' => ?_⟩
        obtain rfl := List.mem_singleton.mp ht'
        exact h.recording t' ha
      | flushLog =>
        intro l hl
        obtain ⟨l', hl', rfl⟩ := Option.map_eq_some_iff.mp hl
        exact ⟨(h.log l' hl').1, fun _ ht => nomatch ht⟩
      | _ => exact h.log
    · have hdrains := h.drains
      rwa [hw, List.length_cons, after, ← hwork] at hdrains

theorem Plain.does (h : c.Plain loc) : ∀ o ∈ c.does, IsPlain loc o := by
  unfold Child.does
  split
  · exact fun o ho => nomatch ho
  · rename_i a _ _
    intro o ho
    cases a with
    | display k =>
      obtain rfl := List.mem_singleton.mp ho
      trivial
    | record s =>
      have htook : o = .tookLog s := by
        simp only [tells] at ho
        split at ho
        · exact List.mem_singleton.mp ho
        · cases ho
      rw [htook]
      trivial
    | flushConsole =>
      obtain rfl := List.mem_singleton.mp ho
      exact h.pending
    | flushLog =>
      obtain ⟨l, hl, rfl⟩ := Option.map_eq_some_iff.mp (Option.mem_toList.mp ho)
      exact h.log l hl

theorem Plain.after : ∀ (n : Nat) {c : Child}, c.Plain loc → (c.after n).Plain loc
  | 0, _, h => h
  | n + 1, _, h => Plain.after n h.next

theorem Plain.trace : ∀ (n : Nat) {c : Child}, c.Plain loc → ∀ o ∈ c.trace n, IsPlain loc o
  | 0, _, _ => fun _ ho => nomatch ho
  | n + 1, _, h => fun o ho => (List.mem_append.mp ho).elim (h.does o) (Plain.trace n h.next o)

/-- Nothing is pending in a child that has done its work. -/
theorem Plain.drained (h : c.Plain loc) (hw : c.work = []) :
    c.console = [] ∧ c.pendingLog = [] := by
  have hdrains := h.drains
  rwa [hw] at hdrains

end Child

/-! ## Copies that report an outcome -/

namespace Child

/-- A child as it begins in a settled journal whose log is at this location. -/
def begun (pid : Nat) (d : Dumper) (test : Identity) (e : Ending) (loc : Option Location) : Child :=
  { pid
    console := []
    log := loc.map (⟨·, []⟩)
    work := (script d test e).1
    status := (script d test e).2 }

theorem ofEnding_of_settled {j : Journal} (h : j.Settled) (pid : Nat) (d : Dumper) (test : Identity)
    (e : Ending) : ofEnding pid d test e j = begun pid d test e (j.log.map (·.location)) := by
  have hlog : j.log.map (fun l => (⟨l.location, l.sink.pending⟩ : ChildLog)) =
      (j.log.map (·.location)).map (⟨·, []⟩) := by
    cases hl : j.log with
    | none => rfl
    | some l => simp [h.log l hl]
  rw [ofEnding, begun, h.console, hlog]

/-- What a copy writes, if anything, and what it does else. -/
theorem script_cases (d : Dumper) (test : Identity) (e : Ending) :
    ((script d test e).1 = [] ∧ (Classifier.report d test.name e).2 = none) ∨
    (script d test e).1 =
      ((Classifier.report d test.name e).2.map Classifier.outcomeWork).getD [] ++
        [.flushConsole, .flushLog] := by
  cases e with
  | left how => cases how <;> exact Or.inl ⟨rfl, rfl⟩
  | _ => exact Or.inr rfl

variable {pid : Nat} {d : Dumper} {test : Identity} {e : Ending} {loc : Option Location} {b : String}

/-- A child that reports an outcome. -/
def reporting (pid : Nat) (loc : Option Location) (b : String) (status : Option Status) : Child :=
  { pid
    console := []
    log := loc.map (⟨·, []⟩)
    work := Classifier.outcomeWork b ++ [.flushConsole, .flushLog]
    status }

/-- A child that reports nothing. -/
structure Silent (c : Child) : Prop where
  console : c.console = []
  log : ∀ l ∈ c.log, l.pending = []
  work : ∀ a ∈ c.work, a = .flushConsole ∨ a = .flushLog

theorem begun_cases (pid : Nat) (d : Dumper) (test : Identity) (e : Ending) (loc : Option Location) :
    ((Classifier.report d test.name e).2 = none ∧ (begun pid d test e loc).Silent) ∨
    ∃ b, (Classifier.report d test.name e).2 = some b ∧
      begun pid d test e loc = reporting pid loc b (script d test e).2 := by
  have hlog : ∀ l ∈ (begun pid d test e loc).log, l.pending = [] := by
    intro l hl
    obtain ⟨_, -, rfl⟩ := Option.map_eq_some_iff.mp hl
    rfl
  rcases script_cases d test e with ⟨hw, hr⟩ | hw
  · exact Or.inl ⟨hr, rfl, hlog, fun a ha => by rw [begun, hw] at ha; cases ha⟩
  · cases hr : (Classifier.report d test.name e).2 with
    | none =>
      rw [hr] at hw
      refine Or.inl ⟨rfl, rfl, hlog, fun a ha => ?_⟩
      rw [begun, hw] at ha
      simpa using ha
    | some b =>
      rw [hr] at hw
      exact Or.inr ⟨b, rfl, by rw [begun, hw]; rfl⟩

theorem Silent.next {c : Child} (h : c.Silent) : c.next.Silent := by
  cases hw : c.work with
  | nil => rwa [next_of_work hw]
  | cons a work =>
    have hrest : ∀ a' ∈ work, a' = .flushConsole ∨ a' = .flushLog := fun a' ha' =>
      h.work a' (by rw [hw]; exact List.mem_cons_of_mem _ ha')
    have ha := h.work a (by rw [hw]; exact List.mem_cons_self)
    unfold Child.next
    rw [hw]
    rcases ha with rfl | rfl
    · exact ⟨rfl, h.log, hrest⟩
    · refine ⟨h.console, fun l hl => ?_, hrest⟩
      obtain ⟨_, -, rfl⟩ := Option.map_eq_some_iff.mp hl
      rfl

/-- Nothing is seen of a child that reports nothing. -/
theorem Silent.does {c : Child} (h : c.Silent) :
    ∀ o ∈ c.does, o = .showed [] ∨ ∃ l, o = .appended l [] := by
  unfold Child.does
  split
  · exact fun o ho => nomatch ho
  · rename_i a _ hw
    intro o ho
    rcases h.work a (by rw [hw]; exact List.mem_cons_self) with rfl | rfl
    · obtain rfl := List.mem_singleton.mp ho
      exact Or.inl (by rw [h.console])
    · obtain ⟨l, hl, rfl⟩ := Option.map_eq_some_iff.mp (Option.mem_toList.mp ho)
      exact Or.inr ⟨_, by rw [h.log l hl]⟩

theorem Silent.trace : ∀ (n : Nat) {c : Child}, c.Silent →
    ∀ o ∈ c.trace n, o = .showed [] ∨ ∃ l, o = .appended l []
  | 0, _, _ => fun _ ho => nomatch ho
  | n + 1, _, h => fun o ho => (List.mem_append.mp ho).elim (h.does o) (Silent.trace n h.next o)

theorem Silent.after : ∀ (n : Nat) {c : Child}, c.Silent → (c.after n).Silent
  | 0, _, h => h
  | n + 1, _, h => Silent.after n h.next

/-- How many acts of its work put the outcome of a copy on the console, and how many into the log. -/
def showing : Nat := 3
def logging : Nat := 4

theorem Silent.chunks {c : Child} (h : c.Silent) (n : Nat) :
    (c.trace n).flatMap Other.chunks = [] := by
  refine List.flatMap_eq_nil_iff.mpr fun o ho => ?_
  rcases h.trace n o ho with rfl | ⟨l, rfl⟩ <;> rfl

theorem Silent.logged {c : Child} (h : c.Silent) (n : Nat) :
    String.join ((c.trace n).map Other.logged) = "" := by
  have hnone : ∀ os : List Other, (∀ o ∈ os, o = .showed [] ∨ ∃ l, o = .appended l []) →
      String.join (os.map Other.logged) = "" := by
    intro os
    induction os with
    | nil => exact fun _ => rfl
    | cons o os ih =>
      intro hos
      have ho : o.logged = "" := by
        rcases hos o List.mem_cons_self with rfl | ⟨l, rfl⟩ <;> rfl
      rw [List.map_cons, String.join_cons, ho, ih fun o' ho' => hos o' (List.mem_cons_of_mem _ ho')]
      rfl
  exact hnone _ (h.trace n)

theorem trace_reporting (loc : Option Location) (status : Option Status) (n : Nat) :
    ((reporting pid loc b status).trace n).flatMap Other.chunks =
      (if showing ≤ n then [.outcome b] else []) ∧
    ∀ l ∈ loc, String.join (((reporting pid loc b status).trace n).map Other.logged) =
      if logging ≤ n then b else "" := by
  have hlength : (reporting pid loc b status).work.length = 6 := rfl
  rw [← trace_min, hlength]
  have hfew : ∀ m ≤ 6, ((reporting pid loc b status).trace m).flatMap Other.chunks =
      (if showing ≤ m then [.outcome b] else []) ∧
      ∀ l ∈ loc, String.join (((reporting pid loc b status).trace m).map Other.logged) =
        if logging ≤ m then b else "" := by
    intro m hm
    cases loc with
    | none => interval_cases m <;> exact ⟨rfl, fun _ hl => nomatch hl⟩
    | some l =>
      interval_cases m <;>
        simp [reporting, Classifier.outcomeWork, trace, next, does, tells, past, Other.chunks,
          Other.logged, showing, logging]
  obtain ⟨hchunks, hlogged⟩ := hfew (min n 6) (Nat.min_le_right _ _)
  have hshow : showing ≤ min n 6 ↔ showing ≤ n := by simp [showing]
  have hlog : logging ≤ min n 6 ↔ logging ≤ n := by simp [logging]
  exact ⟨by rw [hchunks, if_congr hshow rfl rfl], fun l hl => by rw [hlogged l hl, if_congr hlog rfl rfl]⟩

/-- **What a copy has put on the console** by some acts: its outcome, or nothing. -/
theorem chunks_trace (n : Nat) : ((begun pid d test e loc).trace n).flatMap Other.chunks =
    if showing ≤ n then ((Classifier.report d test.name e).2.map Chunk.outcome).toList else [] := by
  rcases begun_cases pid d test e loc with ⟨hr, hsilent⟩ | ⟨b, hr, hb⟩
  · rw [hsilent.chunks, hr]
    simp
  · rw [hb, (trace_reporting loc _ n).1, hr]
    rfl

/-- **What a copy has put into the log.** -/
theorem logged_trace {l : Location} (n : Nat) :
    String.join (((begun pid d test e (some l)).trace n).map Other.logged) =
      if logging ≤ n then (Classifier.report d test.name e).2.getD "" else "" := by
  rcases begun_cases pid d test e (some l) with ⟨hr, hsilent⟩ | ⟨b, hr, hb⟩
  · rw [hsilent.logged, hr]
    simp
  · rw [hb, (trace_reporting (some l) _ n).2 l rfl, hr]
    rfl

theorem plain_begun (pid : Nat) (d : Dumper) (test : Identity) (e : Ending) (loc : Option Location) :
    (begun pid d test e loc).Plain loc := by
  have hlog : ∀ l ∈ (begun pid d test e loc).log,
      loc = some l.location ∧ ∀ t ∈ l.pending, IsOutcome t := by
    intro l hl
    obtain ⟨l', hl', rfl⟩ := Option.map_eq_some_iff.mp hl
    exact ⟨hl', fun _ ht => nomatch ht⟩
  rcases begun_cases pid d test e loc with ⟨-, hsilent⟩ | ⟨b, hr, hb⟩
  · refine ⟨?_, fun k hk => ?_, hlog, fun t ht => ?_, ?_⟩
    · rw [hsilent.console]
      exact fun k hk => nomatch hk
    · rcases hsilent.work _ hk with hk | hk <;> cases hk
    · rcases hsilent.work _ ht with ht | ht <;> cases ht
    · have hafter := hsilent.after (begun pid d test e loc).work.length
      refine ⟨hafter.console, ?_⟩
      unfold pendingLog
      cases hl : ((begun pid d test e loc).after (begun pid d test e loc).work.length).log with
      | none => rfl
      | some l => exact hafter.log l hl
  · have hout : IsOutcome b := Classifier.isOutcome_report hr
    rw [hb] at hlog ⊢
    refine ⟨fun k hk => (nomatch hk), fun k hk => ?_, hlog, fun t ht => ?_, ?_⟩
    · have hk : k = .outcome b := by simpa [reporting, Classifier.outcomeWork] using hk
      exact ⟨b, hout, hk⟩
    · have ht : t = b := by simpa [reporting, Classifier.outcomeWork] using ht
      exact ht ▸ hout
    · cases loc <;> exact ⟨rfl, rfl⟩

/-! ## All of the work of a copy -/

variable {j : Journal}

theorem see_showed_nil (j : Journal) : j.see (.showed []) = j := by
  simp [Journal.see, Journal.show]

theorem see_appended_nil (j : Journal) (l : Location) : j.see (.appended l []) = j := by
  obtain ⟨colored, verbose, console, _ | f, disk⟩ := j <;> simp [Journal.see, Journal.append]

theorem Silent.enterAll {c : Child} (h : c.Silent) (n : Nat) :
    j.enterAll ((c.trace n).map .other) = j := by
  have hnone : ∀ os : List Other, (∀ o ∈ os, o = .showed [] ∨ ∃ l, o = .appended l []) →
      j.enterAll (os.map .other) = j := by
    intro os
    induction os with
    | nil => exact fun _ => rfl
    | cons o os ih =>
      intro hos
      have ho : j.enter (.other o) = j := by
        rcases hos o List.mem_cons_self with rfl | ⟨l, rfl⟩
        · exact see_showed_nil j
        · exact see_appended_nil j l
      rw [List.map_cons, Journal.enterAll_cons, ho]
      exact ih fun o' ho' => hos o' (List.mem_cons_of_mem _ ho')
  exact hnone _ (h.trace n)

/-- **All that a copy does** comes to writing what it reports. -/
theorem enterAll_trace (hs : j.Settled) (pid : Nat) (d : Dumper) (test : Identity) (e : Ending) :
    let c := begun pid d test e (j.log.map (·.location))
    j.enterAll ((c.trace c.work.length).map .other) =
      j.enterAll (((Classifier.report d test.name e).2.map Entry.outcome).toList) := by
  intro c
  rcases begun_cases pid d test e (j.log.map (·.location)) with ⟨hr, hsilent⟩ | ⟨b, hr, hb⟩
  · rw [hsilent.enterAll, hr]
    rfl
  · have hc : c = reporting pid (j.log.map (·.location)) b (script d test e).2 := hb
    rw [hc, hr]
    obtain ⟨colored, verbose, ⟨flushed, pending, accepted⟩, log, disk⟩ := j
    obtain rfl : pending = [] := hs.console
    match log, hs.log with
    | none, _ =>
      simp [reporting, Classifier.outcomeWork, trace, next, does, tells, past, Journal.enterAll,
        Journal.enter, Journal.see, Journal.take, Journal.show, Classifier.writeOutcome, Journal.does,
        Journal.Act.on, Journal.display, Journal.record, Journal.flushConsole, Journal.flushLog,
        Sink.put, Sink.flush]
    | some ⟨location, ⟨flushed', pending', accepted'⟩⟩, hlog =>
      obtain rfl : pending' = [] := hlog _ rfl
      simp [reporting, Classifier.outcomeWork, trace, next, does, tells, past, Journal.enterAll,
        Journal.enter, Journal.see, Journal.take, Journal.takeLog, Journal.show, Journal.append,
        Classifier.writeOutcome, Journal.does, Journal.Act.on, Journal.display, Journal.record,
        Journal.flushConsole, Journal.flushLog, Sink.put, Sink.flush]

end Child

/-! ## Processes that were left behind -/

/-- Only copies of this process were left behind. -/
def Stray.Plain (loc : Option Location) : Stray → Prop
  | copy c => c.Plain loc
  | program _ => False

/-- A host that has gone on to another one by what the processes did that were left behind. -/
structure Host.Passes (loc : Option Location) (os : List Other) (h h' : Host) : Prop where
  journal : h'.journal = h.journal.enterAll (os.map .other)
  plain : ∀ o ∈ os, IsPlain loc o
  strays : ∀ s ∈ h'.strays, s.Plain loc
  faults : h'.faults = h.faults
  launcher : h'.launcher = h.launcher
  nextPid : h'.nextPid = h.nextPid
  /-- Without such processes nothing happens. -/
  alone : h.strays = [] → h' = h ∧ os = []

namespace Host

variable {loc : Option Location} {h h' h'' : Host} {os os' : List Other}

theorem Passes.refl (hs : ∀ s ∈ h.strays, s.Plain loc) : h.Passes loc [] h :=
  ⟨rfl, fun _ ho => (nomatch ho), hs, rfl, rfl, rfl, fun _ => ⟨rfl, rfl⟩⟩

theorem Passes.trans (hp : h.Passes loc os h') (hp' : h'.Passes loc os' h'') :
    h.Passes loc (os ++ os') h'' := by
  refine ⟨?_, fun o ho => ?_, hp'.strays, hp'.faults.trans hp.faults,
    hp'.launcher.trans hp.launcher, hp'.nextPid.trans hp.nextPid, fun hn => ?_⟩
  · rw [hp'.journal, hp.journal, List.map_append, Journal.enterAll_append]
  · exact (List.mem_append.mp ho).elim (hp.plain o) (hp'.plain o)
  · obtain ⟨hsame, rfl⟩ := hp.alone hn
    obtain ⟨hsame', rfl⟩ := hp'.alone (hsame ▸ hn)
    exact ⟨hsame'.trans hsame, rfl⟩

theorem passes_wake (hs : ∀ s ∈ h.strays, s.Plain loc) (i : Nat) :
    ∃ os, h.Passes loc os (h.wake i) := by
  unfold wake
  cases hi : h.strays[i]? with
  | none => exact ⟨[], .refl hs⟩
  | some s =>
    have hmem : s ∈ h.strays := List.mem_of_getElem? hi
    have halone : h.strays ≠ [] := List.ne_nil_of_mem hmem
    cases s with
    | program words => exact (hs _ hmem).elim
    | copy c =>
      have hc : c.Plain loc := hs _ hmem
      have hrest : ∀ s ∈ h.strays.eraseIdx i, s.Plain loc := fun s hs' =>
        hs s (List.mem_of_mem_eraseIdx hs')
      have hset : ∀ c' : Child, c'.Plain loc → ∀ s ∈ h.strays.set i (.copy c'), s.Plain loc := by
        intro c' hc' s hs'
        rcases List.mem_or_eq_of_mem_set hs' with hs' | rfl
        · exact hs s hs'
        · exact hc'
      cases hw : c.work with
      | cons a work =>
        refine ⟨c.does, ?_⟩
        simp only [step_of_work hw]
        refine ⟨rfl, hc.does, ?_, rfl, rfl, rfl, fun hn => absurd hn halone⟩
        dsimp only
        split
        · exact hrest
        · exact hset _ hc.next
      | nil =>
        refine ⟨[], ?_⟩
        unfold step
        simp only [hw]
        split
        · exact ⟨rfl, fun _ ho => (nomatch ho), hrest, rfl, rfl, rfl, fun hn => absurd hn halone⟩
        · refine ⟨rfl, fun _ ho => (nomatch ho), ?_, rfl, rfl, rfl, fun hn => absurd hn halone⟩
          dsimp only
          split
          · exact hrest
          · exact hset _ hc

/-- **Processes that were left behind** go on: they show outcomes and append to the log. -/
theorem passes_elapse : ∀ (order : List Nat) {h : Host}, (∀ s ∈ h.strays, s.Plain loc) →
    ∃ os, h.Passes loc os (h.elapse order)
  | [], _, hs => ⟨[], .refl hs⟩
  | i :: order, h, hs => by
    obtain ⟨os, hp⟩ := passes_wake hs i
    obtain ⟨os', hp'⟩ := passes_elapse order hp.strays
    exact ⟨os ++ os', hp.trans hp'⟩

/-- Where no process was left behind, nothing happens. -/
theorem elapse_of_alone (order : List Nat) (h : Host) (hs : h.strays = []) : h.elapse order = h := by
  have hplain : ∀ s ∈ h.strays, s.Plain none := fun s hmem => by
    rw [hs] at hmem
    cases hmem
  obtain ⟨_, hp⟩ := passes_elapse order hplain
  exact (hp.alone hs).1

end Host

end Supervision

end TestRig
