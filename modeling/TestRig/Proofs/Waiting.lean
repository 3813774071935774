import Mathlib.Data.List.Forall2
import TestRig.Proofs.Order
import TestRig.Proofs.Presentation
import TestRig.Proofs.Verdicts

/-!
# TestRig.Proofs.Waiting — the way of waiting makes no difference

A rig waits for a copy of itself with a descriptor or, if there is none, by repeated looks.  Both are
loops on a clock.  The one waits for whole milliseconds until the copy has ended or the time is over;
the other one sleeps between two looks.  They find the same if the wait begins before the time limit and
the copy ends by the limit, or outlives it by more than the last step of a wait can take.  So two runs
look the same that differ in their descriptors, in the numbers of their processes and in how long these
take.

* `Course.Alike`: two courses of one process in different runs.
* `Journal.Paired`: two journals on the same log; what is written to both leaves them so.
* `Rig.Decisive`: every copy of a rig ends by its time limit or outlives it.
* `Rig.SameButWaiting`: two rigs in different runs.
* `Rig.waiting_makes_no_difference`: they look the same in every session, but for the numbers of
  processes in notes.
* `Rig.waiting_can_matter`: otherwise they can differ.
-/

namespace TestRig

open Supervision (Fate Faults Calls Course Child endingStatus)
open Journal (Entry)

/-- Two courses of one process in different runs: it ends by the time limit in both, or outlives it in
both, and has done the same where it is killed. -/
structure Supervision.Course.Alike (limit : Nat) (k k' : Course) : Prop where
  decisive : k.Decisive limit
  decisive' : k'.Decisive limit
  ends : k'.ends ≤ limit ↔ k.ends ≤ limit
  done : k'.done = k.done

theorem Supervision.Course.Alike.ended? {limit : Nat} {k k' : Course} (h : k.Alike limit k')
    (s : Option Supervision.Status) : k'.ended? s limit = k.ended? s limit :=
  if_congr h.ends rfl rfl

/-! ## Journals of two runs -/

namespace Journal

/-- Two settled journals on the same log: they may differ in what each has written before, but not in
what stands on the disk. -/
structure Paired (j j' : Journal) : Prop where
  settled : j.Settled
  settled' : j'.Settled
  verbose : j'.verbose = j.verbose
  colored : j'.colored = j.colored
  log : j'.log.map (·.location) = j.log.map (·.location)
  disk : j'.disk = j.disk

variable {j j' : Journal}

/-- What an entry does to the disk depends on where the log is. -/
theorem disk_enter (e : Entry) : ∃ g : Option Location → Disk → Disk, ∀ j : Journal, j.Settled →
    (j.enter e).disk = g (j.log.map (·.location)) j.disk := by
  have hput : ∀ (c : Chunk) (s : String) (j : Journal), j.Settled →
      ((j.display c).record s).flush.disk =
        ((j.log.map (·.location)).map fun l => j.disk.append l s).getD j.disk := by
    intro c s j h
    obtain ⟨colored, verbose, console, _ | ⟨location, sink⟩, disk⟩ := j
    · rfl
    · have hp : sink.pending = [] := h.log _ rfl
      simp [display, record, flush, flushConsole, flushLog, Sink.put, hp]
  cases e with
  | name test =>
    exact ⟨fun l d => (l.map fun l => d.append l (test.name ++ ": ")).getD d, fun j h => hput _ _ j h⟩
  | outcome text => exact ⟨fun l d => (l.map fun l => d.append l text).getD d, fun j h => hput _ _ j h⟩
  | blank => exact ⟨fun l d => (l.map fun l => d.append l "\n").getD d, fun j h => hput _ _ j h⟩
  | note s =>
    refine ⟨fun _ d => d, fun j _ => ?_⟩
    simp only [enter, note]
    split <;> rfl
  | aside cs => exact ⟨fun _ d => d, fun j _ => disk_aside j cs⟩
  | other o =>
    cases o with
    | appended l texts => exact ⟨fun _ d => d.append l (String.join texts), fun _ _ => rfl⟩
    | _ => exact ⟨fun _ d => d, fun _ _ => rfl⟩

namespace Paired

theorem enter (h : j.Paired j') (e : Entry) : (j.enter e).Paired (j'.enter e) := by
  have ha := alike_enter j e
  have ha' := alike_enter j' e
  obtain ⟨g, hg⟩ := disk_enter e
  refine ⟨settled_enter h.settled e, settled_enter h.settled' e, ?_, ?_, ?_, ?_⟩
  · rw [ha.verbose, ha'.verbose, h.verbose]
  · rw [ha.colored, ha'.colored, h.colored]
  · rw [ha.log, ha'.log, h.log]
  · rw [hg j h.settled, hg j' h.settled', h.log, h.disk]

theorem enterAll : ∀ (es : List Entry) {j j' : Journal}, j.Paired j' →
    (j.enterAll es).Paired (j'.enterAll es)
  | [], _, _, h => h
  | e :: es, _, _, h => enterAll es (h.enter e)

/-- Notes go to the console alone, and may differ. -/
theorem note (h : j.Paired j') (s s' : String) : (j.enter (.note s)).Paired (j'.enter (.note s')) := by
  have hpaired := h.enter (.note s')
  have ha := alike_enter j (.note s)
  have hsame : ∀ s, (j.enter (.note s)).disk = j.disk := by
    intro s
    simp only [Journal.enter, Journal.note]
    split <;> rfl
  refine ⟨settled_enter h.settled _, hpaired.settled', ?_, ?_, ?_, ?_⟩
  · rw [ha.verbose, hpaired.verbose, (alike_enter j (.note s')).verbose]
  · rw [ha.colored, hpaired.colored, (alike_enter j (.note s')).colored]
  · rw [ha.log, hpaired.log, (alike_enter j (.note s')).log]
  · rw [hpaired.disk, hsame, hsame]

/-- Entries that are the same but for the number of a process. -/
theorem sameButProcess (h : j.Paired j') {test : Identity} {m n : Nat} {es fs : List Entry}
    (he : SameButProcess test m n es fs) : (j.enterAll es).Paired (j'.enterAll fs) := by
  obtain rfl | ⟨ds, code, rfl, rfl⟩ := he
  · exact h.enterAll es
  · rw [enterAll_append, enterAll_append]
    exact (h.enterAll ds).note _ _

/-- **A chore leaves two journals paired.** -/
theorem chore (h : j.Paired j') {f : Journal → Journal} (hf : Chore f) : (f j).Paired (f j') := by
  cases hf with
  | none => exact h
  | summary r => exact h.enter (.aside r.summaryChunks)
  | close texts =>
    have haside := h.enter (.aside (texts.map .line))
    show (texts.foldl Journal.error j).close.Paired (texts.foldl Journal.error j').close
    rw [errors_eq_aside texts h.settled, errors_eq_aside texts h.settled', haside.settled.close,
      haside.settled'.close]
    exact ⟨⟨haside.settled.console, by simp⟩, ⟨haside.settled'.console, by simp⟩, haside.verbose,
      haside.colored, rfl, haside.disk⟩

end Paired

/-- A chore shows the same on any console. -/
theorem Chore.items {f : Journal → Journal} (hf : Chore f) : ∃ cs, ∀ j : Journal, j.Settled →
    (f j).console.items = j.console.items ++ cs := by
  obtain ⟨cs, hcs⟩ := hf.eq_aside
  refine ⟨cs, fun j h => ?_⟩
  have hitems := items_enter h (.aside cs)
  rcases hcs j h with heq | heq
  · rw [heq, hitems]
    rfl
  · rw [heq]
    exact hitems

end Journal

/-! ## Moments of two runs -/

/-- Two moments that look the same: the same answer, numbers and keys, the same disk, and the same text
on the console, but that the note at its end, if there is one, gives the number of another process. -/
structure Moment.Matches (m m' : Moment) : Prop where
  imprint : m'.imprint = m.imprint
  shown : m'.shown = m.shown ∨ ∃ k front code, m.admitted? = some k ∧
    m.shown = front ++ exitLine (m.before.registry.identity k) m.before.host.nextPid code ∧
    m'.shown = front ++ exitLine (m.before.registry.identity k) m'.before.host.nextPid code
  plain : m.before.journal.verbose = false → m'.shown = m.shown

/-- What is shown at a moment at which entries are written. -/
theorem Moment.shown_of_entries {m : Moment} {es : List Entry} (hs : m.before.journal.Settled)
    (h : m.after.journal = m.before.journal.enterAll es) : m.shown =
      Chunk.renderAll m.before.journal.colored (es.flatMap (Entry.chunks m.before.journal.verbose)) := by
  rw [Moment.shown, h, Journal.textFrom, Journal.items_enterAll hs, List.drop_left,
    (Journal.alike_enterAll _ _).colored]

/-- What is shown at a moment at which chunks are displayed. -/
theorem Moment.shown_of_items {m : Moment} {cs : List Chunk}
    (h : m.after.journal.console.items = m.before.journal.console.items ++ cs) :
    m.shown = Chunk.renderAll m.after.journal.colored cs := by
  rw [Moment.shown, Journal.textFrom, h, List.drop_left]

namespace Rig

variable {r r' : Rig} {test : Identity} {body : Body} {q : Request}

/-- How the copy for a test has ended by its time limit, if it has. -/
def inTime? (r : Rig) (test : Identity) (body : Body) : Option Supervision.Status :=
  r.host.nextCourse.ended? (endingStatus r.dumper test.name (body r.arguments))
    (1000 * r.configuration.timeout.getD 0)

/-- A rig that forks without hindrance, where every process ends by the time limit or outlives it. -/
structure Decisive (r : Rig) : Prop extends r.Unhindered where
  decisive : ∀ n, (r.host.faults.courses n).Decisive (1000 * r.configuration.timeout.getD 0)

/-- The fate of a test is how its copy has ended by the limit. -/
theorem Decisive.fate (h : r.Decisive) (test : Identity) (body : Body) : r.fate test body =
    match r.inTime? test body with
    | some s => .ended s
    | none => .expired (some r.host.nextCourse.done) :=
  Fate.of_decisive h.quiet h.limitFault? (h.decisive 0) _

/-- A test passes if its copy has ended by the limit with 0. -/
theorem Decisive.verdict (h : r.Decisive) (hw : test.isWritable = true) (body : Body) :
    r.verdict test body = .ok (r.inTime? test body == some (.exited 0)) := by
  rw [h.toUnhindered.verdict hw, seen?, Fate.seen?_of_decisive h.quiet h.limitFault? (h.decisive 0)]
  rfl

/-- **One request** leaves a rig so. -/
theorem Decisive.moment (h : r.Decisive) (q : Request) : (r.moment q).after.Decisive := by
  have hkeeps := keeps_moment h.homely q
  refine { h.toUnhindered.moment q with decisive := fun n => ?_ }
  obtain ⟨m, hcourses⟩ := hkeeps.faults.courses
  rw [hcourses, hkeeps.configuration]
  exact h.decisive _

theorem Decisive.served : ∀ (qs : List Request) {r : Rig}, r.Decisive → (r.served qs).Decisive
  | [], _, h => h
  | q :: qs, _, h => Decisive.served qs (h.moment q)

theorem decisive_of_set {s : Setup} {ms : Nat} (h : Rig.set s = .ok r)
    (hdirect : r.configuration.direct = false) (hfork : r.strategy = .fork)
    (htime : r.configuration.timeout = some ms) (hlimit : ms ≤ 2147483647) (hq : s.faults.Quiet)
    (hd : ∀ n, (s.faults.courses n).Decisive (1000 * ms)) : r.Decisive := by
  refine { unhindered_of_set h hdirect hfork htime hlimit hq with decisive := fun n => ?_ }
  rw [(fresh_of_set h).faults, htime]
  exact hd n

/-! ## Rigs that wait in different ways -/

/-- Two rigs in different runs: they may differ in their descriptors, in the numbers of their processes,
and in how long these take. -/
structure SameButWaiting (r r' : Rig) : Prop where
  books : r.SameBooks r'
  configuration : r'.configuration = r.configuration
  dumper : r'.dumper = r.dumper
  journal : r.journal.Paired r'.journal
  courses : ∀ n, Course.Alike (1000 * r.configuration.timeout.getD 0) (r.host.faults.courses n)
    (r'.host.faults.courses n)

namespace SameButWaiting

theorem enter (h : r.SameButWaiting r') (k : Key) : (r.enter k).SameButWaiting (r'.enter k) :=
  { h with books := h.books.enter k }

theorem decisive (h : r.SameButWaiting r') (hr : r.Unhindered) : r.Decisive :=
  { hr with decisive := fun n => (h.courses n).decisive }

theorem decisive' (h : r.SameButWaiting r') (hr' : r'.Unhindered) : r'.Decisive := by
  refine { hr' with decisive := fun n => ?_ }
  rw [h.configuration]
  exact (h.courses n).decisive'

/-- The fate of a copy does not depend on how it is waited for. -/
theorem fate (h : r.SameButWaiting r') (hr : r.Unhindered) (hr' : r'.Unhindered) (test : Identity)
    (body : Body) : r'.fate test body = r.fate test body := by
  have hcourse : Course.Alike (1000 * r.configuration.timeout.getD 0) r.host.nextCourse
    r'.host.nextCourse := h.courses 0
  rw [(h.decisive hr).fate, (h.decisive' hr').fate, inTime?, inTime?, h.configuration, h.dumper,
    h.books.arguments, hcourse.ended?, hcourse.done]

theorem verdict (h : r.SameButWaiting r') (hr : r.Unhindered) (hr' : r'.Unhindered) (test : Identity)
    (body : Body) : r'.verdict test body = r.verdict test body := by
  unfold Rig.verdict
  rw [h.configuration, h.dumper, h.books.arguments, h.fate hr hr']

theorem copies (h : r.SameButWaiting r') (hr : r.Unhindered) (hr' : r'.Unhindered) (test : Identity)
    (body : Body) : r'.copies test body = r.copies test body := by
  unfold Rig.copies
  rw [h.configuration, h.fate hr hr']

/-- What the copies do is the same, whatever their numbers. -/
theorem trace_copy (h : r.SameButWaiting r') (test : Identity) (body : Body) (n : Nat) :
    (r'.copy test body).trace n = (r.copy test body).trace n := by
  have hcopy : r'.copy test body = { r.copy test body with pid := r'.host.nextPid } := by
    unfold Rig.copy
    rw [h.dumper, h.books.arguments, h.journal.log]
    rfl
  rw [hcopy]
  exact Child.trace_pid n (r.copy test body) r'.host.nextPid

theorem wrote (h : r.SameButWaiting r') (hr : r.Unhindered) (hr' : r'.Unhindered) (test : Identity)
    (body : Body) : SameButProcess test r.host.nextPid r'.host.nextPid (r.wrote test body [])
      (r'.wrote test body []) := by
  unfold Rig.wrote Rig.reported
  rw [hr.direct, hr'.direct, h.dumper, h.books.arguments, h.fate hr hr', funext (h.trace_copy test body)]
  cases test.isWritable with
  | false => exact .refl test _ _ []
  | true => exact sameButProcess_entries _ _ _ _ _ _ _

/-- **A test is performed alike.** -/
theorem perform (h : r.SameButWaiting r') (hr : r.Unhindered) (hr' : r'.Unhindered) (test : Identity)
    (body : Body) :
    (r'.perform test body).1 = (r.perform test body).1 ∧
    (r.perform test body).2.journal = r.journal.enterAll (r.wrote test body []) ∧
    (r'.perform test body).2.journal = r'.journal.enterAll (r'.wrote test body []) ∧
    ∀ n, Course.Alike (1000 * r.configuration.timeout.getD 0)
      ((r.perform test body).2.faults.courses n) ((r'.perform test body).2.faults.courses n) := by
  obtain ⟨others, hbeside, hcomes⟩ := perform_comes hr.homely test body
  obtain ⟨others', hbeside', hcomes'⟩ := perform_comes hr'.homely test body
  obtain rfl : others = [] := hbeside.alone hr.alone
  obtain rfl : others' = [] := hbeside'.alone hr'.alone
  refine ⟨?_, hcomes.journal, hcomes'.journal, fun n => ?_⟩
  · rw [hcomes.result, hcomes'.result, h.verdict hr hr']
  · rw [hcomes.courses, hcomes'.courses, h.copies hr hr']
    exact h.courses _

/-- What a request leaves of them, if the books are the same and the hosts agree. -/
theorem left (h : r.SameButWaiting r') {a a' : Rig} {k k' : Supervision.Host}
    (hbooks : a.SameBooks a') (hleft : r.Leaves k a) (hleft' : r'.Leaves k' a')
    (hj : k.journal.Paired k'.journal)
    (hk : ∀ n, Course.Alike (1000 * r.configuration.timeout.getD 0) (k.faults.courses n)
      (k'.faults.courses n)) : a.SameButWaiting a' := by
  refine ⟨hbooks, ?_, ?_, ?_, ?_⟩
  · rw [hleft.configuration, hleft'.configuration, h.configuration]
  · rw [hleft.dumper, hleft'.dumper, h.dumper]
  · rw [Rig.journal, Rig.journal, hleft.host, hleft'.host]
    exact hj
  · rw [hleft.configuration, hleft.host, hleft'.host]
    exact hk

/-- **A request for which no test is performed.** -/
theorem idle (h : r.SameButWaiting r') (hr : r.Unhindered) (hr' : r'.Unhindered)
    (hq : (r.moment q).admitted? = none) :
    (r.moment q).Matches (r'.moment q) ∧ (r.moment q).after.SameButWaiting (r'.moment q).after := by
  obtain ⟨hanswer, hbooks, order, chore, hchore, hleft, hleft'⟩ := h.books.idle hq
  rw [Supervision.Host.elapse_of_alone order _ hr.alone] at hleft
  rw [Supervision.Host.elapse_of_alone order _ hr'.alone] at hleft'
  have hafter := h.left hbooks hleft hleft' (h.journal.chore hchore) h.courses
  have hjournal : (r.moment q).after.journal = chore r.journal := by
    rw [Rig.journal, hleft.host]
    rfl
  have hjournal' : (r'.moment q).after.journal = chore r'.journal := by
    rw [Rig.journal, hleft'.host]
    rfl
  obtain ⟨cs, hcs⟩ := hchore.items
  have hshown : (r'.moment q).shown = (r.moment q).shown := by
    rw [Moment.shown_of_items ((congrArg (·.console.items) hjournal).trans (hcs _ h.journal.settled)),
      Moment.shown_of_items ((congrArg (·.console.items) hjournal').trans (hcs _ h.journal.settled')),
      hafter.journal.colored]
  exact ⟨⟨Moment.imprint_eq hanswer hbooks hafter.journal.disk, Or.inl hshown, fun _ => hshown⟩, hafter⟩

/-- **A request for which a test is performed.** -/
theorem tested (h : r.SameButWaiting r') (hr : r.Unhindered) (hr' : r'.Unhindered) {subgroup : String}
    {number : Value} {k : Key} (ha : r.admitted? subgroup number = some k) (body : Body) :
    let q : Request := .run subgroup number body
    (r.moment q).Matches (r'.moment q) ∧ (r.moment q).after.SameButWaiting (r'.moment q).after := by
  intro q
  let test := r.registry.identity k
  have hk := h.enter k
  have hunhindered : (r.enter k).Unhindered := { hr with }
  have hunhindered' : (r'.enter k).Unhindered := { hr' with }
  obtain ⟨hresult, hjournal, hjournal', hcourses⟩ := hk.perform hunhindered hunhindered' test body
  have hwrote := hk.wrote hunhindered hunhindered' test body
  obtain ⟨p, hp⟩ : ∃ p, (r.enter k).perform test body = p := ⟨_, rfl⟩
  obtain ⟨p', hp'⟩ : ∃ p, (r'.enter k).perform test body = p := ⟨_, rfl⟩
  rw [hp] at hresult hjournal hcourses
  rw [hp'] at hresult hjournal' hcourses
  obtain ⟨hanswer, hbooks, hleft, hleft'⟩ := h.books.tested ha body hp hp' hresult
  have hpaired := h.journal.sameButProcess hwrote
  have hafter : (r.moment q).after.SameButWaiting (r'.moment q).after := by
    refine h.left hbooks hleft hleft' ?_ hcourses
    rw [hjournal, hjournal']
    exact hpaired
  have hshown := Moment.shown_of_entries (m := r.moment q) h.journal.settled
    ((congrArg Supervision.Host.journal hleft.host).trans hjournal)
  have hshown' := Moment.shown_of_entries (m := r'.moment q) h.journal.settled'
    ((congrArg Supervision.Host.journal hleft'.host).trans hjournal')
  have hcolored : (r'.moment q).before.journal.colored = r.journal.colored := h.journal.colored
  have hverbose : (r'.moment q).before.journal.verbose = r.journal.verbose := h.journal.verbose
  rw [hcolored, hverbose] at hshown'
  refine ⟨⟨Moment.imprint_eq hanswer hbooks hafter.journal.disk, ?_, fun hv => ?_⟩, hafter⟩
  · rw [hshown, hshown']
    exact (hwrote.text r.journal.colored r.journal.verbose).imp_right fun ⟨front, code, hfront⟩ =>
      ⟨k, front, code, ha, hfront⟩
  · have hplain : r.journal.verbose = false := hv
    rw [hshown, hshown', hv, hplain, hwrote.chunks]
    rfl

/-- **Any request** looks the same, and the rigs still differ in nothing else. -/
theorem moment (h : r.SameButWaiting r') (hr : r.Unhindered) (hr' : r'.Unhindered) (q : Request) :
    (r.moment q).Matches (r'.moment q) ∧ (r.moment q).after.SameButWaiting (r'.moment q).after := by
  cases hq : (r.moment q).admitted? with
  | none => exact h.idle hr hr' hq
  | some k =>
    obtain ⟨subgroup, number, body, rfl, ha⟩ := run_of_admitted? hq
    exact h.tested hr hr' ha body

/-- **They look the same in every session.** -/
theorem session : ∀ (qs : List Request) {r r' : Rig}, r.SameButWaiting r' → r.Unhindered →
    r'.Unhindered → List.Forall₂ Moment.Matches (r.session qs) (r'.session qs)
  | [], _, _, _, _, _ => .nil
  | q :: qs, r, r', h, hr, hr' => by
    obtain ⟨hmatches, hafter⟩ := h.moment hr hr' q
    exact .cons hmatches (session qs hafter (hr.moment q) (hr'.moment q))

end SameButWaiting

/-- A rig can be set up in any run. -/
theorem set_waiting {s : Setup} {ms : Nat} (h : Rig.set s = .ok r) {faults : Faults}
    (htime : r.configuration.timeout = some ms)
    (hk : ∀ n, Course.Alike (1000 * ms) (s.faults.courses n) (faults.courses n)) (firstPid : Nat) :
    ∃ r', Rig.set { s with faults, firstPid } = .ok r' ∧ r.SameButWaiting r' := by
  have hfresh := fresh_of_set h
  obtain ⟨c, a, g, j, hc, ha, hg, hj, rfl⟩ := set_eq_ok.mp h
  refine ⟨_, set_eq_ok.mpr ⟨c, a, g, j, hc, ha, hg, hj, rfl⟩, ⟨rfl, rfl, rfl, rfl, rfl⟩, rfl, rfl,
    ⟨hfresh.settled, hfresh.settled, rfl, rfl, rfl, rfl⟩, ?_⟩
  rw [htime]
  exact hk

/-- **The way of waiting makes no difference.**  A rig forks, and neither forking nor killing nor waiting
fails or is interrupted.  Every wait begins before the time limit of its copy, and the copy ends by the
limit, or outlives it by more than a millisecond and by more than a step of the wait comes back late.  In
another run there may be descriptors, none, or some that fail to open, the processes may have other
numbers, and each may take another time, if it ends by the limit in both runs or in none.  Then every
session gives the same answers, writes the same to console and log but for the numbers of processes in
notes, and counts the same.  And a test passes exactly if its copy has ended by the limit with 0. -/
theorem waiting_makes_no_difference {s : Setup} {ms : Nat} {faults : Faults} (hset : Rig.set s = .ok r)
    (hdirect : r.configuration.direct = false) (hfork : r.strategy = .fork)
    (htime : r.configuration.timeout = some ms) (hlimit : ms ≤ 2147483647) (hq : s.faults.Quiet)
    (hq' : faults.Quiet) (hcan : faults.canFork = s.faults.canFork)
    (hk : ∀ n, Course.Alike (1000 * ms) (s.faults.courses n) (faults.courses n)) (firstPid : Nat)
    (qs : List Request) :
    (∃ r', Rig.set { s with faults, firstPid } = .ok r' ∧
      List.Forall₂ Moment.Matches (r.session qs) (r'.session qs)) ∧
    ∀ subgroup number k body,
      let t := r.served qs
      let test := t.registry.identity k
      t.admitted? subgroup number = some k → test.isWritable = true →
        (t.run subgroup number body).1 = .ok (some (t.inTime? test body == some (.exited 0))) := by
  have hr := decisive_of_set hset hdirect hfork htime hlimit hq fun n => (hk n).decisive
  obtain ⟨r', hset', hsame⟩ := set_waiting hset htime hk firstPid
  constructor
  · have hstrategy : r'.strategy = .fork := by
      rw [strategy, hsame.configuration, (fresh_of_set hset').faults, ← hfork, strategy,
        (fresh_of_set hset).faults]
      exact congrArg _ hcan
    have hr' := unhindered_of_set hset' (hsame.configuration ▸ hdirect) hstrategy
      (hsame.configuration ▸ htime) hlimit hq'
    exact ⟨r', hset', hsame.session qs hr.toUnhindered hr'⟩
  · intro subgroup number k body t test ha hw
    have ht : t.Decisive := hr.served qs
    obtain ⟨others, host, -, -, hrun⟩ := run_comes ht.homely ha body
    rw [hrun, ht.verdict hw]
    rfl

/-- A copy that is killed by a signal, in a run with descriptors and in one without, where it takes
longer. -/
theorem waiting_makes_no_difference_killed :
    let faults : Faults := { hasDescriptors := false, courses := fun _ => { ends := 1500 } }
    let qs : List Request := [.run "s" (.int 1) fun _ => .left (.signalled 9)]
    ∃ r r', Rig.set (.bare ["t"]) = .ok r ∧
      Rig.set { Setup.bare ["t"] with faults, firstPid := 7 } = .ok r' ∧
      List.Forall₂ Moment.Matches (r.session qs) (r'.session qs) ∧
      (r.run "s" (.int 1) fun _ => .left (.signalled 9)).1 = .ok (some false) := by
  intro faults qs
  obtain ⟨r, hr, hd, hf, ht, ha, hw⟩ := exists_set (s := .bare ["t"])
    (p := fun r => r.configuration.direct = false ∧ r.strategy = .fork ∧
      r.configuration.timeout = some 5000 ∧ r.admitted? "s" (.int 1) = some ("s", 1) ∧
      (r.registry.identity ("s", 1)).isWritable = true) (by decide +kernel)
  have hq : (Setup.bare ["t"]).faults.Quiet := Supervision.Faults.quiet_default
  have hq' : faults.Quiet := ⟨fun _ => rfl, fun _ => rfl, fun _ => rfl, fun _ => rfl⟩
  have hk : Course.Alike (1000 * 5000) {} { ends := 1500 } :=
    ⟨Or.inl ⟨by decide, by decide⟩, Or.inl ⟨by decide, by decide⟩, by decide, rfl⟩
  obtain ⟨⟨r', hr', hsame⟩, hruns⟩ :=
    waiting_makes_no_difference hr hd hf ht (by decide) hq hq' rfl (fun _ => hk) 7 qs
  obtain ⟨-, hrun⟩ :=
    waiting_makes_no_difference hr hd hf ht (by decide) hq hq' rfl (fun _ => hk) 7 []
  refine ⟨r, r', hr, hr', hsame, (hrun _ _ _ (fun _ => .left (.signalled 9)) ha hw).trans ?_⟩
  have hnext : r.host.nextCourse = {} := by
    rw [Supervision.Host.nextCourse, (fresh_of_set hr).faults]
    rfl
  show Except.ok (some (r.inTime? _ _ == _)) = _
  rw [inTime?, hnext, ht]
  rfl

/-- **The way of waiting can matter** where a copy outlives its time limit by less than a millisecond, or
where the wait for it begins at its limit only; and with notes the text of a run gives the numbers of
its processes. -/
theorem waiting_can_matter :
    let setup (hasDescriptors : Bool) (course : Course) : Setup :=
      { Setup.bare ["t", "-t", "1"] with faults := { hasDescriptors, courses := fun _ => course } }
    let gives (s : Setup) (b : Bool) : Prop := ∃ r, Rig.set s = .ok r ∧
      (r.run "s" (.int 1) fun _ => .returned).1 = .ok (some b)
    (gives (setup true { ends := 1001 }) true ∧ gives (setup false { ends := 1001 }) false) ∧
    (gives (setup true { begins := 1000 }) false ∧ gives (setup false { begins := 1000 }) true) ∧
    ∃ r r', Rig.set (.bare ["t", "-v"]) = .ok r ∧
      Rig.set { Setup.bare ["t", "-v"] with firstPid := 2, faults := { hasDescriptors := false } } =
        .ok r' ∧
      (r'.moment (.run "s" (.int 1) fun _ => .returned)).shown ≠
        (r.moment (.run "s" (.int 1) fun _ => .returned)).shown := by
  intro setup gives
  have hgives : ∀ s b, (∃ r, Rig.set s = .ok r ∧
      ((r.moment (.run "s" (.int 1) fun _ => .returned)).returned b = true)) → gives s b := by
    rintro s b ⟨r, hr, hreturned⟩
    refine ⟨r, hr, ?_⟩
    unfold Moment.returned at hreturned
    have hanswer : (r.moment (.run "s" (.int 1) fun _ => .returned)).answer =
        .ran (r.run "s" (.int 1) fun _ => .returned).1 := rfl
    rw [hanswer] at hreturned
    match hv : (r.run "s" (.int 1) fun _ => .returned).1 with
    | .ok (some b') =>
      rw [hv] at hreturned
      rw [beq_iff_eq.mp hreturned]
    | .ok none | .error _ =>
      rw [hv] at hreturned
      cases hreturned
  refine ⟨⟨hgives _ _ (exists_set (by decide +kernel)), hgives _ _ (exists_set (by decide +kernel))⟩,
    ⟨hgives _ _ (exists_set (by decide +kernel)), hgives _ _ (exists_set (by decide +kernel))⟩, ?_⟩
  obtain ⟨r, hr, hshown⟩ := exists_set (s := .bare ["t", "-v"])
    (p := fun r => (r.moment (.run "s" (.int 1) fun _ => .returned)).shown =
      "isotest: running g.s.1 in a forked process\ng.s.1: PASS\n" ++
        "isotest: g.s.1: child process 1 exited with 0\n") (by decide +kernel)
  obtain ⟨r', hr', hshown'⟩ := exists_set
    (s := { Setup.bare ["t", "-v"] with firstPid := 2, faults := { hasDescriptors := false } })
    (p := fun r => (r.moment (.run "s" (.int 1) fun _ => .returned)).shown =
      "isotest: running g.s.1 in a forked process\ng.s.1: PASS\n" ++
        "isotest: g.s.1: child process 2 exited with 0\n") (by decide +kernel)
  refine ⟨r, r', hr, hr', ?_⟩
  rw [hshown, hshown']
  decide

end Rig

end TestRig
