import TestRig.Proofs.Admission

/-!
# TestRig.Proofs.Books — what a request depends on

A rig answers most requests from its books alone: its named values, its keys and its numbers.  Only an
admitted test depends on more.  So two rigs with the same books give the same answer to every other
request, do the same to their journals, and have the same books again.

* `Journal.Chore`: what a request other than a run does to a journal.
* `Rig.SameBooks`: two rigs with the same books.
* `Rig.Leaves`: what a request leaves of a rig apart from its books.
* `Rig.SameBooks.idle`: a request for which no test is performed.
* `Rig.SameBooks.tested`: a request for which one is performed.
-/

namespace TestRig

/-- What is done to a journal at a request for which no test is performed. -/
inductive Journal.Chore : (Journal → Journal) → Prop
  | none : Chore id
  | summary (r : Rig) : Chore fun j => (r.summaryChunks.foldl Journal.display j).flushConsole
  | close (texts : List String) : Chore fun j => (texts.foldl Journal.error j).close

namespace Rig

variable {r r' : Rig} {k : Key} {q : Request}

/-- Two rigs with the same named values, the same keys and the same numbers. -/
structure SameBooks (r r' : Rig) : Prop where
  arguments : r'.arguments = r.arguments
  registry : r'.registry = r.registry
  executed : r'.executed = r.executed
  passed : r'.passed = r.passed
  closed : r'.closed = r.closed

namespace SameBooks

theorem count (h : r.SameBooks r') : r'.count = r.count := by
  rw [Rig.count, Rig.count, h.executed, h.registry]

theorem failed (h : r.SameBooks r') : r'.failed = r.failed := by
  rw [Rig.failed, Rig.failed, h.count, h.passed]

theorem exitStatus (h : r.SameBooks r') : r'.exitStatus = r.exitStatus := by
  rw [Rig.exitStatus, Rig.exitStatus, h.failed]

theorem summaryChunks (h : r.SameBooks r') : r'.summaryChunks = r.summaryChunks := by
  rw [Rig.summaryChunks, Rig.summaryChunks, group, group, h.registry, h.count, h.failed, h.passed]

theorem admitted? (h : r.SameBooks r') (subgroup : String) (number : Value) :
    r'.admitted? subgroup number = r.admitted? subgroup number := by
  rw [Rig.admitted?, Rig.admitted?, h.registry]

theorem enter (h : r.SameBooks r') (k : Key) : (r.enter k).SameBooks (r'.enter k) :=
  ⟨h.arguments, by simp only [Rig.enter, h.registry], congrArg (· + 1) h.executed, h.passed, h.closed⟩

end SameBooks

/-- What a request leaves of a rig apart from its books: its options stay, and this is its host. -/
structure Leaves (r : Rig) (host : Supervision.Host) (after : Rig) : Prop where
  configuration : after.configuration = r.configuration
  dumper : after.dumper = r.dumper
  command : after.command = r.command
  host : after.host = host

namespace SameBooks

theorem onJournal (h : r.SameBooks r') (f : Journal → Journal) :
    (r.onJournal f).SameBooks (r'.onJournal f) :=
  ⟨h.arguments, h.registry, h.executed, h.passed, h.closed⟩

/-- A run for which no test is performed. -/
theorem idle_run (h : r.SameBooks r') {subgroup : String} {number : Value}
    (ha : r.admitted? subgroup number = none) (body : Body) :
    (r'.run subgroup number body).1 = (r.run subgroup number body).1 ∧
    (r.run subgroup number body).2.SameBooks (r'.run subgroup number body).2 ∧
    r.Leaves r.host (r.run subgroup number body).2 ∧
    r'.Leaves r'.host (r'.run subgroup number body).2 := by
  obtain ⟨v, g, hrun, -⟩ := run_of_not_admitted ha body
  rw [hrun r rfl, hrun r' h.registry]
  exact ⟨rfl, { h with registry := rfl }, ⟨rfl, rfl, rfl, rfl⟩, ⟨rfl, rfl, rfl, rfl⟩⟩

theorem idle_select (h : r.SameBooks r') (spec : String) :
    (r'.select spec).1 = (r.select spec).1 ∧ (r.select spec).2.SameBooks (r'.select spec).2 ∧
    r.Leaves r.host (r.select spec).2 ∧ r'.Leaves r'.host (r'.select spec).2 := by
  unfold Rig.select
  rw [h.registry]
  exact ⟨rfl, { h with registry := rfl }, ⟨rfl, rfl, rfl, rfl⟩, ⟨rfl, rfl, rfl, rfl⟩⟩

theorem idle_close (h : r.SameBooks r') : r.close.SameBooks r'.close ∧
    ∃ f, Journal.Chore f ∧ r.Leaves (r.host.onJournal f) r.close ∧
      r'.Leaves (r'.host.onJournal f) r'.close := by
  unfold Rig.close
  rw [h.closed]
  by_cases hc : r.closed = true
  · rw [if_pos hc, if_pos hc]
    exact ⟨h, id, .none, ⟨rfl, rfl, rfl, rfl⟩, ⟨rfl, rfl, rfl, rfl⟩⟩
  · rw [if_neg hc, if_neg hc]
    refine ⟨⟨h.arguments, h.registry, h.executed, h.passed, rfl⟩, _, .close _,
      ⟨rfl, rfl, rfl, rfl⟩, rfl, rfl, rfl, ?_⟩
    rw [← h.registry]
    rfl

/-- **A request for which no test is performed** gets the same answer, the same processes go on beside
both rigs, the same is done to both journals, and the books are the same again. -/
theorem idle (h : r.SameBooks r') (hq : (r.moment q).admitted? = none) :
    (r'.moment q).answer = (r.moment q).answer ∧
    (r.moment q).after.SameBooks (r'.moment q).after ∧
    ∃ order f, Journal.Chore f ∧
      r.Leaves ((r.host.elapse order).onJournal f) (r.moment q).after ∧
      r'.Leaves ((r'.host.elapse order).onJournal f) (r'.moment q).after := by
  cases q with
  | run subgroup number body =>
    obtain ⟨hanswer, hdone⟩ := h.idle_run hq body
    have hafter : ∀ r : Rig, (r.moment (.run subgroup number body)).after =
        (r.run subgroup number body).2 := fun _ => rfl
    rw [hafter, hafter]
    exact ⟨congrArg Answer.ran hanswer, hdone.1, [], id, .none, hdone.2⟩
  | select spec =>
    obtain ⟨hanswer, hdone⟩ := h.idle_select spec
    have hafter : ∀ r : Rig, (r.moment (.select spec)).after = (r.select spec).2 := fun _ => rfl
    rw [hafter, hafter]
    exact ⟨congrArg Answer.selected hanswer, hdone.1, [], id, .none, hdone.2⟩
  | argument name default =>
    have hvalue : r'.argument name default = r.argument name default := by
      rw [Rig.argument, Rig.argument, h.arguments]
    exact ⟨congrArg Answer.argument hvalue, h, [], id, .none, ⟨rfl, rfl, rfl, rfl⟩, rfl, rfl, rfl,
      rfl⟩
  | exitStatus =>
    exact ⟨congrArg Answer.status h.exitStatus, h, [], id, .none, ⟨rfl, rfl, rfl, rfl⟩, rfl, rfl, rfl,
      rfl⟩
  | summary =>
    have hmoment : ∀ r : Rig, r.moment .summary = ⟨r, .summary, .code r.exitStatus.code,
        r.onJournal fun j => (r.summaryChunks.foldl Journal.display j).flushConsole⟩ := fun _ => rfl
    rw [hmoment, hmoment, h.summaryChunks, h.exitStatus]
    exact ⟨rfl, h.onJournal _, [], _, .summary r, ⟨rfl, rfl, rfl, rfl⟩, rfl, rfl, rfl, rfl⟩
  | close =>
    have hafter : ∀ r : Rig, (r.moment .close).after = r.close := fun _ => rfl
    rw [hafter, hafter]
    exact ⟨rfl, h.idle_close.1, [], h.idle_close.2⟩
  | pause order =>
    exact ⟨rfl, ⟨h.arguments, h.registry, h.executed, h.passed, h.closed⟩, order, id, .none,
      ⟨rfl, rfl, rfl, rfl⟩, rfl, rfl, rfl, rfl⟩

/-- **A request for which a test is performed** gets the same answer from both rigs if the test returns
the same in both, and the books are the same again. -/
theorem tested (h : r.SameBooks r') {subgroup : String} {number : Value}
    (ha : r.admitted? subgroup number = some k) (body : Body)
    {p p' : Except Halt Bool × Supervision.Host}
    (hp : (r.enter k).perform (r.registry.identity k) body = p)
    (hp' : (r'.enter k).perform (r.registry.identity k) body = p') (hresult : p'.1 = p.1) :
    let q : Request := .run subgroup number body
    (r'.moment q).answer = (r.moment q).answer ∧
    (r.moment q).after.SameBooks (r'.moment q).after ∧
    r.Leaves p.2 (r.moment q).after ∧ r'.Leaves p'.2 (r'.moment q).after := by
  intro q
  have ha' : r'.admitted? subgroup number = some k := (h.admitted? subgroup number).trans ha
  rw [moment_of_admitted ha body, moment_of_admitted ha' body, h.registry, hp, hp', tally_snd,
    tally_snd, hresult]
  exact ⟨rfl, { h.enter k with passed := congrArg (· + points p.1) h.passed },
    ⟨rfl, rfl, rfl, rfl⟩, rfl, rfl, rfl, rfl⟩

end SameBooks

/-- A request for which a test is performed is a run. -/
theorem run_of_admitted? (hq : (r.moment q).admitted? = some k) : ∃ subgroup number body,
    q = .run subgroup number body ∧ r.admitted? subgroup number = some k := by
  cases q with
  | run subgroup number body => exact ⟨subgroup, number, body, rfl, hq⟩
  | _ => cases hq

end Rig

end TestRig
