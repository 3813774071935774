import TestRig.Proofs.Performance

/-!
# TestRig.Proofs.Writing — what every request writes

A test writes its entries.  A summary and a closing write chunks to the console, and no other request
writes anything; but copies that were left behind may go on at any time.

* `Entry.Proper`: what is written beside the lines of the tests are lines of the rig itself and the
  outcomes of those copies.
* `Journal.Enters`: entries have been written, and the log may have been closed.
* `Rig.entered_test` and `Rig.entered_idle`: what one request writes.
-/

namespace TestRig

open Journal (Entry Other)
open Supervision (IsPlain Child Fate)

/-- A chunk of the summary, or a diagnostic line. -/
def Chunk.IsAside : Chunk → Prop
  | line _ | tally _ _ => True
  | _ => False

namespace Journal

variable {j j' : Journal} {es : List Entry} {loc : Option Location}

/-- Entries that are not about a test of this process. -/
def Entry.Idle (loc : Option Location) : Entry → Prop
  | aside cs => ∀ c ∈ cs, c.IsAside
  | other o => IsPlain loc o
  | _ => False

/-- Entries about a test of this process, and these. -/
def Entry.Proper (loc : Option Location) (e : Entry) : Prop :=
  match e with
  | aside _ | other _ => e.Idle loc
  | _ => True

theorem Entry.Idle.proper {e : Entry} (h : e.Idle loc) : e.Proper loc := by
  cases e with
  | aside cs => exact h
  | other o => exact h
  | _ => exact h.elim

theorem Entry.IsReport.proper {e : Entry} (h : e.IsReport) : e.Proper loc := by
  cases h <;> trivial

theorem Entry.Proper.fits {e : Entry} (h : e.Proper loc) (hl : ∀ f ∈ j.log, loc = some f.location) :
    e.Fits j := by
  cases e with
  | other o =>
    cases o with
    | appended l texts =>
      intro f hf
      have hlog : loc = some l := h.1
      exact Option.some.inj ((hl f hf).symm.trans hlog)
    | _ => trivial
  | _ => trivial

/-- Entries have been written to a journal, and its log may have been closed. -/
def Enters (j : Journal) (es : List Entry) (j' : Journal) : Prop :=
  j' = j.enterAll es ∨ j' = { j.enterAll es with log := none }

theorem Enters.console (h : j.Enters es j') : j'.console = (j.enterAll es).console := by
  rcases h with rfl | rfl <;> rfl

theorem Enters.disk (h : j.Enters es j') : j'.disk = (j.enterAll es).disk := by
  rcases h with rfl | rfl <;> rfl

theorem Enters.items (h : j.Enters es j') (hs : j.Settled) :
    j'.console.items = j.console.items ++ es.flatMap (Entry.chunks j.verbose) := by
  rw [h.console, items_enterAll hs]

/-- A chore writes chunks of the rig itself. -/
theorem Chore.enters {f : Journal → Journal} (hf : Chore f) : ∃ e : Entry, e.Idle loc ∧
    ∀ j : Journal, j.Settled → j.Enters [e] (f j) := by
  cases hf with
  | none => exact ⟨.aside [], fun _ hc => (nomatch hc), fun j h => Or.inl h.flushConsole.symm⟩
  | summary r =>
    refine ⟨.aside r.summaryChunks, fun c hc => ?_, fun j _ => Or.inl rfl⟩
    simp only [Rig.summaryChunks, List.mem_cons, List.not_mem_nil, or_false] at hc
    rcases hc with rfl | rfl | rfl | rfl | rfl <;> trivial
  | close texts =>
    refine ⟨.aside (texts.map .line), fun c hc => ?_, fun j h => Or.inr ?_⟩
    · obtain ⟨s, -, rfl⟩ := List.mem_map.mp hc
      trivial
    · show (texts.foldl Journal.error j).close = _
      rw [errors_eq_aside texts h, (settled_enter h _).close]
      rfl

end Journal

namespace Rig

variable {r : Rig} {loc : Option Location} {k : Key} {q : Request} {test : Identity} {body : Body}
  {others : List Other}

theorem Beside.proper (hb : r.Beside loc others) : ∀ e ∈ others.map Entry.other, e.Idle loc := by
  intro e he
  obtain ⟨o, ho, rfl⟩ := List.mem_map.mp he
  exact hb.plain o ho

theorem Homely.plain_copy (h : r.Homely loc) (test : Identity) (body : Body) :
    (r.copy test body).Plain loc := by
  refine (Supervision.Child.plain_begun _ _ _ _ _).mono fun l hl => ?_
  obtain ⟨f, hf, rfl⟩ := Option.map_eq_some_iff.mp hl
  exact h.host.log f hf

/-- What is written about a test is proper. -/
theorem Homely.proper_wrote (h : r.Homely loc) (hb : r.Beside loc others) (test : Identity)
    (body : Body) : ∀ e ∈ r.wrote test body others, e.Proper loc := by
  have hown : ∀ e ∈ r.reported test body, e.Proper loc := fun e he =>
    (Classifier.reports _ _ _ e he).proper
  have htold : ∀ e ∈ (r.fate test body).told (r.reported test body)
      (fun n => (r.copy test body).trace n), e.Proper loc := by
    rcases (r.fate test body).told_cases (r.reported test body)
      (fun n => (r.copy test body).trace n) with heq | heq | ⟨n, heq⟩ <;> rw [heq]
    · simp
    · exact hown
    · intro e he
      obtain ⟨o, ho, rfl⟩ := List.mem_map.mp he
      exact (h.plain_copy test body).trace n o ho
  intro e he
  unfold wrote at he
  split at he
  · cases he
  split at he
  · rcases List.mem_append.mp he with he | he
    · split at he
      · obtain rfl := List.mem_singleton.mp he
        trivial
      · cases he
    · exact hown e he
  · unfold Fate.entries at he
    simp only [List.mem_append] at he
    rcases he with ((he | he) | he) | he
    · simp only [List.mem_cons, List.not_mem_nil, or_false] at he
      rcases he with rfl | rfl <;> trivial
    · exact (hb.proper e he).proper
    · exact htold e he
    · exact (Fate.closing_reports _ _ _ e he).proper

theorem Homely.fits_wrote (h : r.Homely loc) (hb : r.Beside loc others) (test : Identity)
    (body : Body) : ∀ e ∈ r.wrote test body others, e.Fits r.journal := fun e he =>
  (h.proper_wrote hb test body e he).fits h.host.log

/-- **A test** writes its entries. -/
theorem entered_test {subgroup : String} {number : Value} (h : r.Homely loc)
    (ha : r.admitted? subgroup number = some k) (body : Body) : ∃ others, r.Beside loc others ∧
    (r.moment (.run subgroup number body)).after.journal =
      r.journal.enterAll (r.wrote (r.registry.identity k) body others) := by
  obtain ⟨others, host, hb, hcomes, hrun⟩ := run_comes h ha body
  refine ⟨others, hb, ?_⟩
  show (r.run subgroup number body).2.journal = _
  rw [hrun]
  exact hcomes.journal

/-- **Any other request** writes at most chunks of the rig itself, and copies that were left behind go
on. -/
theorem entered_idle (h : r.Homely loc) (hq : (r.moment q).admitted? = none) : ∃ es,
    (∀ e ∈ es, e.Idle loc) ∧ r.journal.Enters es (r.moment q).after.journal := by
  obtain ⟨order, f, hf, hleft⟩ := idle_moment hq
  obtain ⟨os, hpasses⟩ := Supervision.Host.passes_elapse order h.host.strays
  have hhome : (r.host.elapse order).Home loc := h.host.entered hpasses.journal hpasses.strays
  obtain ⟨e, he, henters⟩ : ∃ e : Entry, e.Idle loc ∧
      ∀ j : Journal, j.Settled → j.Enters [e] (f j) := hf.enters
  refine ⟨os.map .other ++ [e], fun e' he' => ?_, ?_⟩
  · rcases List.mem_append.mp he' with he' | he'
    · obtain ⟨o, ho, rfl⟩ := List.mem_map.mp he'
      exact hpasses.plain o ho
    · exact List.mem_singleton.mp he' ▸ he
  · have hafter := henters _ hhome.settled
    rw [hpasses.journal, Journal.Enters, ← Journal.enterAll_append] at hafter
    show r.journal.Enters _ (r.moment q).after.host.journal
    rw [hleft.host]
    show r.journal.Enters _ (f (r.host.elapse order).journal)
    rw [hpasses.journal]
    exact hafter

/-- **One request** writes proper entries. -/
theorem entered_moment (h : r.Homely loc) (q : Request) : ∃ es, (∀ e ∈ es, e.Proper loc) ∧
    r.journal.Enters es (r.moment q).after.journal := by
  cases hq : (r.moment q).admitted? with
  | none =>
    obtain ⟨es, hidle, henters⟩ := entered_idle h hq
    exact ⟨es, fun e he => (hidle e he).proper, henters⟩
  | some k =>
    obtain ⟨subgroup, number, body, rfl, ha⟩ := run_of_admitted? hq
    obtain ⟨others, hb, hafter⟩ := entered_test h ha body
    exact ⟨_, h.proper_wrote hb _ body, Or.inl hafter⟩

end Rig

end TestRig
