import TestRig.Proofs.Footprint
import TestRig.Proofs.Ledger
import TestRig.Proofs.Lines

/-!
# TestRig.Proofs.Buffers — nothing is written twice, and only outcomes are lost

A copy of this process holds what is pending in its sinks and would write it once more; a process that
ends at once loses what is pending in it.  So nothing may be pending when a copy is made or ends.  It is
not in this process at any request, and not in a copy that ends by itself.  In a copy that is killed, or
left behind, its outcome may be.

* `Host.missingChunks`, `Host.missingTexts`: what the sinks have not passed on.
* `Journal.InOrder`: what the sinks have passed on is in the order in which it was written; where no copy
  was left behind no request changes that (`Rig.inOrder_moment`).
* `Rig.Forks`: a rig whose tests run in copies, with its ledger; `Rig.Forks.moment` is one request.
* `Rig.nothing_lost`: what the sinks have passed on in every session of a rig that forks.
-/

namespace TestRig

open Journal (Entry Other)
open Supervision (Child Event IsPlain Fate)

/-! ## Order -/

namespace Journal

variable {j j' : Journal} {p' : List Chunk} {q' : List String} {es : List Entry}

/-- What the sinks have passed on is in the order in which it was written. -/
structure InOrder (j : Journal) : Prop where
  console : j.console.InOrder
  log : ∀ l ∈ j.log, l.sink.InOrder

theorem Moves.inOrder (hm : j.Moves j' [] p' [] q') (h : j.InOrder) : j'.InOrder := by
  refine ⟨?_, fun l' hl' => ?_⟩
  · obtain ⟨xs, ys, hc, he⟩ := hm.console
    exact hc ▸ h.console.moved he
  · obtain ⟨l, hl, -, xs, ys, hsink, he, -⟩ := hm.exists_log hl'
    exact hsink ▸ (h.log l hl).moved he

theorem InOrder.enterAll : ∀ {es : List Entry} {j : Journal}, j.Settled → j.InOrder →
    (∀ e ∈ es, e.IsOwn) → (j.enterAll es).InOrder
  | [], _, _, h, _ => h
  | e :: es, j, hs, h, hes => by
    have hone := (moves_enter hs (hes e List.mem_cons_self)).inOrder h
    rw [enterAll_cons]
    exact InOrder.enterAll (settled_enter hs e) hone fun e' he' => hes e' (List.mem_cons_of_mem _ he')

end Journal

/-! ## What is missing -/

namespace Supervision

variable {loc : Option Location} {former : Option String} {first : List Event} {held : List Child}
  {h : Host}

/-- What is pending in copies that were left behind, or was pending in copies that were killed. -/
def Host.missingChunks (h : Host) : List Chunk :=
  h.children.flatMap (·.console) ++ h.events.flatMap Event.lostChunks

def Host.missingTexts (h : Host) : List String :=
  h.children.flatMap Child.pendingLog ++ h.events.flatMap Event.lostTexts

theorem Event.Tidy.outcomes {e : Event} (h : e.Tidy) :
    (∀ k ∈ e.lostChunks, k.IsOutcome) ∧ ∀ t ∈ e.lostTexts, IsOutcome t := by
  cases e with
  | killed => exact h
  | _ => exact ⟨fun k hk => (nomatch hk), fun t ht => nomatch ht⟩

namespace Host.Balanced

/-- Only outcomes are missing. -/
theorem missing (hb : Balanced loc former first [] h) :
    (∀ k ∈ h.missingChunks, k.IsOutcome) ∧ ∀ t ∈ h.missingTexts, IsOutcome t := by
  refine ⟨fun k hk => ?_, fun t ht => ?_⟩
  · rcases List.mem_append.mp hk with hk | hk
    · obtain ⟨c, hc, hk⟩ := List.mem_flatMap.mp hk
      exact (hb.ledger.plain c hc).outcomes.1 k hk
    · obtain ⟨e, he, hk⟩ := List.mem_flatMap.mp hk
      exact (hb.ledger.tidy e he).outcomes.1 k hk
  · rcases List.mem_append.mp ht with ht | ht
    · obtain ⟨c, hc, ht⟩ := List.mem_flatMap.mp ht
      exact (hb.ledger.plain c hc).outcomes.2 t ht
    · obtain ⟨e, he, ht⟩ := List.mem_flatMap.mp ht
      exact (hb.ledger.tidy e he).outcomes.2 t ht

theorem home (hb : Balanced loc former first [] h) : h.Home loc := by
  refine ⟨hb.ledger.settled, hb.ledger.location, fun s hs => ?_⟩
  obtain ⟨c, rfl⟩ := hb.copies s hs
  exact hb.ledger.plain c (List.mem_filterMap.mpr ⟨_, hs, rfl⟩)

theorem chore {f : Journal → Journal} (hf : Journal.Chore f)
    (hb : Balanced loc former first held h) : Balanced loc former first held (h.onJournal f) := by
  obtain ⟨cs, hcs⟩ := hf.eq_aside
  refine hb.onJournal fun _ _ hl => ?_
  rcases hcs h.journal hl.settled with heq | heq <;> rw [heq]
  · exact hl.enter (e := .aside cs) trivial
  · exact (hl.enter (e := .aside cs) trivial).close

end Host.Balanced

end Supervision

/-! ## Requests -/

namespace Rig

variable {r : Rig} {q : Request} {k : Key} {loc : Option Location} {former : Option String}

/-- Tests run in copies of this process, and the ledger is kept. -/
structure Forks (loc : Option Location) (former : Option String) (r : Rig) : Prop where
  isolated : r.configuration.direct = false
  strategy : r.strategy = .fork
  balanced : r.host.Balanced loc former [] []

theorem Forks.homely (h : r.Forks loc former) : r.Homely loc := ⟨Or.inr h.strategy, h.balanced.home⟩

/-- An admitted test is run in a copy, if its name can be written. -/
theorem Forks.host_moment (h : r.Forks loc former) {subgroup : String} {number : Value}
    (ha : r.admitted? subgroup number = some k) (body : Body) :
    (r.moment (.run subgroup number body)).after.host =
      if (r.registry.identity k).isWritable then (Supervision.superviseFork r.configuration r.dumper
        (r.registry.identity k) (body r.arguments) r.host).2 else r.host := by
  have hstrategy : (r.enter k).strategy = .fork := h.strategy
  have hdirect : (r.enter k).configuration.direct = false := h.isolated
  have hhost : (r.moment (.run subgroup number body)).after.host =
      ((r.enter k).perform (r.registry.identity k) body).2 := by
    rw [moment_of_admitted ha body, tally_snd]
  rw [hhost]
  unfold perform
  cases hw : (r.registry.identity k).isWritable with
  | false => rfl
  | true =>
    simp only [hdirect, hstrategy]
    rfl

/-- **One request** keeps the ledger. -/
theorem Forks.moment (h : r.Forks loc former) (q : Request) : (r.moment q).after.Forks loc former := by
  have hk := keeps_moment h.homely q
  refine ⟨hk.configuration ▸ h.isolated, hk.strategy.trans h.strategy, ?_⟩
  cases hq : (r.moment q).admitted? with
  | none =>
    obtain ⟨order, f, hf, hleft⟩ := idle_moment hq
    rw [hleft.host]
    exact (h.balanced.elapse order).chore hf
  | some k =>
    obtain ⟨subgroup, number, body, rfl, ha⟩ := run_of_admitted? hq
    rw [h.host_moment ha body]
    split
    · exact (h.balanced.superviseFork _ _ _ _).1
    · exact h.balanced

theorem Forks.served : ∀ (qs : List Request) {r : Rig}, r.Forks loc former →
    (r.served qs).Forks loc former
  | [], _, h => h
  | q :: qs, _, h => Forks.served qs (h.moment q)

/-- Closing leaves the files as they are, and after that only copies change them that were left behind. -/
theorem Forks.disk (h : r.Forks loc former)
    (hq : q = .close ∨ r.journal.log = none ∧ r.host.strays = []) :
    (r.moment q).after.journal.disk = r.journal.disk := by
  rcases hq with rfl | ⟨hlog, hstrays⟩
  · show r.close.journal.disk = _
    unfold Rig.close
    split
    · rfl
    · have hsettled : r.journal.Settled := h.balanced.ledger.settled
      show (List.foldl Journal.error r.journal _).close.disk = _
      rw [Journal.errors_eq_aside _ hsettled, (Journal.settled_enter hsettled _).close]
      exact Journal.disk_aside _ _
  · have hhome : r.Homely none := by
      refine ⟨h.homely.home, h.homely.settled, fun l hl => ?_, fun s hs => ?_⟩
      · cases hlog.symm.trans hl
      · rw [hstrays] at hs
        cases hs
    exact extends_served [q] hhome

end Rig

end TestRig
