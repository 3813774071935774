import TestRig.Proofs.Admission
import TestRig.Proofs.Setup

/-!
# TestRig.Proofs.Counting — the numbers of a session

Every admitted test is counted when it is admitted and ends in one of three ways: it passes, it
fails, or something is raised.  So the number of executed tests is at any time the sum of the three
(`Rig.Balanced`), whatever the requests are, whatever the tests do and whatever fails.

* `Rig.Balanced.moment`: one request keeps the balance.
* `Rig.Balanced.served`: so does a list of requests.
* `Rig.session_counts`: the numbers of a rig after any session, from what its moments returned.
-/

namespace TestRig

namespace Moment

def raisedInside (m : Moment) : Bool := m.raised && m.admitted?.isSome

def isIdle (m : Moment) : Bool := m.skipped || (m.raised && m.admitted?.isNone)

end Moment

namespace Rig

/-- The numbers of a rig, if so many of its tests have passed, failed and raised something. -/
structure Balanced (r : Rig) (passes fails raises : Nat) : Prop where
  recorded : r.executed = r.registry.haveRun.size
  passed : r.passed = passes
  total : r.executed = passes + fails + raises

/-- What did not pass has failed, and so has what was selected and did not come. -/
theorem Balanced.failed {r : Rig} {p f e : Nat} (h : r.Balanced p f e) :
    r.failed = f + e + r.registry.selection.size := by
  obtain ⟨-, hpassed, htotal⟩ := h
  unfold Rig.failed count
  omega

/-- One for a moment with a property, else nothing. -/
def tick (b : Bool) : Nat := if b then 1 else 0

variable {r : Rig} {p f e : Nat}

theorem Balanced.of_same {r' : Rig} (h : r.Balanced p f e) (he : r'.executed = r.executed)
    (hp : r'.passed = r.passed) (hr : r'.registry.haveRun = r.registry.haveRun) :
    r'.Balanced p f e :=
  ⟨by rw [he, hr]; exact h.recorded, hp.trans h.passed, he.trans h.total⟩

/-- An admitted test is recorded once and ends in one of the three ways. -/
theorem Balanced.admitted {k : Key} (h : r.Balanced p f e) (hk : k ∉ r.registry.haveRun)
    (v : Except Halt Bool) (host : Supervision.Host) :
    ((r.enter k).tally (v, host)).2.Balanced
      (p + tick (v matches .ok true)) (f + tick (v matches .ok false))
      (e + tick (v matches .error _)) := by
  have hsize : (r.enter k).registry.haveRun.size = r.registry.haveRun.size + 1 := by
    simp only [enter, Registry.record, Registry.spend_haveRun]
    exact KeySet.size_insert_of_not_mem hk
  have hexec : (r.enter k).executed = r.executed + 1 := rfl
  have hpass : (r.enter k).passed = r.passed := rfl
  obtain ⟨h1, h2, h3⟩ := h
  rw [tally_snd]
  refine ⟨?_, ?_, ?_⟩
  · show (r.enter k).executed = (r.enter k).registry.haveRun.size
    rw [hexec, hsize, h1]
  · show (r.enter k).passed + points v = p + tick (v matches .ok true)
    rw [hpass, h2]
    rcases v with _ | _ | _ <;> rfl
  · show (r.enter k).executed = _
    rw [hexec, h3]
    rcases v with _ | _ | _ <;> simp [tick] <;> omega

/-- **One request keeps the balance**: what its moment returned is what the numbers grow by. -/
theorem Balanced.moment (h : r.Balanced p f e) (q : Request) :
    (r.moment q).after.Balanced (p + tick ((r.moment q).returned true))
      (f + tick ((r.moment q).returned false)) (e + tick (r.moment q).raisedInside) := by
  cases q with
  | run subgroup number body =>
    cases ha : r.admitted? subgroup number with
    | none =>
      obtain ⟨v, g, hm, hg, hv⟩ := moment_of_not_admitted ha body
      have hin : (r.moment (.run subgroup number body)).admitted? = none := ha
      have hnone : ∀ b, (r.moment (.run subgroup number body)).returned b = false := by
        intro b
        rw [hm]
        rcases hv with rfl | ⟨x, rfl⟩ <;> rfl
      rw [hnone, hnone, Moment.raisedInside, hin, hm]
      have hsame : ({ r with registry := g } : Rig).Balanced p f e := h.of_same rfl rfl hg
      simpa [tick] using hsame
    | some k =>
      obtain ⟨-, -, -, hk⟩ := admitted?_eq_some.mp ha
      have hm := moment_of_admitted ha body
      generalize (r.enter k).perform (r.registry.identity k) body = result at hm
      obtain ⟨v, host⟩ := result
      have hin : (r.moment (.run subgroup number body)).admitted? = some k := ha
      have hb := h.admitted hk v host
      rw [Moment.raisedInside, hin, hm]
      rcases v with x | (_ | _) <;> exact hb
  | select spec =>
    have hs : (r.select spec).2.registry.haveRun = r.registry.haveRun ∧
        (r.select spec).2.executed = r.executed ∧ (r.select spec).2.passed = r.passed := by
      unfold Rig.select Registry.select
      cases r.registry.readSpec spec <;> exact ⟨rfl, rfl, rfl⟩
    exact h.of_same hs.2.1 hs.2.2 hs.1
  | argument name default => exact h
  | summary => exact h.of_same rfl rfl rfl
  | exitStatus => exact h
  | pause order => exact h.of_same rfl rfl rfl
  | close =>
    have hc : r.close.registry = r.registry ∧ r.close.executed = r.executed ∧
        r.close.passed = r.passed := by
      unfold Rig.close
      split <;> exact ⟨rfl, rfl, rfl⟩
    exact h.of_same hc.2.1 hc.2.2 (congrArg _ hc.1)

/-- **Every session keeps the balance.** -/
theorem Balanced.served (qs : List Request) : ∀ {r : Rig} {p f e : Nat}, r.Balanced p f e →
    (r.served qs).Balanced (p + (r.session qs).countP (·.returned true))
      (f + (r.session qs).countP (·.returned false)) (e + (r.session qs).countP (·.raisedInside)) := by
  induction qs with
  | nil => exact fun h => h
  | cons q qs ih =>
    intro r p f e h
    have hswap : ∀ a b c : Nat, a + (b + c) = a + c + b := by omega
    have hrest := ih (h.moment q)
    simp only [session, List.countP_cons, hswap]
    exact hrest

/-! ## Moments that count nothing -/

/-- What a moment leaves as it is when no test is admitted at it. -/
structure Untouched (r r' : Rig) : Prop where
  executed : r'.executed = r.executed
  passed : r'.passed = r.passed
  haveRun : r'.registry.haveRun = r.registry.haveRun
  host : r'.host = r.host

/-- A test that is left out, or for which something is raised before it is admitted, counts nothing
and writes nothing. -/
theorem untouched_of_isIdle {q : Request} (h : (r.moment q).isIdle) :
    r.Untouched (r.moment q).after := by
  cases q with
  | run subgroup number body =>
    cases ha : r.admitted? subgroup number with
    | none =>
      obtain ⟨v, g, hm, hg, -⟩ := moment_of_not_admitted ha body
      rw [hm]
      exact ⟨rfl, rfl, hg, rfl⟩
    | some k =>
      -- an admitted test returns a verdict, or what it raises is raised behind its admission
      have hin : (r.moment (.run subgroup number body)).admitted? = some k := ha
      rw [Moment.isIdle, hin, moment_of_admitted ha body] at h
      cases hv : ((r.enter k).perform (r.registry.identity k) body).1 <;>
        simp [Moment.skipped, Moment.raised, hv, Except.map] at h
  | _ => cases h

/-! ## The numbers after a session -/

theorem balanced_of_set {s : Setup} (h : Rig.set s = .ok r) : r.Balanced 0 0 0 := by
  have hrun := haveRun_of_set h
  obtain ⟨c, a, g, j, -, -, -, -, rfl⟩ := set_eq_ok.mp h
  exact ⟨by rw [hrun]; rfl, rfl, rfl⟩

theorem exitStatus_eq_success : r.exitStatus = .success ↔ r.failed = 0 := by
  unfold exitStatus
  split <;> simp_all

theorem printSummary_eq_zero : r.printSummary.1 = 0 ↔ r.failed = 0 := by
  rw [← exitStatus_eq_success]
  show r.exitStatus.code = 0 ↔ _
  cases r.exitStatus <;> simp [ExitStatus.code]

/-- **The numbers of a session**: a rig that has been set up and has served any requests has executed
as many tests as it has recorded; those that returned true passed; those that returned false, those
that raised something and the selected tests that did not come failed.  What is not admitted counts
nothing and writes nothing, and the rig reports success exactly when nothing failed. -/
theorem session_counts {s : Setup} (h : Rig.set s = .ok r) (qs : List Request) :
    let ms := r.session qs
    let r' := r.served qs
    r'.executed = r'.registry.haveRun.size ∧
    r'.passed = ms.countP (·.returned true) ∧
    r'.passed ≤ r'.executed ∧ r'.executed ≤ r'.count ∧
    r'.failed = ms.countP (·.returned false) + ms.countP (·.raisedInside) +
      r'.registry.selection.size ∧
    (∀ m ∈ ms, m.isIdle → m.before.Untouched m.after) ∧
    (r'.exitStatus = .success ↔ r'.failed = 0) ∧ (r'.printSummary.1 = 0 ↔ r'.failed = 0) := by
  intro ms r'
  have hb : r'.Balanced (0 + ms.countP (·.returned true)) (0 + ms.countP (·.returned false))
      (0 + ms.countP (·.raisedInside)) := Balanced.served qs (balanced_of_set h)
  obtain ⟨hrec, hpass, htotal⟩ := hb
  rw [Nat.zero_add] at hpass
  have hcount : r'.count = r'.executed + r'.registry.selection.size := rfl
  have hfailed : r'.failed = r'.count - r'.passed := rfl
  refine ⟨hrec, hpass, by omega, by omega, by omega, ?_, exitStatus_eq_success,
    printSummary_eq_zero⟩
  exact forall_mem_session (I := fun _ => True) (C := fun _ => True)
    (fun _ _ _ _ => untouched_of_isIdle) (fun _ _ _ _ => trivial) qs r trivial fun _ _ => trivial

/-- Three tests are selected: one passes, one is killed at its time limit, one does not come. -/
theorem session_counts_three : ∃ r,
    Rig.set (.bare ["t", "-r", "s.1", "-r", "s.2", "-r", "s.3"]) = .ok r ∧
    (r.session [.run "s" (.int 1) fun _ => .returned,
      .run "s" (.int 2) fun _ => .left .endless]).countP (·.returned true) = 1 := by
  obtain ⟨r, hr, hpassed⟩ := exists_set (s := .bare ["t", "-r", "s.1", "-r", "s.2", "-r", "s.3"])
    (p := fun r => (r.served [.run "s" (.int 1) fun _ => .returned,
      .run "s" (.int 2) fun _ => .left .endless]).passed = 1) (by decide +kernel)
  exact ⟨r, hr, (session_counts hr _).2.1.symm.trans hpassed⟩

end Rig

end TestRig
