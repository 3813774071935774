import TestRig.Proofs.Books
import TestRig.Proofs.Forking
import TestRig.Proofs.Setup

/-!
# TestRig.Proofs.Performance — a test of a rig that starts no programs

A rig whose tests run in its own process or in copies of it (`Rig.StaysHome`) writes and returns about
a test what `Rig.wrote` and `Rig.verdict` say: in its own process by the ending of the body alone, in
a copy by the fate of the copy.

* `Rig.perform_comes`: performing a test comes to that.
* `Rig.Homely`: what holds of such a rig at any time; `Rig.Homely.served` lifts it to a session.
* `Rig.Keeps`: what no request of such a rig changes; `Rig.keeps_served` lifts it to a session.
* `Rig.fresh_of_set`: every rig that has been set up has a settled journal and an empty console.
-/

namespace TestRig

open Supervision (Comes Fate Child)
open Journal (Entry Other)

namespace Rig

variable {r r' : Rig} {test : Identity} {body : Body} {loc : Option Location} {k : Key} {q : Request}

/-! ## Performing a test -/

/-- The tests of a rig run in its own process or in copies of it. -/
def StaysHome (r : Rig) : Prop := r.configuration.direct = true ∨ r.strategy = .fork

/-- A rig whose tests run so; only copies of it were left behind, with the log at this location. -/
structure Homely (loc : Option Location) (r : Rig) : Prop where
  home : r.StaysHome
  host : r.host.Home loc

theorem Homely.settled (h : r.Homely loc) : r.journal.Settled := h.host.settled

def reported (r : Rig) (test : Identity) (body : Body) : List Entry :=
  Classifier.reportEntries r.dumper test (body r.arguments)

def fate (r : Rig) (test : Identity) (body : Body) : Fate :=
  .of r.configuration (Supervision.endingStatus r.dumper test.name (body r.arguments)) r.host.faults

/-- The copy that would run a test. -/
def copy (r : Rig) (test : Identity) (body : Body) : Child :=
  .begun r.host.nextPid r.dumper test (body r.arguments) (r.journal.log.map (·.location))

/-- What is written about a test; `others` is what other copies do meanwhile. -/
def wrote (r : Rig) (test : Identity) (body : Body) (others : List Other) : List Entry :=
  if !test.isWritable then [] else
  if r.configuration.direct then
    (if r.configuration.named then [Entry.name test] else []) ++ r.reported test body
  else (r.fate test body).entries test r.host.nextPid (r.reported test body)
    (fun n => (r.copy test body).trace n) others

def verdict (r : Rig) (test : Identity) (body : Body) : Except Halt Bool :=
  if !test.isWritable then .error (.ofException Exception.unwritable) else
  if r.configuration.direct then
    (Classifier.report r.dumper test.name (body r.arguments)).1.map (·.passed)
  else (r.fate test body).result test

/-- How many copies of this process are made. -/
def copies (r : Rig) (test : Identity) (body : Body) : Nat :=
  if !test.isWritable || r.configuration.direct then 0 else (r.fate test body).copies

/-- What the copies do beside a test that were left behind before. -/
structure Beside (loc : Option Location) (r : Rig) (others : List Other) : Prop where
  plain : ∀ o ∈ others, Supervision.IsPlain loc o
  alone : r.host.strays = [] → others = []

theorem Beside.none : r.Beside loc [] := ⟨fun _ ho => (nomatch ho), fun _ => rfl⟩

/-- **Performing a test** writes and returns just that. -/
theorem perform_comes (h : r.Homely loc) (test : Identity) (body : Body) :
    ∃ others, r.Beside loc others ∧ Comes loc (r.copies test body) r.host (r.wrote test body others)
      (r.verdict test body) (r.perform test body) := by
  unfold perform wrote verdict copies
  cases hw : test.isWritable with
  | false => exact ⟨[], .none, .nothing _ _⟩
  | true =>
    simp only [Bool.not_true, Bool.false_eq_true, if_false, Bool.false_or]
    cases hd : r.configuration.direct with
    | true =>
      simp only [if_true, Classifier.run_eq]
      exact ⟨[], .none, .written _ rfl⟩
    | false =>
      have hfork : r.strategy = .fork := by
        simpa [StaysHome, hd] using h.home
      simp only [Bool.false_eq_true, if_false, hfork]
      obtain ⟨others, hplain, halone, hcomes⟩ := Comes.superviseFork h.host r.configuration r.dumper
        test (body r.arguments)
      exact ⟨others, ⟨hplain, halone⟩, hcomes⟩

/-- **Running an admitted test**: its verdict is returned and counted, and its entries are written. -/
theorem run_comes {subgroup : String} {number : Value} (h : r.Homely loc)
    (ha : r.admitted? subgroup number = some k) (body : Body) :
    let test := r.registry.identity k
    ∃ others host, r.Beside loc others ∧
      Comes loc (r.copies test body) r.host (r.wrote test body others) (r.verdict test body)
        (r.verdict test body, host) ∧
      r.run subgroup number body = ((r.verdict test body).map some,
        { r.enter k with host, passed := r.passed + points (r.verdict test body) }) := by
  intro test
  have hentered : (r.enter k).Homely loc := ⟨h.home, h.host⟩
  obtain ⟨others, hbeside, hcomes⟩ := perform_comes hentered test body
  have hverdict : (r.enter k).verdict test body = r.verdict test body := rfl
  have hrun := run_of_admitted ha body
  rw [hverdict] at hcomes
  change r.run subgroup number body = (r.enter k).tally ((r.enter k).perform test body) at hrun
  generalize (r.enter k).perform test body = p at hcomes hrun
  generalize r.verdict test body = v at hcomes
  obtain ⟨v', host⟩ := p
  obtain rfl : v' = v := hcomes.result
  refine ⟨others, host, ⟨hbeside.plain, hbeside.alone⟩, hcomes, ?_⟩
  rw [hrun]
  exact Prod.ext (tally_fst _ _) (tally_snd _ _)

/-! ## Requests for which no test is performed -/

/-- **Any other request**: copies that were left behind go on, and there may be a chore. -/
theorem idle_moment (hq : (r.moment q).admitted? = none) : ∃ order f, Journal.Chore f ∧
    r.Leaves ((r.host.elapse order).onJournal f) (r.moment q).after := by
  obtain ⟨-, -, order, f, hf, hleft, -⟩ := SameBooks.idle (⟨rfl, rfl, rfl, rfl, rfl⟩ : r.SameBooks r) hq
  exact ⟨order, f, hf, hleft⟩

end Rig

/-- A chore shows some chunks, and may close the log. -/
theorem Journal.Chore.eq_aside {f : Journal → Journal} (hf : Chore f) : ∃ cs, ∀ j : Journal, j.Settled →
    f j = j.enter (.aside cs) ∨ f j = { j.enter (.aside cs) with log := Option.none } := by
  cases hf with
  | none => exact ⟨[], fun j h => Or.inl h.flushConsole.symm⟩
  | summary r => exact ⟨r.summaryChunks, fun j _ => Or.inl rfl⟩
  | close texts =>
    refine ⟨texts.map .line, fun j h => Or.inr ?_⟩
    show (texts.foldl Journal.error j).close = _
    rw [errors_eq_aside texts h, (settled_enter h _).close]

theorem Supervision.Host.Onward.chore {f : Journal → Journal} (hf : Journal.Chore f) {h : Host}
    (hs : h.journal.Settled) : h.Onward (h.onJournal f) := by
  obtain ⟨cs, hcs⟩ := hf.eq_aside
  have halike := Journal.alike_enter h.journal (.aside cs)
  have hsettled := Journal.settled_enter hs (.aside cs)
  rcases hcs h.journal hs with heq | heq
  · refine ⟨?_, ?_, fun _ => ?_, .refl _⟩
    · exact (congrArg Journal.colored heq).trans halike.colored
    · exact (congrArg Journal.verbose heq).trans halike.verbose
    · show (f h.journal).Settled
      exact heq ▸ hsettled
  · refine ⟨?_, ?_, fun _ => ?_, .refl _⟩
    · exact (congrArg Journal.colored heq).trans halike.colored
    · exact (congrArg Journal.verbose heq).trans halike.verbose
    · show (f h.journal).Settled
      rw [heq]
      exact ⟨hsettled.console, fun _ hl => (nomatch hl)⟩

namespace Rig

variable {r r' : Rig} {loc : Option Location} {q : Request}

/-! ## What holds at any time -/

theorem Leaves.strategy {host : Supervision.Host} (hl : r.Leaves host r')
    (hf : host.faults.canFork = r.host.faults.canFork) : r'.strategy = r.strategy := by
  rw [Rig.strategy, Rig.strategy, hl.configuration, hl.host, hf]

/-- **One request** leaves a rig at home. -/
theorem Homely.moment (h : r.Homely loc) (q : Request) : (r.moment q).after.Homely loc := by
  cases hq : (r.moment q).admitted? with
  | none =>
    obtain ⟨order, f, hf, hleft⟩ := idle_moment hq
    have honward := Supervision.Host.Onward.elapse order r.host
    obtain ⟨os, hpasses⟩ := Supervision.Host.passes_elapse order h.host.strays
    have hhome : (r.host.elapse order).Home loc := h.host.entered hpasses.journal hpasses.strays
    refine ⟨?_, ?_⟩
    · have hcan : ((r.host.elapse order).onJournal f).faults.canFork = r.host.faults.canFork :=
        honward.faults.canFork
      rw [StaysHome, hleft.configuration, hleft.strategy hcan]
      exact h.home
    · rw [hleft.host]
      obtain ⟨cs, hcs⟩ := hf.eq_aside
      have haside : ((r.host.elapse order).onJournal (·.enter (.aside cs))).Home loc :=
        hhome.entered (show _ = Journal.enterAll _ [.aside cs] from rfl) hhome.strays
      have hlog := haside.log
      rcases hcs _ hhome.settled with heq | heq
      · have hsame : (r.host.elapse order).onJournal f =
            (r.host.elapse order).onJournal (·.enter (.aside cs)) := by
          simp only [Supervision.Host.onJournal, heq]
        rw [hsame]
        exact haside
      · refine ⟨?_, fun l hl => ?_, hhome.strays⟩
        · show (f _).Settled
          rw [heq]
          exact ⟨haside.settled.console, by simp⟩
        · have hnone : (f (r.host.elapse order).journal).log = none := by rw [heq]
          cases hnone.symm.trans hl
  | some k =>
    obtain ⟨subgroup, number, body, rfl, ha⟩ := run_of_admitted? hq
    obtain ⟨others, host, -, hcomes, hrun⟩ := run_comes h ha body
    have hafter : (r.moment (.run subgroup number body)).after = { r.enter k with
        host, passed := r.passed + points (r.verdict (r.registry.identity k) body) } :=
      congrArg Prod.snd hrun
    rw [hafter]
    refine ⟨?_, hcomes.home h.host⟩
    have hcan : host.faults.canFork = r.host.faults.canFork := hcomes.faults.canFork
    show r.configuration.direct = true ∨ Supervision.Strategy.choose _ host.faults.canFork = .fork
    rw [hcan]
    exact h.home

/-- **A session** leaves a rig at home. -/
theorem Homely.served : ∀ (qs : List Request) {r : Rig}, r.Homely loc → (r.served qs).Homely loc
  | [], _, h => h
  | q :: qs, _, h => Homely.served qs (h.moment q)

/-! ## What no request changes -/

/-- What stays as it is in a rig that serves requests. -/
structure Keeps (r r' : Rig) : Prop where
  configuration : r'.configuration = r.configuration
  arguments : r'.arguments = r.arguments
  dumper : r'.dumper = r.dumper
  group : r'.registry.group = r.registry.group
  colored : r'.journal.colored = r.journal.colored
  verbose : r'.journal.verbose = r.journal.verbose
  settled : r'.journal.Settled
  faults : r.host.faults.Later r'.host.faults

theorem Keeps.refl (h : r.journal.Settled) : r.Keeps r :=
  ⟨rfl, rfl, rfl, rfl, rfl, rfl, h, .refl _⟩

theorem Keeps.trans {r'' : Rig} (h : r.Keeps r') (h' : r'.Keeps r'') : r.Keeps r'' :=
  ⟨h'.configuration.trans h.configuration, h'.arguments.trans h.arguments,
    h'.dumper.trans h.dumper, h'.group.trans h.group, h'.colored.trans h.colored,
    h'.verbose.trans h.verbose, h'.settled, h.faults.trans h'.faults⟩

theorem Keeps.strategy (h : r.Keeps r') : r'.strategy = r.strategy := by
  rw [Rig.strategy, Rig.strategy, h.configuration, h.faults.canFork]

theorem moment_same (hq : (r.moment q).admitted? = none) :
    (r.moment q).after.arguments = r.arguments ∧
      (r.moment q).after.registry.group = r.registry.group := by
  cases q with
  | run subgroup number body =>
    obtain ⟨v, g, hrun, -, hg, -⟩ := run_of_not_admitted hq body
    have hafter : (r.moment (.run subgroup number body)).after = { r with registry := g } :=
      congrArg Prod.snd (hrun r rfl)
    rw [hafter]
    exact ⟨rfl, hg⟩
  | select spec =>
    show (r.select spec).2.arguments = _ ∧ (r.select spec).2.registry.group = _
    unfold Rig.select Registry.select
    cases r.registry.readSpec spec <;> exact ⟨rfl, rfl⟩
  | close =>
    show r.close.arguments = _ ∧ r.close.registry.group = _
    unfold Rig.close
    split <;> exact ⟨rfl, rfl⟩
  | _ => exact ⟨rfl, rfl⟩

/-- Requests for which no test is performed keep all this in any rig. -/
theorem keeps_idle (hs : r.journal.Settled) (hq : (r.moment q).admitted? = none) :
    r.Keeps (r.moment q).after := by
  obtain ⟨order, f, hf, hleft⟩ := idle_moment hq
  have helapse := Supervision.Host.Onward.elapse order r.host
  have honward := helapse.trans (.chore hf (helapse.settled hs))
  rw [← hleft.host] at honward
  obtain ⟨harguments, hgroup⟩ := moment_same hq
  exact ⟨hleft.configuration, harguments, hleft.dumper, hgroup, honward.colored, honward.verbose,
    honward.settled hs, honward.faults⟩

theorem keeps_of_onward {host : Supervision.Host} (hs : r.journal.Settled) (k : Key) (n : Nat)
    (ho : r.host.Onward host) : r.Keeps { r.enter k with host, passed := n } :=
  ⟨rfl, rfl, rfl, r.registry.spend_group k, ho.colored, ho.verbose, ho.settled hs, ho.faults⟩

theorem keeps_moment (h : r.Homely loc) (q : Request) : r.Keeps (r.moment q).after := by
  cases hq : (r.moment q).admitted? with
  | none => exact keeps_idle h.host.settled hq
  | some k =>
    obtain ⟨subgroup, number, body, rfl, ha⟩ := run_of_admitted? hq
    obtain ⟨others, host, -, hcomes, hrun⟩ := run_comes h ha body
    have hafter : (r.moment (.run subgroup number body)).after = { r.enter k with
        host, passed := r.passed + points (r.verdict (r.registry.identity k) body) } :=
      congrArg Prod.snd hrun
    rw [hafter]
    exact keeps_of_onward h.host.settled k _ (.of_comes hcomes)

/-- **What no session changes.** -/
theorem keeps_served : ∀ (qs : List Request) {r : Rig}, r.Homely loc → r.Keeps (r.served qs)
  | [], _, h => .refl h.host.settled
  | q :: qs, _, h => (keeps_moment h q).trans (keeps_served qs (h.moment q))

structure Fresh (s : Setup) (r : Rig) : Prop where
  settled : r.journal.Settled
  verbose : r.journal.verbose = r.configuration.verbose
  console : r.journal.console = {}
  sink : ∀ l ∈ r.journal.log, l.sink = {}
  faults : r.host.faults = s.faults
  strays : r.host.strays = []
  events : r.host.events = []

theorem fresh_of_set {s : Setup} (h : Rig.set s = .ok r) : Fresh s r := by
  obtain ⟨c, a, g, j, -, -, -, hj, rfl⟩ := set_eq_ok.mp h
  obtain ⟨-, rfl⟩ | ⟨path, l, d, -, -, rfl⟩ := Journal.openLog_cases hj
  · exact ⟨⟨rfl, by simp [journal, assemble]⟩, rfl, rfl, by simp [journal, assemble], rfl, rfl, rfl⟩
  · exact ⟨⟨rfl, by simp [journal, assemble]⟩, rfl, rfl, by simp [journal, assemble], rfl, rfl, rfl⟩

/-- A rig that has been set up to run its tests at home is at home. -/
theorem Fresh.homely {s : Setup} (hf : Fresh s r) (h : r.StaysHome) :
    r.Homely (r.journal.log.map (·.location)) := by
  refine ⟨h, hf.settled, fun l hl => ?_, fun s hs => ?_⟩
  · have hlog : r.journal.log = some l := hl
    rw [hlog, Option.map_some]
  · rw [hf.strays] at hs
    cases hs

end Rig

end TestRig
