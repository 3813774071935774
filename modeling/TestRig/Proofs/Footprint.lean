import TestRig.Program
import TestRig.Proofs.Writing

/-!
# TestRig.Proofs.Footprint — what a rig leaves on the disk

The log is opened when everything else about a rig is settled.  So a rig that is not set up leaves
nothing behind, and one that is set up changes one file, by text at its end.

* `Rig.setIn`: setting up by actions of a monad; without effects it is `Rig.set` (`setIn_id`).
* `Rig.setUp`: setting up with the surroundings that it can change; `setUp_eq` says what it changes.
* `Disk.GrowsAt`: disks that differ in one file, by text at its end.  `Journal.extends_enter`: an entry
  changes a disk in no other way.
* `Rig.footprint`: what is left by a rig that is not set up, and by one that is set up and used.
-/

namespace TestRig

/-! ## Files that grow -/

namespace Disk

variable {d d' d'' : Disk} {k l : Location}

/-- Nothing but one file differs.  What it held is at its beginning, and if nothing was there it may
have been created. -/
structure GrowsAt (l : Location) (d d' : Disk) : Prop where
  home : d'.home = d.home
  elsewhere : ∀ k, k ≠ l → d'.node? k = d.node? k
  file : ∀ text executable, d.node? l = some (.file text executable) →
    ∃ more, d'.node? l = some (.file (text ++ more) executable)
  created : d.node? l = none → d'.node? l = none ∨ ∃ text, d'.node? l = some (.file text false)
  other : ∀ n, d.node? l = some n → (∀ text executable, n ≠ .file text executable) →
    d'.node? l = some n

theorem GrowsAt.refl (l : Location) (d : Disk) : d.GrowsAt l d :=
  ⟨rfl, fun _ _ => rfl, fun text _ h => ⟨"", by rw [h, String.append_empty]⟩, Or.inl, fun _ h _ => h⟩

theorem lookup_putNode_of_ne (h : k ≠ l) (n : Node) : ∀ nodes : List (Location × Node),
    (putNode l n nodes).lookup k = nodes.lookup k
  | [] => by simp [putNode, h]
  | (j, m) :: r => by
    have hrest := lookup_putNode_of_ne h n r
    by_cases hj : j = l
    · subst hj
      have hkj : (k == j) = false := beq_eq_false_iff_ne.mpr h
      simp [putNode, List.lookup_cons, hkj]
    · simp [putNode, hj, List.lookup_cons, hrest]

theorem node?_put_of_ne (h : k ≠ l) (n : Node) : (d.put l n).node? k = d.node? k := by
  cases k with
  | nil => rfl
  | cons part k => exact lookup_putNode_of_ne h n d.nodes

theorem node?_put (h : l ≠ []) (n : Node) : (d.put l n).node? l = some n := by
  cases l with
  | nil => exact absurd rfl h
  | cons part l => exact lookup_putNode _ _ _

theorem GrowsAt.trans (h : d.GrowsAt l d') (h' : d'.GrowsAt l d'') : d.GrowsAt l d'' := by
  have hcreated : ∀ text, d'.node? l = some (.file text false) →
      ∃ text, d''.node? l = some (.file text false) := fun text ht =>
    let ⟨more, hmore⟩ := h'.file text false ht
    ⟨_, hmore⟩
  refine ⟨h'.home.trans h.home, fun k hk => (h'.elsewhere k hk).trans (h.elsewhere k hk),
    fun text x ht => ?_, fun hn => ?_, fun n hn hno => h'.other n (h.other n hn hno) hno⟩
  · obtain ⟨more, hmore⟩ := h.file text x ht
    obtain ⟨more', hmore'⟩ := h'.file _ x hmore
    exact ⟨more ++ more', by rw [hmore', String.append_assoc]⟩
  · rcases h.created hn with hn' | ⟨text, ht⟩
    · exact h'.created hn'
    · exact Or.inr (hcreated text ht)

theorem growsAt_append (d : Disk) (l : Location) (s : String) : d.GrowsAt l (d.append l s) := by
  cases hn : d.node? l with
  | none =>
    have hsame : d.append l s = d := by simp only [append, hn]
    rw [hsame]
    exact .refl l d
  | some n =>
    cases n with
    | file old x =>
      have hput : d.append l s = d.put l (.file (old ++ s) x) := by simp only [append, hn]
      have hl : l ≠ [] := by
        rintro rfl
        cases hn
      rw [hput]
      refine ⟨rfl, fun k hk => node?_put_of_ne hk _, fun text y ht => ?_, fun hno => ?_,
        fun m hm hno => ?_⟩
      · cases hn.symm.trans ht
        exact ⟨s, node?_put hl _⟩
      · cases hn.symm.trans hno
      · cases hn.symm.trans hm
        exact absurd rfl (hno old x)
    | _ =>
      have hsame : d.append l s = d := by simp only [append, hn]
      rw [hsame]
      exact .refl l d

theorem growsAt_create (h : d.node? l = none) : d.GrowsAt l (d.put l (.file "" false)) := by
  have hl : l ≠ [] := by
    rintro rfl
    cases h
  refine ⟨rfl, fun k hk => node?_put_of_ne hk _, fun text x ht => ?_,
    fun _ => Or.inr ⟨"", node?_put hl _⟩, fun n hn _ => ?_⟩
  · cases h.symm.trans ht
  · cases h.symm.trans hn

/-- A file is opened for appending where its path leads: if nothing is there it is created. -/
theorem openToAppend_eq_ok {p : Path} (h : d.openToAppend p = .ok (l, d')) :
    d.locate p = .ok l ∧ (d.node? l = none ∧ d' = d.put l (.file "" false) ∨
      d.node? l ≠ none ∧ d' = d) := by
  obtain ⟨l', hl, h⟩ := bind_eq_ok.mp h
  cases hn : d.node? l' with
  | none =>
    simp only [hn] at h
    cases h
    exact ⟨hl, Or.inl ⟨hn, rfl⟩⟩
  | some n =>
    simp only [hn] at h
    cases n with
    | directory => cases h
    | _ =>
      cases h
      exact ⟨hl, Or.inr ⟨by rw [hn]; exact Option.some_ne_none _, rfl⟩⟩

theorem growsAt_openToAppend {p : Path} (h : d.openToAppend p = .ok (l, d')) : d.GrowsAt l d' := by
  obtain ⟨-, ⟨hn, rfl⟩ | ⟨-, rfl⟩⟩ := openToAppend_eq_ok h
  · exact growsAt_create hn
  · exact .refl l _

/-- Nothing changes but the file at a location, which grows; without a location nothing changes. -/
def Extends (loc : Option Location) (d d' : Disk) : Prop :=
  match loc with
  | none => d' = d
  | some l => d.GrowsAt l d'

theorem Extends.refl (loc : Option Location) (d : Disk) : d.Extends loc d := by
  cases loc with
  | none => rfl
  | some l => exact GrowsAt.refl l d

theorem Extends.trans {loc : Option Location} (h : d.Extends loc d') (h' : d'.Extends loc d'') :
    d.Extends loc d'' := by
  cases loc with
  | none => exact Eq.trans h' h
  | some l => exact GrowsAt.trans h h'

theorem extends_append {loc : Option Location} (h : loc = some l) (d : Disk) (s : String) :
    d.Extends loc (d.append l s) := by
  subst h
  exact growsAt_append d l s

end Disk

/-! ## What entries change -/

namespace Journal

variable {j : Journal} {loc : Option Location}

theorem extends_flushLog (hl : ∀ f ∈ j.log, loc = some f.location) :
    j.disk.Extends loc j.flushLog.disk := by
  unfold flushLog
  split
  · exact .refl loc _
  · rename_i f hf
    exact Disk.extends_append (hl f hf) _ _

/-- **One entry** changes nothing but the log. -/
theorem extends_enter (hl : ∀ f ∈ j.log, loc = some f.location) : ∀ {e : Entry}, e.Proper loc →
    j.disk.Extends loc (j.enter e).disk
  | .name _, _ | .outcome _, _ | .blank, _ => extends_flushLog (j := (((j.display _).record _).flushConsole))
      fun f hf => by
        obtain ⟨g, hg, rfl⟩ := Option.map_eq_some_iff.mp hf
        exact hl g hg
  | .note s, _ => by
    have hsame : (j.enter (.note s)).disk = j.disk := by
      simp only [enter, note]
      split <;> rfl
    rw [hsame]
    exact .refl loc _
  | .aside cs, _ => by
    rw [disk_aside]
    exact .refl loc _
  | .other (.appended l texts), h => Disk.extends_append h.1 _ _
  | .other (.took _), _ | .other (.tookLog _), _ | .other (.showed _), _ => .refl loc _

theorem extends_enterAll : ∀ {es : List Entry} {j : Journal}, (∀ f ∈ j.log, loc = some f.location) →
    (∀ e ∈ es, e.Proper loc) → j.disk.Extends loc (j.enterAll es).disk
  | [], j, _, _ => .refl loc j.disk
  | e :: es, j, hl, he => by
    have hnext : ∀ f ∈ (j.enter e).log, loc = some f.location := by
      intro f hf
      have hlocation : j.log.map (·.location) = some f.location := by
        rw [← (alike_enter j e).log, Option.mem_def.mp hf, Option.map_some]
      obtain ⟨g, hg, hsame⟩ := Option.map_eq_some_iff.mp hlocation
      exact hsame ▸ hl g hg
    exact (extends_enter hl (he e List.mem_cons_self)).trans
      (extends_enterAll hnext fun e' he' => he e' (List.mem_cons_of_mem _ he'))

end Journal

namespace Rig

/-! ## Setting up by actions -/

section Acting

variable {m : Type → Type} [Monad m]

/-- Set a rig up: `stage` does what is known to give something or to be refused, and `openLog` opens the
log. -/
def setIn (stage : ∀ {α : Type}, Except Fault α → m α) (openLog : Configuration → m Journal)
    (s : Setup) : m Rig := do
  let configuration ← stage ((Configuration.ofArgv s.argv).mapError .stopped)
  let arguments ← stage (storeArguments Arguments.empty configuration.arguments)
  let registry ← stage (selectTests (Registry.ofGroup s.group) configuration.selection)
  let journal ← openLog configuration
  return assemble s configuration arguments registry journal

end Acting

/-- Without effects this is setting up. -/
theorem setIn_id (s : Setup) : setIn (m := Except Fault) (fun x => x)
    (fun c => (Journal.openLog s.terminal c.verbose s.disk c.logFile).mapError .log) s = Rig.set s :=
  rfl

/-- What can be changed while a rig is set up. -/
structure Surroundings where
  disk : Disk
  console : Sink Chunk := {}
  /-- The standard output. -/
  output : String := ""

/-- An action changes its surroundings and can be refused; what it has changed by then stays so. -/
abbrev Acting := ExceptT Fault (StateM Surroundings)

/-- A refusal may be printed. -/
def Acting.stage {α : Type} : Except Fault α → Acting α
  | .ok a => pure a
  | .error f => do
    modify fun w => { w with output := w.output ++ f.output }
    throw f

def Acting.openLog (terminal : Bool) (c : Configuration) : Acting Journal := do
  let w ← getThe Surroundings
  match Journal.openLog terminal c.verbose w.disk c.logFile with
  | .ok j =>
    modify fun w => { w with disk := j.disk }
    return { j with console := w.console }
  | .error f => throw (.log f)

/-- Set a rig up in its surroundings. -/
def setUp (s : Setup) : Except Fault Rig × Surroundings :=
  (setIn Acting.stage (Acting.openLog s.terminal) s).run.run { disk := s.disk }

/-- The surroundings behind setting up: a log may have been opened, or a refusal has been printed. -/
def Surroundings.told (w : Surroundings) (v : Except Fault Rig) : Except Fault Rig × Surroundings :=
  (v, match v with
    | .ok r => { w with disk := r.journal.disk }
    | .error f => { w with output := w.output ++ f.output })

theorem told_stage {α : Type} {w : Surroundings} {x : Except Fault α} {act : α → Acting Rig}
    {next : α → Except Fault Rig} (h : ∀ a, (act a).run.run w = w.told (next a)) :
    (Acting.stage x >>= act).run.run w = w.told (x >>= next) := by
  cases x with
  | error f => rfl
  | ok a => exact h a

theorem told_openLog (s : Setup) (c : Configuration) (a : Arguments) (g : Registry) :
    let w : Surroundings := { disk := s.disk }
    (Acting.openLog s.terminal c >>= fun j => pure (assemble s c a g j)).run.run w =
      w.told ((Journal.openLog s.terminal c.verbose s.disk c.logFile).mapError .log >>=
        fun j => pure (assemble s c a g j)) := by
  intro w
  -- opening looks at the disk only
  have hget : (Acting.openLog s.terminal c >>= fun j => pure (assemble s c a g j)).run.run w =
      ((match Journal.openLog s.terminal c.verbose s.disk c.logFile with
        | .ok j => do
          modify fun w => { w with disk := j.disk }
          return { j with console := w.console }
        | .error f => throw (.log f) : Acting Journal) >>= fun j => pure (assemble s c a g j)).run.run w :=
    rfl
  rw [hget]
  cases hopen : Journal.openLog s.terminal c.verbose s.disk c.logFile with
  | error f => rfl
  | ok j =>
    obtain ⟨-, rfl⟩ | ⟨path, l, d, -, -, rfl⟩ := Journal.openLog_cases hopen
    · rfl
    · rfl

/-- **What setting up changes**: the disk by opening the log, which is the last step, or nothing. -/
theorem setUp_eq (s : Setup) : setUp s = Surroundings.told { disk := s.disk } (Rig.set s) :=
  told_stage fun c => told_stage fun a => told_stage fun g => told_openLog s c a g

/-- Ending a report leaves the disk and the rig as they are. -/
theorem endWith_same (report : Report) (h : Halt) :
    (Program.endWith report h).disk = report.disk ∧ (Program.endWith report h).rig = report.rig := by
  cases h with
  | left how => exact ⟨rfl, rfl⟩
  | raised t =>
    simp only [Program.endWith, Report.complain]
    split
    · split <;> exact ⟨rfl, rfl⟩
    · exact ⟨rfl, rfl⟩

/-! ## What requests change -/

variable {r : Rig} {loc : Option Location}

/-- **A session** changes nothing but the log. -/
theorem extends_served : ∀ (qs : List Request) {r : Rig}, r.Homely loc →
    r.journal.disk.Extends loc (r.served qs).journal.disk
  | [], _, _ => .refl loc _
  | q :: qs, r, h => by
    obtain ⟨es, hes, henters⟩ := entered_moment h q
    have hq : r.journal.disk.Extends loc (r.moment q).after.journal.disk := by
      rw [henters.disk]
      exact Journal.extends_enterAll h.host.log hes
    exact hq.trans (extends_served qs (h.moment q))

/-- **What a rig leaves on the disk.**  Setting up gives what it gives whatever it changes on the way.  A
rig that is not set up has changed no file and written nothing to the console, and so says the report of
its program.  A rig that is set up has written nothing to the console, and without a log it never
changes a file, as long as its tests run in its own process or in copies of it.  With a log it has
created that file if nothing was there, and changed nothing if something was; and whatever it is asked
for later, no other file changes and the log keeps what it held at its beginning. -/
theorem footprint (s : Setup) :
    (setUp s).1 = Rig.set s ∧
    (∀ f, Rig.set s = .error f → (setUp s).2.disk = s.disk ∧ (setUp s).2.console = {} ∧
      ∀ steps, (Program.run s steps).disk = s.disk ∧ (Program.run s steps).console = "") ∧
    ∀ r, Rig.set s = .ok r → (setUp s).2 = { disk := r.journal.disk } ∧ r.journal.console = {} ∧
      match r.configuration.logFile with
      | none => r.journal.disk = s.disk ∧
          (r.StaysHome → ∀ qs, (r.served qs).journal.disk = s.disk)
      | some path => ∃ l, s.disk.locate path = .ok l ∧
          (s.disk.node? l = none → r.journal.disk = s.disk.put l (.file "" false)) ∧
          (s.disk.node? l ≠ none → r.journal.disk = s.disk) ∧
          (r.StaysHome → ∀ qs, s.disk.GrowsAt l (r.served qs).journal.disk) := by
  rw [setUp_eq]
  refine ⟨rfl, fun f hf => ?_, fun r hr => ?_⟩
  · refine ⟨by rw [hf]; rfl, by rw [hf]; rfl, fun steps => ?_⟩
    unfold Program.run
    simp only [hf]
    obtain ⟨hdisk, hrig⟩ := endWith_same
      { exit := .ok 0, output := f.output, disk := s.disk } (.ofException f.exception)
    exact ⟨hdisk, by rw [Report.console, hrig]; rfl⟩
  · refine ⟨by rw [hr]; rfl, ?_⟩
    obtain ⟨c, a, g, j, -, -, -, hj, rfl⟩ := set_eq_ok.mp hr
    show j.console = {} ∧ match c.logFile with | none => _ | some path => _
    obtain ⟨hlog, rfl⟩ | ⟨path, l, d, hlog, hopen, rfl⟩ := Journal.openLog_cases hj
    · rw [hlog]
      refine ⟨rfl, rfl, fun hh qs => ?_⟩
      have hhome : Homely none _ := (fresh_of_set hr).homely hh
      exact extends_served qs hhome
    · rw [hlog]
      obtain ⟨hl, hd⟩ := Disk.openToAppend_eq_ok hopen
      refine ⟨rfl, l, hl, fun hn => ?_, fun hn => ?_, fun hh qs => ?_⟩
      · exact hd.elim And.right fun h => absurd hn h.1
      · exact hd.elim (fun h => absurd h.1 hn) And.right
      · have hhome : Homely (some l) _ := (fresh_of_set hr).homely hh
        exact (Disk.growsAt_openToAppend hopen).trans (extends_served qs hhome)

/-- A log that is there already: nothing is added to it if a selection is refused behind it, and what
it held stays at its beginning. -/
theorem footprint_earlier :
    let log := ["tmp", "work", "t.log"]
    let S : Setup := { Setup.bare ["t", "-l", "t.log"] with
      disk := Disk.blank.place "t.log" (.file "earlier\n" false) }
    (∃ f, Rig.set { S with argv := ["t", "-l", "t.log", "-r", "x"] } = .error f ∧
      (setUp { S with argv := ["t", "-l", "t.log", "-r", "x"] }).2.disk = S.disk) ∧
    ∃ r, Rig.set S = .ok r ∧ ∀ qs, ∃ more,
      (r.served qs).journal.disk.node? log = some (.file ("earlier\n" ++ more) false) := by
  intro log S
  constructor
  · cases hr : Rig.set { S with argv := ["t", "-l", "t.log", "-r", "x"] } with
    | ok r =>
      have hno : (Rig.set { S with argv := ["t", "-l", "t.log", "-r", "x"] }).toOption.isNone = true := by
        decide +kernel
      rw [hr] at hno
      cases hno
    | error f =>
      obtain ⟨hdisk, -⟩ := (footprint _).2.1 f hr
      exact ⟨f, rfl, hdisk⟩
  · obtain ⟨r, hr, hfork, hfile⟩ := exists_set (s := S)
      (p := fun r => r.strategy = .fork ∧ r.configuration.logFile = some (Path.ofString "t.log"))
      (by decide +kernel)
    obtain ⟨-, -, hleft⟩ := (footprint S).2.2 r hr
    rw [hfile] at hleft
    obtain ⟨l, hl, -, -, hgrows⟩ := hleft
    have hlog : S.disk.locate (Path.ofString "t.log") = .ok log := by rfl
    obtain rfl : log = l := Except.ok.inj (hlog.symm.trans hl)
    exact ⟨r, hr, fun qs => (hgrows (Or.inr hfork) qs).file _ _ rfl⟩

end Rig

end TestRig
