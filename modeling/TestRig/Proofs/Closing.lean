import Mathlib.Data.Prod.Lex
import Mathlib.Data.String.Basic
import TestRig.Proofs.Books
import TestRig.Proofs.Conversion
import TestRig.Proofs.History
import TestRig.Proofs.Order
import TestRig.Proofs.Spawning

/-!
# TestRig.Proofs.Closing — the tests that never came

A rig that is closed reports what is left of its selection.  What is left is known from what the
registry was asked: a key that was selected and that no call for a test has named since.

* `Key.pairwise_sort`: keys are reported in strictly increasing order.
* `Registry.served_enrolls`, `Registry.served_selects`: what calls leave of a selection, and what
  specifications put into it.
* `Rig.registry_served`: the registry of a rig is what its requests have asked of it.
* `Rig.close_reports`: what the first closing of a rig reports, and that a later one does nothing.
-/

namespace TestRig

/-! ## The order of keys -/

namespace Key

variable {a b : Key}

/-- Subgroups come in the order of their characters' code points, tests of one subgroup in the order
of their numbers. -/
def Precedes (a b : Key) : Prop :=
  a.1.toList.map Char.toNat < b.1.toList.map Char.toNat ∨ a.1 = b.1 ∧ a.2 < b.2

theorem codes_lt {cs ds : List Char} : cs.map Char.toNat < ds.map Char.toNat ↔ cs < ds := by
  induction cs generalizing ds with
  | nil => cases ds <;> simp
  | cons c cs ih =>
    cases ds with
    | nil => simp
    | cons d ds =>
      rw [List.map_cons, List.map_cons, List.cons_lt_cons_iff, List.cons_lt_cons_iff, ih, Char.toNat_inj]
      rfl

theorem before_eq_true : before a b = true ↔ toLex a < toLex b := by
  rw [Prod.Lex.toLex_lt_toLex]
  simp [before]

theorem precedes_iff : a.Precedes b ↔ toLex a < toLex b := by
  rw [Precedes, codes_lt, ← String.lt_iff_toList_lt, Prod.Lex.toLex_lt_toLex]

theorem notAfter_eq_true : notAfter a b = true ↔ toLex a ≤ toLex b := by
  rw [notAfter, Bool.not_eq_true', ← Bool.not_eq_true, before_eq_true, not_lt]

theorem mem_sort {keys : List Key} {k : Key} : k ∈ sort keys ↔ k ∈ keys :=
  (List.mergeSort_perm keys notAfter).mem_iff

/-- Different keys are put in strictly increasing order. -/
theorem pairwise_sort {keys : List Key} (h : keys.Nodup) : (sort keys).Pairwise Precedes := by
  have hsorted : (sort keys).Pairwise fun a b => notAfter a b = true :=
    List.pairwise_mergeSort (fun a b c => by simpa only [notAfter_eq_true] using le_trans)
      (fun a b => by simpa only [Bool.or_eq_true, notAfter_eq_true] using le_total _ _) keys
  have hdifferent : (sort keys).Nodup := (List.mergeSort_perm keys notAfter).nodup_iff.mpr h
  refine hsorted.imp₂ (fun a b hle hne => ?_) hdifferent
  exact precedes_iff.mpr (lt_of_le_of_ne (notAfter_eq_true.mp hle) fun heq => hne (toLex.injective heq))

end Key

/-! ## What is left of a selection -/

namespace Registry

variable {g : Registry} {k : Key} {q : Query} {qs : List Query}

theorem lt_of_readSpec {spec : String} (h : g.readSpec spec = .ok k) : k.2 < 10 ^ Text.maxDigits := by
  unfold readSpec at h
  split at h
  · cases h
  · obtain ⟨n, hn, hk⟩ := bind_eq_ok.mp h
    cases hk
    exact Configuration.lt_of_readTimeout (Configuration.readTimeout_eq_ok.mpr (mapError_eq_ok.mp hn))

theorem serve_select (g : Registry) (spec : String) : ((Query.select spec).serve g).2 =
    match g.readSpec spec with
    | .ok k => g.choose k
    | .error _ => g := by
  cases hread : g.readSpec spec with
  | error f => simp only [Query.serve, select, hread]
  | ok k => simp only [Query.serve, select, hread]

theorem keys_enroll (hs : g.selective = true) (j : Key) :
    k ∈ (g.enroll j).2.selection ↔ k ∈ g.selection ∧ k ≠ j := by
  rw [KeySet.mem_iff, keys_selection_enroll, hs, if_pos rfl]
  simp [KeySet.mem_iff]

theorem writable_serve (h : ∀ k ∈ g.selection, k.2 < 10 ^ Text.maxDigits) (q : Query) :
    ∀ k ∈ (q.serve g).2.selection, k.2 < 10 ^ Text.maxDigits := by
  intro k hk
  cases q with
  | select spec =>
    rw [serve_select] at hk
    cases hread : g.readSpec spec with
    | error f =>
      rw [hread] at hk
      exact h k hk
    | ok j =>
      rw [hread] at hk
      rcases KeySet.mem_insert.mp hk with rfl | hk
      · exact lt_of_readSpec hread
      · exact h k hk
  | enroll j =>
    have hk' : k ∈ (g.enroll j).2.selection.keys := hk
    rw [keys_selection_enroll] at hk'
    refine h k ?_
    split at hk'
    · exact (List.mem_filter.mp hk').1
    · exact hk'

theorem writable_served : ∀ (qs : List Query) {g : Registry},
    (∀ k ∈ g.selection, k.2 < 10 ^ Text.maxDigits) →
    ∀ k ∈ (g.served qs).selection, k.2 < 10 ^ Text.maxDigits
  | [], _, h => h
  | q :: qs, _, h => writable_served qs (writable_serve h q)

/-- What is left of a selection when the admission of some keys has been asked for, and what has run. -/
theorem served_enrolls : ∀ (ks : List Key) {g : Registry}, g.selective = true →
    (∀ k, k ∈ (g.served (ks.map .enroll)).selection ↔ k ∈ g.selection ∧ k ∉ ks) ∧
    ∀ k, k ∈ (g.served (ks.map .enroll)).haveRun ↔ k ∈ g.haveRun ∨ k ∈ g.selection ∧ k ∈ ks
  | [], _, _ => by simp [served]
  | j :: ks, g, hs => by
    obtain ⟨hleft, hrun⟩ := served_enrolls ks (g := (g.enroll j).2) (selective_enroll.trans hs)
    have hcons : g.served ((j :: ks).map .enroll) = (g.enroll j).2.served (ks.map .enroll) := rfl
    rw [hcons]
    refine ⟨fun k => ?_, fun k => ?_⟩
    · rw [hleft, keys_enroll hs, List.mem_cons, not_or, and_assoc]
    · have hselected : g.isSelected j = true ↔ j ∈ g.selection := by simp [isSelected, hs]
      rw [hrun, keys_enroll hs, mem_haveRun_enroll, hselected, List.mem_cons]
      by_cases hkj : k = j
      · subst hkj
        simp
      · simp [hkj]

/-- Specifications that are read select their keys. -/
theorem served_selects : ∀ (specs : List String) {g : Registry} {k : Key},
    k ∈ (g.served (specs.map .select)).selection ↔
      k ∈ g.selection ∨ ∃ spec ∈ specs, g.readSpec spec = .ok k
  | [], g, k => by simp [served]
  | spec :: specs, g, k => by
    have hcons : g.served ((spec :: specs).map .select) =
      ((Query.select spec).serve g).2.served (specs.map .select) := rfl
    rw [hcons, served_selects specs, serve_select, List.exists_mem_cons_iff]
    cases hread : g.readSpec spec with
    | error f => simp
    | ok j =>
      -- only the group decides how a specification is read
      have hsame : (g.choose j).readSpec = g.readSpec := rfl
      have hkeys : k ∈ (g.choose j).selection ↔ j = k ∨ k ∈ g.selection := by
        rw [eq_comm]
        exact KeySet.mem_insert
      simp only [hsame, hkeys, Except.ok.injEq, or_assoc, or_left_comm]

end Registry

/-! ## What requests ask of a registry -/

/-- The key of the test that a request is a call for. -/
def Request.key? : Request → Option Key
  | .run subgroup number _ => match numberOf number with
    | .ok n => some (subgroup, n)
    | .error _ => none
  | _ => none

/-- What a request asks the registry. -/
def Request.query? : Request → Option Registry.Query
  | .select spec => some (.select spec)
  | q => q.key?.map .enroll

namespace Rig

variable {r : Rig} {s : Setup}

/-- A request changes the registry by what it asks of it. -/
theorem registry_moment (r : Rig) (q : Request) :
    (r.moment q).after.registry = r.registry.served q.query?.toList := by
  cases q with
  | run subgroup number body =>
    show (r.run subgroup number body).2.registry = _
    cases hn : numberOf number with
    | error f =>
      simp only [run, Request.query?, Request.key?, hn]
      rfl
    | ok n =>
      simp only [run, Request.query?, Request.key?, hn]
      show (r.runKey (subgroup, n) body).2.registry = (r.registry.enroll (subgroup, n)).2
      unfold runKey
      rcases r.registry.enroll (subgroup, n) with ⟨f | _ | _, g⟩
      · rfl
      · rfl
      · simp only [tally_snd]
  | select spec =>
    show (r.select spec).2.registry = ((Registry.Query.select spec).serve r.registry).2
    unfold select
    rw [Registry.serve_select]
    unfold Registry.select
    cases r.registry.readSpec spec <;> rfl
  | close =>
    show r.close.registry = r.registry
    unfold close
    split <;> rfl
  | _ => rfl

theorem registry_served : ∀ (qs : List Request) (r : Rig),
    (r.served qs).registry = r.registry.served (qs.filterMap Request.query?)
  | [], _ => rfl
  | q :: qs, r => by
    have hcons : r.served (q :: qs) = (r.moment q).after.served qs := rfl
    rw [hcons, registry_served qs, registry_moment, List.filterMap_cons]
    cases q.query? <;> rfl

/-- Words that select tests are specifications that are read. -/
theorem served_of_selectTests : ∀ {ws : List Options.Word} {g g' : Registry},
    selectTests g ws = .ok g' → ∃ specs : List String, ws = specs.map some ∧
      g' = g.served (specs.map .select) ∧ (g'.selective = true ↔ g.selective = true ∨ specs ≠ [])
  | [], g, g', h => by
    cases h
    exact ⟨[], rfl, rfl, by simp⟩
  | none :: ws, g, g', h => by cases h
  | some spec :: ws, g, g', h => by
    simp only [selectTests, Registry.select] at h
    obtain ⟨k, hread⟩ : ∃ k, g.readSpec spec = .ok k := by
      cases hread : g.readSpec spec with
      | ok k => exact ⟨k, rfl⟩
      | error f => simp [hread] at h
    simp only [hread] at h
    obtain ⟨specs, rfl, rfl, hsel⟩ := served_of_selectTests h
    have hserve : ((Registry.Query.select spec).serve g).2 = g.choose k := by
      rw [Registry.serve_select, hread]
    refine ⟨spec :: specs, rfl, ?_, ?_⟩
    · show _ = ((Registry.Query.select spec).serve g).2.served _
      rw [hserve]
    · rw [hsel]
      simp [Registry.choose]

/-- The tests that have been selected when a rig has been set up. -/
theorem registry_of_set (h : Rig.set s = .ok r) : ∃ specs : List String,
    r.configuration.selection = specs.map some ∧
    r.registry = (Registry.ofGroup s.group).served (specs.map .select) ∧
    (r.registry.selective = true ↔ specs ≠ []) := by
  obtain ⟨c, a, g, j, -, -, hg, -, rfl⟩ := set_eq_ok.mp h
  obtain ⟨specs, hspecs, hreg, hsel⟩ := served_of_selectTests hg
  exact ⟨specs, hspecs, hreg, by simpa [Registry.ofGroup, assemble] using hsel⟩

theorem group_of_set (h : Rig.set s = .ok r) : r.registry.group = s.group := by
  obtain ⟨specs, -, hregistry, -⟩ := registry_of_set h
  rw [hregistry, Registry.group_served]
  rfl

/-- Whatever is asked of a rig, the numbers of its selection can be written. -/
theorem writable_of_set (h : Rig.set s = .ok r) (qs : List Request) :
    ∀ k ∈ (r.served qs).registry.selection, k.2 < 10 ^ Text.maxDigits := by
  obtain ⟨specs, -, hregistry, -⟩ := registry_of_set h
  rw [registry_served, hregistry]
  exact Registry.writable_served _ (Registry.writable_served _ (by simp [Registry.ofGroup]))

/-! ## Closing -/

theorem closed_moment (r : Rig) (q : Request) : (r.moment q).after.closed = true ↔
    r.closed = true ∨ q = .close := by
  cases q with
  | run subgroup number body =>
    have hsame : (r.moment (.run subgroup number body)).after.closed = r.closed := by
      cases ha : r.admitted? subgroup number with
      | none =>
        obtain ⟨v, g, hm, -⟩ := moment_of_not_admitted ha body
        rw [hm]
      | some k =>
        rw [moment_of_admitted ha body, tally_snd]
        rfl
    rw [hsame]
    simp
  | select spec =>
    have hsame : (r.select spec).2.closed = r.closed := by
      unfold select
      rfl
    show (r.select spec).2.closed = true ↔ _
    simp [hsame]
  | close =>
    have hclosed : r.close.closed = true := by
      unfold close
      split
      · assumption
      · rfl
    show r.close.closed = true ↔ _
    simp [hclosed]
  | _ => simp [moment, Request.serve, printSummary, onJournal, pause]

theorem closed_served : ∀ (qs : List Request) {r : Rig}, (r.served qs).closed = true ↔
    r.closed = true ∨ .close ∈ qs
  | [], r => by simp [served]
  | q :: qs, r => by
    have hcons : r.served (q :: qs) = (r.moment q).after.served qs := rfl
    rw [hcons, closed_served qs, closed_moment, List.mem_cons, or_assoc, eq_comm (a := q)]

theorem close_of_closed (h : r.closed = true) : r.close = r := by
  rw [close, if_pos h]

/-- A rig is open until it is closed. -/
theorem closed_of_set (h : Rig.set s = .ok r) {qs : List Request} (hopen : .close ∉ qs) :
    (r.served qs).closed = false := by
  have hnew : r.closed = false := by
    obtain ⟨c, a, g, j, -, -, -, -, rfl⟩ := set_eq_ok.mp h
    rfl
  rw [← Bool.not_eq_true, closed_served, hnew]
  simpa using hopen

/-- **What closing an open rig does**: the tests that did not come are reported, and the log is closed
as it is. -/
theorem close_of_open (hs : r.journal.Settled) (h : r.closed = false) :
    r.close = { r with closed := true, host := r.close.host } ∧
    r.close.journal = { r.journal.enter
      (.aside (r.registry.unrun.map fun t => .line s!"no such test {t.name}")) with log := none } := by
  let texts := r.registry.unrun.map fun t => s!"no such test {t.name}"
  have hclose : r.close =
      { r with closed := true, host := r.host.onJournal fun j => (texts.foldl Journal.error j).close } := by
    rw [close, if_neg (by simp [h])]
    rfl
  refine ⟨by rw [hclose], ?_⟩
  rw [hclose]
  show (texts.foldl Journal.error r.journal).close = _
  rw [Journal.errors_eq_aside texts hs, (Journal.settled_enter hs _).close, List.map_map]
  rfl

/-- Keys that are selected on a command line. -/
def Chosen (group : String) (c : Configuration) (k : Key) : Prop :=
  ∃ spec, some spec ∈ c.selection ∧ (Registry.ofGroup group).readSpec spec = .ok k

/-- A rig whose tests are selected on its command line and nowhere else: of those keys a call uses up
its own, and what has been used up has run. -/
theorem left_of_set {r₀ : Rig} (hset : Rig.set s = .ok r₀) (hsome : r₀.configuration.selection ≠ [])
    {qs : List Request} (hnone : ∀ q ∈ qs, ∀ spec, q ≠ .select spec) (k : Key) :
    let g := (r₀.served qs).registry
    (k ∈ g.selection ↔ Chosen s.group r₀.configuration k ∧ ∀ q ∈ qs, q.key? ≠ some k) ∧
    (k ∈ g.haveRun ↔ Chosen s.group r₀.configuration k ∧ ¬ ∀ q ∈ qs, q.key? ≠ some k) := by
  intro g
  obtain ⟨specs, hspecs, hregistry, hselective⟩ := registry_of_set hset
  have hnotnil : specs ≠ [] := by
    rintro rfl
    exact hsome hspecs
  have hchosen : k ∈ r₀.registry.selection ↔ Chosen s.group r₀.configuration k := by
    rw [hregistry, Registry.served_selects, Chosen, hspecs]
    simp [Registry.ofGroup]
  -- every request that asks the registry asks for the admission of its key
  have hqueries : qs.filterMap Request.query? = (qs.filterMap Request.key?).map .enroll := by
    rw [List.map_filterMap]
    refine List.filterMap_congr fun q hq => ?_
    cases q with
    | select spec => exact absurd rfl (hnone _ hq spec)
    | _ => rfl
  have hserved : g = r₀.registry.served ((qs.filterMap Request.key?).map .enroll) :=
    hqueries ▸ registry_served qs r₀
  have hcalled : k ∉ qs.filterMap Request.key? ↔ ∀ q ∈ qs, q.key? ≠ some k := by simp
  obtain ⟨hleft, hrun⟩ := Registry.served_enrolls (qs.filterMap Request.key?)
    (hselective.mpr hnotnil)
  rw [hserved, hleft, hrun, haveRun_of_set hset, hchosen, hcalled, ← hcalled, not_not]
  simp

/-- **What the first closing of a rig reports**: every test of the selection on a line of its own, in
strictly increasing order, and no other test.  All names can be written, nothing goes to the log or to
any other file, the books stay as they are, and closing again does nothing at any later time.  If tests
are selected on the command line and nowhere else, then those are reported for which no call was made,
and the tests that were reported and those that ran are the selected ones, each in one of the two. -/
theorem close_reports {r₀ : Rig} (hset : Rig.set s = .ok r₀) (qs : List Request)
    (hopen : .close ∉ qs) :
    let r := r₀.served qs
    let reported := r.registry.selection.sorted
    let line := fun k : Key => s!"no such test {(Identity.mk s.group k.1 k.2).name}"
    (∀ k, k ∈ reported ↔ k ∈ r.registry.selection) ∧ reported.Pairwise Key.Precedes ∧
    (∀ k ∈ reported, (Identity.mk s.group k.1 k.2).isWritable) ∧
    r.close.journal.console.items = r.journal.console.items ++ reported.map (fun k => .line (line k)) ∧
    (r.moment .close).shown = String.join (reported.map fun k => line k ++ "\n") ∧
    r.close.journal.console.pending = [] ∧ r.close.journal.disk = r.journal.disk ∧
    r.close.SameBooks { r with closed := true } ∧
    (∀ ps, (r.close.served ps).close = r.close.served ps) ∧
    (r₀.configuration.selection ≠ [] → (∀ q ∈ qs, ∀ spec, q ≠ .select spec) →
      let Asked := Chosen s.group r₀.configuration
      (∀ k, Asked k → (k ∈ reported ↔ ∀ q ∈ qs, q.key? ≠ some k)) ∧
      (∀ k, Asked k ↔ k ∈ reported ∨ k ∈ r.registry.haveRun) ∧
      ∀ k ∈ reported, k ∉ r.registry.haveRun) := by
  intro r reported line
  have hkeeps : r₀.Keeps r := keeps_served_all hset qs
  have hsettled := hkeeps.settled
  have hmem : ∀ k, k ∈ reported ↔ k ∈ r.registry.selection := fun k => Key.mem_sort
  obtain ⟨hclose, hjournal⟩ := close_of_open hsettled (closed_of_set hset hopen)
  have hlines : r.registry.unrun.map (fun t => Chunk.line s!"no such test {t.name}") =
      reported.map fun k => .line (line k) := by
    have hidentity : r.registry.identity = fun k => ⟨s.group, k.1, k.2⟩ := by
      funext k
      rw [Registry.identity, hkeeps.group.trans (group_of_set hset)]
    rw [Registry.unrun, hidentity, List.map_map]
    rfl
  rw [hlines] at hjournal
  have hitems : r.close.journal.console.items =
      r.journal.console.items ++ reported.map fun k => .line (line k) := by
    rw [hjournal]
    exact Journal.items_enter hsettled _
  have hpending : r.close.journal.console.pending = [] := by
    rw [hjournal]
    exact (Journal.settled_enter hsettled _).console
  have hdisk : r.close.journal.disk = r.journal.disk := by
    rw [hjournal]
    exact Journal.disk_aside r.journal _
  refine ⟨hmem, Key.pairwise_sort r.registry.selection.nodup, fun k hk => ?_, hitems, ?_, hpending,
    hdisk, ?_, fun ps => ?_, fun hsome hnone => ?_⟩
  · exact Identity.isWritable_iff.mpr (writable_of_set hset qs k ((hmem k).mp hk))
  · show r.close.journal.textFrom r.journal.console.items.length = _
    rw [Journal.textFrom, hitems, List.drop_left, Chunk.renderAll, List.map_map]
    rfl
  · rw [hclose]
    exact ⟨rfl, rfl, rfl, rfl, rfl⟩
  · refine close_of_closed (closed_served ps |>.mpr (Or.inl ?_))
    rw [hclose]
  · have hleft := fun k => (left_of_set hset hsome hnone k).1
    have hrun := fun k => (left_of_set hset hsome hnone k).2
    refine ⟨fun k hk => ?_, fun k => ?_, fun k hk => ?_⟩
    · rw [hmem, hleft]
      exact and_iff_right hk
    · rw [hmem, hleft, hrun, ← and_or_left]
      exact (and_iff_left (em _)).symm
    · rw [hrun]
      exact fun h => h.2 ((hleft k).mp ((hmem k).mp hk)).2

/-- Of three selected tests one came, and the other two are reported. -/
theorem close_reports_two :
    let S : Setup := .bare ["t", "-r", "s.10", "-r", "a.b.1", "-r", "g.s.2", "-r", " s. 2 "]
    let qs : List Request := [.run "s" (.int 10) fun _ => .returned]
    ∃ r₀, Rig.set S = .ok r₀ ∧ (r₀.served qs).registry.selection.sorted = [("a.b", 1), ("s", 2)] ∧
      ((r₀.served qs).moment .close).shown = "no such test g.a.b.1\nno such test g.s.2\n" := by
  intro S qs
  obtain ⟨r₀, hset, hkeys⟩ := exists_set (s := S)
    (p := fun r => (r.served qs).registry.selection.keys = [("s", 2), ("a.b", 1)])
    (by decide +kernel)
  have hsorted : (r₀.served qs).registry.selection.sorted = [("a.b", 1), ("s", 2)] := by
    have hafter : Key.notAfter ("s", 2) ("a.b", 1) = false := by decide +kernel
    rw [KeySet.sorted, hkeys, Key.sort]
    simp [List.mergeSort, List.MergeSort.Internal.splitInTwo, hafter]
  obtain ⟨-, -, -, -, hshown, -⟩ := close_reports hset qs (by simp [qs])
  refine ⟨r₀, hset, hsorted, ?_⟩
  rw [hshown, hsorted]
  decide +kernel

end Rig

end TestRig
