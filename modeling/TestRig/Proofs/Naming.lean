import Mathlib.Data.List.Nodup
import TestRig.Proofs.Closing
import TestRig.Proofs.Selection
import TestRig.Proofs.Writing

/-!
# TestRig.Proofs.Naming — every line names another test

A line about a test begins with the test's name.  Groups and subgroups may hold dots and digits, but a
number holds no dot, so a name says where its number begins; and no key is admitted twice.

* `Text.natChars_injective`, `Identity.name_inj`: numbers and names of one group are told apart.
* `Rig.mem_haveRun_moment`: a key has run when it has been admitted.
* `Moment.opening_chunks`: the names that are written at a moment.
* `Rig.names_differ`: the names that a session writes are those of the keys it admits, all different.
-/

namespace TestRig

open Journal (Entry Other)

/-! ## Names of one group -/

theorem Text.natChars_injective {m n : Nat} (h : natChars m = natChars n) : m = n := by
  have hread : ∀ n, (natChars n).mapM decimal? = some (digits 10 n) := fun n =>
    mapM_decimal_digitChar (digits_lt (by decide))
  have hdigits := hread m
  rw [h, hread n] at hdigits
  exact (digits_injective 10 (Option.some.inj hdigits)).symm

/-- The number begins behind the last dot of a name, and the subgroup lies between that and the group. -/
theorem Identity.name_inj {group : String} {j k : Key} :
    (Identity.mk group j.1 j.2).name = (Identity.mk group k.1 k.2).name ↔ j = k := by
  refine ⟨fun h => ?_, fun h => h ▸ rfl⟩
  have hdot : ∀ n, '.' ∉ Text.natChars n := fun n hn => (Text.natChars_spec hn).2.2 rfl
  have hcut := congrArg (Text.cutLast '.' ·.toList) h
  simp only [Registry.nameChars_eq, Text.cutLast_append (hdot _), Option.some.injEq,
    Prod.mk.injEq] at hcut
  obtain ⟨hname, hnumber⟩ := hcut
  have hsubgroup : j.1.toList = k.1.toList := List.cons_injective (List.append_cancel_left hname)
  exact Prod.ext (String.toList_injective hsubgroup) (Text.natChars_injective hnumber)

/-! ## Keys that are admitted -/

namespace Rig

variable {r : Rig} {q : Request} {k : Key}

/-- A key has run from the moment at which it is admitted. -/
theorem mem_haveRun_moment : k ∈ (r.moment q).after.registry.haveRun ↔
    k ∈ r.registry.haveRun ∨ (r.moment q).admitted? = some k := by
  cases q with
  | run subgroup number body =>
    show _ ↔ _ ∨ r.admitted? subgroup number = some k
    cases ha : r.admitted? subgroup number with
    | none =>
      obtain ⟨v, g, hm, hg, -⟩ := moment_of_not_admitted ha body
      rw [hm, hg]
      simp
    | some j =>
      rw [moment_of_admitted ha body, tally_snd]
      simp [enter, Registry.record, or_comm, eq_comm]
  | select spec =>
    rw [registry_moment]
    show k ∈ ((Registry.Query.select spec).serve r.registry).2.haveRun ↔ _
    rw [Registry.serve_select]
    cases r.registry.readSpec spec <;> simp [Registry.choose, Moment.admitted?, Rig.moment]
  | _ =>
    rw [registry_moment]
    show k ∈ r.registry.haveRun ↔ _ ∨ none = some k
    simp

/-- A key that is admitted has not run before. -/
theorem not_mem_haveRun (h : (r.moment q).admitted? = some k) : k ∉ r.registry.haveRun := by
  obtain ⟨subgroup, number, body, rfl, ha⟩ := run_of_admitted? h
  exact (admitted?_eq_some.mp ha).2.2.2

/-- No key is admitted twice, nor one that has run before. -/
theorem nodup_admitted : ∀ (qs : List Request) (r : Rig),
    ((r.session qs).filterMap Moment.admitted?).Nodup ∧
    ∀ k ∈ (r.session qs).filterMap Moment.admitted?, k ∉ r.registry.haveRun
  | [], _ => by simp [session]
  | q :: qs, r => by
    obtain ⟨hnodup, hnew⟩ := nodup_admitted qs (r.moment q).after
    rw [session, List.filterMap_cons]
    have hlater : ∀ k ∈ ((r.moment q).after.session qs).filterMap Moment.admitted?,
        k ∉ r.registry.haveRun ∧ (r.moment q).admitted? ≠ some k := by
      intro k hk
      simpa only [mem_haveRun_moment, not_or] using hnew k hk
    cases hq : (r.moment q).admitted? with
    | none => exact ⟨hnodup, fun k hk => (hlater k hk).1⟩
    | some j =>
      refine ⟨List.nodup_cons.mpr ⟨fun hj => (hlater j hj).2 hq, hnodup⟩, fun k hk => ?_⟩
      rcases List.mem_cons.mp hk with rfl | hk
      · exact not_mem_haveRun hq
      · exact (hlater k hk).1

end Rig

/-! ## Names that are written -/

/-- The text that begins a line about a test. -/
def Chunk.opening? : Chunk → Option String
  | .text s => if s = "\n" then none else some s
  | _ => none

/-- The test whose name an entry writes. -/
def Journal.Entry.named? : Entry → Option Identity
  | .name test => some test
  | _ => none

namespace Journal

/-- What the line about a test begins with. -/
def opening (test : Identity) : String := test.name ++ ": "

theorem opening_of_aside {c : Chunk} (h : c.IsAside) : c.opening? = none := by
  cases c with
  | line s | tally color s => rfl
  | _ => exact h.elim

theorem opening_of_outcome {c : Chunk} (h : c.IsOutcome) : c.opening? = none := by
  obtain ⟨b, -, rfl⟩ := h
  rfl

/-- Of what is properly written only the name of a test is an opening. -/
theorem opening_chunks (verbose : Bool) {loc : Option Location} : ∀ {e : Entry}, e.Proper loc →
    (e.chunks verbose).filterMap Chunk.opening? = (e.named?.map opening).toList
  | .name test, _ => by
    have hlong : opening test ≠ "\n" := by
      intro h
      have hlen := congrArg String.length h
      have hcolon : ": ".length = 2 := rfl
      have hone : "\n".length = 1 := rfl
      rw [opening, String.length_append] at hlen
      omega
    show List.filterMap Chunk.opening? [.text (opening test)] = [opening test]
    simp [Chunk.opening?, hlong]
  | .outcome _, _ | .blank, _ => rfl
  | .note s, _ => by cases verbose <;> rfl
  | .aside cs, h => List.filterMap_eq_nil_iff.mpr fun c hc => opening_of_aside (h c hc)
  | .other (.showed cs), h => List.filterMap_eq_nil_iff.mpr fun c hc => opening_of_outcome (h c hc)
  | .other (.took _), _ | .other (.tookLog _), _ | .other (.appended _ _), _ => rfl

theorem opening_flatMap (verbose : Bool) {loc : Option Location} {es : List Entry}
    (h : ∀ e ∈ es, e.Proper loc) :
    (es.flatMap (Entry.chunks verbose)).filterMap Chunk.opening? =
      (es.filterMap Entry.named?).map opening := by
  rw [List.filterMap_flatMap, List.map_filterMap, List.filterMap_eq_flatMap_toList]
  exact List.flatMap_congr fun e he => opening_chunks verbose (h e he)

theorem named_others (os : List Other) : (os.map Entry.other).filterMap Entry.named? = [] := by
  rw [List.filterMap_map]
  exact List.filterMap_eq_nil_iff.mpr fun _ _ => rfl

/-- Reports name no test. -/
theorem named_reports {es : List Entry} (h : ∀ e ∈ es, e.IsReport) : es.filterMap Entry.named? = [] :=
  List.filterMap_eq_nil_iff.mpr fun e he => by cases h e he <;> rfl

/-- Whatever becomes of a copy, the test is named once. -/
theorem named_fate {own : List Entry} (hown : own.filterMap Entry.named? = []) (test : Identity)
    (pid : Nat) (part : Nat → List Other) (others : List Other) (f : Supervision.Fate) :
    (f.entries test pid own part others).filterMap Entry.named? = [test] := by
  have htold : (f.told own part).filterMap Entry.named? = [] := by
    rcases f.told_cases own part with heq | heq | ⟨n, heq⟩ <;> rw [heq]
    · rfl
    · exact hown
    · exact named_others (part n)
  have hclosing := named_reports (f.closing_reports test pid)
  unfold Supervision.Fate.entries
  rw [List.filterMap_append, List.filterMap_append, List.filterMap_append, htold, hclosing,
    named_others]
  rfl

end Journal

namespace Rig

/-- The tests of a rig are named where they run: in its own process if names are wanted, or in front of
a copy of it. -/
def NamesTests (r : Rig) : Prop :=
  if r.configuration.direct then r.configuration.named = true else r.strategy = .fork

variable {r : Rig} {test : Identity} {body : Body} {others : List Other} {loc : Option Location}

theorem NamesTests.staysHome (h : r.NamesTests) : r.StaysHome := by
  unfold NamesTests at h
  split at h
  · exact Or.inl ‹_›
  · exact Or.inr h

/-- A test that is begun is named once. -/
theorem NamesTests.wrote (h : r.NamesTests) (hw : test.isWritable = true) :
    (r.wrote test body others).filterMap Entry.named? = [test] := by
  have hown := Journal.named_reports (Classifier.reports r.dumper test (body r.arguments))
  unfold Rig.wrote
  rw [hw]
  unfold NamesTests at h
  cases hd : r.configuration.direct with
  | true =>
    rw [hd, if_pos rfl] at h
    simp only [h, Bool.not_true, Bool.false_eq_true, if_false, if_true, List.filterMap_append]
    rw [Rig.reported, hown]
    rfl
  | false => exact Journal.named_fate hown test _ _ _ _

/-- In the log the name comes first. -/
theorem NamesTests.logged (h : r.NamesTests) (hw : test.isWritable = true) (body : Body)
    (others : List Other) : ∃ rest,
    String.join ((r.wrote test body others).map Entry.logged) = Journal.opening test ++ rest := by
  unfold Rig.wrote
  rw [hw]
  unfold NamesTests at h
  cases hd : r.configuration.direct with
  | true =>
    rw [hd, if_pos rfl] at h
    simp only [h, Bool.not_true, Bool.false_eq_true, if_false, if_true]
    exact ⟨_, String.join_cons⟩
  | false =>
    -- the note in front of the name is not written to the log
    obtain ⟨rest, hrest⟩ : ∃ rest, (r.fate test body).entries test r.host.nextPid (r.reported test body)
        (fun n => (r.copy test body).trace n) others =
          Entry.note s!"running {test.name} in a forked process" :: .name test :: rest := ⟨_, rfl⟩
    refine ⟨String.join (rest.map Entry.logged), ?_⟩
    simp only [Bool.not_true, Bool.false_eq_true, if_false, hrest, List.map_cons, String.join_cons,
      Entry.logged, String.empty_append]
    rfl

/-- What names tests goes on naming them. -/
theorem Keeps.namesTests {r' : Rig} (h : r.Keeps r') (hn : r.NamesTests) : r'.NamesTests := by
  rw [NamesTests, h.configuration, h.strategy]
  exact hn

theorem key?_of_admitted {q : Request} {k : Key} (h : (r.moment q).admitted? = some k) :
    q.key? = some k := by
  obtain ⟨subgroup, number, body, rfl, ha⟩ := run_of_admitted? h
  obtain ⟨hnumber, rfl, -⟩ := admitted?_eq_some.mp ha
  simp only [Request.key?, hnumber]

/-- The names among some chunks. -/
def openings (cs : List Chunk) : List String := cs.filterMap Chunk.opening?

/-- **The names that are written at a moment**: that of the key that is admitted, if one is and its
name can be written. -/
theorem opening_moment (h : r.Homely loc) (hn : r.NamesTests) {q : Request}
    (hq : ∀ k, q.key? = some k → k.2 < 10 ^ Text.maxDigits) :
    openings (r.moment q).after.journal.console.items = openings r.journal.console.items ++
      (r.moment q).admitted?.toList.map fun k => Journal.opening (r.registry.identity k) := by
  cases hadm : (r.moment q).admitted? with
  | none =>
    obtain ⟨es, hidle, henters⟩ := entered_idle h hadm
    have hnone : es.filterMap Entry.named? = [] := by
      refine List.filterMap_eq_nil_iff.mpr fun e he => ?_
      have hidle := hidle e he
      cases e with
      | aside cs => rfl
      | other o => rfl
      | _ => exact hidle.elim
    rw [henters.items h.settled, openings, List.filterMap_append,
      Journal.opening_flatMap _ fun e he => (hidle e he).proper, hnone]
    rfl
  | some k =>
    have hw : (r.registry.identity k).isWritable = true :=
      Identity.isWritable_iff.mpr (hq k (key?_of_admitted hadm))
    obtain ⟨subgroup, number, body, rfl, ha⟩ := run_of_admitted? hadm
    obtain ⟨others, hb, hafter⟩ := entered_test h ha body
    rw [hafter, Journal.items_enterAll h.settled, openings, List.filterMap_append,
      Journal.opening_flatMap _ (h.proper_wrote hb _ body), hn.wrote hw]
    rfl

/-- **The names that a session writes** are those of the keys that it admits, in their order. -/
theorem opening_session : ∀ (qs : List Request) {r : Rig}, r.Homely loc → r.NamesTests →
    (∀ q ∈ qs, ∀ k, q.key? = some k → k.2 < 10 ^ Text.maxDigits) →
    openings (r.served qs).journal.console.items = openings r.journal.console.items ++
      ((r.session qs).filterMap Moment.admitted?).map fun k => Journal.opening (r.registry.identity k)
  | [], _, _, _, _ => (List.append_nil _).symm
  | q :: qs, r, h, hn, hq => by
    have hkeeps := keeps_moment h q
    have hrest := opening_session qs (h.moment q) (hkeeps.namesTests hn)
      fun q' hq' => hq q' (List.mem_cons_of_mem _ hq')
    have hsame : (r.moment q).after.registry.identity = r.registry.identity := by
      funext k
      rw [Registry.identity, Registry.identity, hkeeps.group]
    have hserved : r.served (q :: qs) = (r.moment q).after.served qs := rfl
    rw [hserved, hrest, opening_moment h hn (hq q List.mem_cons_self), hsame, session,
      List.filterMap_cons, List.append_assoc]
    cases (r.moment q).admitted? <;> rfl

/-- The line about an admitted test begins with its name, in the log too. -/
theorem logText_moment (h : r.Homely loc) (hn : r.NamesTests) {q : Request} {k : Key}
    (hadm : (r.moment q).admitted? = some k) (hk : k.2 < 10 ^ Text.maxDigits) :
    ∃ rest, (r.moment q).after.journal.logText =
      r.journal.logText.map (· ++ (Journal.opening (r.registry.identity k) ++ rest)) := by
  obtain ⟨subgroup, number, body, rfl, ha⟩ := run_of_admitted? hadm
  have hw : (r.registry.identity k).isWritable = true := Identity.isWritable_iff.mpr hk
  obtain ⟨others, hb, hafter⟩ := entered_test h ha body
  obtain ⟨rest, hrest⟩ := hn.logged hw body others
  refine ⟨rest, ?_⟩
  rw [hafter, Journal.logText_enterAll h.settled (h.fits_wrote hb _ body), hrest]

/-- **All names differ.**  A rig names its tests in front of their outcomes.  In a session whose numbers
can be written the names on the console are those of the admitted keys, in their order; no key is
admitted twice, keys of one group have different names, and so all these names differ.  What is added
to the log about a test begins with its name as well. -/
theorem names_differ {s : Setup} {r₀ : Rig} (hset : Rig.set s = .ok r₀) (hn : r₀.NamesTests)
    (qs : List Request) (hq : ∀ q ∈ qs, ∀ k, q.key? = some k → k.2 < 10 ^ Text.maxDigits) :
    let admitted := (r₀.session qs).filterMap Moment.admitted?
    let name := fun k : Key => (Identity.mk s.group k.1 k.2).name
    (r₀.served qs).journal.console.items.filterMap Chunk.opening? = admitted.map (name · ++ ": ") ∧
    admitted.Nodup ∧ (∀ j k, name j = name k → j = k) ∧ (admitted.map (name · ++ ": ")).Nodup ∧
    ∀ m ∈ r₀.session qs, ∀ k, m.admitted? = some k → ∃ rest,
      m.after.journal.logText = m.before.journal.logText.map (· ++ (name k ++ ": " ++ rest)) := by
  intro admitted name
  have hfresh := fresh_of_set hset
  have hhomely := hfresh.homely hn.staysHome
  have hgroup := group_of_set hset
  have hopening : ∀ (r : Rig) k, r.registry.group = s.group →
      Journal.opening (r.registry.identity k) = name k ++ ": " := by
    intro r k hr
    rw [Journal.opening, Registry.identity, hr]
  have hnodup := (nodup_admitted qs r₀).1
  have hinjective : ∀ j k, name j = name k → j = k := fun j k => Identity.name_inj.mp
  refine ⟨?_, hnodup, hinjective, ?_, ?_⟩
  · have hnames := opening_session qs hhomely hn hq
    rw [hfresh.console] at hnames
    exact hnames.trans (List.map_congr_left fun k _ => hopening r₀ k hgroup)
  · exact List.Nodup.map (fun j k h => hinjective j k ((String.append_left_inj _).mp h)) hnodup
  · refine forall_mem_session (I := fun r => r.NamesTests ∧
      r.Homely (r₀.journal.log.map (·.location)) ∧ r.registry.group = s.group) ?_ ?_ qs r₀
      ⟨hn, hhomely, hgroup⟩ hq
    · rintro r q ⟨hn, hh, hg⟩ hq k hadm
      have hlog := logText_moment hh hn hadm (hq k (key?_of_admitted hadm))
      rw [hopening r k hg] at hlog
      exact hlog
    · rintro r q ⟨hn, hh, hg⟩ -
      have hkeeps := keeps_moment hh q
      exact ⟨hkeeps.namesTests hn, hh.moment q, hkeeps.group.trans hg⟩

/-- Two tests whose names differ in the place of a dot, of which one is asked for twice. -/
theorem names_differ_two :
    let test := fun subgroup number => Request.run subgroup (.int number) fun _ => .returned
    let qs := [test "1.1" 2, test "1" 12, test "1.1" 2]
    ∃ r₀, Rig.set (.bare ["t"]) = .ok r₀ ∧
      (r₀.served qs).journal.console.items.filterMap Chunk.opening? = ["g.1.1.2: ", "g.1.12: "] := by
  intro test qs
  obtain ⟨r₀, hset, hdirect, hfork, hadmitted⟩ := exists_set (s := .bare ["t"])
    (p := fun r => r.configuration.direct = false ∧ r.strategy = .fork ∧
      (r.session qs).filterMap Moment.admitted? = [("1.1", 2), ("1", 12)]) (by decide +kernel)
  have hn : r₀.NamesTests := by
    simp [NamesTests, hdirect, hfork]
  have hsmall : ∀ n ≤ 12, n < 10 ^ Text.maxDigits := fun n hle =>
    Nat.lt_of_le_of_lt hle (Nat.lt_of_lt_of_le (by decide : 12 < 10 ^ 2)
      (Nat.pow_le_pow_right (by decide) (by decide)))
  have hq : ∀ q ∈ qs, ∀ k, q.key? = some k → k.2 < 10 ^ Text.maxDigits := by
    intro q hmem k hk
    simp only [qs, test, List.mem_cons, List.not_mem_nil, or_false] at hmem
    obtain rfl | rfl | rfl := hmem <;> cases hk <;> exact hsmall _ (by decide)
  obtain ⟨hnames, -⟩ := names_differ hset hn qs hq
  refine ⟨r₀, hset, hnames.trans ?_⟩
  rw [hadmitted]
  decide +kernel

end Rig

end TestRig
