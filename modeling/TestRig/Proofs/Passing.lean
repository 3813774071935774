import TestRig.Invocation
import TestRig.Proofs.Marking
import TestRig.Proofs.Reinvocation

/-!
# TestRig.Proofs.Passing — options that are passed on

The command that runs a suite has options of its own in front of the suite.  Every word of a command
line is marked with these options in mind, but what stands behind the suite is passed on as it is.

* `Options.Grammar.Parted`: the first three characters of a name tell which one it is.  In such a
  grammar few words are ambiguous (`Options.exists_mark`).
* `Options.read_stopping`: reading ends at the first value.
* `Invocation.Choice`: an option of the command, `Invocation.given` what a command line with options, a
  suite and further words asks for.
* `Invocation.ofArgv_passes`: how such a command line is read, and the one that is written for a test.
-/

namespace TestRig

namespace Options

variable {α : Type} {g : Grammar α} {w : String}

/-! ## Words that can be marked -/

/-- Names are told apart by their first three characters. -/
def Grammar.Parted (g : Grammar α) : Prop := (g.names.map fun p => p.1.take 3).Nodup

/-- The word does not begin with two dashes and an equals sign. -/
def IsClear (w : String) : Prop := ¬ ['-', '-', '='] <+: w.toList

instance (w : String) : Decidable (IsClear w) := inferInstanceAs (Decidable (¬ _))

theorem length_longCandidates_le_one (hp : g.Parted) {c : Char} {r : List Char} (hc : c ≠ '=') :
    (longCandidates g ('-' :: '-' :: c :: r)).length ≤ 1 := by
  have hone : ∀ (r' : List Char) (j : Option (List Char)), (g.names.filterMap fun p =>
      if ('-' :: '-' :: c :: r').isPrefixOf p.1 then some (p.1, p.2, j) else none).length ≤ 1 := by
    intro r' j
    refine length_filterMap_le_one hp (k := ['-', '-', c]) fun q _ hq => ?_
    by_cases hbegins : '-' :: '-' :: c :: r' <+: q.1
    · obtain ⟨t, ht⟩ := hbegins
      rw [← ht]
      rfl
    · simp [hbegins] at hq
  have hdash : ('-' : Char) ≠ '=' := by decide
  unfold longCandidates
  cases hcut : Text.cutFirst '=' r with
  | none =>
    simp only [Text.cutFirst, hdash, hc, if_false, hcut, Option.map_none]
    exact hone _ _
  | some p =>
    simp only [Text.cutFirst, hdash, hc, if_false, hcut, Option.map_some]
    exact hone _ _

theorem length_shortCandidates_le_one (hg : g.Proper) {c : Char} {r : List Char} (hc : c ≠ '-') :
    (shortCandidates g ('-' :: c :: r)).length ≤ 1 := by
  refine length_filterMap_le_one hg.distinct (k := ['-', c]) fun q hq hsome => ?_
  by_cases htake : q.1 = ['-', c]
  · exact htake
  · have hbegins : '-' :: c :: r <+: q.1 := by simpa [htake] using hsome
    exact (eq_of_begins (hg.proper _ hq) hc hbegins).1

/-- A word that has one meaning at most can be marked. -/
theorem exists_markDashed {word : List Char} (h : (if (word.drop 1).head? == some '-'
      then longCandidates g word else shortCandidates g word).length ≤ 1) :
    ∃ m, markDashed g word = .ok m := by
  unfold markDashed
  cases spelled? g word with
  | some m => exact ⟨m, rfl⟩
  | none =>
    dsimp only
    split
    · exact ⟨_, rfl⟩
    · exact ⟨_, rfl⟩
    · rename_i hmany hsome
      match hcands : (if _ then longCandidates g word else _), h with
      | [], _ => exact absurd hcands hsome
      | [p], _ => exact absurd hcands (hmany _ _ _)

/-- A word is not ambiguous, unless it begins all long names. -/
theorem exists_mark (hg : g.Proper) (hp : g.Parted) (hw : IsClear w) :
    ∃ m, mark g (some w) = .ok m := by
  unfold mark
  dsimp only
  split
  · exact ⟨_, rfl⟩
  · rename_i c r hsep hcs
    refine exists_markDashed ?_
    by_cases hc : c = '-'
    · subst hc
      obtain ⟨d, r, rfl⟩ := List.exists_cons_of_ne_nil fun hr => hsep rfl hr
      have hd : d ≠ '=' := by
        rintro rfl
        exact hw (by rw [hcs]; exact ⟨r, rfl⟩)
      exact length_longCandidates_le_one hp hd
    · rw [if_neg (by simpa using hc)]
      exact length_shortCandidates_le_one hg hc
  · exact ⟨_, rfl⟩

theorem exists_markAll (hg : g.Proper) (hp : g.Parted) : ∀ {ws : List String},
    (∀ w ∈ ws.takeWhile (· ≠ "--"), IsClear w) → ∃ M, markAll g (ws.map some) = .ok M
  | [], _ => ⟨[], rfl⟩
  | w :: ws, h => by
    by_cases hsep : w = "--"
    · subst hsep
      exact ⟨_, markAll_cons_eq_ok.mpr ⟨.separator, rfl, Or.inl ⟨rfl, rfl⟩⟩⟩
    · rw [List.takeWhile_cons_of_pos (by simpa using hsep)] at h
      obtain ⟨m, hm⟩ := exists_mark hg hp (h w List.mem_cons_self)
      obtain ⟨M, hM⟩ := exists_markAll hg hp fun v hv => h v (List.mem_cons_of_mem w hv)
      by_cases hms : m = .separator
      · exact ⟨_, markAll_cons_eq_ok.mpr ⟨m, hm, Or.inl ⟨hms, rfl⟩⟩⟩
      · exact ⟨_, markAll_cons_eq_ok.mpr ⟨m, hm, Or.inr ⟨hms, M, hM, rfl⟩⟩⟩

/-! ## Reading up to a value -/

theorem map_fst_of_markAll : ∀ {ws : List Word} {M : List (Marked α)}, markAll g ws = .ok M →
    M.map Prod.fst = ws
  | [], _, h => by
    cases h
    rfl
  | w :: ws, M, h => by
    obtain ⟨m, -, ⟨rfl, rfl⟩ | ⟨-, M', hM', rfl⟩⟩ := markAll_cons_eq_ok.mp h
    · simp [Function.comp_def]
    · rw [List.map_cons, map_fst_of_markAll hM']

/-- Reading ends at a value, and the words from there on are kept as they are. -/
theorem read_stopping {v : Word} {vs : List Word} {M : List (Marked α)} (hv : mark g v = .ok .value)
    (hM : markAll g vs = .ok M) : read g true (v :: vs) = { rest := v :: vs } := by
  have hall : markAll g (v :: vs) = .ok ((v, .value) :: M) := by
    rw [markAll_value hv, hM]
    rfl
  simp only [read, hall, readMarked, if_true, map_fst_of_markAll hM]

end Options

namespace Invocation

open TestRig.Configuration (Undashed)
open Options (Spells Word)

variable {suite : String} {rest : List String}

theorem proper_grammar : Options.Grammar.Proper grammar := ⟨by decide +kernel, by decide +kernel⟩

theorem parted_grammar : Options.Grammar.Parted grammar := by
  unfold Options.Grammar.Parted
  decide +kernel

/-! ## The options of the command -/

/-- An option in front of the suite. -/
inductive Choice
  | noSummary
  | group (name : String) (h : Undashed name)

namespace Choice

def words : Choice → List String
  | noSummary => ["--no-summary"]
  | group name _ => ["--group", name]

def isQuiet : Choice → Bool
  | noSummary => true
  | group _ _ => false

def group? : Choice → Option String
  | noSummary => none
  | group name _ => some name

def act (i : Invocation) : Choice → Invocation
  | noSummary => { i with summary := false }
  | group name _ => { i with group := some (some name) }

end Choice

/-- The words behind the suite as they are passed on: a separator directly behind it is dropped. -/
def passedOn (ws : List String) : List String := if ws.head? = some "--" then ws.tail else ws

/-- What options, a suite and further words ask for: the last group that is given, a summary if no
option is against it, and the further words. -/
def given (cs : List Choice) (suite : String) (rest : List String) : Invocation where
  group := (cs.filterMap Choice.group?).getLast?.map some
  summary := !cs.any Choice.isQuiet
  suite
  options := passedOn rest

theorem foldl_act : ∀ (cs : List Choice) (i : Invocation), cs.foldl Choice.act i =
    { i with
      group := ((cs.filterMap Choice.group?).getLast?.map some).or i.group
      summary := i.summary && !cs.any Choice.isQuiet }
  | [], i => by simp
  | c :: cs, i => by
    rw [List.foldl_cons, foldl_act cs]
    cases c with
    | noSummary => simp [Choice.act, Choice.group?, Choice.isQuiet]
    | group name h =>
      have hlast : ((Choice.group name h :: cs).filterMap Choice.group?).getLast? =
          some ((cs.filterMap Choice.group?).getLast?.getD name) := List.getLast?_cons
      rw [hlast]
      cases (cs.filterMap Choice.group?).getLast? <;> simp [Choice.act, Choice.isQuiet]

/-- The options are read as what they do. -/
theorem spells_words : ∀ cs : List Choice, ∃ us,
    Spells grammar ((cs.flatMap Choice.words).map some) us ∧
    ∀ i, us.foldlM apply i = .ok (cs.foldl Choice.act i)
  | [] => ⟨[], Spells.nil, fun i => rfl⟩
  | c :: cs => by
    obtain ⟨us, hspells, hact⟩ := spells_words cs
    have hfirst : ∃ u, Spells grammar (c.words.map some) [u] ∧
        ∀ i, apply i u = .ok (Choice.act i c) := by
      cases c with
      | noSummary => exact ⟨_, Spells.flag (w := some "--no-summary") rfl rfl, fun i => rfl⟩
      | group name h =>
        exact ⟨_, Spells.valued (w := some "--group") rfl rfl (h.mark grammar), fun i => rfl⟩
    obtain ⟨u, hu, hone⟩ := hfirst
    refine ⟨u :: us, ?_, fun i => ?_⟩
    · rw [List.flatMap_cons, List.map_append]
      exact hu.append hspells
    · rw [List.foldlM_cons, hone]
      exact hact _

/-! ## The suite and what is behind it -/

theorem takeSuite_passedOn (i : Invocation) (hsuite : Undashed suite) (rest : List String) :
    i.takeSuite (some suite :: rest.map some) = some { i with suite, options := passedOn rest } := by
  have hne : (some suite : Word) ≠ separator := by
    intro h
    rw [Option.some.inj h] at hsuite
    exact hsuite rfl
  have hhead : (rest.map some).head? = some separator ↔ rest.head? = some "--" := by
    simp [separator]
  simp only [takeSuite, passedOn, if_neg hne, hhead]
  split <;> simp [Function.comp_def]

theorem ofArgv_of_read {argv : List String} {us : List (Options.Use Setting)} {ws : List Word}
    {i j : Invocation} (hread : Options.read grammar true (argv.map some) = { uses := us, rest := ws })
    (hact : us.foldlM apply {} = .ok i) (hsuite : i.takeSuite ws = some j) : ofArgv argv = .ok j := by
  unfold ofArgv Options.Reading.act
  simp only [hread, hact, bind, Except.bind, pure, Except.pure, hsuite, List.isEmpty_nil, if_true]

/-- The options in front do what they do, and what stands behind the suite is passed on. -/
theorem ofArgv_given (cs : List Choice) (hsuite : Undashed suite)
    (hrest : ∀ w ∈ rest.takeWhile (· ≠ "--"), Options.IsClear w) :
    ofArgv (cs.flatMap Choice.words ++ suite :: rest) = .ok (given cs suite rest) := by
  obtain ⟨us, hspells, hact⟩ := spells_words cs
  obtain ⟨M, hM⟩ := Options.exists_markAll proper_grammar parted_grammar hrest
  have hstop := Options.read_stopping (hsuite.mark grammar) hM
  rcases hspells.read_append true (some suite :: rest.map some) with ⟨m, hfault, -⟩ | hread
  · rw [hstop] at hfault
    cases hfault
  · rw [hstop] at hread
    simp only [Options.Reading.withUses, List.append_nil] at hread
    rw [← List.map_cons, ← List.map_append] at hread
    refine ofArgv_of_read hread (hact _) ?_
    rw [List.map_cons, takeSuite_passedOn _ hsuite, foldl_act]
    simp [given]

/-- The options for a test begin with an option, so no separator is dropped. -/
theorem passedOn_childArgv {cfg : Configuration} {test : Identity}
    (h : cfg.childArgv test = rest.map some) : passedOn rest = rest := by
  have hhead : (cfg.childArgv test).head? ≠ some (some "--") := by
    unfold Configuration.childArgv
    cases cfg.logFile <;> cases cfg.arguments <;> simp
  refine if_neg fun hsep => hhead ?_
  rw [h, List.head?_map, hsep]
  rfl

/-- **A command line with a suite**: what stands behind the suite is passed on as it is, whatever it
looks like, and the options in front of it do what they do.  So the command that is written for a test is
read as the same group and suite, and the options for the test are passed on; the three words in front of
it start the interpreter. -/
theorem ofArgv_passes (cs : List Choice) (hsuite : Undashed suite)
    (hrest : ∀ w ∈ rest.takeWhile (· ≠ "--"), Options.IsClear w) :
    ofArgv (cs.flatMap Choice.words ++ suite :: rest) = .ok (given cs suite rest) ∧
    ∀ (cfg : Configuration) (test : Identity) (i : Invocation) (interpreter group : String),
      Undashed group → i.suite = suite → cfg.childArgv test = rest.map some →
      ofArgv ((i.command interpreter group ++ rest).drop 3) =
        .ok { group := some (some group), summary := false, suite, options := rest } := by
  refine ⟨ofArgv_given cs hsuite hrest, ?_⟩
  rintro cfg test i interpreter group hgroup rfl hchild
  have hread := ofArgv_given [.group group hgroup, .noSummary] hsuite hrest
  rw [given, passedOn_childArgv hchild] at hread
  exact hread

/-- A command line whose further words look like options of the command, and the one for a test. -/
theorem ofArgv_passes_words :
    ofArgv ["--group", "g", "--no-summary", "--group", "h", "a.py", "--", "--version", "--", "--=x"] =
      .ok ⟨some (some "h"), false, "a.py", ["--version", "--", "--=x"]⟩ ∧
    ofArgv ["--group", "g", "--no-summary", "a.py", "-t", "5000", "-d", "--no-prefix", "-r", "g.s.1"] =
      .ok ⟨some (some "g"), false, "a.py", ["-t", "5000", "-d", "--no-prefix", "-r", "g.s.1"]⟩ := by
  have hg : Undashed "g" := by decide
  have hsuite : Undashed "a.py" := by decide
  constructor
  · have hrest : ∀ w ∈ ["--", "--version", "--", "--=x"].takeWhile (· ≠ "--"), Options.IsClear w := by
      decide
    exact (ofArgv_passes [.group "g" hg, .noSummary, .group "h" (by decide)] hsuite hrest).1
  · have hrest : ∀ w ∈ ["-t", "5000", "-d", "--no-prefix", "-r", "g.s.1"].takeWhile (· ≠ "--"),
        Options.IsClear w := by decide
    have hchild : Configuration.childArgv { program := Path.ofString "a.py" } ⟨"g", "s", 1⟩ =
        ["-t", "5000", "-d", "--no-prefix", "-r", "g.s.1"].map some := by decide +kernel
    exact (ofArgv_passes [] hsuite hrest).2 _ _ { suite := "a.py" } "python" "g" hg rfl hchild

end Invocation

end TestRig
