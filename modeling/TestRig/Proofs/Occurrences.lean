import TestRig.Proofs.Marking
import TestRig.Proofs.Reinvocation

/-!
# TestRig.Proofs.Occurrences — options in every spelling

A command line says which options are used, in which order and with which values.  How each of them is
written makes no difference, and the order matters within one option only.

* `Occurrence` is an option as it is used once, `Occurrence.act` what it does to a configuration.
* `asked` says field by field what occurrences ask for; `foldl_act` ties it to acting on them in order.
* `Spelling`: the ways to write occurrences as words.
* `Spelling.does`: words that spell occurrences do what these do.
* `ofArgv_spelled`: the configuration that is read from a command line.
-/

namespace TestRig.Configuration

open Options (Denotes Letters Spells Word)

/-! ## Occurrences -/

/-- An option as it is used once, with a value that the option accepts. -/
inductive Occurrence
  | direct
  | spawn
  | verbose
  | unnamed
  | argument (s : String)
  | logFile (s : String) (h : Text.isBlankText s = false)
  | select (s : String) (h : Text.isBlankText s = false)
  | timeout (s : String) (ms : Nat) (h : readTimeout s = .ok ms)

namespace Occurrence

/-- The option that is used. -/
def setting : Occurrence → Setting
  | direct => .direct
  | spawn => .spawn
  | verbose => .verbose
  | unnamed => .unnamed
  | argument _ => .argument
  | logFile _ _ => .logFile
  | select _ _ => .select
  | timeout _ _ _ => .timeout

/-- The text of the value, if the option takes one. -/
def value? : Occurrence → Option String
  | argument s | logFile s _ | select s _ | timeout s _ _ => some s
  | _ => none

/-- The time limit that is given. -/
def limit? : Occurrence → Option Nat
  | timeout _ ms _ => some ms
  | _ => none

def act (c : Configuration) : Occurrence → Configuration
  | direct => { c with direct := true }
  | spawn => { c with spawn := true }
  | verbose => { c with verbose := true }
  | unnamed => { c with named := false }
  | argument s => { c with arguments := c.arguments ++ [some s] }
  | logFile s _ => { c with logFile := some (Path.ofString s) }
  | select s _ => { c with selection := c.selection ++ [some s] }
  | timeout _ ms _ => { c with timeout := some ms }

end Occurrence

variable {o : Occurrence} {os fs : List Occurrence} {ws : List String} {w v : String}
  {u : Word}

/-- The occurrences of one option, in their order. -/
def usesOf (os : List Occurrence) (s : Setting) : List Occurrence := os.filter (·.setting = s)

def occurs (os : List Occurrence) (s : Setting) : Bool := !(usesOf os s).isEmpty

/-- The values of one option, in their order. -/
def valuesOf (os : List Occurrence) (s : Setting) : List String :=
  (usesOf os s).filterMap Occurrence.value?

/-- The time limits that are given, in their order. -/
def limitsOf (os : List Occurrence) : List Nat := (usesOf os .timeout).filterMap Occurrence.limit?

/-- What occurrences ask for: all values of the options that can be repeated, the last values of the
others, and the flags that occur. -/
def asked (program : Path) (os : List Occurrence) : Configuration where
  program
  logFile := (valuesOf os .logFile).getLast?.map Path.ofString
  direct := occurs os .direct
  timeout := some ((limitsOf os).getLast?.getD defaultTimeout)
  selection := (valuesOf os .select).map some
  arguments := (valuesOf os .argument).map some
  spawn := occurs os .spawn
  verbose := occurs os .verbose
  named := !occurs os .unnamed

theorem usesOf_concat (os : List Occurrence) (o : Occurrence) (s : Setting) :
    usesOf (os ++ [o]) s = usesOf os s ++ if o.setting = s then [o] else [] := by
  by_cases h : o.setting = s <;> simp [usesOf, h]

/-- Two neighbours of different options can change places. -/
theorem usesOf_swap {o o' : Occurrence} (h : o.setting ≠ o'.setting) (front back : List Occurrence)
    (s : Setting) :
    usesOf (front ++ o' :: o :: back) s = usesOf (front ++ o :: o' :: back) s := by
  by_cases ho : o.setting = s
  · have ho' : ¬ o'.setting = s := fun heq => h (ho.trans heq.symm)
    simp [usesOf, ho, ho']
  · by_cases ho' : o'.setting = s <;> simp [usesOf, ho, ho']

/-- One more occurrence does what it does to what was asked for before. -/
theorem asked_concat (program : Path) (os : List Occurrence) (o : Occurrence) :
    asked program (os ++ [o]) = Occurrence.act (asked program os) o := by
  cases o <;> simp [asked, occurs, valuesOf, limitsOf, usesOf_concat, Occurrence.act,
    Occurrence.setting, Occurrence.value?, Occurrence.limit?, -List.getLast?_filterMap]

/-- Acting on occurrences in order gives what they ask for. -/
theorem foldl_act (program : Path) : ∀ os' os : List Occurrence,
    os.foldl Occurrence.act (asked program os') = asked program (os' ++ os)
  | os', [] => by rw [List.append_nil]; rfl
  | os', o :: os => by
    rw [List.foldl_cons, ← asked_concat, foldl_act program (os' ++ [o]) os, List.append_assoc]
    rfl

/-! ## The grammar -/

theorem proper_grammar : Options.Grammar.Proper grammar := ⟨by decide +kernel, by decide +kernel⟩

theorem apply_occurrence {e : Options.Entry Setting} (he : e.meaning = o.setting)
    (c : Configuration) : apply c ⟨e, o.value?⟩ = .ok (o.act c) := by
  cases o with
  | logFile s h => exact apply_logFile c he h
  | select s h => exact apply_select c he h
  | timeout s ms h => exact apply_timeout c he h
  | _ =>
    simp only [apply, he]
    rfl

/-- An option of the grammar takes a value if its occurrences have one. -/
theorem isValued_of_mem {e : Options.Entry Setting} (h : e ∈ grammar) (he : e.meaning = o.setting) :
    e.isValued = o.value?.isSome := by
  simp only [grammar, List.mem_cons, List.not_mem_nil, or_false] at h
  rcases h with rfl | rfl | rfl | rfl | rfl | rfl | rfl | rfl | rfl <;> cases o <;>
    first | rfl | cases he

theorem mem_grammar_of_names {e : Options.Entry Setting} {n : List Char}
    (h : (n, e) ∈ Options.Grammar.names grammar) : e ∈ grammar := by
  obtain ⟨e', he', hn⟩ := List.mem_flatMap.mp h
  obtain ⟨_, -, heq⟩ := List.mem_map.mp hn
  cases heq
  exact he'

/-! ## Spellings -/

/-- The word is a name of the option that is used, or begins one long name of it and no other name. -/
def Names (o : Occurrence) (w : String) : Prop :=
  ∃ e, e.meaning = o.setting ∧ Denotes grammar e w.toList

theorem exists_name {s : Setting} {n : List Char}
    (h : (Options.Grammar.find? grammar n).map (·.meaning) = some s) :
    ∃ e, e.meaning = s ∧ (n, e) ∈ Options.Grammar.names grammar := by
  obtain ⟨e, hfind, he⟩ := Option.map_eq_some_iff.mp h
  obtain ⟨before, after, hnames, -⟩ := List.lookup_eq_some_iff.mp hfind
  exact ⟨e, he, by simp [hnames]⟩

theorem Names.of_find
    (h : (Options.Grammar.find? grammar w.toList).map (·.meaning) = some o.setting) : Names o w := by
  obtain ⟨e, he, hmem⟩ := exists_name h
  exact ⟨e, he, .name hmem⟩

theorem Names.of_begins {n : List Char}
    (h : (Options.Grammar.find? grammar n).map (·.meaning) = some o.setting)
    (hlong : ∃ c r, w.toList = '-' :: '-' :: c :: r) (hbegins : w.toList <+: n)
    (honly : ∀ p ∈ Options.Grammar.names grammar, w.toList <+: p.1 → p.1 = n) : Names o w := by
  obtain ⟨e, he, hmem⟩ := exists_name h
  exact ⟨e, he, .abbreviation hmem hlong hbegins honly⟩

/-- The letters are short names of these flags. -/
inductive Merged : List Occurrence → List Char → Prop
  | nil : Merged [] []
  | cons {o : Occurrence} {c : Char} {fs : List Occurrence} {cs : List Char}
    (hc : Names o (String.ofList ['-', c])) (ho : o.value? = none) (hrest : Merged fs cs) :
    Merged (o :: fs) (c :: cs)

/-- The ways to write occurrences, one after the other, as words. -/
inductive Spelling : List Occurrence → List String → Prop
  | nil : Spelling [] []
  /-- A flag. -/
  | flag {o : Occurrence} {w : String} {os : List Occurrence} {ws : List String}
    (hw : Names o w) (ho : o.value? = none) (hrest : Spelling os ws) :
    Spelling (o :: os) (w :: ws)
  /-- A value in a word of its own. -/
  | apart {o : Occurrence} {w v : String} {os : List Occurrence} {ws : List String}
    (hw : Names o w) (ho : o.value? = some v) (hv : Undashed v) (hrest : Spelling os ws) :
    Spelling (o :: os) (w :: v :: ws)
  /-- A value behind an equals sign. -/
  | joined {o : Occurrence} {w v : String} {os : List Occurrence} {ws : List String}
    (hw : Names o w) (ho : o.value? = some v) (hv : v ≠ "--") (hrest : Spelling os ws) :
    Spelling (o :: os) ((w ++ "=" ++ v) :: ws)
  /-- A value directly behind a short name. -/
  | attached {o : Occurrence} {c : Char} {v : String} {os : List Occurrence} {ws : List String}
    (hw : Names o (String.ofList ['-', c])) (ho : o.value? = some v) (hempty : v ≠ "")
    (hv : v ≠ "--") (hequals : v.toList.head? ≠ some '=') (hrest : Spelling os ws) :
    Spelling (o :: os) ((String.ofList ['-', c] ++ v) :: ws)
  /-- Flags that are merged into one word. -/
  | merged {fs os : List Occurrence} {cs : List Char} {ws : List String} (hfs : Merged fs cs)
    (hne : fs ≠ []) (hrest : Spelling os ws) :
    Spelling (fs ++ os) (String.ofList ('-' :: cs) :: ws)

/-- One name of the option that is used. -/
def Occurrence.name : Occurrence → String
  | direct => "-d"
  | spawn => "-s"
  | verbose => "-v"
  | unnamed => "--no-prefix"
  | argument _ => "-A"
  | logFile _ _ => "-l"
  | select _ _ => "-r"
  | timeout _ _ _ => "-t"

theorem names_name (o : Occurrence) : Names o o.name := by
  refine Names.of_find ?_
  cases o <;> rw [Occurrence.name] <;> rfl

/-- Occurrences can be written, unless a value is the text that is always dropped. -/
theorem exists_spelling : ∀ {os : List Occurrence}, (∀ o ∈ os, o.value? ≠ some "--") →
    ∃ ws, Spelling os ws
  | [], _ => ⟨[], .nil⟩
  | o :: os, h => by
    obtain ⟨ws, hws⟩ := exists_spelling fun o' ho' => h o' (List.mem_cons_of_mem o ho')
    cases ho : o.value? with
    | none => exact ⟨_, .flag (names_name o) ho hws⟩
    | some v =>
      have hv : v ≠ "--" := fun heq => h o List.mem_cons_self (heq ▸ ho)
      exact ⟨_, .joined (names_name o) ho hv hws⟩

/-! ## What spelled words do -/

theorem Names.entry (h : Names o w) : ∃ e, e.meaning = o.setting ∧ Denotes grammar e w.toList ∧
    e.isValued = o.value?.isSome := by
  obtain ⟨e, he, hd⟩ := h
  have hmem : e ∈ grammar := by
    cases hd with
    | name h => exact mem_grammar_of_names h
    | abbreviation h => exact mem_grammar_of_names h
  exact ⟨e, he, hd, isValued_of_mem hmem he⟩

/-- Words that are read as one use of an option do what the option does. -/
theorem does_of_spells {e : Options.Entry Setting} {vs : List Word} (he : e.meaning = o.setting)
    (ho : o.value? = u) (h : Spells grammar vs [⟨e, u⟩]) : Does vs o.act := by
  subst ho
  refine ⟨_, h, fun c => ?_⟩
  rw [List.foldlM_cons, apply_occurrence he]
  rfl

theorem Names.does_flag (hw : Names o w) (ho : o.value? = none) : Does [some w] o.act := by
  obtain ⟨e, he, hd, hvalued⟩ := hw.entry
  obtain ⟨n, hmark⟩ := hd.mark proper_grammar (j := none) rfl
  rw [ho] at hvalued
  exact does_of_spells he ho (Spells.flag hmark hvalued)

theorem Names.does_apart (hw : Names o w) (ho : o.value? = some v) (hv : Undashed v) :
    Does [some w, some v] o.act := by
  obtain ⟨e, he, hd, hvalued⟩ := hw.entry
  obtain ⟨n, hmark⟩ := hd.mark proper_grammar (j := none) rfl
  rw [ho] at hvalued
  exact does_of_spells he ho (Spells.valued hmark hvalued (hv.mark grammar))

/-- A text that is joined to the word of an option is its value. -/
theorem does_of_mark {e : Options.Entry Setting} {n : List Char} (he : e.meaning = o.setting)
    (hvalued : e.isValued = o.value?.isSome) (ho : o.value? = some v) (hv : v ≠ "--")
    (hmark : Options.mark grammar (some w) = .ok (.option e n (some v.toList))) :
    Does [some w] o.act := by
  have hspells := Spells.joined hmark (by rw [hvalued, ho]; rfl) fun h => hv (String.toList_inj.mp h)
  rw [String.ofList_toList] at hspells
  exact does_of_spells he ho hspells

theorem Names.does_joined (hw : Names o w) (ho : o.value? = some v) (hv : v ≠ "--") :
    Does [some (w ++ "=" ++ v)] o.act := by
  obtain ⟨e, he, hd, hvalued⟩ := hw.entry
  obtain ⟨n, hmark⟩ := hd.mark proper_grammar (w := w ++ "=" ++ v) (j := some v.toList)
    (by simp [Options.withText])
  exact does_of_mark he hvalued ho hv hmark

theorem Names.does_attached {c : Char} (hw : Names o (String.ofList ['-', c]))
    (ho : o.value? = some v) (hempty : v ≠ "") (hv : v ≠ "--")
    (hequals : v.toList.head? ≠ some '=') : Does [some (String.ofList ['-', c] ++ v)] o.act := by
  obtain ⟨e, he, hd, hvalued⟩ := hw.entry
  rw [String.toList_ofList] at hd
  have hmark := proper_grammar.mark_attached hd.mem_names (w := String.ofList ['-', c] ++ v)
    (fun h => hempty (String.toList_eq_nil_iff.mp h)) hequals (by simp)
  exact does_of_mark he hvalued ho hv hmark

/-- Letters of flags are options that do what the flags do. -/
theorem Merged.letters {cs : List Char} (h : Merged fs cs) : ∃ es, Letters grammar es cs ∧
    ∀ c, (es.map fun e => ⟨e, none⟩).foldlM apply c = .ok (fs.foldl Occurrence.act c) := by
  induction h with
  | nil => exact ⟨[], .nil, fun c => rfl⟩
  | @cons o c fs cs hc ho hrest ih =>
    obtain ⟨e, he, hd, hvalued⟩ := hc.entry
    obtain ⟨es, hletters, hact⟩ := ih
    rw [String.toList_ofList] at hd
    rw [ho] at hvalued
    refine ⟨e :: es, .cons hd.mem_names hvalued hletters, fun d => ?_⟩
    have hfirst := apply_occurrence he d
    rw [ho] at hfirst
    rw [List.map_cons, List.foldlM_cons, hfirst]
    exact hact _

/-- Flags that are merged into one word do what they do one after the other. -/
theorem Merged.does {cs : List Char} (h : Merged fs cs) (hne : fs ≠ []) :
    Does [some (String.ofList ('-' :: cs))] fun c => fs.foldl Occurrence.act c := by
  obtain ⟨es, hletters, hact⟩ := h.letters
  have hes : es ≠ [] := by
    rintro rfl
    cases hletters
    cases h
    exact hne rfl
  exact ⟨_, Spells.merged proper_grammar hletters hes (by simp), hact⟩

/-- **Words that spell occurrences** do what these do, one after the other. -/
theorem Spelling.does (h : Spelling os ws) :
    Does (ws.map some) fun c => os.foldl Occurrence.act c := by
  induction h with
  | nil => exact Does.nil
  | flag hw ho hrest ih => exact (hw.does_flag ho).append ih
  | apart hw ho hv hrest ih => exact (hw.does_apart ho hv).append ih
  | joined hw ho hv hrest ih => exact (hw.does_joined ho hv).append ih
  | attached hw ho hempty hv hequals hrest ih =>
    exact (hw.does_attached ho hempty hv hequals).append ih
  | merged hfs hne hrest ih =>
    have hall := (hfs.does hne).append ih
    simpa [Function.comp_def, List.foldl_append] using hall

/-- **The configuration that a command line gives**, in whatever way its options are written: it is
what they ask for, and the same as acting on them from left to right.  The order of occurrences matters
within one option only, so neighbours of different options can change places. -/
theorem ofArgv_spelled (program : String) (h : Spelling os ws) :
    ofArgv (program :: ws) = .ok (asked (Path.ofString program) os) ∧
    asked (Path.ofString program) os =
      os.foldl Occurrence.act { program := Path.ofString program } ∧
    (∀ os' ws', Spelling os' ws' → (∀ s, usesOf os' s = usesOf os s) →
      ofArgv (program :: ws') = ofArgv (program :: ws)) ∧
    ∀ front o o' back ws', os = front ++ o :: o' :: back → o.setting ≠ o'.setting →
      Spelling (front ++ o' :: o :: back) ws' → ofArgv (program :: ws') = ofArgv (program :: ws) := by
  have hread : ∀ {os ws}, Spelling os ws →
      ofArgv (program :: ws) = .ok (asked (Path.ofString program) os) := by
    intro os ws h
    rw [ofArgv, h.does.ofWords]
    exact congrArg _ (foldl_act _ [] os)
  have hsame : ∀ os' ws', Spelling os' ws' → (∀ s, usesOf os' s = usesOf os s) →
      ofArgv (program :: ws') = ofArgv (program :: ws) := by
    intro os' ws' h' huses
    rw [hread h, hread h']
    simp only [asked, occurs, valuesOf, limitsOf, huses]
  refine ⟨hread h, (foldl_act _ [] os).symm, hsame, ?_⟩
  rintro front o o' back ws' rfl hne h'
  exact hsame _ _ h' (usesOf_swap hne front back)

/-- Two command lines with the same options in different orders, and each option written in different
ways. -/
theorem ofArgv_spelled_twice :
    let time : Occurrence := .timeout " 15" 15 rfl
    let test : Occurrence := .select "g.s.1" (by decide +kernel)
    let os := [.verbose, .spawn, time, .argument "a=b", test, .direct, .argument "=c"]
    let ws := ["-vs", "--timeout= 15", "-Aa=b", "-r", "g.s.1", "--run-d", "-A==c"]
    let os' := [.direct, .argument "a=b", time, .spawn, test, .argument "=c", .verbose]
    let ws' := ["--debug", "-A", "a=b", "-t", " 15", "--spawn", "-rg.s.1", "-A", "=c", "-v"]
    Spelling os ws ∧ Spelling os' ws' ∧ (∀ s, usesOf os' s = usesOf os s) ∧
    ofArgv ("t" :: ws) = .ok (asked (Path.ofString "t") os) ∧
    ofArgv ("t" :: ws') = ofArgv ("t" :: ws) := by
  intro time test os ws os' ws'
  have hargument : ∀ s, Names (.argument s) "-A" := fun _ => .of_find rfl
  have hrun : Names .direct "--run-d" := by
    refine Names.of_begins (n := "--run-directly".toList) rfl ⟨'r', "un-d".toList, rfl⟩ ?_ ?_
    · decide
    · decide +kernel
  have hs : Spelling os ws := by
    have hfs : Merged [.verbose, .spawn] ['v', 's'] :=
      .cons (.of_find rfl) rfl (.cons (.of_find rfl) rfl .nil)
    refine .merged hfs (List.cons_ne_nil _ _) ?_
    refine .joined (w := "--timeout") (v := " 15") (.of_find rfl) rfl (by decide) ?_
    refine .attached (c := 'A') (v := "a=b") (.of_find rfl) rfl (by decide) (by decide) (by decide) ?_
    refine .apart (.of_find rfl) rfl (by decide) ?_
    refine .flag hrun rfl ?_
    exact .joined (w := "-A") (v := "=c") (.of_find rfl) rfl (by decide) .nil
  have hs' : Spelling os' ws' := by
    refine .flag (.of_find rfl) rfl ?_
    refine .apart (hargument _) rfl (by decide) ?_
    refine .apart (.of_find rfl) rfl (by decide) ?_
    refine .flag (.of_find rfl) rfl ?_
    refine .attached (c := 'r') (v := "g.s.1") (.of_find rfl) rfl (by decide) (by decide) (by decide) ?_
    refine .apart (hargument _) rfl (by decide) ?_
    exact .flag (.of_find rfl) rfl .nil
  have hsame : ∀ s, usesOf os' s = usesOf os s := by
    intro s
    cases s <;> rfl
  obtain ⟨hread, -, hother, -⟩ := ofArgv_spelled "t" hs
  exact ⟨hs, hs', hsame, hread, hother os' ws' hs' hsame⟩

end TestRig.Configuration
