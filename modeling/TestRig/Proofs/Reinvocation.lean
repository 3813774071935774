import TestRig.Proofs.Numerals
import TestRig.Proofs.Paths
import TestRig.Proofs.Spelling

/-!
# TestRig.Proofs.Reinvocation — the command line of a program that runs one test

A program is started again for one test with options written from its own configuration
(`Configuration.childArgv`).  Every part of these options either is read as what it was written from,
or makes the command line wrong: a value that begins with a dash may be taken for an option, a blank
path is no path, and a time limit that was dropped has no numeral.  Nothing is read as something else.

* `Configuration.Legible`: what every configuration that has been read is like.
* `Configuration.forTest`: the configuration that is meant.
* `Configuration.settles_childArgv`, `Configuration.spoils_childArgv`: the options with a time limit
  and without one.
* `Configuration.childArgv_read`: what the command line is read as.
-/

namespace TestRig

namespace Configuration

open Options (Word)

/-! ## Configurations that have been read -/

/-- A configuration that can be written and read again: its paths have been read from texts, and its
time limit has a numeral. -/
structure Legible (program : Path) (c : Configuration) : Prop where
  program : c.program = program
  logFile : ∀ p ∈ c.logFile, ∃ s, p = Path.ofString s
  timeout : ∀ ms ∈ c.timeout, ms < 10 ^ Text.maxDigits

variable {program : Path} {c c' : Configuration} {test : Identity}

theorem readValue_eq_ok {β : Type} {u : Options.Use Setting} {read : String → Except String β}
    {b : Option β} (h : readValue u read = .ok b) : ∀ a ∈ b, ∃ s, read s = .ok a := by
  unfold readValue at h
  cases hu : u.value with
  | none =>
    simp only [hu] at h
    cases h
    exact fun a ha => nomatch ha
  | some s =>
    simp only [hu] at h
    cases hs : read s with
    | error reason => simp [hs] at h
    | ok a =>
      simp only [hs] at h
      cases h
      rintro _ ⟨⟩
      exact ⟨s, hs⟩

theorem legible_start : Legible program { program } where
  program := rfl
  logFile := fun _ hp => nomatch hp
  timeout := by
    rintro _ ⟨⟩
    exact Nat.lt_of_lt_of_le (by decide : defaultTimeout < 10 ^ 4)
      (Nat.pow_le_pow_right (by decide) (by decide))

theorem Legible.apply {u : Options.Use Setting} (h : Legible program c) (hc : apply c u = .ok c') :
    Legible program c' := by
  obtain ⟨hprogram, hlog, htimeout⟩ := h
  unfold Configuration.apply at hc
  cases hu : u.entry.meaning <;> simp only [hu] at hc
  case help => cases hc
  case logFile =>
    obtain ⟨v, hv, hc⟩ := bind_eq_ok.mp hc
    cases hc
    refine ⟨hprogram, fun p hp => ?_, htimeout⟩
    obtain ⟨s, -, rfl⟩ := Option.map_eq_some_iff.mp hp
    exact ⟨s, rfl⟩
  case select =>
    obtain ⟨v, -, hc⟩ := bind_eq_ok.mp hc
    cases hc
    exact ⟨hprogram, hlog, htimeout⟩
  case timeout =>
    obtain ⟨v, hv, hc⟩ := bind_eq_ok.mp hc
    cases hc
    refine ⟨hprogram, hlog, fun ms hms => ?_⟩
    obtain ⟨s, hs⟩ := readValue_eq_ok hv ms hms
    exact lt_of_readTimeout hs
  all_goals
    cases hc
    exact ⟨hprogram, hlog, htimeout⟩

/-- Every configuration that has been read can be written. -/
theorem legible_of_ofWords {words : List Word} (h : ofWords program words = .ok c) :
    Legible program c :=
  foldlM_keeps Legible.apply legible_start (ofWords_eq_ok.mp h).2

/-! ## The options one by one -/

theorem isBlankText_eq_false {s : String} {d : Char} (hd : d ∈ s.toList)
    (hblank : Text.isBlank d = false) : Text.isBlankText s = false := by
  rw [Text.isBlankText, List.all_eq_false]
  exact ⟨d, hd, by simp [hblank]⟩

section

variable {e : Options.Entry Setting} {s : String} (d : Configuration)

theorem apply_logFile (he : e.meaning = .logFile) (hs : Text.isBlankText s = false) :
    apply d ⟨e, some s⟩ = .ok { d with logFile := some (Path.ofString s) } := by
  simp only [apply, he, readValue, readNonBlank, hs]
  rfl

theorem apply_select (he : e.meaning = .select) (hs : Text.isBlankText s = false) :
    apply d ⟨e, some s⟩ = .ok { d with selection := d.selection ++ [some s] } := by
  simp only [apply, he, readValue, readNonBlank, hs]
  rfl

theorem apply_timeout {ms : Nat} (he : e.meaning = .timeout) (hs : readTimeout s = .ok ms) :
    apply d ⟨e, some s⟩ = .ok { d with timeout := some ms } := by
  simp only [apply, he, readValue, hs]
  rfl

end

/-- A path that has been read is read again, unless its text is blank. -/
theorem settles_logFile (s : String) :
    let p := Path.ofString s
    Settles (Text.isBlankText p.text = false ∧ Undashed p.text) [some "-l", some p.text]
      fun d => { d with logFile := some p } := by
  intro p
  cases hblank : Text.isBlankText p.text with
  | true =>
    refine Or.inr ⟨fun h => Bool.noConfusion h.1, ?_⟩
    refine spoils_valued (m := .badValue "-l/--log-file" "argument must not be empty") rfl rfl
      fun d => ?_
    simp only [apply, readValue, readNonBlank, hblank]
    rfl
  | false =>
    have hread := settles_text (w := some "-l") rfl rfl fun d => apply_logFile d rfl hblank
    rw [Path.ofString_text_ofString] at hread
    exact hread.mono And.right

/-- Named values are added in their order. -/
theorem settles_arguments : ∀ as : List Word,
    Settles (∀ a ∈ as, ∀ s ∈ a, Undashed s) (as.flatMap fun a => [some "-A", a])
      fun d => { d with arguments := d.arguments ++ as }
  | [] => by
    have hid : (fun d : Configuration => { d with arguments := d.arguments ++ [] }) = id := by
      funext d
      rw [List.append_nil]
      rfl
    rw [hid]
    exact Or.inl Does.nil
  | a :: as => by
    have hfirst : Settles (∀ s ∈ a, Undashed s) [some "-A", a]
        fun d => { d with arguments := d.arguments ++ [a] } :=
      settles_valued rfl rfl fun d => rfl
    have hboth := hfirst.append (settles_arguments as)
    simpa [Function.comp_def] using hboth

theorem undashed_showNat (n : Nat) : Undashed (Text.showNat n) := by
  intro h
  rw [Text.showNat, String.toList_ofList] at h
  have hdash := (Text.natChars_spec (List.mem_of_mem_head? h)).1
  revert hdash
  decide

theorem settles_timeout {ms : Nat} (hms : ms < 10 ^ Text.maxDigits) :
    Settles True [some "-t", some (Text.showNat ms)] fun d => { d with timeout := some ms } :=
  (settles_text rfl rfl fun d => apply_timeout d rfl (readTimeout_showNat hms)).mono fun _ => undashed_showNat ms

/-! ## All options together -/

/-- The configuration of a program that runs one test in its own process. -/
def forTest (c : Configuration) (test : Identity) : Configuration :=
  { program := c.program, logFile := c.logFile, direct := true, timeout := c.timeout,
    selection := [some test.name], arguments := c.arguments, named := false }

/-- No word behind an option is blank or begins with a dash. -/
structure Clear (c : Configuration) (test : Identity) : Prop where
  logFile : ∀ p ∈ c.logFile, Text.isBlankText p.text = false ∧ Undashed p.text
  arguments : ∀ a ∈ c.arguments, ∀ s ∈ a, Undashed s
  test : Undashed test.name

instance : Decidable (c.Clear test) :=
  decidable_of_iff ((∀ p ∈ c.logFile, Text.isBlankText p.text = false ∧ Undashed p.text) ∧
      (∀ a ∈ c.arguments, ∀ s ∈ a, Undashed s) ∧ Undashed test.name)
    ⟨fun h => ⟨h.1, h.2.1, h.2.2⟩, fun h => ⟨h.logFile, h.arguments, h.test⟩⟩

/-- A name begins as its group does, or with a dot. -/
theorem undashed_name (h : Undashed test.group) : Undashed test.name := by
  unfold Undashed at h ⊢
  rw [Identity.name, String.toList_ofList, Identity.nameChars]
  cases hg : test.group.toList with
  | nil => simp
  | cons c cs => simpa [hg] using h

theorem does_flags : Does [some "-d", some "--no-prefix"] fun d =>
    { d with direct := true, named := false } :=
  (does_flag (w := some "-d") rfl rfl fun _ => rfl).append
    (does_flag (w := some "--no-prefix") rfl rfl fun _ => rfl)

theorem settles_test (test : Identity) : Settles (Undashed test.name) [some "-r", some test.name]
    fun d => { d with selection := d.selection ++ [some test.name] } := by
  have hblank : Text.isBlankText test.name = false :=
    isBlankText_eq_false (d := '.') (by simp [Identity.name, Identity.nameChars]) (by decide)
  exact settles_text rfl rfl fun d => apply_select d rfl hblank

/-- The words for the path of a log, if there is one. -/
def logWords : Option Path → List Word
  | some p => [some "-l", some p.text]
  | none => []

theorem settles_logWords : ∀ {l : Option Path}, (∀ p ∈ l, ∃ s, p = Path.ofString s) →
    Settles (∀ p ∈ l, Text.isBlankText p.text = false ∧ Undashed p.text) (logWords l)
      fun d => { d with logFile := l.or d.logFile }
  | none, _ => Or.inl Does.nil
  | some p, h => by
    obtain ⟨s, rfl⟩ := h p rfl
    exact (settles_logFile s).mono fun hp => hp _ rfl

theorem childArgv_of_timeoutText (test : Identity) {text : String} (h : c.timeoutText = text) :
    c.childArgv test = (logWords c.logFile ++ c.arguments.flatMap fun a => [some "-A", a]) ++
      ([some "-t", some text] ++ ([some "-d", some "--no-prefix"] ++ [some "-r", some test.name])) := by
  subst h
  rfl

/-- **The options for one test settle what is done**: they give the configuration that is meant, or
make the command line wrong, and without blanks and dashes in the wrong places they give it. -/
theorem settles_childArgv (h : Legible program c) (test : Identity) {ms : Nat}
    (ht : c.timeout = some ms) :
    ∃ f, Settles (c.Clear test) (c.childArgv test) f ∧ f { program } = c.forTest test := by
  have hfront := (settles_logWords h.logFile).append (settles_arguments c.arguments)
  have hflags : Settles True _ _ := Or.inl does_flags
  have hback := (settles_timeout (h.timeout ms ht)).append (hflags.append (settles_test test))
  have htext : c.timeoutText = Text.showNat ms := by simp only [timeoutText, ht]
  rw [childArgv_of_timeoutText test htext]
  refine ⟨_, (hfront.append hback).mono fun hclear => ?_, ?_⟩
  · exact ⟨⟨hclear.logFile, hclear.arguments⟩, trivial, trivial, hclear.test⟩
  · simp [forTest, h.program, ht]

/-- Without blanks and dashes in the wrong places they give what is meant. -/
theorem ofWords_childArgv (h : Legible program c) (ht : c.timeout ≠ none) (hclear : c.Clear test) :
    ofWords program (c.childArgv test) = .ok (c.forTest test) := by
  obtain ⟨ms, hms⟩ := Option.ne_none_iff_exists'.mp ht
  obtain ⟨f, hf, hmeant⟩ := settles_childArgv h test hms
  rw [← hmeant]
  exact hf.elim Does.ofWords fun h => absurd hclear h.1

/-- Without a time limit they make the command line wrong. -/
theorem spoils_childArgv (h : Legible program c) (test : Identity) (ht : c.timeout = none) :
    Spoils (c.childArgv test) := by
  have hfront := (settles_logWords h.logFile).append (settles_arguments c.arguments)
  have hlimit : Spoils [some "-t", some "[]"] :=
    spoils_valued (m := .badValue "-t/--timeout" "invalid timeout \"[]\"") rfl rfl fun _ => rfl
  have htext : c.timeoutText = "[]" := by simp only [timeoutText, ht]
  rw [childArgv_of_timeoutText test htext]
  exact hfront.spoils (hlimit.append _)

/-! ## As a command line of texts -/

theorem exists_texts : ∀ {ws : List Word}, none ∉ ws → ∃ vs : List String, ws = vs.map some
  | [], _ => ⟨[], rfl⟩
  | none :: ws, h => absurd List.mem_cons_self h
  | some w :: ws, h => by
    obtain ⟨vs, rfl⟩ := exists_texts fun hmem => h (List.mem_cons_of_mem _ hmem)
    exact ⟨w :: vs, rfl⟩

theorem none_not_mem_childArgv (h : none ∉ c.arguments) (test : Identity) :
    none ∉ c.childArgv test := by
  have hlog : none ∉ logWords c.logFile := by cases c.logFile <;> simp [logWords]
  rw [childArgv_of_timeoutText test rfl]
  simp [hlog, h]

/-- **The command line of a program that runs one test**: if all named values of a configuration that
has been read are texts, so are its options for a test, and they are read as the configuration that
is meant or make the command line wrong, but never as another configuration.  Without blanks and
dashes in the wrong places they are read as what is meant, unless the time limit was dropped: that has
no numeral, and always makes the command line wrong. -/
theorem childArgv_read {program : String} {words : List String}
    (h : ofArgv (program :: words) = .ok c) (hargs : none ∉ c.arguments) (test : Identity) :
    ∃ ws : List String, c.childArgv test = ws.map some ∧
      ((∃ m, ofArgv (program :: ws) = .error (.misuse m)) ∨
        ofArgv (program :: ws) = .ok (c.forTest test)) ∧
      (c.timeout ≠ none → c.Clear test → ofArgv (program :: ws) = .ok (c.forTest test)) ∧
      (c.timeout = none → ∃ m, ofArgv (program :: ws) = .error (.misuse m)) := by
  obtain ⟨ws, hws⟩ := exists_texts (none_not_mem_childArgv hargs test)
  have hlegible := legible_of_ofWords h
  refine ⟨ws, hws, ?_⟩
  simp only [ofArgv, ← hws]
  cases ht : c.timeout with
  | none =>
    have hspoilt : ∃ m, ofWords (Path.ofString program) (c.childArgv test) = .error (.misuse m) :=
      (spoils_childArgv hlegible test ht).ofWords
    exact ⟨Or.inl hspoilt, fun hne => absurd rfl hne, fun _ => hspoilt⟩
  | some ms =>
    have hsome : c.timeout ≠ none := by rw [ht]; exact Option.some_ne_none ms
    refine ⟨?_, fun _ => ofWords_childArgv hlegible hsome, fun h => absurd h (Option.some_ne_none ms)⟩
    obtain ⟨f, hf, hmeant⟩ := settles_childArgv hlegible test ht
    rw [← hmeant]
    exact hf.symm.imp (fun h => h.2.ofWords) Does.ofWords

/-- A command line with a log, a named value and a time limit is written for a test and read as what
is meant; one whose time limit was dropped is not read. -/
theorem childArgv_read_two :
    (∃ c ws, ofArgv ["t", "-l", "out.log", "-A", "n=1", "-t", "250", "-v"] = .ok c ∧
      c.timeout ≠ none ∧ c.Clear ⟨"g", "s", 1⟩ ∧ c.childArgv ⟨"g", "s", 1⟩ = ws.map some ∧
      ofArgv ("t" :: ws) = .ok (c.forTest ⟨"g", "s", 1⟩)) ∧
    ∃ c ws m, ofArgv ["t", "-t--"] = .ok c ∧ c.timeout = none ∧
      c.childArgv ⟨"g", "s", 1⟩ = ws.map some ∧ ofArgv ("t" :: ws) = .error (.misuse m) := by
  constructor
  · obtain ⟨c, hc, hargs, ht, hclear⟩ := exists_eq_ok (p := fun c => none ∉ c.arguments ∧
      c.timeout ≠ none ∧ c.Clear ⟨"g", "s", 1⟩)
      (x := ofArgv ["t", "-l", "out.log", "-A", "n=1", "-t", "250", "-v"]) (by decide +kernel)
    obtain ⟨ws, hws, -, hread, -⟩ := childArgv_read hc hargs ⟨"g", "s", 1⟩
    exact ⟨c, ws, hc, ht, hclear, hws, hread ht hclear⟩
  · obtain ⟨c, hc, hargs, ht⟩ := exists_eq_ok (p := fun c => none ∉ c.arguments ∧ c.timeout = none)
      (x := ofArgv ["t", "-t--"]) (by decide +kernel)
    obtain ⟨ws, hws, -, -, hdropped⟩ := childArgv_read hc hargs ⟨"g", "s", 1⟩
    obtain ⟨m, hm⟩ := hdropped ht
    exact ⟨c, ws, m, hc, ht, hws, hm⟩

end Configuration

end TestRig
