import TestRig.Program
import TestRig.Proofs.Reinvocation
import TestRig.Proofs.Setup

/-!
# TestRig.Proofs.Refusals — what keeps a rig from being set up

Setting a rig up reads the options, stores the named values, selects the tests and opens the log.
Each step goes through its items in order and stops at the first one that is wrong.  A few things are
wrong in a way that no check names: a value that was dropped is used as a text, a number has digits
that are not decimal or too many of them, the path of the log holds a null character.

* `FirstWrong`, `foldlM_eq_error_iff_firstWrong`: where steps over a list stop.
* `Registry.Misspecifies`, `Rig.Misassigns`, `Rig.Misselects`: what is wrong with one word.
* `Setup.Refuses`, `Rig.set_eq_error`: what is wrong with a setup.
* `Rig.set_refusals`: what the program makes of it.
-/

namespace TestRig

/-! ## The first thing that is wrong -/

section Except

variable {ε ε' α β : Type}

/-- Steps fail with what the first one fails with that fails. -/
theorem foldlM_eq_error {f : α → β → Except ε α} {e : ε} : ∀ {bs : List β} {a : α},
    bs.foldlM f a = .error e ↔ ∃ pre b post a', bs = pre ++ b :: post ∧
      pre.foldlM f a = .ok a' ∧ f a' b = .error e
  | [], a => by
    refine ⟨fun h => (nomatch h), ?_⟩
    rintro ⟨pre, b, post, a', h, -⟩
    cases pre <;> cases h
  | b :: bs, a => by
    rw [List.foldlM_cons, bind_eq_error]
    constructor
    · rintro (hb | ⟨a₁, hb, hbs⟩)
      · exact ⟨[], b, bs, a, rfl, rfl, hb⟩
      · obtain ⟨pre, b', post, a', rfl, hpre, hb'⟩ := foldlM_eq_error.mp hbs
        exact ⟨b :: pre, b', post, a', rfl, bind_eq_ok.mpr ⟨a₁, hb, hpre⟩, hb'⟩
    · rintro ⟨pre, b', post, a', h, hpre, hb'⟩
      cases pre with
      | nil =>
        cases h
        cases hpre
        exact Or.inl hb'
      | cons b₁ pre =>
        cases h
        obtain ⟨a₁, hb, hpre⟩ := bind_eq_ok.mp hpre
        exact Or.inr ⟨a₁, hb, foldlM_eq_error.mpr ⟨pre, b', post, a', rfl, hpre, hb'⟩⟩

/-- This is wrong with an item, and nothing is wrong with those in front of it. -/
def FirstWrong (wrong : β → ε → Prop) (bs : List β) (e : ε) : Prop :=
  ∃ pre b post, bs = pre ++ b :: post ∧ (∀ b ∈ pre, ∀ e, ¬ wrong b e) ∧ wrong b e

variable {f : α → β → Except ε α} {wrong : β → ε → Prop}

/-- Steps that fail with what is wrong with their items, whatever the state is, succeed if nothing is. -/
theorem exists_foldlM_eq_ok (h : ∀ a b e, f a b = .error e ↔ wrong b e) : ∀ {bs : List β} {a : α},
    (∃ a', bs.foldlM f a = .ok a') ↔ ∀ b ∈ bs, ∀ e, ¬ wrong b e
  | [], a => by simp [pure, Except.pure]
  | b :: bs, a => by
    cases hb : f a b with
    | error e =>
      refine ⟨fun ⟨a', h'⟩ => ?_, fun hall => absurd ((h a b e).mp hb) (hall b List.mem_cons_self e)⟩
      rw [List.foldlM_cons, hb] at h'
      cases h'
    | ok a₁ =>
      have hok : ∀ e, ¬ wrong b e := fun e he => by
        rw [← h a, hb] at he
        cases he
      have hrest : (∃ a', bs.foldlM f a₁ = .ok a') ↔ ∀ b ∈ bs, ∀ e, ¬ wrong b e :=
        exists_foldlM_eq_ok h
      simp only [List.foldlM_cons, hb, List.forall_mem_cons, hok, not_false_iff, implies_true,
        true_and]
      exact hrest

theorem foldlM_eq_error_iff_firstWrong (h : ∀ a b e, f a b = .error e ↔ wrong b e) {bs : List β}
    {a : α} {e : ε} : bs.foldlM f a = .error e ↔ FirstWrong wrong bs e := by
  rw [foldlM_eq_error]
  constructor
  · rintro ⟨pre, b, post, a', rfl, hpre, hb⟩
    exact ⟨pre, b, post, rfl, (exists_foldlM_eq_ok h).mp ⟨a', hpre⟩, (h a' b e).mp hb⟩
  · rintro ⟨pre, b, post, rfl, hpre, hb⟩
    obtain ⟨a', ha'⟩ := (exists_foldlM_eq_ok h (a := a)).mpr hpre
    exact ⟨pre, b, post, a', rfl, ha', (h a' b e).mpr hb⟩

end Except

/-! ## Options -/

namespace Configuration

variable {program : Path} {c : Configuration} {u : Options.Use Setting}

theorem readValue_stops {β γ : Type} {read : String → Except String β} {k : Option β → γ} {stop : Stop}
    (h : (readValue u read).map k = .error stop) : ∃ m, stop = .misuse m := by
  unfold readValue at h
  split at h
  · cases h
  · split at h <;> cases h
    exact ⟨_, rfl⟩

theorem apply_help (h : u.entry.meaning = .help) :
    apply c u = .error (.help (helpText c.program.name)) := by
  rw [apply, h]

/-- An option stops the reading because its value is wrong or because it asks for help. -/
theorem apply_stops {stop : Stop} (h : apply c u = .error stop) : (∃ m, stop = .misuse m) ∨
    u.entry.meaning = .help ∧ stop = .help (helpText c.program.name) := by
  unfold apply at h
  cases hu : u.entry.meaning <;> simp only [hu] at h
  case help =>
    cases h
    exact Or.inr ⟨rfl, rfl⟩
  case logFile => exact Or.inl (readValue_stops h)
  case select => exact Or.inl (readValue_stops h)
  case timeout => exact Or.inl (readValue_stops h)
  all_goals cases h

/-- Help is asked for, and nothing is wrong with the options in front. -/
def AsksForHelp (program : Path) (words : List Options.Word) : Prop :=
  ∃ pre u post c, (Options.read grammar false words).uses = pre ++ u :: post ∧
    pre.foldlM apply { program } = .ok c ∧ u.entry.meaning = .help

theorem ofWords_help {words : List Options.Word} (h : AsksForHelp program words) :
    ofWords program words = .error (.help (helpText program.name)) := by
  obtain ⟨pre, u, post, c, huses, hpre, hu⟩ := h
  have hprogram : c.program = program := (foldlM_keeps Legible.apply legible_start hpre).program
  have hstop : (Options.read grammar false words).uses.foldlM apply { program } =
      .error (.help (helpText program.name)) :=
    foldlM_eq_error.mpr ⟨pre, u, post, c, huses, hpre, hprogram ▸ apply_help hu⟩
  simp [ofWords, Options.Reading.act, hstop, bind, Except.bind]

/-- Options are not read because they are misused or because they ask for help. -/
theorem ofWords_stops {words : List Options.Word} {stop : Stop}
    (h : ofWords program words = .error stop) :
    (∃ m, stop = .misuse m) ∨
      AsksForHelp program words ∧ stop = .help (helpText program.name) := by
  obtain hact | ⟨c, -, hextras⟩ := bind_eq_error.mp h
  · obtain hfold | ⟨c, -, hfault⟩ := bind_eq_error.mp hact
    · obtain ⟨pre, u, post, c, huses, hpre, hu⟩ := foldlM_eq_error.mp hfold
      have hprogram : c.program = program := (foldlM_keeps Legible.apply legible_start hpre).program
      obtain hm | ⟨hmeaning, rfl⟩ := apply_stops hu
      · exact Or.inl hm
      · exact Or.inr ⟨⟨pre, u, post, c, huses, hpre, hmeaning⟩, by rw [hprogram]⟩
    · split at hfault <;> cases hfault
      exact Or.inl ⟨_, rfl⟩
  · unfold refuseExtras at hextras
    split at hextras <;> cases hextras
    exact Or.inl ⟨_, rfl⟩

end Configuration

/-! ## Values -/

namespace Arguments

theorem add_eq_error {a : Arguments} {s : String} {f : Fault} : a.add s = .error f ↔
    (∀ c ∈ s.toList.takeWhile (· != '='), Text.isBlank c = true) ∧ f = ⟨s⟩ := by
  have hname : (readAssignment s).1 =
      String.ofList (Text.trimChars (s.toList.takeWhile (· != '='))) := by
    rw [← Text.cutFirst_getD]
    rfl
  rw [← Text.trimChars_eq_nil]
  show (if (readAssignment s).1.isEmpty then Except.error ⟨s⟩ else _) = .error f ↔ _
  rw [hname]
  by_cases hnil : Text.trimChars (s.toList.takeWhile (· != '=')) = []
  · rw [if_pos (String.isEmpty_iff.mpr (String.ofList_eq_empty_iff.mpr hnil))]
    simp [hnil, eq_comm]
  · rw [if_neg (mt String.isEmpty_iff.mp (mt String.ofList_eq_empty_iff.mp hnil))]
    simp [hnil]

end Arguments

namespace Registry

/-- What is wrong with a specification. -/
inductive Misspecifies (spec : String) : Fault → Prop
  | noNumber (h : '.' ∉ Text.trimChars spec.toList) : Misspecifies spec (.noNumber spec)
  | number {name digits : List Char} {f : NumberFault} (hdot : '.' ∉ digits)
      (h : Text.trimChars spec.toList = name ++ '.' :: digits)
      (hf : Misnumbers (Text.trimChars digits) f) : Misspecifies spec (.number f)

theorem select_eq_error {g : Registry} {spec : String} {f : Fault} :
    (g.select spec).1 = .error f ↔ Misspecifies spec f := by
  have hspec : (g.select spec).1 = .error f ↔ g.readSpec spec = .error f := by
    unfold select
    cases g.readSpec spec <;> simp
  rw [hspec, readSpec]
  cases hcut : Text.cutLast '.' (Text.trimChars spec.toList) with
  | none =>
    have hdot := Text.cutLast_eq_none.mp hcut
    constructor
    · rintro ⟨⟩
      exact .noNumber hdot
    · intro h
      cases h with
      | noNumber => rfl
      | number _ h => simp [h] at hdot
  | some p =>
    obtain ⟨name, digits⟩ := p
    obtain ⟨hcs, hdigits⟩ := Text.cutLast_eq_some.mp hcut
    have hnumber : ((readTestNumber (String.ofList digits)).mapError Fault.number >>= fun n =>
        pure (String.ofList (g.withoutGroup (Text.trimChars name)), n)) = .error f ↔
        ∃ x, Misnumbers (Text.trimChars digits) x ∧ .number x = f := by
      rw [bind_eq_error, mapError_eq_error]
      simp [readTestNumber_eq_error, pure, Except.pure]
    refine hnumber.trans ⟨?_, fun h => ?_⟩
    · rintro ⟨x, hx, rfl⟩
      exact .number hdigits hcs hx
    · cases h with
      | noNumber h => simp [hcs] at h
      | number hdot h hf =>
        cases hcut.symm.trans (Text.cutLast_eq_some.mpr ⟨h, hdot⟩)
        exact ⟨_, hf, rfl⟩

end Registry

namespace Rig

/-! ## Setting up -/

/-- What is wrong with a named value. -/
inductive Misassigns : Options.Word → Fault → Prop
  | dropped : Misassigns none (.dropped "partition")
  | blank {a : String} (h : ∀ c ∈ a.toList.takeWhile (· != '='), Text.isBlank c = true) :
      Misassigns (some a) (.argument ⟨a⟩)

/-- What is wrong with a test to be selected. -/
inductive Misselects : Options.Word → Fault → Prop
  | dropped : Misselects none (.dropped "strip")
  | spec {a : String} {f : Registry.Fault} (h : Registry.Misspecifies a f) :
      Misselects (some a) (.selection f)

def storeWord (a : Arguments) : Options.Word → Except Fault Arguments
  | none => .error (.dropped "partition")
  | some s => (a.add s).mapError .argument

def selectWord (g : Registry) : Options.Word → Except Fault Registry
  | none => .error (.dropped "strip")
  | some s => ((g.select s).1.mapError .selection).map fun _ => (g.select s).2

theorem storeArguments_eq : ∀ (ws : List Options.Word) (a : Arguments),
    storeArguments a ws = ws.foldlM storeWord a
  | [], _ => rfl
  | none :: _, _ => rfl
  | some s :: ws, a => by
    rw [storeArguments, List.foldlM_cons, storeWord]
    exact congrArg _ (funext fun a' => storeArguments_eq ws a')

theorem selectTests_eq : ∀ (ws : List Options.Word) (g : Registry),
    selectTests g ws = ws.foldlM selectWord g
  | [], _ => rfl
  | none :: _, _ => rfl
  | some s :: ws, g => by
    rw [selectTests, List.foldlM_cons, selectWord]
    rcases g.select s with ⟨f | test, g'⟩
    · rfl
    · exact selectTests_eq ws g'

theorem storeWord_eq_error (a : Arguments) (w : Options.Word) (f : Fault) :
    storeWord a w = .error f ↔ Misassigns w f := by
  cases w with
  | none =>
    refine ⟨?_, fun h => by cases h; rfl⟩
    rintro ⟨⟩
    exact .dropped
  | some s =>
    rw [storeWord, mapError_eq_error]
    constructor
    · rintro ⟨x, hx, rfl⟩
      obtain ⟨hblank, rfl⟩ := Arguments.add_eq_error.mp hx
      exact .blank hblank
    · intro h
      cases h with
      | blank hblank => exact ⟨_, Arguments.add_eq_error.mpr ⟨hblank, rfl⟩, rfl⟩

theorem selectWord_eq_error (g : Registry) (w : Options.Word) (f : Fault) :
    selectWord g w = .error f ↔ Misselects w f := by
  cases w with
  | none =>
    refine ⟨?_, fun h => by cases h; rfl⟩
    rintro ⟨⟩
    exact .dropped
  | some s =>
    have hmap : selectWord g (some s) = .error f ↔
        ∃ x, (g.select s).1 = .error x ∧ .selection x = f := by
      rw [selectWord, ← mapError_eq_error]
      cases (g.select s).1.mapError Fault.selection <;> simp [Except.map]
    rw [hmap]
    constructor
    · rintro ⟨x, hx, rfl⟩
      exact .spec (Registry.select_eq_error.mp hx)
    · intro h
      cases h with
      | spec h => exact ⟨_, Registry.select_eq_error.mpr h, rfl⟩

theorem exists_storeArguments {ws : List Options.Word} {a : Arguments} :
    (∃ a', storeArguments a ws = .ok a') ↔ ∀ w ∈ ws, ∀ f, ¬ Misassigns w f := by
  rw [storeArguments_eq]
  exact exists_foldlM_eq_ok storeWord_eq_error

theorem storeArguments_eq_error {ws : List Options.Word} {a : Arguments} {f : Fault} :
    storeArguments a ws = .error f ↔ FirstWrong Misassigns ws f := by
  rw [storeArguments_eq]
  exact foldlM_eq_error_iff_firstWrong storeWord_eq_error

theorem exists_selectTests {ws : List Options.Word} {g : Registry} :
    (∃ g', selectTests g ws = .ok g') ↔ ∀ w ∈ ws, ∀ f, ¬ Misselects w f := by
  rw [selectTests_eq]
  exact exists_foldlM_eq_ok selectWord_eq_error

theorem selectTests_eq_error {ws : List Options.Word} {g : Registry} {f : Fault} :
    selectTests g ws = .error f ↔ FirstWrong Misselects ws f := by
  rw [selectTests_eq]
  exact foldlM_eq_error_iff_firstWrong selectWord_eq_error

end Rig

/-! ## The log -/

namespace Journal

theorem openLog_eq_error {colored verbose : Bool} {d : Disk} {log : Option Path} {f : LogFault} :
    openLog colored verbose d log = .error f ↔
      log = some f.path ∧ d.openToAppend f.path = .error f.fault := by
  obtain ⟨path, fault⟩ := f
  cases log with
  | none => simp [openLog]
  | some p =>
    cases hd : d.openToAppend p with
    | ok x =>
      simp only [openLog, hd, reduceCtorEq, Option.some.injEq, false_iff, not_and]
      rintro rfl
      simp [hd]
    | error x =>
      simp only [openLog, hd, Except.error.injEq, LogFault.mk.injEq, Option.some.injEq]
      constructor
      · rintro ⟨rfl, rfl⟩
        exact ⟨rfl, hd⟩
      · rintro ⟨rfl, h⟩
        exact ⟨rfl, Except.error.inj (hd.symm.trans h)⟩

end Journal

/-! ## Refusals -/

/-- Why a rig is not set up: the first thing that is wrong in its setup. -/
inductive Setup.Refuses (s : Setup) : Rig.Fault → Prop
  | noProgram (h : s.argv = []) : s.Refuses (.stopped .noProgram)
  | help {program : String} {words : List String} (hargv : s.argv = program :: words)
      (h : Configuration.AsksForHelp (.ofString program) (words.map some)) :
      s.Refuses (.stopped (.help (Configuration.helpText (Path.ofString program).name)))
  | options {m : Options.Misuse} (h : Configuration.ofArgv s.argv = .error (.misuse m)) :
      s.Refuses (.stopped (.misuse m))
  | argument {c : Configuration} {f : Rig.Fault} (hc : Configuration.ofArgv s.argv = .ok c)
      (h : FirstWrong Rig.Misassigns c.arguments f) : s.Refuses f
  | selection {c : Configuration} {f : Rig.Fault} (hc : Configuration.ofArgv s.argv = .ok c)
      (ha : ∀ w ∈ c.arguments, ∀ f, ¬ Rig.Misassigns w f)
      (h : FirstWrong Rig.Misselects c.selection f) : s.Refuses f
  /-- The log cannot be opened. -/
  | log {c : Configuration} {p : Path} {x : Disk.Fault} (hc : Configuration.ofArgv s.argv = .ok c)
      (ha : ∀ w ∈ c.arguments, ∀ f, ¬ Rig.Misassigns w f)
      (hs : ∀ w ∈ c.selection, ∀ f, ¬ Rig.Misselects w f) (hp : c.logFile = some p)
      (h : s.disk.openToAppend p = .error x) : s.Refuses (.log ⟨p, x⟩)

namespace Rig

variable {s : Setup} {f : Fault}

/-- Reading a command line fails for want of a program, because help is asked for, or because the
options are misused. -/
theorem ofArgv_eq_error {stop : Configuration.Stop} :
    Configuration.ofArgv s.argv = .error stop ↔ s.Refuses (.stopped stop) := by
  constructor
  · intro h
    cases hargv : s.argv with
    | nil =>
      rw [hargv] at h
      cases h
      exact .noProgram hargv
    | cons program words =>
      have hwords : Configuration.ofWords (.ofString program) (words.map some) = .error stop := by
        rw [hargv] at h
        exact h
      obtain ⟨m, rfl⟩ | ⟨hhelp, rfl⟩ := Configuration.ofWords_stops hwords
      · exact .options h
      · exact .help hargv hhelp
  · intro h
    cases h with
    | noProgram h => rw [h]; rfl
    | help hargv h =>
      rw [hargv]
      exact Configuration.ofWords_help h
    | options h => exact h
    | argument _ h =>
      obtain ⟨pre, w, post, -, -, hw⟩ := h
      cases hw
    | selection _ _ h =>
      obtain ⟨pre, w, post, -, -, hw⟩ := h
      cases hw

/-- **A rig is not set up** exactly for the first thing that is wrong. -/
theorem set_eq_error : Rig.set s = .error f ↔ s.Refuses f := by
  unfold Rig.set
  simp only [bind_eq_error, mapError_eq_error, mapError_eq_ok, storeArguments_eq_error,
    selectTests_eq_error, pure, Except.pure, reduceCtorEq, and_false, exists_false, or_false]
  constructor
  · rintro (⟨stop, hstop, rfl⟩ | ⟨c, hc, ha | ⟨a, ha, hg | ⟨g, hg, x, hj, rfl⟩⟩⟩)
    · exact ofArgv_eq_error.mp hstop
    · exact .argument hc ha
    · exact .selection hc (exists_storeArguments.mp ⟨a, ha⟩) hg
    · obtain ⟨hp, hd⟩ := Journal.openLog_eq_error.mp hj
      exact .log hc (exists_storeArguments.mp ⟨a, ha⟩) (exists_selectTests.mp ⟨g, hg⟩) hp hd
  · intro h
    cases h with
    | noProgram h => exact Or.inl ⟨_, ofArgv_eq_error.mpr (.noProgram h), rfl⟩
    | help hargv h => exact Or.inl ⟨_, ofArgv_eq_error.mpr (.help hargv h), rfl⟩
    | options h => exact Or.inl ⟨_, h, rfl⟩
    | argument hc h => exact Or.inr ⟨_, hc, Or.inl h⟩
    | selection hc ha h =>
      obtain ⟨a, ha⟩ := exists_storeArguments.mpr ha
      exact Or.inr ⟨_, hc, Or.inr ⟨a, ha, Or.inl h⟩⟩
    | @log c p x hc ha hs hp h =>
      obtain ⟨a, ha⟩ := exists_storeArguments.mpr ha
      obtain ⟨g, hg⟩ := exists_selectTests.mpr hs
      have hopen : Journal.openLog s.terminal c.verbose s.disk c.logFile = .error ⟨p, x⟩ :=
        Journal.openLog_eq_error.mpr ⟨hp, h⟩
      exact Or.inr ⟨c, hc, Or.inr ⟨a, ha, Or.inr ⟨g, hg, ⟨p, x⟩, hopen, rfl⟩⟩⟩

/-! ## How a refusal comes out -/

/-- A fault that no check names: a conversion or a call behind the checks trips over it. -/
def Fault.isStray : Fault → Bool
  | .dropped _ => true
  | .selection (.number (.numeral _)) => true
  | .log ⟨_, .holdsNul⟩ => true
  | _ => false

theorem exception_of_misselects {w : Options.Word} (h : Misselects w f) (hf : f.isStray = false) :
    ∃ text, f.exception = .of .invalidArgument text := by
  cases h with
  | dropped => cases hf
  | spec h => cases h with
    | noNumber => exact ⟨_, rfl⟩
    | @number _ digits _ _ _ hn =>
      generalize Text.trimChars digits = cs at hn
      cases hn with
      | missing => exact ⟨_, rfl⟩
      | malformed => exact ⟨_, rfl⟩
      | tooLong => cases hf
      | valueless => cases hf

/-- Help apart, every refusal that is not stray is a complaint: about the log, or about the command
line. -/
theorem exception_of_refuses (h : s.Refuses f) (hf : f.isStray = false) :
    (∃ text, f = .stopped (.help text)) ∨
    (∃ x text, f = .log x ∧ f.exception = .of .logOpenFailure text) ∨
    (∀ x, f ≠ .log x) ∧ ∃ text, f.exception = .of .invalidArgument text := by
  cases h with
  | noProgram => exact Or.inr (Or.inr ⟨nofun, _, rfl⟩)
  | help => exact Or.inl ⟨_, rfl⟩
  | options => exact Or.inr (Or.inr ⟨nofun, _, rfl⟩)
  | argument _ h =>
    obtain ⟨pre, w, post, -, -, hw⟩ := h
    cases hw with
    | dropped => cases hf
    | blank => exact Or.inr (Or.inr ⟨nofun, _, rfl⟩)
  | selection _ _ h =>
    obtain ⟨pre, w, post, -, -, hw⟩ := h
    refine Or.inr (Or.inr ⟨?_, exception_of_misselects hw hf⟩)
    cases hw <;> exact nofun
  | @log _ p x =>
    cases x with
    | holdsNul => cases hf
    | _ => exact Or.inr (Or.inl ⟨_, _, rfl, rfl⟩)

theorem exception_of_stray (hf : f.isStray = true) :
    ∃ kind ∈ [Kind.valueError, .attributeError], ∃ text, f.exception = .of kind text := by
  cases f with
  | dropped use => exact ⟨_, by decide, _, rfl⟩
  | selection f => match f, hf with
    | .number (.numeral (.tooLong n)), _ => exact ⟨_, by decide, _, rfl⟩
    | .number (.numeral (.valueless n)), _ => exact ⟨_, by decide, _, rfl⟩
  | log x => match x, hf with
    | ⟨_, .holdsNul⟩, _ => exact ⟨_, by decide, _, rfl⟩
  | _ => cases hf

section Report

variable {steps : List Step} {kind : Kind} {text : String}

theorem report_of_complaint (h : Rig.set s = .error f) (hf : f.exception = .of kind text)
    (hkind : kind ∈ [Kind.invalidArgument, .logOpenFailure]) :
    Program.run s steps =
      { exit := .ok 1, message := "error: " ++ text ++ "\n", disk := s.disk } := by
  simp only [List.mem_cons, List.not_mem_nil, or_false] at hkind
  -- only the help is printed, and that is no complaint
  have houtput : f.output = "" := by
    match f, hf with
    | .stopped (.help _), hf =>
      have hexit : Kind.systemExit = kind := congrArg Exception.kind hf
      obtain rfl | rfl := hkind <;> exact absurd hexit (by decide)
    | .stopped .noProgram, _ | .stopped (.misuse _), _ | .argument _, _ | .selection _, _
    | .log _, _ | .dropped _, _ => rfl
  obtain rfl | rfl := hkind <;> simp only [Program.run, h, hf, houtput] <;> rfl

theorem report_of_stray (h : Rig.set s = .error f) (hf : f.isStray = true) :
    Program.run s steps = { exit := .error (.ofException f.exception), disk := s.disk } := by
  have houtput : f.output = "" := by
    cases f with
    | stopped => cases hf
    | _ => rfl
  obtain ⟨kind, hkind, text, htext⟩ := exception_of_stray hf
  simp only [List.mem_cons, List.not_mem_nil, or_false] at hkind
  obtain rfl | rfl := hkind <;> simp only [Program.run, h, htext, houtput] <;> rfl

end Report

/-- **What a refusal comes out as.**  A rig is not set up exactly if something is wrong in its setup,
and for the first thing that is.  If that is no stray fault, then the program either gives the help
that was asked for and exits with 0, or complains and exits with 1; a log that cannot be opened and
all other faults have kinds of their own.  A stray fault leaves the program as another exception. -/
theorem set_refusals (s : Setup) (steps : List Step) :
    (∀ f, Rig.set s = .error f ↔ s.Refuses f) ∧
    (∀ f, Rig.set s = .error f → f.isStray = false →
      (∃ text, f = .stopped (.help text) ∧ f.exception = { kind := .systemExit, args := [.int 0] } ∧
        Program.run s steps =
          { exit := .error (.ofException f.exception), output := text, disk := s.disk }) ∨
      ∃ kind text, f.exception = .of kind text ∧
        (kind = .logOpenFailure ∧ (∃ x, f = .log x) ∨
          kind = .invalidArgument ∧ ∀ x, f ≠ .log x) ∧
        Program.run s steps =
          { exit := .ok 1, message := "error: " ++ text ++ "\n", disk := s.disk }) ∧
    (∀ f, Rig.set s = .error f → f.isStray = true →
      (∃ kind ∈ [Kind.valueError, .attributeError], ∃ text, f.exception = .of kind text) ∧
      Program.run s steps = { exit := .error (.ofException f.exception), disk := s.disk }) := by
  refine ⟨fun f => set_eq_error, fun f h hf => ?_,
    fun f h hf => ⟨exception_of_stray hf, report_of_stray h hf⟩⟩
  obtain ⟨text, rfl⟩ | ⟨x, text, rfl, htext⟩ | ⟨hlog, text, htext⟩ :=
    exception_of_refuses (set_eq_error.mp h) hf
  · refine Or.inl ⟨text, rfl, rfl, ?_⟩
    simp only [Program.run, h]
    rfl
  · exact Or.inr ⟨_, text, htext, Or.inl ⟨rfl, x, rfl⟩, report_of_complaint h htext (by decide)⟩
  · exact Or.inr ⟨_, text, htext, Or.inr ⟨rfl, hlog⟩, report_of_complaint h htext (by decide)⟩

/-- A digit that is not decimal is a stray fault; a directory in place of the log is none. -/
theorem set_refusals_digit :
    (∃ f, Rig.set (.bare ["t", "-r", "s.²"]) = .error f ∧ f.isStray = true ∧
      ∃ kind ∈ [Kind.valueError, .attributeError], ∃ text, f.exception = .of kind text) ∧
    ∃ f, Rig.set (.bare ["t", "-l", "/tmp"]) = .error f ∧ f.isStray = false ∧
      ∃ kind text, f.exception = .of kind text ∧ Program.run (.bare ["t", "-l", "/tmp"]) [] =
        { exit := .ok 1, message := "error: " ++ text ++ "\n", disk := Disk.blank } := by
  have hdigit : Rig.set (.bare ["t", "-r", "s.²"]) = .error
      (.selection (.number (.numeral (.valueless "²")))) := eq_error_of_decide (by decide +kernel)
  have hlog : Rig.set (.bare ["t", "-l", "/tmp"]) = .error
      (.log ⟨.ofString "/tmp", .isDirectory⟩) := eq_error_of_decide (by decide +kernel)
  refine ⟨⟨_, hdigit, rfl, ((set_refusals _ []).2.2 _ hdigit rfl).1⟩, _, hlog, rfl, ?_⟩
  obtain ⟨text, htext, -⟩ | ⟨kind, text, hkind, -, hrun⟩ := (set_refusals _ []).2.1 _ hlog rfl
  · cases htext
  · exact ⟨kind, text, hkind, hrun⟩

end Rig

end TestRig
