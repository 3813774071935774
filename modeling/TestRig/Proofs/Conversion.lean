import Mathlib.Data.List.Forall2
import Mathlib.Data.Nat.Digits.Defs
import TestRig.Proofs.Refusals

/-!
# TestRig.Proofs.Conversion — which texts are numbers

A test number and a time limit are written with decimal digits of any script, with blanks around them.
What stands there is read as the number it denotes; what is not read is either no text of digits, or a
text of digits that the conversion to a number refuses.

* `Text.Writes`: a text denotes a number in base ten; `Text.valueOf_eq_ofDigits` for the digits alone.
* `Text.trimChars_padded`: blanks around a text make no difference.
* `readTestNumber_eq_ok`: what is read, and as which number.
* `readTestNumber_invalid`, `readTestNumber_unconverted`: the two ways of not being read.
* `Configuration.readTimeout_eq_ok`: a time limit is read as a test number is.
* `numerals_are_read`: all of it, and what a command line makes of it.
-/

namespace TestRig

/-! ## What a text denotes -/

namespace Text

/-- The text denotes the number in base ten, the first character being the highest digit. -/
def Writes (cs : List Char) (n : Nat) : Prop :=
  ∃ ds, List.Forall₂ (fun c d => decimal? c = some d) cs ds ∧ Nat.ofDigits 10 ds.reverse = n

/-- The value of digits is the one of the digits from the lowest to the highest. -/
theorem valueOf_eq_ofDigits (b : Nat) (ds : List Nat) : valueOf b ds = Nat.ofDigits b ds.reverse := by
  rw [Nat.ofDigits_eq_foldr, List.foldr_reverse, valueOf]
  congr 1
  funext a d
  exact Nat.add_comm _ _

theorem mapM_decimal_eq_some {cs : List Char} {ds : List Nat} :
    cs.mapM decimal? = some ds ↔ List.Forall₂ (fun c d => decimal? c = some d) cs ds := by
  induction cs generalizing ds with
  | nil => simp [eq_comm]
  | cons c cs ih =>
    simp only [List.mapM_cons, Option.bind_eq_bind, Option.bind_eq_some_iff, Option.pure_def,
      Option.some.injEq]
    constructor
    · rintro ⟨d, hd, rest, hrest, rfl⟩
      exact .cons hd (ih.mp hrest)
    · rintro (_ | ⟨hd, hrest⟩)
      exact ⟨_, hd, _, ih.mpr hrest, rfl⟩

theorem Writes.isDecimal {cs : List Char} {n : Nat} (h : Writes cs n) :
    ∀ c ∈ cs, isDecimal c = true := by
  obtain ⟨ds, hds, -⟩ := h
  exact (of_mapM_decimal (mapM_decimal_eq_some.mpr hds)).2.1

/-- A numeral is read exactly if it is not too long, as the number that it denotes. -/
theorem readNat_eq_ok {cs : List Char} {n : Nat} :
    readNat cs = .ok n ↔ cs.length ≤ maxDigits ∧ Writes cs n := by
  have hread : readNat cs = .ok n ↔
      decimalRun cs ≤ maxDigits ∧ ∃ ds, cs.mapM decimal? = some ds ∧ valueOf 10 ds = n := by
    unfold readNat
    rw [← Nat.not_lt]
    generalize maxDigits = most
    by_cases hlong : most < decimalRun cs
    · simp [hlong]
    · cases cs.mapM decimal? <;> simp [hlong]
  rw [hread]
  constructor
  · rintro ⟨hrun, ds, hds, hn⟩
    rw [decimalRun_of_forall (of_mapM_decimal hds).2.1] at hrun
    exact ⟨hrun, ds, mapM_decimal_eq_some.mp hds, valueOf_eq_ofDigits 10 ds ▸ hn⟩
  · rintro ⟨hlen, h⟩
    rw [decimalRun_of_forall h.isDecimal]
    obtain ⟨ds, hds, hn⟩ := h
    exact ⟨hlen, ds, mapM_decimal_eq_some.mpr hds, (valueOf_eq_ofDigits 10 ds).trans hn⟩

/-- The numeral of a number denotes it, with any zeros in front. -/
theorem writes_natChars {zs : List Char} (hzs : ∀ z ∈ zs, decimal? z = some 0) (n : Nat) :
    Writes (zs ++ natChars n) n := by
  refine ⟨List.replicate zs.length 0 ++ digits 10 n, ?_, ?_⟩
  · refine List.rel_append ?_ (mapM_decimal_eq_some.mp (mapM_decimal_digitChar (digits_lt (by decide))))
    induction zs with
    | nil => exact .nil
    | cons z zs ih =>
      exact .cons (hzs z List.mem_cons_self) (ih fun z' hz' => hzs z' (List.mem_cons_of_mem _ hz'))
  · rw [List.reverse_append, List.reverse_replicate, Nat.ofDigits_append, Nat.ofDigits_replicate_zero,
      Nat.mul_zero, Nat.add_zero, ← valueOf_eq_ofDigits, valueOf_digits]

/-! ## Blanks around a text -/

/-- Blanks around a text make no difference. -/
theorem trimChars_padded {a b : List Char} (ha : ∀ c ∈ a, isBlank c = true)
    (hb : ∀ c ∈ b, isBlank c = true) (cs : List Char) : trimChars (a ++ cs ++ b) = trimChars cs := by
  have hfront : (a ++ cs ++ b).dropWhile isBlank = (cs ++ b).dropWhile isBlank := by
    rw [List.append_assoc, List.dropWhile_append_of_pos ha]
  rw [trimChars, hfront, List.dropWhile_append]
  split
  · rename_i hnil
    have hblank : ∀ c ∈ b.dropWhile isBlank, isBlank c = true := fun c hc =>
      hb c ((List.dropWhile_sublist _).mem hc)
    rw [trimChars, List.isEmpty_iff.mp hnil, dropWhileEnd_of_all (List.all_eq_true.mpr hblank)]
    rfl
  · rw [dropWhileEnd_append_of_all (List.all_eq_true.mpr hb), trimChars]

/-- No decimal digit is a blank. -/
theorem isBlank_of_decimal {c : Char} {d : Nat} (h : decimal? c = some d) : isBlank c = false := by
  have hruns : ∀ z ∈ decimalZeros, ∀ i < 10, isBlank (Char.ofNat (z + i)) = false := by
    decide +kernel
  obtain ⟨z, hz, rfl⟩ := Option.map_eq_some_iff.mp h
  have hin := List.find?_some hz
  simp only [Bool.and_eq_true, decide_eq_true_eq] at hin
  have hc : c = Char.ofNat (z + (c.toNat - z)) := by
    rw [Nat.add_sub_cancel' hin.1, Char.ofNat_toNat]
  rw [hc]
  exact hruns z (List.mem_of_find?_eq_some hz) _ (by omega)

end Text

/-! ## Test numbers -/

/-- A test number is read exactly if its trimmed text is a numeral of at most `maxDigits` decimal
digits, as the number that this text denotes. -/
theorem readTestNumber_eq_ok {t : String} {n : Nat} : readTestNumber t = .ok n ↔
    1 ≤ (Text.trimChars t.toList).length ∧ (Text.trimChars t.toList).length ≤ Text.maxDigits ∧
      Text.Writes (Text.trimChars t.toList) n := by
  unfold readTestNumber
  generalize Text.trimChars t.toList = u
  dsimp only
  rw [Nat.one_le_iff_ne_zero, Ne, List.length_eq_zero_iff, ← Text.readNat_eq_ok]
  by_cases hnil : u = []
  · simp [hnil]
  rw [if_neg (by simpa using hnil), and_iff_right hnil]
  by_cases hdigits : ∀ c ∈ u, Text.isDigit c = true
  · rw [if_neg (by simpa using hdigits), mapError_eq_ok]
  · rw [if_pos (by simpa using hdigits)]
    refine iff_of_false (fun h => nomatch h) fun h => hdigits fun c hc => ?_
    exact Text.isDigit_of_decimal ((Text.readNat_eq_ok.mp h).2.isDecimal c hc)

theorem NumberFault.kind_numeral (x : Text.NumeralFault) :
    (NumberFault.numeral x).exception.kind = .valueError := by
  cases x <;> rfl

theorem Kind.valueError_ne_invalidArgument : valueError ≠ invalidArgument := by decide

/-- A text is refused as an argument exactly if nothing or something else than a digit stands there. -/
theorem readTestNumber_invalid {t : String} :
    (∃ f, readTestNumber t = .error f ∧ f.exception.kind = .invalidArgument) ↔
      Text.trimChars t.toList = [] ∨ ∃ c ∈ Text.trimChars t.toList, Text.isDigit c = false := by
  simp only [readTestNumber_eq_error]
  generalize Text.trimChars t.toList = u
  constructor
  · rintro ⟨f, hf, hkind⟩
    cases hf with
    | missing => exact Or.inl rfl
    | malformed hc hno => exact Or.inr ⟨_, hc, hno⟩
    | tooLong => exact absurd hkind Kind.valueError_ne_invalidArgument
    | valueless => exact absurd hkind Kind.valueError_ne_invalidArgument
  · rintro (rfl | ⟨c, hc, hno⟩)
    · exact ⟨_, .missing, rfl⟩
    · exact ⟨_, .malformed hc hno, rfl⟩

/-- A text of digits fails to be converted exactly if it is too long or has a digit that is not
decimal. -/
theorem readTestNumber_unconverted {t : String} :
    (∃ f, readTestNumber t = .error f ∧ f.exception.kind = .valueError) ↔
      Text.trimChars t.toList ≠ [] ∧ (∀ c ∈ Text.trimChars t.toList, Text.isDigit c = true) ∧
      (Text.maxDigits < (Text.trimChars t.toList).length ∨
        ∃ c ∈ Text.trimChars t.toList, Text.isDecimal c = false) := by
  simp only [readTestNumber_eq_error]
  generalize Text.trimChars t.toList = u
  constructor
  · rintro ⟨f, hf, hkind⟩
    cases hf with
    | missing => exact absurd hkind.symm Kind.valueError_ne_invalidArgument
    | malformed => exact absurd hkind.symm Kind.valueError_ne_invalidArgument
    | tooLong hdigits hrun =>
      have hlen : Text.decimalRun u ≤ u.length := (List.takeWhile_sublist _).length_le
      refine ⟨?_, hdigits, Or.inl (Nat.lt_of_lt_of_le hrun hlen)⟩
      rintro rfl
      cases hrun
    | valueless hdigits _ hc hno =>
      exact ⟨List.ne_nil_of_mem hc, hdigits, Or.inr ⟨_, hc, hno⟩⟩
  · rintro ⟨hnil, hdigits, hwrong⟩
    have hread : ∃ x, Text.readNat u = .error x := by
      rcases Nat.lt_or_ge Text.maxDigits (Text.decimalRun u) with hrun | hrun
      · exact ⟨_, Text.readNat_eq_error.mpr (Or.inl ⟨hrun, rfl⟩)⟩
      · -- A text whose beginning is short enough is too long only with a digit that is not decimal.
        have hplain : ∃ c ∈ u, Text.isDecimal c = false := by
          refine hwrong.elim (fun hlong => ?_) id
          by_contra hall
          push Not at hall
          rw [Text.decimalRun_of_forall (by simpa using hall)] at hrun
          omega
        exact ⟨_, Text.readNat_eq_error.mpr (Or.inr ⟨hrun, hplain, rfl⟩)⟩
    obtain ⟨x, hx⟩ := hread
    exact ⟨.numeral x, (Misnumbers.iff_of_digits hnil hdigits).mpr ⟨x, hx, rfl⟩,
      NumberFault.kind_numeral x⟩

/-- A number is read from its numeral, with zeros in front and blanks around it. -/
theorem readTestNumber_padded {a b zs : String} (ha : Text.isBlankText a = true)
    (hb : Text.isBlankText b = true) (hzs : ∀ z ∈ zs.toList, Text.decimal? z = some 0) {n : Nat}
    (hlen : zs.toList.length + (Text.natChars n).length ≤ Text.maxDigits) :
    readTestNumber (a ++ zs ++ Text.showNat n ++ b) = .ok n := by
  have hends : ∀ c ∈ zs.toList ++ Text.natChars n, Text.isBlank c = false := by
    intro c hc
    rcases List.mem_append.mp hc with hz | hd
    · exact Text.isBlank_of_decimal (hzs c hz)
    · exact (Text.natChars_spec hd).2.1
  have htrim : Text.trimChars (a ++ zs ++ Text.showNat n ++ b).toList =
      zs.toList ++ Text.natChars n := by
    rw [String.toList_append, String.toList_append, String.toList_append, Text.showNat,
      String.toList_ofList, List.append_assoc a.toList,
      Text.trimChars_padded (List.all_eq_true.mp ha) (List.all_eq_true.mp hb)]
    exact Text.trimChars_of_ends (fun c hc => hends c (List.mem_of_mem_head? hc))
      fun c hc => hends c (List.mem_of_getLast? hc)
  have hpos : 0 < (Text.natChars n).length := List.length_pos_iff.mpr (Text.natChars_ne_nil n)
  rw [readTestNumber_eq_ok, htrim, List.length_append]
  exact ⟨by omega, hlen, Text.writes_natChars hzs n⟩

/-! ## Time limits -/

namespace Configuration

variable {program : Path} {words : List Options.Word} {s : String}

/-- A time limit is read exactly if a test number is, as the same number. -/
theorem readTimeout_eq_ok {n : Nat} : readTimeout s = .ok n ↔ readTestNumber s = .ok n := by
  unfold readTimeout readTestNumber
  generalize Text.trimChars s.toList = u
  dsimp only
  cases u.isEmpty
  · cases u.all Text.isDigit
    · simp
    · simp [mapError_eq_ok]
  · simp

/-- The options set a time limit with this text, and nothing is wrong with those in front. -/
def GivesLimit (program : Path) (words : List Options.Word) (s : String) : Prop :=
  ∃ pre u post c, (Options.read grammar false words).uses = pre ++ u :: post ∧
    pre.foldlM apply { program } = .ok c ∧ u.entry.meaning = .timeout ∧ u.value = some s

/-- A time limit that is not read is a misuse of its option. -/
theorem ofWords_badLimit (h : GivesLimit program words s) (hs : ∀ n, readTimeout s ≠ .ok n) :
    ∃ m, ofWords program words = .error (.misuse m) := by
  obtain ⟨pre, u, post, c, huses, hpre, hmeaning, hvalue⟩ := h
  obtain ⟨reason, hreason⟩ : ∃ reason, readTimeout s = .error reason := by
    cases hr : readTimeout s with
    | error reason => exact ⟨reason, rfl⟩
    | ok n => exact absurd hr (hs n)
  have hu : apply c u = .error (.misuse (.badValue u.entry.title reason)) := by
    simp [apply, hmeaning, readValue, hvalue, hreason, bind, Except.bind]
  have hstop := foldlM_eq_error.mpr ⟨pre, u, post, c, huses, hpre, hu⟩
  refine ⟨.badValue u.entry.title reason, ?_⟩
  simp [ofWords, Options.Reading.act, hstop, bind, Except.bind]

end Configuration

/-- **Which texts are numbers.**  A test number is read from a text whose trimmed form consists of one
to `maxDigits` decimal digits, as the number these denote.  It is an invalid argument exactly if nothing
or something else than a digit stands there; every other text fails to be converted.  So a number is read
from its numeral whatever blanks are around it and zeros in front, as long as the digits are not too
many.  A time limit is read from the same texts as the same numbers, and one that is not read makes a
command line invalid. -/
theorem numerals_are_read :
    (∀ t n, readTestNumber t = .ok n ↔
      1 ≤ (Text.trimChars t.toList).length ∧ (Text.trimChars t.toList).length ≤ Text.maxDigits ∧
      Text.Writes (Text.trimChars t.toList) n) ∧
    (∀ t, (∃ f, readTestNumber t = .error f ∧ f.exception.kind = .invalidArgument) ↔
      Text.trimChars t.toList = [] ∨ ∃ c ∈ Text.trimChars t.toList, Text.isDigit c = false) ∧
    (∀ t, (∃ f, readTestNumber t = .error f ∧ f.exception.kind = .valueError) ↔
      Text.trimChars t.toList ≠ [] ∧ (∀ c ∈ Text.trimChars t.toList, Text.isDigit c = true) ∧
      (Text.maxDigits < (Text.trimChars t.toList).length ∨
        ∃ c ∈ Text.trimChars t.toList, Text.isDecimal c = false)) ∧
    (∀ a b n, Text.isBlankText a = true → Text.isBlankText b = true → n < 10 ^ Text.maxDigits →
      readTestNumber (a ++ Text.showNat n ++ b) = .ok n) ∧
    (∀ a b zs n, Text.isBlankText a = true → Text.isBlankText b = true →
      (∀ z ∈ zs.toList, Text.decimal? z = some 0) →
      zs.toList.length + (Text.natChars n).length ≤ Text.maxDigits →
      readTestNumber (a ++ zs ++ Text.showNat n ++ b) = .ok n) ∧
    (∀ s n, Configuration.readTimeout s = .ok n ↔ readTestNumber s = .ok n) ∧
    ∀ program words s, Configuration.GivesLimit (.ofString program) (words.map some) s →
      (∀ n, Configuration.readTimeout s ≠ .ok n) →
      ∃ stop, Configuration.ofArgv (program :: words) = .error stop ∧
        stop.exception.kind = .invalidArgument := by
  refine ⟨fun _ _ => readTestNumber_eq_ok, fun _ => readTestNumber_invalid,
    fun _ => readTestNumber_unconverted, fun a b n ha hb hn => ?_,
    fun a b zs n ha hb hzs hlen => readTestNumber_padded ha hb hzs hlen,
    fun _ _ => Configuration.readTimeout_eq_ok, fun program words s hgives hs => ?_⟩
  · have hlen : (Text.natChars n).length ≤ Text.maxDigits := by
      rw [Text.natChars, Text.numeral, List.length_map]
      exact Text.length_digits_le (by decide) hn
    have hread := @readTestNumber_padded a b "" ha hb (by simp) n (by simpa using hlen)
    rwa [String.append_empty] at hread
  · obtain ⟨m, hm⟩ := Configuration.ofWords_badLimit hgives hs
    exact ⟨.misuse m, hm, rfl⟩

/-- Zeros of another script and blanks are read over; a superscript is no time limit. -/
theorem numerals_are_read_beside_others : readTestNumber "\t٠٠42 " = .ok 42 ∧
    ∃ stop, Configuration.ofArgv ["t", "-t", "²"] = .error stop ∧
      stop.exception.kind = .invalidArgument := by
  obtain ⟨hok, -, -, -, hpadded, hsame, hlimit⟩ := numerals_are_read
  constructor
  · have hzeros : ∀ z ∈ "٠٠".toList, Text.decimal? z = some 0 := by
      have hlist : "٠٠".toList = ['٠', '٠'] := rfl
      rw [hlist, List.forall_mem_cons, List.forall_mem_singleton]
      exact ⟨rfl, rfl⟩
    have hread := hpadded "\t" " " "٠٠" 42 (by decide) (by decide) hzeros (by decide +kernel)
    have hshown : "\t" ++ "٠٠" ++ Text.showNat 42 ++ " " = "\t٠٠42 " := by decide +kernel
    rwa [hshown] at hread
  · refine hlimit "t" ["-t", "²"] "²" ⟨[], _, [], _, rfl, rfl, rfl, rfl⟩ fun n hn => ?_
    have hwrites := ((hok "²" n).mp ((hsame "²" n).mp hn)).2.2
    exact absurd (hwrites.isDecimal '²' (by decide)) (by decide)

end TestRig
