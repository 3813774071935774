import Mathlib.Algebra.GroupWithZero.Nat
import TestRig.Proofs.Reading

/-!
# TestRig.Proofs.Numerals — written numbers are read back

A number below `10 ^ maxDigits` has at most `maxDigits` digits and is read back from its numeral; no
greater number is ever read.

* `Text.length_digits_le` and `Text.valueOf_lt`: how many digits a number has.
* `Text.readNat_natChars` and `Text.lt_of_readNat`: reading a numeral, and what can be read.
* `Text.trimChars_of_ends`: a text with a blank at neither end is not trimmed.
* `readTestNumber_natChars`, `Configuration.readTimeout_showNat`: test numbers and time limits.
* `readTestNumber_eq_error`: what is wrong with a text that is no test number (`Misnumbers`).
-/

namespace TestRig

namespace Text

/-! ## How many digits a number has -/

theorem length_digitsOnto_le {b n : Nat} {acc : List Nat} : ∀ {k : Nat},
    n < b ^ (k + 1) → (digitsOnto b n acc).length ≤ k + 1 + acc.length := by
  fun_induction digitsOnto b n acc with
  | case1 n acc h ih =>
    intro k hn
    cases k with
    | zero =>
      rw [Nat.pow_one] at hn
      omega
    | succ k =>
      have hdiv : n / b < b ^ (k + 1) := by
        rw [Nat.pow_succ] at hn
        exact Nat.div_lt_of_lt_mul (by rwa [Nat.mul_comm])
      have hrest := ih hdiv
      rw [List.length_cons] at hrest
      omega
  | case2 n acc h =>
    intro k _
    rw [List.length_cons]
    omega

theorem length_digits_le {b n k : Nat} (hk : 0 < k) (hn : n < b ^ k) :
    (digits b n).length ≤ k := by
  obtain ⟨k, rfl⟩ : ∃ j, k = j + 1 := ⟨k - 1, by omega⟩
  exact length_digitsOnto_le hn

theorem foldl_valueOf_lt {b : Nat} : ∀ {ds : List Nat} {a : Nat}, (∀ d ∈ ds, d < b) →
    ds.foldl (fun acc d => b * acc + d) a < (a + 1) * b ^ ds.length
  | [], a, _ => by simp
  | d :: ds, a, h => by
    have hd := h d List.mem_cons_self
    have hrest := foldl_valueOf_lt (a := b * a + d) fun d' hd' => h d' (List.mem_cons_of_mem _ hd')
    have hstep : b * a + d + 1 ≤ (a + 1) * b := by
      rw [Nat.add_mul, Nat.one_mul, Nat.mul_comm a b]
      omega
    calc ds.foldl (fun acc d => b * acc + d) (b * a + d)
        < (b * a + d + 1) * b ^ ds.length := hrest
      _ ≤ (a + 1) * b * b ^ ds.length := Nat.mul_le_mul_right _ hstep
      _ = (a + 1) * b ^ (ds.length + 1) := by rw [Nat.mul_assoc, Nat.pow_succ, Nat.mul_comm b]

theorem valueOf_lt {b : Nat} {ds : List Nat} (h : ∀ d ∈ ds, d < b) :
    valueOf b ds < b ^ ds.length := by
  have hlt := foldl_valueOf_lt (a := 0) h
  rwa [Nat.zero_add, Nat.one_mul] at hlt

/-! ## Characters of numerals -/

/-- The characters of decimal numerals: decimal digits of one script, none of them a blank, a dot or
a dash. -/
theorem digitChar_spec : ∀ d < 10, decimal? (digitChar false d) = some d ∧
    isBlank (digitChar false d) = false ∧ digitChar false d ≠ '.' := by
  decide +kernel

theorem natChars_spec {n : Nat} {c : Char} (h : c ∈ natChars n) :
    isDecimal c = true ∧ isBlank c = false ∧ c ≠ '.' := by
  obtain ⟨d, hd, rfl⟩ := List.mem_map.mp h
  obtain ⟨h₁, h₂, h₃⟩ := digitChar_spec d (digits_lt (by decide) d hd)
  exact ⟨by rw [isDecimal, h₁]; rfl, h₂, h₃⟩

theorem digitsOnto_ne_nil (b n : Nat) (acc : List Nat) : digitsOnto b n acc ≠ [] := by
  fun_induction digitsOnto b n acc with
  | case1 n acc h ih => exact ih
  | case2 n acc h => simp

theorem natChars_ne_nil (n : Nat) : natChars n ≠ [] := by
  rw [natChars, numeral, Ne, List.map_eq_nil_iff]
  exact digitsOnto_ne_nil 10 n []

theorem mapM_decimal_digitChar : ∀ {ds : List Nat}, (∀ d ∈ ds, d < 10) →
    (ds.map (digitChar false)).mapM decimal? = some ds
  | [], _ => rfl
  | d :: ds, h => by
    have hd := (digitChar_spec d (h d List.mem_cons_self)).1
    have hrest := mapM_decimal_digitChar fun d' hd' => h d' (List.mem_cons_of_mem _ hd')
    simp [hd, hrest]

/-! ## Reading -/

/-- What is read as decimal digits are decimal digits. -/
theorem of_mapM_decimal : ∀ {cs : List Char} {ds : List Nat}, cs.mapM decimal? = some ds →
    ds.length = cs.length ∧ (∀ c ∈ cs, isDecimal c = true) ∧ ∀ d ∈ ds, d < 10
  | [], ds, h => by
    cases h
    simp
  | c :: cs, ds, h => by
    simp only [List.mapM_cons, Option.bind_eq_bind, Option.bind_eq_some_iff, Option.pure_def,
      Option.some.injEq] at h
    obtain ⟨d, hd, ds, hds, rfl⟩ := h
    obtain ⟨hlen, hcs, hlt⟩ := of_mapM_decimal hds
    refine ⟨by simp [hlen], ?_, ?_⟩
    · simpa [isDecimal, hd] using hcs
    · simpa [decimal?_lt hd] using hlt

/-- A text of which not every character is a decimal digit has no value. -/
theorem mapM_decimal_eq_none {cs : List Char} : cs.mapM decimal? = none ↔ ∃ c ∈ cs, isDecimal c = false := by
  induction cs with
  | nil => simp
  | cons c cs ih =>
    cases hc : decimal? c with
    | none => simp [hc, isDecimal]
    | some d =>
      cases hcs : cs.mapM decimal? with
      | none => simpa [hc, hcs, isDecimal] using ih.mp hcs
      | some ds =>
        have hall := (of_mapM_decimal hcs).2.1
        simp only [List.mapM_cons, hc, hcs, Option.bind_eq_bind, Option.bind_some, Option.pure_def,
          reduceCtorEq, false_iff]
        rintro ⟨x, hx, hno⟩
        rcases List.mem_cons.mp hx with rfl | hx
        · simp [isDecimal, hc] at hno
        · rw [hall x hx] at hno
          cases hno

theorem decimalRun_of_forall {cs : List Char} (h : ∀ c ∈ cs, isDecimal c = true) :
    decimalRun cs = cs.length := by
  have htake : (cs ++ []).takeWhile isDecimal = cs ++ [].takeWhile isDecimal :=
    List.takeWhile_append_of_pos h
  rw [List.append_nil, List.takeWhile_nil, List.append_nil] at htake
  rw [decimalRun, htake]

/-- A number with at most `maxDigits` digits is read back. -/
theorem readNat_natChars {n : Nat} (h : n < 10 ^ maxDigits) : readNat (natChars n) = .ok n := by
  have hrun : decimalRun (natChars n) ≤ maxDigits := by
    rw [decimalRun_of_forall fun c hc => (natChars_spec hc).1, natChars, numeral, List.length_map]
    exact length_digits_le (by decide) h
  have hread : (natChars n).mapM decimal? = some (digits 10 n) :=
    mapM_decimal_digitChar (digits_lt (by decide))
  rw [readNat, if_neg (by omega), hread]
  simp

/-- What is not read begins with too many digits, or has a character that is no decimal digit. -/
theorem readNat_eq_error {cs : List Char} {x : NumeralFault} : readNat cs = .error x ↔
    (maxDigits < decimalRun cs ∧ x = .tooLong (decimalRun cs)) ∨
    (decimalRun cs ≤ maxDigits ∧ (∃ c ∈ cs, isDecimal c = false) ∧
      x = .valueless (String.ofList cs)) := by
  unfold readNat
  rw [← mapM_decimal_eq_none, ← Nat.not_lt]
  generalize maxDigits = most
  by_cases hlong : most < decimalRun cs
  · simp [hlong, eq_comm]
  · cases cs.mapM decimal? <;> simp [hlong, eq_comm]

/-- No greater number is read. -/
theorem lt_of_readNat {cs : List Char} {n : Nat} (h : readNat cs = .ok n) : n < 10 ^ maxDigits := by
  unfold readNat at h
  split at h
  · cases h
  · rename_i hrun
    split at h
    · rename_i ds hds
      cases h
      obtain ⟨hlen, hcs, hlt⟩ := of_mapM_decimal hds
      rw [decimalRun_of_forall hcs, ← hlen] at hrun
      exact Nat.lt_of_lt_of_le (valueOf_lt hlt) (Nat.pow_le_pow_right (by decide) (by omega))
    · cases h

/-! ## Trimming -/

theorem dropWhileEnd_of_getLast {p : Char → Bool} {cs : List Char}
    (h : ∀ c ∈ cs.getLast?, p c = false) : dropWhileEnd p cs = cs := by
  rcases List.eq_nil_or_concat cs with rfl | ⟨a, c, rfl⟩
  · rfl
  · rw [List.concat_eq_append] at h ⊢
    exact dropWhileEnd_append_singleton (h c (by simp))

theorem dropWhile_of_head {p : Char → Bool} {cs : List Char} (h : ∀ c ∈ cs.head?, p c = false) :
    cs.dropWhile p = cs := by
  cases cs with
  | nil => rfl
  | cons c r => rw [List.dropWhile_cons, if_neg (by simp [h c rfl])]

/-- A text with a blank at neither end is not trimmed. -/
theorem trimChars_of_ends {cs : List Char} (hfirst : ∀ c ∈ cs.head?, isBlank c = false)
    (hlast : ∀ c ∈ cs.getLast?, isBlank c = false) : trimChars cs = cs := by
  rw [trimChars, dropWhile_of_head hfirst, dropWhileEnd_of_getLast hlast]

theorem trimChars_natChars (n : Nat) : trimChars (natChars n) = natChars n :=
  trimChars_of_ends (fun _ hc => (natChars_spec (List.mem_of_mem_head? hc)).2.1)
    fun _ hc => (natChars_spec (List.mem_of_getLast? hc)).2.1

theorem all_isDigit_natChars (n : Nat) : (natChars n).all isDigit = true :=
  List.all_eq_true.mpr fun _ hc => isDigit_of_decimal (natChars_spec hc).1

end Text

theorem Identity.isWritable_iff {test : Identity} :
    test.isWritable = true ↔ test.number < 10 ^ Text.maxDigits := by
  simp only [Identity.isWritable, Nat.pow_eq, decide_eq_true_eq]

theorem readTestNumber_natChars {n : Nat} (h : n < 10 ^ Text.maxDigits) :
    readTestNumber (String.ofList (Text.natChars n)) = .ok n := by
  simp [readTestNumber, Text.trimChars_natChars, Text.natChars_ne_nil, Text.all_isDigit_natChars,
    Text.readNat_natChars h, mapError_eq_ok]

/-! ## Test numbers that are not read -/

/-- What is wrong with a trimmed text as a test number. -/
inductive Misnumbers : List Char → NumberFault → Prop
  | missing : Misnumbers [] .missing
  | malformed {cs : List Char} {c : Char} (h : c ∈ cs) (hc : Text.isDigit c = false) :
      Misnumbers cs (.malformed (String.ofList cs))
  /-- Digits, but too many decimal ones at the beginning. -/
  | tooLong {cs : List Char} (h : ∀ c ∈ cs, Text.isDigit c = true)
      (hrun : Text.maxDigits < Text.decimalRun cs) :
      Misnumbers cs (.numeral (.tooLong (Text.decimalRun cs)))
  /-- Digits, but one of them has no decimal value. -/
  | valueless {cs : List Char} {c : Char} (h : ∀ c ∈ cs, Text.isDigit c = true)
      (hrun : Text.decimalRun cs ≤ Text.maxDigits) (hc : c ∈ cs) (hd : Text.isDecimal c = false) :
      Misnumbers cs (.numeral (.valueless (String.ofList cs)))

namespace Misnumbers

variable {cs : List Char} {f : NumberFault}

theorem nil_iff : Misnumbers [] f ↔ f = .missing := by
  constructor
  · intro h
    cases h with
    | missing => rfl
    | malformed h => cases h
    | tooLong _ hrun => cases hrun
    | valueless _ _ hc => cases hc
  · rintro rfl
    exact .missing

theorem iff_of_not_digit {c : Char} (hc : c ∈ cs) (hno : Text.isDigit c = false) :
    Misnumbers cs f ↔ f = .malformed (String.ofList cs) := by
  have hdigits : ¬ ∀ c ∈ cs, Text.isDigit c = true := fun h => by
    rw [h c hc] at hno
    cases hno
  constructor
  · intro h
    cases h with
    | missing => cases hc
    | malformed => rfl
    | tooLong h => exact absurd h hdigits
    | valueless h => exact absurd h hdigits
  · rintro rfl
    exact .malformed hc hno

/-- With digits only, it is the numeral that something is wrong with. -/
theorem iff_of_digits (hnil : cs ≠ []) (hdigits : ∀ c ∈ cs, Text.isDigit c = true) :
    Misnumbers cs f ↔ ∃ x, Text.readNat cs = .error x ∧ f = .numeral x := by
  constructor
  · intro h
    cases h with
    | missing => exact absurd rfl hnil
    | malformed hc hno => rw [hdigits _ hc] at hno; cases hno
    | tooLong _ hrun => exact ⟨_, Text.readNat_eq_error.mpr (Or.inl ⟨hrun, rfl⟩), rfl⟩
    | valueless _ hrun hc hd =>
      exact ⟨_, Text.readNat_eq_error.mpr (Or.inr ⟨hrun, ⟨_, hc, hd⟩, rfl⟩), rfl⟩
  · rintro ⟨x, hx, rfl⟩
    rcases Text.readNat_eq_error.mp hx with ⟨hrun, rfl⟩ | ⟨hrun, ⟨c, hc, hd⟩, rfl⟩
    · exact .tooLong hdigits hrun
    · exact .valueless hdigits hrun hc hd

end Misnumbers

/-- A test number is read unless something is wrong with its trimmed text. -/
theorem readTestNumber_eq_error {s : String} {f : NumberFault} :
    readTestNumber s = .error f ↔ Misnumbers (Text.trimChars s.toList) f := by
  unfold readTestNumber
  generalize Text.trimChars s.toList = cs
  dsimp only
  by_cases hnil : cs = []
  · subst hnil
    rw [Misnumbers.nil_iff, eq_comm (a := f)]
    exact ⟨Except.error.inj, congrArg Except.error⟩
  rw [if_neg (by simpa using hnil)]
  by_cases hdigits : ∀ c ∈ cs, Text.isDigit c = true
  · rw [if_neg (by simpa using hdigits), Misnumbers.iff_of_digits hnil hdigits, mapError_eq_error]
    simp only [eq_comm]
  · obtain ⟨c, hc, hno⟩ : ∃ c ∈ cs, Text.isDigit c = false := by simpa using hdigits
    rw [if_pos (by simpa using ⟨c, hc, hno⟩), Misnumbers.iff_of_not_digit hc hno, eq_comm (a := f)]
    exact ⟨Except.error.inj, congrArg Except.error⟩

namespace Configuration

theorem readTimeout_showNat {ms : Nat} (h : ms < 10 ^ Text.maxDigits) :
    readTimeout (Text.showNat ms) = .ok ms := by
  simp [readTimeout, Text.showNat, Text.trimChars_natChars, Text.natChars_ne_nil,
    Text.all_isDigit_natChars, Text.readNat_natChars h, mapError_eq_ok]

theorem lt_of_readTimeout {s : String} {ms : Nat} (h : readTimeout s = .ok ms) :
    ms < 10 ^ Text.maxDigits := by
  unfold readTimeout at h
  dsimp only at h
  split at h
  · cases h
  · exact Text.lt_of_readNat (mapError_eq_ok.mp h)

end Configuration

end TestRig
