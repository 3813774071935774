import TestRig.Proofs.Fate

/-!
# TestRig.Proofs.Limits — time limits that can be used

A time limit is turned into seconds before a process is waited for, and a wait with a descriptor
takes only so many milliseconds.

* `Binary64.isSome_ofInt?`: a number with few enough bits is a floating-point number.
* `Supervision.seconds_of_timeout`, `Supervision.limitFault?_eq_none`: a limit of less than `2147483648`
  milliseconds can be used.
-/

namespace TestRig

namespace Binary64

theorem exponentOf_le (n : Nat) : exponentOf n 1 ≤ max ((n.log2 : Int) - 51) (-1074) := by
  have hone : Nat.log2 1 = 0 := by decide
  unfold exponentOf
  simp only [hone]
  generalize scaled 2 n 1 _ = q
  split
  · omega
  · split <;> omega

/-- A natural number with few enough bits is a floating-point number. -/
theorem isSome_ofInt? {n : Nat} (h : n.log2 ≤ 1000) : (ofInt? n).isSome = true := by
  have hfinite : ∃ s m e, ofRatio (decide ((n : Int) < 0)) n 1 = finite s m e := by
    unfold ofRatio
    split
    · exact ⟨_, _, _, rfl⟩
    · have he := exponentOf_le n
      have hmax : maxExponent = 971 := rfl
      dsimp only
      generalize roundQuotient _ _ = m
      split
      · exact ⟨_, _, _, if_neg (by omega)⟩
      · exact ⟨_, _, _, if_neg (by omega)⟩
  obtain ⟨s, m, e, he⟩ := hfinite
  simp only [ofInt?, Int.natAbs_natCast, he, Option.isSome_some]

end Binary64

namespace Supervision

/-- A limit that can be waited for is a number of seconds. -/
theorem seconds_of_timeout {cfg : Configuration} {ms : Nat} (hc : cfg.timeout = some ms)
    (hms : ms < pollLimit) : ∃ x, cfg.seconds = .ok x := by
  have hbits : ms.log2 ≤ 1000 := by
    by_cases hz : ms = 0
    · rw [hz, Nat.log2_zero]
      omega
    · have hsmall : ms < 2 ^ 32 := Nat.lt_trans hms (by decide)
      have hlog := (Nat.log2_lt hz).mpr hsmall
      omega
  obtain ⟨x, hx⟩ := Option.isSome_iff_exists.mp (Binary64.isSome_ofInt? hbits)
  exact ⟨x.dividedBy 1000, by simp only [Configuration.seconds, hc, hx]⟩

theorem span_le (ms t : Nat) : span (1000 * ms) t ≤ max 1 ms := by
  have hdiv : (1000 * ms - t) / 1000 ≤ ms := by omega
  unfold span
  omega

theorem limitFault?_eq_none {cfg : Configuration} {ms : Nat} (hc : cfg.timeout = some ms)
    (hms : ms < pollLimit) (f : Faults) : limitFault? cfg f = none := by
  obtain ⟨x, hx⟩ := seconds_of_timeout hc hms
  have hspan := span_le ms (f.courses 0).begins
  have hmax : max 1 ms < pollLimit := Nat.max_lt.mpr ⟨by decide, hms⟩
  have hlong : tooLong? (span (1000 * ms) (f.courses 0).begins) = none :=
    tooLong?_eq_none_iff.mpr (Nat.lt_of_le_of_lt hspan hmax)
  simp [limitFault?, hx, hc, hlong]

end Supervision

end TestRig
