import TestRig.Supervision.Line

/-!
# TestRig.Supervision.Wait — waiting for a child process

Time is counted in microseconds from when the limit of a child is set.  This process waits for the
child to end up to the limit, in one of two ways.

* `watch` waits with a descriptor; a wait takes whole milliseconds, and at least one.
* `look` looks at the child and sleeps, over and over.
* Each gives a `Sighting`: what it came to, and when.
-/

namespace TestRig.Supervision

/-- Why a wait does not come to its end. -/
inductive Stop
  | raised (h : Halt)
  /-- The user interrupts it; the child may have been collected. -/
  | interrupted (collected : Bool)

/-- What a wait came to, and when: the ending that was seen, nothing if the limit is over, or what
stopped it. -/
structure Sighting where
  found : Except Stop (Option Status)
  time : Nat
  faults : Faults

/-- Waiting with a descriptor is limited to numbers of milliseconds below these. -/
def pollLimit : Nat := 2147483648
def clockLimit : Nat := 9223372036855

/-- Why a number of milliseconds is too many for waiting with a descriptor. -/
def tooLong? (ms : Nat) : Option Exception :=
  if clockLimit ≤ ms then some (.of .overflowError "timestamp too large to convert to C _PyTime_t")
  else if pollLimit ≤ ms then some (.of .overflowError "timeout is too large")
  else none

/-- The milliseconds of one wait with a descriptor. -/
def span (limit t : Nat) : Nat := max 1 ((limit - t) / 1000)

/-- The time between two looks. -/
def pollInterval : Nat := 5000

/-- Wait with a descriptor from a time on; `n` steps were made before. -/
def watch (k : Course) (status : Option Status) (limit n t : Nat) (f : Faults) : Sighting :=
  if _h : limit ≤ t then ⟨.ok none, t, f⟩ else
  match tooLong? (span limit t) with
  | some e => ⟨.error (.raised (.ofException e)), t, f⟩
  | none => match f.callPoll with
    | (true, f) => ⟨.error (.interrupted false), t, f⟩
    | (false, f) =>
      let t' := t + 1000 * span limit t + k.lags n
      match k.ended? status t' with
      | some s => ⟨.ok (some s), t', f⟩
      | none => watch k status limit (n + 1) t' f
termination_by limit - t
decreasing_by
  have : 1 ≤ span limit t := Nat.le_max_left _ _
  omega

/-- Look at a child from a time on; `n` looks were made before. -/
def look (k : Course) (status : Option Status) (limit n t : Nat) (f : Faults) : Sighting :=
  match f.callWait with
  | (some (.failed e), f) => ⟨.error (.raised (controlFailure "waitpid" e)), t, f⟩
  | (some (.interrupted collected), f) =>
    ⟨.error (.interrupted (collected && (k.ended? status t).isSome)), t, f⟩
  | (none, f) => match k.ended? status t with
    | some s => ⟨.ok (some s), t, f⟩
    | none =>
      if _h : limit ≤ t then ⟨.ok none, t, f⟩
      else look k status limit (n + 1) (t + min pollInterval (limit - t) + k.lags n) f
termination_by limit - t
decreasing_by
  have : 0 < min pollInterval (limit - t) := Nat.lt_min.mpr ⟨by decide, by omega⟩
  omega

end TestRig.Supervision
