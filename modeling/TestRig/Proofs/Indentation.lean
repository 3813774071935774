import TestRig.Exception.Report
import TestRig.Proofs.Paths
import TestRig.Proofs.Specifications

/-!
# TestRig.Proofs.Indentation — an indented report can be undone

A report is made of chunks, and every line of every chunk is written with four spaces in front of it.
Cut at its newlines, the indented report consists of whole lines with that indentation, and without it
they are the chunks one after the other, each ended by exactly one newline.

* `Text.splitAt_eq_splitOn`: cutting at a separator, in the words of the library of lists.
* `Text.splitOn_flatMap_ended`, `Text.flatMap_ended_splitOn`: lines that are ended one by one, and back.
* `Thrown.toList_indented`: an indented report by its lines.
* `Thrown.indentation_undone`: what is left of an indented report without the indentation.
-/

namespace TestRig

/-! ## Lines -/

namespace Text

variable {c : Char}

theorem splitAt_eq_splitOn (c : Char) (cs : List Char) : splitAt c cs = cs.splitOn c := by
  have hcut := List.splitOn_intercalate c (fun _ => not_mem_of_mem_splitAt) (splitAt_ne_nil c cs)
  rw [← joinWith_eq_intercalate, joinWith_splitAt] at hcut
  exact hcut.symm

/-- Pieces that are ended one by one are cut apart again, and nothing stands behind the last one. -/
theorem splitOn_flatMap_ended {ps : List (List Char)} (h : ∀ p ∈ ps, c ∉ p) :
    (ps.flatMap (· ++ [c])).splitOn c = ps ++ [[]] := by
  induction ps with
  | nil => rfl
  | cons p ps ih =>
    rw [List.flatMap_cons, List.append_assoc, List.singleton_append,
      List.splitOn_append_cons_self_of_not_mem (h p List.mem_cons_self),
      ih fun q hq => h q (List.mem_cons_of_mem _ hq), List.cons_append]

/-- Joined pieces with one more separator are the pieces ended one by one. -/
theorem flatMap_ended : ∀ {ps : List (List Char)}, ps ≠ [] →
    ps.flatMap (· ++ [c]) = joinWith [c] ps ++ [c]
  | [], hne => absurd rfl hne
  | [p], _ => by simp [joinWith]
  | p :: q :: ps, _ => by
    rw [List.flatMap_cons, flatMap_ended (List.cons_ne_nil q ps), joinWith, List.append_assoc,
      List.append_assoc, List.append_assoc]

/-- The pieces of a text, ended one by one, are the text with the separator at its end. -/
theorem flatMap_ended_splitOn (c : Char) (cs : List Char) :
    (cs.splitOn c).flatMap (· ++ [c]) = cs ++ [c] := by
  rw [← splitAt_eq_splitOn, flatMap_ended (splitAt_ne_nil c cs), joinWith_splitAt]

end Text

/-! ## Indented reports -/

namespace Thrown

def indentation : List Char := List.replicate 4 ' '

/-- The lines of all chunks. -/
def linesOf (chunks : List String) : List (List Char) := chunks.flatMap fun c => chunkLines c.toList

/-- A chunk with exactly one newline in place of those at its end. -/
def endedOnce (chunk : String) : String :=
  String.ofList (chunk.toList.rdropWhile (· == '\n')) ++ "\n"

theorem chunkLines_eq (chunk : List Char) :
    chunkLines chunk = (chunk.rdropWhile (· == '\n')).splitOn '\n' := by
  rw [chunkLines, Text.lines, Text.splitAt_eq_splitOn, Text.dropWhileEnd_eq_rdropWhile]

/-- No line holds a newline. -/
theorem not_mem_of_mem_linesOf {chunks : List String} : ∀ line ∈ linesOf chunks, '\n' ∉ line := by
  intro line hline
  obtain ⟨chunk, -, hline⟩ := List.mem_flatMap.mp hline
  exact Text.not_mem_of_mem_splitAt hline

/-- The lines, ended one by one, are the chunks, each ended once. -/
theorem flatMap_linesOf (chunks : List String) :
    (linesOf chunks).flatMap (· ++ ['\n']) = (String.join (chunks.map endedOnce)).toList := by
  have hchunk : ∀ chunk : String,
      (chunkLines chunk.toList).flatMap (· ++ ['\n']) = (endedOnce chunk).toList := by
    intro chunk
    rw [chunkLines_eq, Text.flatMap_ended_splitOn, endedOnce, String.toList_append,
      String.toList_ofList]
    rfl
  rw [linesOf, List.flatMap_assoc, String.toList_join, List.flatMap_map]
  simp only [hchunk]

/-- **An indented report** consists of the lines, each with the indentation in front of it. -/
theorem toList_indented (chunks : List String) : (indented chunks).toList =
    ((linesOf chunks).map (indentation ++ ·)).flatMap (· ++ ['\n']) := by
  rw [indented, String.toList_ofList, ← List.flatMap_assoc, List.flatMap_map]
  rfl

theorem splitOn_indented (chunks : List String) : (indented chunks).toList.splitOn '\n' =
    (linesOf chunks).map (indentation ++ ·) ++ [[]] := by
  rw [toList_indented]
  -- neither the indentation nor a line holds a newline
  refine Text.splitOn_flatMap_ended fun line hline => ?_
  obtain ⟨rest, hrest, rfl⟩ := List.mem_map.mp hline
  rw [List.mem_append, not_or]
  exact ⟨by decide, not_mem_of_mem_linesOf rest hrest⟩

/-- **The indentation can be undone.**  However an exception is put into chunks (`report` is one way,
and gives `indentedReport`): cut at its newlines the indented report consists of whole lines, each of
which begins with four spaces; and without these four spaces the lines are the chunks, with exactly one
newline in place of those at the end of each of them. -/
theorem indentation_undone (format : Thrown → List String) (t : Thrown) :
    let cut := (indented (format t)).toList.splitOn '\n'
    cut.getLast? = some [] ∧
    (∀ line ∈ cut.dropLast, List.replicate 4 ' ' <+: line) ∧
    cut.dropLast.flatMap (fun line => line.drop 4 ++ ['\n']) =
      (String.join ((format t).map endedOnce)).toList := by
  intro cut
  have hcut : cut = (linesOf (format t)).map (indentation ++ ·) ++ [[]] := splitOn_indented _
  have hlines : cut.dropLast = (linesOf (format t)).map (indentation ++ ·) := by
    rw [hcut, List.dropLast_concat]
  refine ⟨by rw [hcut, List.getLast?_concat], fun line hline => ?_, ?_⟩
  · rw [hlines] at hline
    obtain ⟨rest, -, rfl⟩ := List.mem_map.mp hline
    exact List.prefix_append _ _
  · have hdrop : ∀ line, (indentation ++ line).drop 4 = line := fun line =>
      List.drop_left' (by rfl)
    rw [hlines, List.flatMap_map]
    simp only [hdrop]
    exact flatMap_linesOf _

/-- Two lines with too many newlines behind them, and a chunk with nothing in it. -/
example : indented ["a\n b\n\n", ""] = "    a\n     b\n    \n" := by decide +kernel

end Thrown

end TestRig
