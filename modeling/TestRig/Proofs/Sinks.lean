import Mathlib.Data.List.Forall2
import TestRig.Proofs.Footprint
import TestRig.Proofs.Presentation

/-!
# TestRig.Proofs.Sinks — what any calls leave on the console and in the log

A journal is written to, flushed and closed in any order.  The console shows what every call puts there,
also behind the end of the log; the log holds the texts that were written before it was first closed,
behind what it held before.  Texts that are still pending count as what the log will hold.

* `Journal.Call.Shows`: what a console shows of one call.
* `Journal.consoleText_served`: what it shows of any calls.
* `Journal.prospect`: what a file will hold.  `prospect_serve` says what one call does to it, and
  `prospect_served` what any calls do.
* `Journal.sinks_of_calls`: the console and the log behind any calls on a journal that has been opened.
-/

namespace TestRig

/-- The file at a location holds a text; one that is not there holds none. -/
def Disk.HoldsText (d : Disk) (l : Location) (text : String) : Prop :=
  (∃ executable, d.node? l = some (.file text executable)) ∨ (d.node? l = none ∧ text = "")

theorem Chunk.renderAll_flatMap {α : Type} (colored : Bool) (f : α → List Chunk) : ∀ xs : List α,
    renderAll colored (xs.flatMap f) = String.join (xs.map fun x => renderAll colored (f x))
  | [] => rfl
  | x :: xs => by
    rw [List.flatMap_cons, renderAll_append, renderAll_flatMap colored f xs, List.map_cons,
      String.join_cons]

namespace Journal

/-! ## Calls -/

/-- What a journal can be asked for. -/
inductive Call
  | write (s : String)
  | outcome (s : String)
  | error (s : String)
  | note (s : String)
  | flush
  | close
  deriving DecidableEq

namespace Call

def serve (c : Call) (j : Journal) : Journal :=
  match c with
  | write s => j.write s
  | outcome s => j.writeOutcome s
  | error s => j.error s
  | note s => j.note s
  | flush => j.flush
  | close => j.close

/-- The text that is meant for the log. -/
def text? : Call → Option String
  | write s | outcome s => some s
  | _ => none

/-- What is put on the console. -/
def chunks (verbose : Bool) : Call → List Chunk
  | write s => [.text s]
  | outcome s => [.outcome s]
  | error s => [.line s]
  | note s => if verbose then [.note s] else []
  | flush | close => []

/-- What a console shows of a call.  Of an outcome on a console with colours, the tag at its beginning
stands between the code of its colour and the code that ends it; nothing else is changed. -/
inductive Shows (colored verbose : Bool) : Call → String → Prop
  | write (s : String) : Shows colored verbose (.write s) s
  | plain (s : String) (h : colored = false ∨ ∀ p ∈ coloredTags, ¬ p.2.toList <+: s.toList) :
      Shows colored verbose (.outcome s) s
  | tagged {color : Color} {tag : String} (rest : String) (hcolored : colored = true)
      (htag : (color, tag) ∈ coloredTags) :
      Shows colored verbose (.outcome (tag ++ rest)) (color.code ++ tag ++ Color.reset ++ rest)
  | error (s : String) : Shows colored verbose (.error s) (s ++ "\n")
  | note (s : String) (h : verbose = true) :
      Shows colored verbose (.note s) ("isotest: " ++ s ++ "\n")
  | unnoted (s : String) (h : verbose = false) : Shows colored verbose (.note s) ""
  | flush : Shows colored verbose .flush ""
  | close : Shows colored verbose .close ""

end Call

/-- The journal behind a list of calls. -/
def served (j : Journal) (calls : List Call) : Journal := calls.foldl (fun j c => c.serve j) j

/-- The texts that calls leave in the log: those that come before the first `close`. -/
def logged (calls : List Call) : List String :=
  (calls.takeWhile (· ≠ .close)).filterMap Call.text?

variable {j : Journal} {l : Location} {calls : List Call}

theorem served_cons (j : Journal) (c : Call) (calls : List Call) :
    j.served (c :: calls) = (c.serve j).served calls := rfl

theorem logged_close (calls : List Call) : logged (.close :: calls) = [] := rfl

theorem logged_cons {c : Call} (h : c ≠ .close) (calls : List Call) :
    logged (c :: calls) = c.text?.toList ++ logged calls := by
  rw [logged, List.takeWhile_cons, if_pos (by simpa using h), List.filterMap_cons]
  cases c.text? <;> rfl

/-! ## The console -/

/-- Flushing does nothing to the look of the console. -/
theorem look_flush (j : Journal) : j.flush.colored = j.colored ∧ j.flush.verbose = j.verbose ∧
    j.flush.console.items = j.console.items := by
  obtain ⟨colored, verbose, console, _ | l, disk⟩ := j <;> simp [flush, flushConsole, flushLog]

/-- One call adds its chunks to the console. -/
theorem look_serve (j : Journal) (c : Call) : (c.serve j).colored = j.colored ∧
    (c.serve j).verbose = j.verbose ∧
    (c.serve j).console.items = j.console.items ++ c.chunks j.verbose := by
  cases c with
  | write s | outcome s | error s =>
    simp [Call.serve, write, writeOutcome, error, display, record, flushConsole, Call.chunks]
  | note s =>
    cases hv : j.verbose <;> simp [Call.serve, note, display, flushConsole, Call.chunks, hv]
  | flush => simpa [Call.serve, Call.chunks] using look_flush j
  | close => simpa [Call.serve, close, Call.chunks] using look_flush j

theorem items_served : ∀ (calls : List Call) (j : Journal),
    (j.served calls).colored = j.colored ∧
    (j.served calls).console.items = j.console.items ++ calls.flatMap (Call.chunks j.verbose)
  | [], j => by simp [served]
  | c :: calls, j => by
    obtain ⟨hcolored, hverbose, hitems⟩ := look_serve j c
    obtain ⟨hcolored', hitems'⟩ := items_served calls (c.serve j)
    rw [served_cons, hcolored', hitems', hcolored, hverbose, hitems, List.flatMap_cons,
      List.append_assoc]
    exact ⟨rfl, rfl⟩

theorem Call.shows_chunks (colored verbose : Bool) (c : Call) :
    c.Shows colored verbose (Chunk.renderAll colored (c.chunks verbose)) := by
  have hone := Chunk.renderAll_singleton colored
  cases c with
  | write s => exact hone (.text s) ▸ .write s
  | error s => exact hone (.line s) ▸ .error s
  | note s =>
    cases verbose with
    | false => exact .unnoted s rfl
    | true => exact hone (.note s) ▸ .note s rfl
  | outcome s =>
    rw [Call.chunks, hone]
    cases colored with
    | false => exact .plain s (Or.inl rfl)
    | true =>
      rw [Chunk.render, if_pos rfl]
      rcases Chunk.paintTag_cases s with ⟨color, tag, rest, htag, rfl, hpaint⟩ | ⟨hno, hpaint⟩
      · rw [hpaint]
        exact .tagged rest rfl htag
      · rw [hpaint]
        exact .plain s (Or.inr hno)
  | flush => exact .flush
  | close => exact .close

/-- **The console shows what each call puts there**, in the order of the calls. -/
theorem consoleText_served (j : Journal) (calls : List Call) :
    ∃ texts, List.Forall₂ (Call.Shows j.colored j.verbose) calls texts ∧
      (j.served calls).consoleText = j.consoleText ++ String.join texts := by
  obtain ⟨hcolored, hitems⟩ := items_served calls j
  refine ⟨calls.map fun c => Chunk.renderAll j.colored (c.chunks j.verbose), ?_, ?_⟩
  · rw [List.forall₂_map_right_iff, List.forall₂_same]
    exact fun c _ => c.shows_chunks _ _
  · rw [consoleText, consoleText, textFrom, textFrom, hcolored, hitems, List.drop_zero, List.drop_zero,
      Chunk.renderAll_append, Chunk.renderAll_flatMap]

/-! ## The log -/

/-- The log is at this location, if it is still open. -/
def LogsAt (j : Journal) (l : Location) : Prop := ∀ log ∈ j.log, log.location = l

/-- The text that a file will hold when what is pending has been passed on to it. -/
def prospect (j : Journal) (l : Location) : Option String :=
  (j.disk.textAt l).map (· ++ String.join ((j.log.map (·.sink.pending)).getD []))

theorem prospect_of_closed (h : j.log = none) : j.prospect l = j.disk.textAt l := by
  simp [prospect, h]

theorem log_close (j : Journal) : j.close.log = none := rfl

/-- What a journal that is closed has passed on is what was to be expected. -/
theorem textAt_close (h : j.LogsAt l) : j.close.disk.textAt l = j.prospect l := by
  obtain ⟨colored, verbose, console, _ | ⟨location, sink⟩, disk⟩ := j
  · simp [close, flush, flushConsole, flushLog, prospect]
  · obtain rfl : location = l := h _ rfl
    simp [close, flush, flushConsole, flushLog, prospect]

/-- Behind its end, nothing more goes to the log. -/
theorem serve_of_closed (h : j.log = none) (c : Call) :
    (c.serve j).log = none ∧ (c.serve j).disk = j.disk := by
  obtain ⟨colored, verbose, console, log, disk⟩ := j
  obtain rfl : log = none := h
  cases c with
  | note s => cases verbose <;> exact ⟨rfl, rfl⟩
  | _ => exact ⟨rfl, rfl⟩

theorem served_of_closed : ∀ (calls : List Call) {j : Journal}, j.log = none →
    (j.served calls).log = none ∧ (j.served calls).disk = j.disk
  | [], _, h => ⟨h, rfl⟩
  | c :: calls, j, h => by
    obtain ⟨hlog, hdisk⟩ := serve_of_closed h c
    obtain ⟨hlog', hdisk'⟩ := served_of_closed calls hlog
    exact ⟨hlog', hdisk'.trans hdisk⟩

/-- **One call** on an open log leaves it open where it is, and adds its text to what it will hold. -/
theorem prospect_serve {log : LogFile} (h : j.log = some log) {c : Call} (hc : c ≠ .close) :
    (∃ log', (c.serve j).log = some log' ∧ log'.location = log.location) ∧
    (c.serve j).prospect log.location =
      (j.prospect log.location).map (· ++ String.join c.text?.toList) := by
  obtain ⟨colored, verbose, console, _, disk⟩ := j
  obtain rfl : _ = some log := h
  cases c with
  | write s | outcome s =>
    refine ⟨⟨_, rfl, rfl⟩, ?_⟩
    simp [Call.serve, write, writeOutcome, display, record, prospect, Sink.put, Call.text?,
      String.append_assoc, Function.comp_def]
  | error s =>
    refine ⟨⟨_, rfl, rfl⟩, ?_⟩
    simp [Call.serve, error, display, flushConsole, prospect, Call.text?, Function.comp_def]
  | note s =>
    cases verbose <;>
    · refine ⟨⟨_, rfl, rfl⟩, ?_⟩
      simp [Call.serve, note, display, flushConsole, prospect, Call.text?, Function.comp_def]
  | flush =>
    refine ⟨⟨_, rfl, rfl⟩, ?_⟩
    simp [Call.serve, flush, flushConsole, flushLog, prospect, Sink.flush, Call.text?]
  | close => exact absurd rfl hc

/-- **Any calls** on an open log: what it will hold, and that it is closed if one of them closes it. -/
theorem prospect_served : ∀ (calls : List Call) {j : Journal} {log : LogFile}, j.log = some log →
    (j.served calls).LogsAt log.location ∧
    (j.served calls).prospect log.location =
      (j.prospect log.location).map (· ++ String.join (logged calls)) ∧
    (.close ∈ calls → (j.served calls).log = none)
  | [], j, log, h => by
    refine ⟨fun log' hlog' => ?_, by simp [served, logged], fun hmem => by cases hmem⟩
    cases h.symm.trans hlog'
    rfl
  | c :: calls, j, log, h => by
    by_cases hc : c = .close
    · -- what is pending goes to the file now, and the calls behind leave the file alone
      subst hc
      obtain ⟨hlog, hdisk⟩ := served_of_closed calls j.log_close
      have hat : j.LogsAt log.location := fun log' hlog' => by
        cases h.symm.trans hlog'
        rfl
      have hheld : (j.close.served calls).prospect log.location = j.prospect log.location := by
        rw [prospect_of_closed hlog, hdisk, textAt_close hat]
      refine ⟨fun log' hlog' => ?_, ?_, fun _ => hlog⟩
      · cases hlog.symm.trans hlog'
      · show (j.close.served calls).prospect log.location = _
        rw [hheld, logged_close]
        simp
    · obtain ⟨⟨log', hlog', hlocation⟩, hone⟩ := prospect_serve h hc
      obtain ⟨hat, hrest, hclosed⟩ := prospect_served calls hlog'
      rw [hlocation] at hat hrest
      refine ⟨hat, ?_, fun hmem => hclosed ((List.mem_cons.mp hmem).resolve_left (Ne.symm hc))⟩
      rw [served_cons, hrest, hone, logged_cons hc, Option.map_map, String.join_append]
      simp only [Function.comp_def, String.append_assoc]

/-! ## Journals that have been opened -/

/-- A file that is opened for appending is a file with what it held before. -/
theorem textAt_openToAppend {d d' : Disk} {p : Path} {text : String}
    (h : d.openToAppend p = .ok (l, d')) (hl : d.HoldsText l text) : d'.textAt l = some text := by
  have hgrows := Disk.growsAt_openToAppend h
  obtain ⟨-, ⟨hn, rfl⟩ | ⟨hn, rfl⟩⟩ := Disk.openToAppend_eq_ok h
  · rcases hl with ⟨x, hx⟩ | ⟨-, rfl⟩
    · cases hn.symm.trans hx
    · have hne : l ≠ [] := by
        rintro rfl
        cases hn
      rw [Disk.textAt, Disk.node?_put hne]
  · rcases hl with ⟨x, hx⟩ | ⟨hnone, -⟩
    · rw [Disk.textAt, hx]
    · exact absurd hnone hn

theorem look_of_openLog {colored verbose : Bool} {disk : Disk} {path : Option Path}
    (h : openLog colored verbose disk path = .ok j) :
    j.colored = colored ∧ j.verbose = verbose ∧ j.consoleText = "" := by
  rcases openLog_cases h with ⟨-, rfl⟩ | ⟨p, l, d', -, -, rfl⟩ <;> exact ⟨rfl, rfl, rfl⟩

/-- **The console and the log behind any calls.**  On a journal that has been opened: the console, with
colours if they are asked for or else if it is a terminal, shows what each call puts there, in the order
of the calls and also behind the end of the log.  The log, when it is closed at the end if not before,
holds what it held and behind it the texts that were written before the first `close`. -/
theorem sinks_of_calls {asked : Option Bool} {terminal verbose : Bool} {disk : Disk}
    {path : Option Path} (h : openLog (showsColors asked terminal) verbose disk path = .ok j)
    (calls : List Call) :
    (∃ texts, List.Forall₂ (Call.Shows (showsColors asked terminal) verbose) calls texts ∧
      (j.served calls).consoleText = String.join texts) ∧
    ∀ p ∈ path, ∃ l, disk.locate p = .ok l ∧ ∀ text, disk.HoldsText l text →
      (j.served calls).close.disk.textAt l = some (text ++ String.join (logged calls)) ∧
      (.close ∈ calls →
        (j.served calls).disk.textAt l = some (text ++ String.join (logged calls))) := by
  obtain ⟨hcolored, hverbose, hempty⟩ := look_of_openLog h
  refine ⟨?_, fun p hp => ?_⟩
  · obtain ⟨texts, hshows, hconsole⟩ := consoleText_served j calls
    rw [hcolored, hverbose] at hshows
    rw [hempty, String.empty_append] at hconsole
    exact ⟨texts, hshows, hconsole⟩
  · obtain ⟨rfl, -⟩ | ⟨p, l, d', rfl, hopen, hj⟩ := openLog_cases h
    · cases hp
    cases hp
    refine ⟨l, (Disk.openToAppend_eq_ok hopen).1, fun text htext => ?_⟩
    have hlog : j.log = some { location := l } := by rw [hj]
    obtain ⟨hlogs, hheld, hclosed⟩ := prospect_served calls hlog
    have hfirst : j.prospect l = some text := by
      simp [prospect, hj, textAt_openToAppend hopen htext]
    rw [hfirst, Option.map_some] at hheld
    refine ⟨(textAt_close hlogs).trans hheld, fun hmem => ?_⟩
    rw [← prospect_of_closed (hclosed hmem)]
    exact hheld

/-- A log that holds a line, on a terminal with notes: an outcome with colours, a note and a diagnostic
line, and more texts when the log has been closed. -/
theorem sinks_of_calls_closed :
    let disk := Disk.blank.place "t.log" (.file "earlier\n" false)
    let calls : List Call := [.write "g.s.1: ", .outcome "FAIL (PASS)\n", .note "n", .error "e", .close,
      .write "g.s.2: ", .outcome "PASS\n", .close]
    ∃ j texts, openLog (showsColors none true) true disk (some (Path.ofString "t.log")) = .ok j ∧
      List.Forall₂ (Call.Shows true true) calls texts ∧
      (j.served calls).consoleText = String.join texts ∧
      (j.served calls).disk.textAt ["tmp", "work", "t.log"] =
        some "earlier\ng.s.1: FAIL (PASS)\n" := by
  intro disk calls
  have hlocate : disk.locate (Path.ofString "t.log") = .ok ["tmp", "work", "t.log"] := by rfl
  obtain ⟨j, hj⟩ : ∃ j, openLog (showsColors none true) true disk (some (Path.ofString "t.log")) =
      .ok j := ⟨_, rfl⟩
  obtain ⟨⟨texts, hshows, hconsole⟩, hlog⟩ := sinks_of_calls hj calls
  obtain ⟨l, hl, hheld⟩ := hlog _ rfl
  obtain rfl : _ = l := Except.ok.inj (hlocate.symm.trans hl)
  exact ⟨j, texts, hj, hshows, hconsole, (hheld "earlier\n" (Or.inl ⟨false, rfl⟩)).2 (by decide)⟩

end Journal

end TestRig
