import TightLists.Line

/-!
# Tightening lists

A list copied from elsewhere often arrives loose, with blank lines between its
items.  Tightening removes every run of blank lines that has a list item
directly above and directly below it, and keeps all other lines as they are.

The scan goes over the lines once.  It records each removed run as a `Gap`, and
the statistics and the log of a pass are read off its gaps.  Operations return
their log records in the order in which they arose; nothing is printed here.
-/

namespace TightLists

/-! ## Log records -/

/-- How much a record matters, from the least to the most. -/
inductive LogLevel where
  | trace
  | debug
  | info
  | warn
  deriving DecidableEq, Repr

/-- The place of a level in the order of levels. -/
def LogLevel.weight : LogLevel → Nat
  | .trace => 0
  | .debug => 1
  | .info => 2
  | .warn => 3

def LogLevel.label : LogLevel → String
  | .trace => "TRACE"
  | .debug => "DEBUG"
  | .info => "INFO"
  | .warn => "WARN"

/-- A message and how much it matters. -/
structure LogRecord where
  level : LogLevel
  message : String
  deriving DecidableEq, Repr

/-- The records of one piece of work, oldest first. -/
abbrev Log := List LogRecord

/-! ## The scan -/

/-- A run of blank lines between two list items. -/
structure Gap where
  /-- The number of the list item above, counted from one. -/
  above : Nat
  blanks : Nat
  deriving DecidableEq, Repr

namespace Gap

/-- The number of the list item below, which comes right after the blank lines. -/
def below (gap : Gap) : Nat :=
  gap.above + gap.blanks + 1

/-- The record of a gap that has been removed. -/
def record (gap : Gap) : LogRecord :=
  { level := .trace
    message := s!"collapsing {gap.blanks} blank line(s) between lines {gap.above} and {gap.below}" }

end Gap

/-- The run of blank lines that the lines begin with. -/
def blankRun (lines : List Line) : List Line :=
  lines.takeWhile fun line => line.kind = .blank

/-- The lines behind the run of blank lines at the front. -/
def pastBlankRun (lines : List Line) : List Line :=
  lines.dropWhile fun line => line.kind = .blank

def beginsWithItem : List Line → Bool
  | [] => false
  | line :: _ => line.kind = .listItem

@[simp] theorem blankRun_append_pastBlankRun (lines : List Line) :
    blankRun lines ++ pastBlankRun lines = lines :=
  List.takeWhile_append_dropWhile

theorem length_pastBlankRun_le (lines : List Line) :
    (pastBlankRun lines).length ≤ lines.length :=
  (List.dropWhile_sublist _).length_le

/-- What a scan finds: the lines to keep and the gaps to remove. -/
structure Scan where
  kept : List Line
  gaps : List Gap
  deriving DecidableEq, Repr

/-- Scans lines of which the first has the given number.  From a list item the
scan looks ahead over the run of blank lines below it and goes on where the run
ends.  The run is left out when a list item stands there, and kept as it is
when something else does, or nothing. -/
def scanFrom (number : Nat) : List Line → Scan
  | [] => { kept := [], gaps := [] }
  | line :: rest =>
      if line.kind = .listItem then
        let run := blankRun rest
        let next := pastBlankRun rest
        let below := scanFrom (number + 1 + run.length) next
        if 0 < run.length ∧ beginsWithItem next then
          { kept := line :: below.kept, gaps := ⟨number, run.length⟩ :: below.gaps }
        else
          { kept := line :: (run ++ below.kept), gaps := below.gaps }
      else
        let below := scanFrom (number + 1) rest
        { kept := line :: below.kept, gaps := below.gaps }
termination_by lines => lines.length
decreasing_by
  · exact Nat.lt_succ_of_le (length_pastBlankRun_le rest)
  · exact Nat.lt_succ_self _

/-- The outcome of one pass over a text. -/
structure Tightening where
  text : Text
  lineCount : Nat
  gaps : List Gap
  deriving DecidableEq, Repr

namespace Tightening

def collapsedRuns (tightening : Tightening) : Nat :=
  tightening.gaps.length

/-- How many lines are removed in all gaps together. -/
def removedLines (tightening : Tightening) : Nat :=
  tightening.gaps.foldr (fun gap total => gap.blanks + total) 0

/-- Whether anything is removed.  The texts are not compared. -/
def changed (tightening : Tightening) : Bool :=
  0 < tightening.removedLines

def summary (tightening : Tightening) : LogRecord :=
  { level := .debug
    message :=
      s!"list spacing pass: {tightening.lineCount} line(s) in, " ++
        s!"{tightening.collapsedRuns} run(s) collapsed, " ++
        s!"{tightening.removedLines} line(s) removed" }

/-- The records of a pass: one for each removed run, then the summary. -/
def log (tightening : Tightening) : Log :=
  tightening.gaps.map Gap.record ++ [tightening.summary]

end Tightening

namespace Text

/-- Removes the blank lines between the list items of a text. -/
def tighten (text : Text) : Tightening :=
  let scan := scanFrom 1 text.lines
  { text := ofLines scan.kept
    lineCount := text.lines.length
    gaps := scan.gaps }

def tightened (text : Text) : Text :=
  text.tighten.text

end Text

end TightLists
