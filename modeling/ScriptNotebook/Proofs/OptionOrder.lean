import ScriptNotebook.Proofs.GivenPaths
import ScriptNotebook.Proofs.TextPieces

/-!
Options in any order.  What is to be taken can be written as options with attached values, by their
long names or by letters, in every order; behind them two dashes and the path.  Two options that are
taken one after the other are taken as well the other way round, so that all these command lines
mean the same.
-/
namespace ScriptNotebook.CommandLine

inductive Given
  | outdir (dir : Path)
  | recursive
  | extension (text : Text)
  | writer (choice : WriterChoice)
  | settingsFile (file : Path)
  | logFormat (format : LogFormat)
  | verbose
  deriving DecidableEq, Repr

namespace Given

def opt : Given → Opt
  | outdir _ => .outdir
  | recursive => .recursive
  | extension _ => .extension
  | writer _ => .writer
  | settingsFile _ => .settingsFile
  | logFormat _ => .logFormat
  | verbose => .verbose

def value? : Given → Option Text
  | outdir dir => some dir.text
  | extension text => some text
  | writer choice => some choice.name
  | settingsFile file => some file.text
  | logFormat format => some format.name
  | recursive | verbose => none

end Given

namespace Taken

def add (taken : Taken) : Given → Taken
  | .outdir dir => { taken with outdir := some dir }
  | .recursive => { taken with recursive := true }
  | .extension text => { taken with extension := some text }
  | .writer choice => { taken with writer := some choice }
  | .settingsFile file => { taken with settingsFile := some file }
  | .logFormat format => { taken with logFormat := some format }
  | .verbose => { taken with verbose := taken.verbose + 1 }

/-- The option has not been taken or may be taken again, and its value will do. -/
def Fits (taken : Taken) : Given → Prop
  | .outdir dir => taken.outdir = none ∧ dir.text ≠ []
  | .recursive => taken.recursive = false
  | .extension _ => taken.extension = none
  | .writer _ => taken.writer = none
  | .settingsFile file => taken.settingsFile = none ∧ file.text ≠ []
  | .logFormat _ => taken.logFormat = none
  | .verbose => taken.verbose < maxCount

/-- Options that fit one after the other lead from what is taken before to what is taken then. -/
inductive Leads : Taken → List Given → Taken → Prop
  | nil (taken : Taken) : Leads taken [] taken
  | cons {taken after : Taken} {given : Given} {rest : List Given} (hf : taken.Fits given)
      (hr : Leads (taken.add given) rest after) : Leads taken (given :: rest) after

variable {taken after : Taken} {given other : Given} {givens front rest : List Given}

/-- Two options one after the other may change places. -/
theorem Fits.swap (hg : taken.Fits given) (ho : (taken.add given).Fits other) :
    taken.Fits other ∧ (taken.add other).Fits given ∧
      (taken.add other).add given = (taken.add given).add other := by
  -- Different options fill different fields; of one option only the count can follow itself.
  cases given <;> cases other <;> simp_all [Fits, add]

theorem Leads.append {mid : Taken} (hf : Leads taken front mid) (hr : Leads mid rest after) :
    Leads taken (front ++ rest) after := by
  induction hf with
  | nil => exact hr
  | cons hfit _ ih => exact .cons hfit (ih hr)

end Taken

open Taken (Leads)

variable {taken after : Taken} {given : Given} {givens : List Given} {topic : Topic} {arg : Text}

/-- The options that say what is taken, one after the other in the order of the fields. -/
def Taken.listed (taken : Taken) : List Given :=
  taken.outdir.toList.map .outdir ++ ((if taken.recursive then [.recursive] else []) ++
    (taken.extension.toList.map .extension ++ (taken.writer.toList.map .writer ++
      (taken.settingsFile.toList.map .settingsFile ++ (taken.logFormat.toList.map .logFormat ++
        List.replicate taken.verbose .verbose)))))

end ScriptNotebook.CommandLine
