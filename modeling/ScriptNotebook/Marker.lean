import ScriptNotebook.CellKind
import ScriptNotebook.Text.Blank
import ScriptNotebook.Text.Lowercase

/-!
What a line of a script is.  A notebook exported as a script keeps its structure in comments: a
banner on top, `# COMMAND` between cells, `# DBTITLE` for titles, `# MAGIC` around lines of another
language, `# %%` before a cell.  Each such form is a `LineRule`; a line that no rule claims is
content.
-/
namespace ScriptNotebook

/-- The text of a wrapped line. -/
inductive Directive
  | markdown (text : Text)
  | raw (text : Text)
  deriving DecidableEq, Repr

inductive Marker
  | banner
  | command
  | title (text : Option Text)
  | wrapped (directive : Directive)
  | split (kind : CellKind)
  | content (line : Text)
  deriving DecidableEq, Repr

/-- Title text of a line: what follows the first comma, without hash signs, double quotes and white
space in front and without double quotes and white space behind. -/
def titleText? (line : Text) : Option Text := do
  let rest ← Text.after? [','] line
  let title := dropEndWhile (fun c => c == '"' || isBlankChar c)
    (rest.dropWhile fun c => c == '#' || c == '"' || isBlankChar c)
  if title = [] then none else some title

namespace Directive

def text : Directive → Text
  | markdown t => t
  | raw t => t

def markdownToken : Text := "%md".toList

def markdownStarts : List Text :=
  markdownToken :: ["<", "&", "|", "##", "# "].map String.toList

def readsAsMarkdown (payload : Text) : Bool :=
  markdownStarts.any fun start => Text.startsWith start payload

/-- A payload that begins with a word in `%md` loses that word and the white space after it. -/
def withoutToken (payload : Text) : Text :=
  if Text.startsWith markdownToken payload then
    Text.trimStart (payload.dropWhile fun c => !isBlankChar c)
  else payload

def ofPayload (payload : Text) : Directive :=
  if readsAsMarkdown payload then markdown (withoutToken payload) else raw payload

end Directive

/-- Undoes the comment around a markdown line: one hash sign with the white space before it and one
space after it.  A line that does not begin so is left alone. -/
def uncomment (line : Text) : Text :=
  match line.trimStart with
  | '#' :: ' ' :: rest => rest
  | '#' :: rest => rest
  | _ => line

/-- The forms of line that carry structure. -/
inductive LineRule
  | banner | command | title | wrapped | split
  deriving DecidableEq, Repr

namespace LineRule

def name : LineRule → Text
  | banner => "banner".toList
  | command => "command".toList
  | title => "title".toList
  | wrapped => "magic".toList
  | split => "split".toList

/-- How a line of this form begins, behind its indentation. -/
def starts : LineRule → List Text
  | banner => ["# Databricks notebook source".toList]
  | command => ["# COMMAND".toList]
  | title => ["# DBTITLE".toList]
  | wrapped => ["# MAGIC".toList]
  | split => ["#%%".toList, "# %%".toList]

def claims (rule : LineRule) (line : Text) : Bool :=
  rule.starts.any fun start => Text.startsWith start line.trimStart

/-- What a line of this form says.  A title and the first `# MAGIC` with the payload behind it are
looked for in the whole line, the word `markdown` behind the first three characters of a
separator. -/
def reading? (rule : LineRule) (line : Text) : Option Marker :=
  match rule with
  | banner => some .banner
  | command => some .command
  | title => some (.title (titleText? line))
  | wrapped =>
    (Text.after? "# MAGIC".toList line).map fun payload =>
      .wrapped (Directive.ofPayload payload.trimStart)
  | split =>
    let hint := line.trimStart.drop 3
    some (.split (if Text.mentions "markdown".toList hint then .markdown else .code))

def match? (rule : LineRule) (line : Text) : Option Marker :=
  if rule.claims line then rule.reading? line else none

/-- The rules, the first that matches a line being the one that reads it. -/
def table : List LineRule := [banner, command, title, wrapped, split]

def claiming? (rules : List LineRule) (line : Text) : Option LineRule :=
  rules.find? fun rule => (rule.match? line).isSome

/-- The name of the rule for a line; content has none. -/
def matching? (line : Text) : Option Text :=
  (claiming? table line).map name

end LineRule

namespace Marker

def ofLineBy (rules : List LineRule) (line : Text) : Marker :=
  (rules.findSome? fun rule => rule.match? line).getD (content line)

def ofLine (line : Text) : Marker := ofLineBy LineRule.table line

def rule? : Marker → Option LineRule
  | banner => some .banner
  | command => some .command
  | title _ => some .title
  | wrapped _ => some .wrapped
  | split _ => some .split
  | content _ => none

end Marker

theorem LineRule.rule?_of_reading? {rule : LineRule} {line : Text} {marker : Marker}
    (h : rule.reading? line = some marker) : marker.rule? = some rule := by
  cases rule <;> simp only [reading?, Option.map_eq_some_iff, Option.some.injEq] at h
  case wrapped =>
    obtain ⟨_, -, rfl⟩ := h
    rfl
  all_goals rw [← h]; rfl

example : Marker.ofLine "  # DBTITLE 1,\"# Load\"".toList = .title (some "Load".toList) := by
  decide

example : Marker.ofLine "# MAGIC %md  # Heading".toList
    = .wrapped (.markdown "# Heading".toList) := by decide

end ScriptNotebook
