import ScriptNotebook.CommandLine.Options

/-!
Arguments of the command line.  They are judged from left to right.  The words `config` and `help`
are commands only as long as nothing else has been given; `config` has commands of its own, and its
options may stand before and behind them, where the innermost one counts.
-/
namespace ScriptNotebook.CommandLine

inductive Command
  | convert (path : Path)
  | initSettings
  | showSettings
  deriving DecidableEq, Repr

structure Arguments where
  command : Command
  taken : Taken
  deriving DecidableEq, Repr

namespace Arguments

def logFormat (args : Arguments) : LogFormat := args.taken.logFormat.getD .text

/-- The options of a conversion: those given go before the settings. -/
def options (args : Arguments) (settings : Settings) : ConvertOptions :=
  let base := settings.toOptions
  let taken := args.taken
  { base with
    extension := (taken.extension.map dropDots).getD base.extension
    recursive := taken.recursive || base.recursive
    outputDir := taken.outdir
    writer := taken.writer.getD base.writer }

end Arguments

/-- An argument may be a value if no dash stands in front; a dash alone is one, too. -/
def isWord (arg : Text) : Bool := arg = ['-'] || arg.head? ≠ some '-'

/-- Takes an option that has its value attached or has none, and tells the option that the next
argument is the value of. -/
abbrev Step := Except Refusal (Taken × Option Opt)

def takeLong (topic : Topic) (known : Opt → Bool) (name : Text) (value : Option Text)
    (taken : Taken) : Step :=
  match (Opt.ofLongName? name).filter known with
  | none => .error (.usage .unknownOption)
  | some opt =>
    match value with
    | some value => ((taken.setValue opt value).mapError .usage).map (·, none)
    | none =>
      if opt.takesValue then .ok (taken, some opt)
      else (taken.setFlag topic opt).map (·, none)

/-- Options by their letters.  The rest of the argument behind one that takes a value is that value,
without an equals sign in front. -/
def takeLetters (topic : Topic) (known : Opt → Bool) : Text → Taken → Step
  | [], taken => .ok (taken, none)
  | letter :: rest, taken =>
    match (Opt.ofLetter? letter).filter known with
    | none => .error (.usage .unknownOption)
    | some opt =>
      if opt.takesValue then
        match rest with
        | [] => .ok (taken, some opt)
        | '=' :: value => ((taken.setValue opt value).mapError .usage).map (·, none)
        | value => ((taken.setValue opt value).mapError .usage).map (·, none)
      else
        match taken.setFlag topic opt with
        | .error refusal => .error refusal
        | .ok taken => takeLetters topic known rest taken

def cutAtEquals (t : Text) : Text × Option Text :=
  match Text.after? ['='] t with
  | some value => (t.takeWhile (· != '='), some value)
  | none => (t, none)

def takeOption (topic : Topic) (known : Opt → Bool) (arg : Text) (taken : Taken) : Step :=
  match arg with
  | '-' :: '-' :: long =>
    let (name, value) := cutAtEquals long
    takeLong topic known name value taken
  | '-' :: letters => takeLetters topic known letters taken
  | _ => .error (.usage .unexpectedArgument)

def escape : Text := ['-', '-']

/-- The options of two levels together: the inner ones count. -/
def Taken.within (inner outer : Taken) : Taken where
  outdir := none
  recursive := false
  extension := none
  writer := none
  settingsFile := inner.settingsFile.or outer.settingsFile
  logFormat := inner.logFormat.or outer.logFormat
  verbose := if inner.verbose = 0 then outer.verbose else inner.verbose
  path := none

def leafArguments (topic : Topic) : Taken → (wanting : Option Opt) → List Text →
    Except Refusal Taken
  | taken, none, [] => .ok taken
  | _, some _, [] => .error (.usage .missingValue)
  | taken, some opt, arg :: rest =>
    if isWord arg then
      match taken.setValue opt arg with
      | .ok taken => leafArguments topic taken none rest
      | .error cause => .error (.usage cause)
    else .error (.usage .missingValue)
  | taken, none, arg :: rest =>
    if arg = escape then
      if rest = [] then .ok taken else .error (.usage .unexpectedArgument)
    else if isWord arg then .error (.usage .unexpectedArgument)
    else
      match takeOption topic Opt.isShared arg taken with
      | .error refusal => .error refusal
      | .ok (taken, wanting) => leafArguments topic taken wanting rest

def Topic.below : Topic → List (Text × Topic)
  | program => [("config".toList, settings), ("help".toList, help)]
  | settings =>
    [("init".toList, initSettings), ("show".toList, showSettings), ("help".toList, help)]
  | _ => []

def helpFor (topic : Topic) : List Text → Refusal
  | [] => .help topic
  | word :: rest =>
    match topic.below.find? fun t => t.1 == word with
    | some (_, next) => helpFor next rest
    | none => .usage .unknownCommand

/-- The arguments behind `config`.  A bad value is only noticed when the next option is taken or at
the end, after all that is wrong behind a command; `late` remembers it. -/
def settingsArguments : Taken → (late : Option UsageError) → (wanting : Option Opt) → List Text →
    Except Refusal Arguments
  | taken, late, none, [] =>
    match late with
    | some cause => .error (.usage cause)
    | none =>
      if taken = .nothing then .error .bareSettings else .error (.usage .missingCommand)
  | _, _, some _, [] => .error (.usage .missingValue)
  | taken, late, some opt, arg :: rest =>
    if isWord arg then
      match taken.setValue opt arg with
      | .ok taken => settingsArguments taken late none rest
      | .error cause => settingsArguments taken (late.or (some cause)) none rest
    else .error (.usage .missingValue)
  | taken, late, none, arg :: rest =>
    let command (topic : Topic) (command : Command) : Except Refusal Arguments :=
      match leafArguments topic .nothing none rest with
      | .error refusal => .error refusal
      | .ok inner =>
        match late with
        | some cause => .error (.usage cause)
        | none => .ok ⟨command, inner.within taken⟩
    if arg = "init".toList then command .initSettings .initSettings
    else if arg = "show".toList then command .showSettings .showSettings
    else if arg = "help".toList then .error (helpFor .settings rest)
    else if arg = escape then
      match rest with
      | [] => settingsArguments taken late none []
      | _ => .error (.usage .unexpectedArgument)
    else if isWord arg then .error (.usage .unknownCommand)
    else
      match late with
      | some cause => .error (.usage cause)
      | none =>
        match takeOption .settings Opt.isShared arg taken with
        | .error refusal => .error refusal
        | .ok (taken, wanting) => settingsArguments taken none wanting rest

/-- The command line is complete if it has a path. -/
def finish (taken : Taken) : Except Refusal Arguments :=
  match taken.path with
  | some path => .ok ⟨.convert path, taken⟩
  | none => .error (.usage .missingPath)

/-- Behind two dashes there is nothing but the path. -/
def pathArguments (taken : Taken) : List Text → Except Refusal Arguments
  | [] => finish taken
  | arg :: rest =>
    match taken.setPath arg with
    | .ok taken => pathArguments taken rest
    | .error cause => .error (.usage cause)

def convertArguments : Taken → (wanting : Option Opt) → List Text → Except Refusal Arguments
  | taken, none, [] => finish taken
  | _, some _, [] => .error (.usage .missingValue)
  | taken, some opt, arg :: rest =>
    if isWord arg then
      match taken.setValue opt arg with
      | .ok taken => convertArguments taken none rest
      | .error cause => .error (.usage cause)
    else .error (.usage .missingValue)
  | taken, none, arg :: rest =>
    if arg = escape then pathArguments taken rest
    else if isWord arg then
      match taken.setPath arg with
      | .ok taken => convertArguments taken none rest
      | .error cause => .error (.usage cause)
    else
      match takeOption .program (fun _ => true) arg taken with
      | .error refusal => .error refusal
      | .ok (taken, wanting) => convertArguments taken wanting rest

/-- The command that the arguments behind the program's name give. -/
def Arguments.parse (args : List Text) : Except Refusal Arguments :=
  match args with
  | [] => convertArguments .nothing none []
  | first :: rest =>
    if first = "config".toList then settingsArguments .nothing none none rest
    else if first = "help".toList then .error (helpFor .program rest)
    else convertArguments .nothing none (first :: rest)

end ScriptNotebook.CommandLine
