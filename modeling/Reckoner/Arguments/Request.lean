import Reckoner.Arguments.Word

/- What a command line asks for. Options may stand before and after the expressions, but the
   expressions stand together. Behind one dash the letters of several flags may be joined; the log
   file is the only flag with a value, so the rest of its word is its name. -/
namespace Reckoner

/-- Readers of options differ in what they let stand behind the letter of a flag. To a lenient one
an equals sign there only separates, and every letter must be a flag's. To a strict one it begins a
value, which the log file alone takes, and a letter that is no flag's is judged at the end. -/
inductive Joining
  | lenient
  | strict
  deriving DecidableEq, Repr

namespace Joining

def name (joining : Joining) (text : List Char) : List Char :=
  match joining, text with
  | strict, '=' :: cs => cs
  | _, cs => cs

def passes (joining : Joining) (c : Char) : Bool :=
  joining = strict && c ≠ '=' && c ≠ '-'

end Joining

inductive Ending
  | complete
  | file (name : String)
  | fileFollows
  | stray
  deriving DecidableEq, Repr

structure Cluster where
  flags : List Flag
  ending : Ending
  deriving DecidableEq, Repr

namespace Cluster

def alone (flag : Flag) : Cluster :=
  if flag = .logfile then ⟨[], .fileFollows⟩ else ⟨[flag], .complete⟩

def withValue? (flag : Flag) (value : List Char) : Option Cluster :=
  if flag = .logfile then some ⟨[], .file (String.ofList value)⟩ else none

def joined? (joining : Joining) (flag : Flag) : List Char → Option Cluster
  | [] => some (alone flag)
  | c :: cs =>
    if flag = .logfile then withValue? flag (joining.name (c :: cs))
    else
      match Flag.ofLetter? c with
      | none => if joining.passes c then some ⟨[flag], .stray⟩ else none
      | some next =>
        (joined? joining next cs).map fun later => ⟨flag :: later.flags, later.ending⟩

def ofShort? (joining : Joining) (flag : Flag) (text : List Char) : Option Cluster :=
  match joining, text with
  | .lenient, ['='] => withValue? flag []
  | .lenient, '=' :: cs => joined? .lenient flag cs
  | joining, cs => joined? joining flag cs

def ofOption? (joining : Joining) (flag : Flag) (isLong : Bool) :
    Option (List Char) → Option Cluster
  | none => some (alone flag)
  | some text => if isLong then withValue? flag text else ofShort? joining flag text

end Cluster

structure Options where
  expressions : List String
  quiet : Bool
  debug : Bool
  verbose : Bool
  logfile : Option String
  deriving DecidableEq, Repr

namespace Options

def initial : Options := ⟨[], false, false, false, none⟩

def set (options : Options) (flags : List Flag) : Options :=
  { options with
    quiet := options.quiet || flags.contains .quiet
    debug := options.debug || flags.contains .debug
    verbose := options.verbose || flags.contains .verbose }

end Options

inductive Request
  | run (options : Options)
  | help
  | misuse
  deriving DecidableEq, Repr

inductive Place
  | before
  | among
  | after
  deriving DecidableEq, Repr

structure Progress where
  options : Options
  place : Place
  stray : Bool
  deriving DecidableEq, Repr

namespace Progress

def start : Progress := ⟨.initial, .before, false⟩

def addOperands (progress : Progress) (texts : List String) : Progress :=
  if progress.place = .after then { progress with stray := true }
  else
    { progress with
      options.expressions := progress.options.expressions ++ texts
      place := .among }

def addFlags (progress : Progress) (flags : List Flag) : Progress where
  options := progress.options.set flags
  place := if progress.place = .among then .after else progress.place
  stray := progress.stray

def addStray (progress : Progress) (flags : List Flag) : Progress :=
  { progress.addFlags flags with stray := true }

def setLogfile (progress : Progress) (name : String) : Progress :=
  { progress with options.logfile := some name }

end Progress

namespace Request

/-- Goes through the words. A call for help is answered where it stands, unless a word up to there
is wrong in itself; words without a place are judged at the end. -/
def ofWords (joining : Joining) (progress : Progress) : List Word → Request
  | [] => if progress.stray then misuse else run progress.options
  | .operand text :: words => ofWords joining (progress.addOperands [text]) words
  | .separator :: words => ofWords joining (progress.addOperands []) words
  | .unknown :: words => ofWords joining (progress.addStray []) words
  | .option flag isLong attached :: words =>
    match Cluster.ofOption? joining flag isLong attached with
    | none => misuse
    | some ⟨flags, ending⟩ =>
      match ending, words with
      | .fileFollows, .operand name :: words =>
        if flags.contains .help then help
        else ofWords joining ((progress.addFlags flags).setLogfile name) words
      | .fileFollows, _ => misuse
      | .file name, words =>
        if flags.contains .help then help
        else ofWords joining ((progress.addFlags flags).setLogfile name) words
      | .stray, words =>
        if flags.contains .help then help else ofWords joining (progress.addStray flags) words
      | .complete, words =>
        if flags.contains .help then help else ofWords joining (progress.addFlags flags) words

def ofArguments (arguments : List String) (joining : Joining := .lenient) : Request :=
  match Word.ofTexts? arguments with
  | none => misuse
  | some words => ofWords joining .start words

end Request
end Reckoner
