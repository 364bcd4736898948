import Pureflow.Format.RuleJson

/-!
Where rule sets are loaded from: files, values in memory, and sources an application registers
for a URI scheme.

Paths are texts with `/` between their parts. The file system and the JSON library's text parser
are parameters.
-/

namespace Pureflow.Format

open Pureflow.Rules Pureflow.Lib Pureflow.Lib.Serde Pureflow.Lib.Json

inductive RuleSourceError
  | unknownScheme (scheme : String)
  | fileNotFound (path : String)
  | readError (path : String) (reason : String)
  | parseError (reason : String)
  deriving DecidableEq

instance : ToString RuleSourceError where
  toString
    | .unknownScheme scheme => s!"no source registered for URI scheme `{scheme}`"
    | .fileNotFound path => s!"rule set file not found: `{path}`"
    | .readError path reason => s!"failed to read rule set file `{path}`: {reason}"
    | .parseError reason => s!"failed to parse rule set: {reason}"

/-- What loading sees of the file system and of the JSON library: which paths exist, the texts of
files, the documents of texts, and what is said of a document that is not read. -/
structure Host where
  pathExists : String → Bool
  readToString : String → Except String String
  parse : String → Except String Value
  rejection : Form → Value → String

namespace Host

variable (host : Host)

def fromValue (v : Value) : Except String RuleSet :=
  match readRuleSet .value v with
  | some ruleSet => .ok ruleSet
  | none => .error (host.rejection .value v)

def fromStr (text : String) : Except String RuleSet := do
  let v ← host.parse text
  match readRuleSet .text v with
  | some ruleSet => .ok ruleSet
  | none => .error (host.rejection .text v)

end Host

/-- The part of a URI before the first `://`. -/
def extractScheme.go : List Char → Option (List Char)
  | [] => none
  | c :: rest => if ['/', '/'].isPrefixOf rest ∧ c = ':' then some [] else (go rest).map (c :: ·)

def extractScheme (uri : String) : Option String :=
  (extractScheme.go uri.toList).map String.ofList

/-- The text after the given start, if it has it. -/
def stripStart (start text : List Char) : Option (List Char) :=
  if start.isPrefixOf text then some (text.drop start.length) else none

def isAbsolute (path : List Char) : Bool := path.head? = some '/'

/-- Append a relative path to a directory. -/
def joinPath (base path : List Char) : List Char :=
  match base.getLast? with
  | none => path
  | some last => if last = '/' then base ++ path else base ++ '/' :: path

/-- Built-in source that reads rule sets from the local file system. -/
structure LocalFsSource where
  baseDir : String

namespace LocalFsSource

def resolvePath (source : LocalFsSource) (refUri : String) : String :=
  let path := (stripStart "file://".toList refUri.toList).getD refUri.toList
  .ofList (if isAbsolute path then path else joinPath source.baseDir.toList path)

def load (host : Host) (source : LocalFsSource) (refUri : String) :
    Except RuleSourceError RuleSet := do
  let path := source.resolvePath refUri
  if !host.pathExists path then throw (.fileNotFound path)
  let content ← (host.readToString path).mapError (.readError path)
  (host.fromStr content).mapError fun e => .parseError s!"{path}: {e}"

end LocalFsSource

/-- Built-in source that wraps a rule set. -/
structure EmbeddedSource where
  ruleSet : RuleSet

namespace EmbeddedSource

def fromJson (host : Host) (json : Value) : Except RuleSourceError EmbeddedSource := do
  return ⟨← (host.fromValue json).mapError .parseError⟩

def load (source : EmbeddedSource) (_refUri : String) : Except RuleSourceError RuleSet :=
  .ok source.ruleSet

end EmbeddedSource

/-- A registered source: a built-in one, or one of the application. -/
inductive RuleSetSource
  | localFs (source : LocalFsSource)
  | embedded (source : EmbeddedSource)
  | custom (load : String → Except RuleSourceError RuleSet)

def RuleSetSource.load (host : Host) : RuleSetSource → String → Except RuleSourceError RuleSet
  | .localFs source => source.load host
  | .embedded source => source.load
  | .custom load => load

/-- Registered sources by scheme, looked up in insertion order, and the base of plain paths. -/
structure SourceRegistry where
  sources : List (String × RuleSetSource)
  baseDir : Option String

namespace SourceRegistry

/-- The source of paths without a scheme. -/
def plainSource (registry : SourceRegistry) : LocalFsSource := ⟨registry.baseDir.getD "."⟩

def load (host : Host) (registry : SourceRegistry) (refUri : String) :
    Except RuleSourceError RuleSet :=
  match extractScheme refUri with
  | some scheme =>
    match registry.sources.lookup scheme with
    | some source => source.load host refUri
    | none => .error (.unknownScheme scheme)
  | none => registry.plainSource.load host refUri

end SourceRegistry

end Pureflow.Format
