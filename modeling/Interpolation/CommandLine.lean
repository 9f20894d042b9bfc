/-
  The command line: a pattern and its arguments, as text or as JSON, and options that load a
  catalog, show the tokens of the pattern or turn errors into failures. Options may stand
  anywhere before two dashes, each at most once.
-/
import Interpolation.Catalog.Document
import Interpolation.Json.Reader
import Interpolation.Value.Conversion

namespace Interpolation.CommandLine

open Text

structure Options where
  /-- the arguments are JSON -/
  json : Bool := false
  /-- the file of a catalog -/
  catalog : Option String := none
  /-- show the tokens instead of the text -/
  tokens : Bool := false
  /-- an error is a failure instead of output -/
  strict : Bool := false
deriving DecidableEq, Repr

/-- What is asked for. -/
inductive Request where
  | render (options : Options) (pattern : String) (args : List String)
  | version
deriving DecidableEq, Repr

/-- The word begins with a dash and is more than that. -/
def isOption (word : String) : Bool :=
  match word.toList with
  | '-' :: _ :: _ => true
  | _ => false

/-- What follows some text at the beginning of a word. -/
def attached? (before word : String) : Option String :=
  if before.toList.isPrefixOf word.toList then
    some (String.ofList (word.toList.drop before.toList.length))
  else none

/-- The request of the words that are no options. -/
def request? (options : Options) : List String → Option Request
  | [] => none
  | pattern :: args => some (.render options pattern args)

/-- Reads words after those in `words`; nothing if they are no proper request. -/
def read? (options : Options) (words : List String) : List String → Option Request
  | [] => request? options words
  | "--" :: rest => request? options (words ++ rest)
  | "--version" :: _ => some .version
  | "--json" :: rest =>
    if options.json then none else read? { options with json := true } words rest
  | "--tokens" :: rest =>
    if options.tokens then none else read? { options with tokens := true } words rest
  | "--strict" :: rest =>
    if options.strict then none else read? { options with strict := true } words rest
  | "--catalog" :: path :: rest =>
    if isOption path || options.catalog.isSome then none
    else read? { options with catalog := some path } words rest
  | word :: rest =>
    match attached? "--catalog=" word with
    | some path =>
      if options.catalog.isSome then none
      else read? { options with catalog := some path } words rest
    | none =>
      if (attached? "-V" word).isSome then some .version
      else if isOption word then none
      else read? options (words ++ [word]) rest

/-- What some command line words ask for. -/
def parse? (words : List String) : Option Request := read? {} [] words

def versionLine : String := "placefmt 0.2.0"

/-- Why there is no output. -/
inductive Failure where
  | unreadable (path reason : String)
  | invalidCatalog (path : String)
  | invalidArgument (arg : String)
  | rendering (e : Error)
deriving DecidableEq, Repr

def Failure.message : Failure → String
  | unreadable path reason => "error: cannot read " ++ path ++ ": " ++ reason
  | invalidCatalog path => "error: invalid catalog " ++ path ++ ":"
  | invalidArgument arg => "error: argument " ++ quote arg ++ " is not valid JSON:"
  | rendering e => "error: " ++ e.message

/-- A token as JSON. -/
def tokenJson (t : Pattern.Token) : Json :=
  .object [("state", .str t.state.name), ("text", .str t.text), ("offset", .integer t.offset)]

/-- The tokens of a pattern as JSON text. -/
def tokensText (pattern : String) : Except Failure String :=
  match Pattern.tokens pattern with
  | .ok ts => .ok (Json.array (ts.map tokenJson)).pretty
  | .error e => .error (.rendering e)

/-- The engine with the catalog of a file, which `read` gives the content of. -/
def engine? (read : String → Except String String) : Option String → Except Failure (Engine Unit)
  | none => .ok {}
  | some path =>
    match read path with
    | .error reason => .error (.unreadable path reason)
    | .ok source =>
      match Catalog.parse? source with
      | none => .error (.invalidCatalog path)
      | some catalog => .ok (catalog.overlay {})

/-- An argument as a value. -/
def argument? (json : Bool) (arg : String) : Except Failure Value :=
  if json then
    match Json.parse? arg with
    | none => .error (.invalidArgument arg)
    | some v => .ok (toValue v)
  else .ok (toValue arg)

/-- The output of a rendering. The tokens need neither the catalog nor the arguments. -/
def output (read : String → Except String String) (options : Options) (pattern : String)
    (args : List String) : Except Failure String :=
  if options.tokens then tokensText pattern else do
    let engine ← engine? read options.catalog
    let args ← args.mapM (argument? options.json)
    match ((engine.render pattern args).result ()).1 with
    | .ok text => .ok text
    | .error e => if options.strict then .error (.rendering e) else .ok e.message

end Interpolation.CommandLine
