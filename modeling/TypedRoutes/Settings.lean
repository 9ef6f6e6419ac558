import TypedRoutes.Syntax.Parser.Source
import TypedRoutes.Text.Words

/-!
# Settings

* `Settings` : the names that emitted code uses, and how query keys are written;
* `Settings.check` : the first setting that is unusable;
* `Settings.queryKey` : the key of a parameter in the query.
-/

namespace TypedRoutes

open Text (isPlainIdentifier kebab)

/-- How a query key is made of a parameter's name. -/
inductive KeyStyle
  | kebab
  | verbatim
  deriving DecidableEq, Repr, Inhabited

namespace KeyStyle

def name : KeyStyle → String
  | kebab => "kebab"
  | verbatim => "verbatim"

/-- The style of a name. -/
def ofName? : String → Option KeyStyle
  | "kebab" => some kebab
  | "verbatim" => some verbatim
  | _ => none

end KeyStyle

structure Settings where
  /-- The path of the library that emitted code calls. -/
  runtimePath : String := "::route_runtime"
  /-- The parameter that is passed along and never encoded. -/
  payloadField : String := "extra"
  navigatorKeyField : String := "NAVIGATOR_KEY"
  parentNavigatorKeyField : String := "PARENT_NAVIGATOR_KEY"
  navigatorKeyTypes : List String := ["NavigatorKey"]
  queryKeyStyle : KeyStyle := .kebab
  deriving DecidableEq, Repr, Inhabited

/-- What can be wrong with settings. -/
inductive SettingsError
  /-- The text that holds the settings cannot be read. -/
  | unreadable
  | badRuntimePath (path : String)
  | badIdentifier (field value : String)
  deriving DecidableEq, Repr

def SettingsError.message : SettingsError → String
  | unreadable => "invalid config TOML"
  | badRuntimePath p => s!"runtime_path '{p}' is not a valid Rust path"
  | badIdentifier f v => s!"{f} '{v}' is not a valid identifier"

namespace Settings

/-- The settings that must be identifiers, with their names. -/
def identifiers (s : Settings) : List (String × String) :=
  [("payload_field", s.payloadField), ("navigator_key_field", s.navigatorKeyField),
   ("parent_navigator_key_field", s.parentNavigatorKeyField)]

/-- The tokens of the runtime path. -/
def runtime? (s : Settings) : Option (List Syntax.Token) :=
  if (Syntax.parsePath s.runtimePath).isSome then Syntax.lex s.runtimePath else none

/-- Refuse settings that emitted code could not use. -/
def check (s : Settings) : Except SettingsError Unit :=
  if (Syntax.parsePath s.runtimePath).isNone then .error (.badRuntimePath s.runtimePath)
  else match s.identifiers.find? fun (_, v) => !isPlainIdentifier v with
    | some (f, v) => .error (.badIdentifier f v)
    | none => .ok ()

/-- The key of a parameter in the query. -/
def queryKey (s : Settings) (parameter : String) : String :=
  match s.queryKeyStyle with
  | .kebab => kebab parameter
  | .verbatim => parameter

def isNavigatorKeyType (s : Settings) (type : String) : Bool :=
  s.navigatorKeyTypes.contains type

end Settings

end TypedRoutes
