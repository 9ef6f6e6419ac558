import TypedRoutes.Settings
import TypedRoutes.Toml.Reader

/-!
# Settings in TOML

* `Settings.ofToml` : the settings of a text, checked.

Settings left out have their defaults, and nothing else may be set.
-/

namespace TypedRoutes

namespace Toml

def asText : Toml → Option String
  | text s => some s
  | _ => none

def asTexts : Toml → Option (List String)
  | array items => items.mapM asText
  | _ => none

/-- Whether a value is an empty array or table. -/
def isEmpty : Toml → Bool
  | array items => items.isEmpty
  | table _ members => members.isEmpty
  | text _ => false

/-- A key style by its name, or as the only member of a table, with nothing in it. -/
def asKeyStyle : Toml → Option KeyStyle
  | text s => KeyStyle.ofName? s
  | table _ [(k, v)] => if v.isEmpty then KeyStyle.ofName? k else none
  | _ => none

end Toml

namespace Settings

/-- Settings with one of them set. -/
def set (s : Settings) : String × Toml → Option Settings
  | ("runtime_path", v) => v.asText.map fun t => { s with runtimePath := t }
  | ("payload_field", v) => v.asText.map fun t => { s with payloadField := t }
  | ("navigator_key_field", v) => v.asText.map fun t => { s with navigatorKeyField := t }
  | ("parent_navigator_key_field", v) =>
    v.asText.map fun t => { s with parentNavigatorKeyField := t }
  | ("navigator_key_types", v) => v.asTexts.map fun ts => { s with navigatorKeyTypes := ts }
  | ("query_key_style", v) => v.asKeyStyle.map fun k => { s with queryKeyStyle := k }
  | _ => none

/-- The settings of a text, if they can be read and used. -/
def ofToml (source : String) : Except SettingsError Settings :=
  match (Toml.parse source).bind fun ms => ms.foldlM set {} with
  | some s => s.check.map fun _ => s
  | none => .error .unreadable

end Settings

end TypedRoutes
