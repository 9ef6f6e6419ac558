/-!
# Words of a name

* `Words.cut` : a run of letters and digits is cut where a lower-case letter meets an upper-case
  one, and before the last capital of an acronym that runs into a word;
* `Words.ofChars` : the words of a name, its runs of ASCII letters and digits cut in this way;
* `kebab`, `snake`, `screaming` : the words joined in the three styles;
* `isPlainIdentifier` : an ASCII letter or underscore followed by letters, digits and underscores.

Digits stay with the word they follow. Characters outside ASCII separate words.
-/

namespace TypedRoutes.Text

namespace Words

/-- The case of the last letter of the current word. -/
inductive Mode
  | start
  | lower
  | upper
  deriving DecidableEq, Repr

/-- The mode after a character that does not end a word. -/
def Mode.after (m : Mode) (c : Char) : Mode :=
  if c.isLower then .lower else if c.isUpper then .upper else m

/-- Cut a run of letters and digits into words. `word` holds the part of the current word that
lies before the run, last character first, and `m` is its mode. -/
def cut (word : List Char) (m : Mode) : List Char → List (List Char)
  | [] => if word.isEmpty then [] else [word.reverse]
  | [c] => [(c :: word).reverse]
  | c :: next :: rest =>
    if m.after c = .lower ∧ next.isUpper then
      (c :: word).reverse :: cut [] .start (next :: rest)
    else if m = .upper ∧ c.isUpper ∧ next.isLower then
      word.reverse :: cut [c] .start (next :: rest)
    else cut (c :: word) (m.after c) (next :: rest)

/-- The words of a name. -/
def ofChars (cs : List Char) : List (List Char) :=
  (cs.splitOnP (!·.isAlphanum)).flatMap (cut [] .start)

theorem flatten_cut (word : List Char) (m : Mode) (cs : List Char) :
    (cut word m cs).flatten = word.reverse ++ cs := by
  fun_induction cut word m cs <;> simp_all

end Words

/-! ## Styles -/

/-- Lower-case words joined by hyphens. -/
def kebab (name : String) : String :=
  "-".intercalate ((Words.ofChars name.toList).map fun w => String.ofList (w.map Char.toLower))

/-- Lower-case words joined by underscores. -/
def snake (name : String) : String :=
  "_".intercalate ((Words.ofChars name.toList).map fun w => String.ofList (w.map Char.toLower))

/-- Upper-case words joined by underscores. -/
def screaming (name : String) : String :=
  "_".intercalate ((Words.ofChars name.toList).map fun w => String.ofList (w.map Char.toUpper))

/-! ## Plain identifiers -/

def isNameStart (c : Char) : Bool :=
  c.isAlpha || c == '_'

def isNameChar (c : Char) : Bool :=
  c.isAlphanum || c == '_'

/-- Whether a text is an ASCII identifier. -/
def isPlainIdentifier (name : String) : Bool :=
  match name.toList with
  | c :: rest => isNameStart c && rest.all isNameChar
  | [] => false

end TypedRoutes.Text
