/-!
# Joining templates

* `joinTemplates` : a parent template and a child template with exactly one slash between them. An
  empty side yields the other, and a child of slashes alone adds nothing.
-/

namespace TypedRoutes

/-- The characters without the slashes in front. -/
def dropSlashes (cs : List Char) : List Char :=
  cs.dropWhile (· == '/')

/-- The characters without the slashes at the end. -/
def dropSlashesEnd (cs : List Char) : List Char :=
  (dropSlashes cs.reverse).reverse

def joinChars (parent child : List Char) : List Char :=
  if parent.isEmpty then child
  else if child.isEmpty then parent
  else if (dropSlashes child).isEmpty then parent
  else dropSlashesEnd parent ++ '/' :: dropSlashes child

/-- The template of a child route below its parent's template. -/
def joinTemplates (parent child : String) : String :=
  String.ofList (joinChars parent.toList child.toList)

end TypedRoutes
