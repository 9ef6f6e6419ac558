import TypedRoutes.Sample.Value

/-!
# Routes of the sample application

* `homeRoute`, `appShell` : the two trees of routes;
* `decodeHome`, `decodeApp` : the place of a location in each of them.
-/

namespace TypedRoutes.Sample

open Navigation

/-- Home, and below it families with their persons, and the search. -/
def homeRoute : Route Reader :=
  .go "/" (some "home") none readHome
    [.go "family/:fid" none none readFamily [.go "person/:pid" none none readPerson []],
      .go "search" none none readSearch []]

/-- The shell around the settings. -/
def appShell : Route Reader :=
  .shell (some "app") none [.go "/settings" none none readSettings []]

def decodeHome (location : String) (payload : Option Draft) : Option (Except ReadError Value) :=
  homeRoute.decode location payload

def decodeApp (location : String) (payload : Option Draft) : Option (Except ReadError Value) :=
  appShell.decode location payload

end TypedRoutes.Sample
