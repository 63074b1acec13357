/-!
# `Introspection.Declaration.Fresh`: first come, first served

Members of a generated type must have distinct names. `freshBy` keeps, of things that come in
order, those whose names are not taken yet.
-/

set_option autoImplicit false

namespace Introspection

/-- Keeps each thing whose name is neither taken nor that of an earlier one. -/
def freshBy {α : Type} (name : α → String) (taken : List String) : List α → List α
  | [] => []
  | a :: as =>
    if name a ∈ taken then freshBy name taken as
    else a :: freshBy name (name a :: taken) as

end Introspection
