/-!
# `Introspection.Listing.Palette`: colours of a listing

A `Palette` says what is written before a name, a type or a keyword of a listing, and what is
written behind it. With the palette `off` this is nothing.
-/

set_option autoImplicit false

namespace Introspection.Listing

/-- What is written before a text of each style, and behind any of them. -/
structure Palette where
  /-- Names of entities and members. -/
  name : String
  /-- Native types. -/
  native : String
  /-- Host types. -/
  host : String
  /-- Keywords and punctuation. -/
  dim : String
  reset : String
  deriving DecidableEq

namespace Palette

/-- Colours of a terminal with sixteen of them. -/
def on : Palette := ⟨"\x1b[34m", "\x1b[32m", "\x1b[33m", "\x1b[2m", "\x1b[0m"⟩

/-- No colours. -/
def off : Palette := ⟨"", "", "", "", ""⟩

/-- The palette that is used when colours are wanted or not. -/
def select (colored : Bool) : Palette := if colored then on else off

end Palette

end Introspection.Listing
