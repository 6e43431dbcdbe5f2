import QueryCaret.Config
import QueryCaret.Kind
import QueryCaret.Text.Utf8

/-!
# Requests

What a command line asks for: the report of one diagnostic, with the query taken from a file, from the
command line, or from nowhere. Where both are named the file is read, though no command line may name
both. The position is still a number here; whether it is a position is found out when the report is
made.
-/

set_option autoImplicit false

namespace QueryCaret

structure Request where
  position : Int
  message : Text
  execute : Bool := false
  padding : Nat := defaultPadding
  anchor : Anchor := .trimmed
  /-- The path of the query file, if there is one. -/
  file? : Option ByteText := none
  /-- The query as it stands on the command line, if it stands there. -/
  argument? : Option Text := none
  deriving DecidableEq

namespace Request

def config (r : Request) : Config :=
  { padding := r.padding, anchor := r.anchor }

def kind (r : Request) : Kind := if r.execute then .execution else .syntactic

end Request

end QueryCaret
