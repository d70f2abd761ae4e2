import Signpost.Dict

/-! # Responses -/

namespace Signpost

/-- What an emitted body is; it decides the content type where none is given. -/
inductive OutputType
  | webpage
  | css
  | js
  | json
  | xml
  | feed
  | notFound
  deriving DecidableEq, Repr, Inhabited

namespace OutputType

def contentType? (charset : String) : OutputType → Option String
  | webpage => some ("text/html; charset=" ++ charset)
  | css => some "text/css"
  | js => some "text/javascript"
  | json => some "application/json"
  | xml => some "text/xml"
  | feed => none
  | notFound => none

end OutputType

/-- A body to be sent at once, in place of a template. -/
structure Response where
  status : Nat
  headers : Names String
  contentType : Option String
  body : String
  deriving DecidableEq, Repr

end Signpost
