import Signpost.Regex.Lexeme
import Signpost.Store.Basic

/-! # Errors of building a table and of routing a request -/

namespace Signpost

inductive Error
  /-- A rule does not compile. -/
  | pattern (rule : String) (cause : Regex.ReadError)
  | store (cause : StoreError)
  | operator (text : String)
  /-- A handler gave up. -/
  | callback (reason : String)
  /-- A page in the settings has no number for its key. -/
  | pageId (key : String)
  deriving DecidableEq, Repr

def Error.message : Error → String
  | pattern rule _ => "invalid route pattern `" ++ rule ++ "`"
  | store cause => "lookup failed: " ++ cause.message
  | operator text => "unsupported comparison operator `" ++ text ++ "`"
  | callback reason => "route callback failed: " ++ reason
  | pageId key => "invalid page id `" ++ key ++ "`"

end Signpost
