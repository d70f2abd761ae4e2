import Mathlib.Data.List.TakeDrop
import Mathlib.Data.List.TakeWhile
import Signpost.Proofs.Dict
import Signpost.Proofs.Handler.Changes

/-!
# The last word on a response

Each part of a response is told by some kinds of changes, and of several changes that tell it the
last one counts: the headers name by name, the content type apart from them, the status and the
place of a redirect.
-/

namespace Signpost

/-- Names of headers that differ at most in the case of their letters. -/
def SameName (a b : String) : Prop := a.toList.map Char.toLower = b.toList.map Char.toLower

instance (a b : String) : Decidable (SameName a b) := inferInstanceAs (Decidable (_ = _))

/-! ## What a change tells -/

namespace Change

/-- The header that a change gives, by its name and value. -/
def header? : Change → Option (String × String)
  | header name value => some (name, value)
  | rawHeader line =>
    (Text.splitFirst? ':' line).map fun part => (Text.trimBlanks part.1, Text.trimBlanks part.2)
  | contentType value => some ("Content-Type", value)
  | json => some ("Content-Type", "application/json")
  | _ => none

def contentType? (c : Change) : Option String :=
  c.header?.bind fun h => if SameName h.1 "Content-Type" then some h.2 else none

/-- What a change writes under the name of a header, which is not the content type. -/
def headerAs? (name : String) (c : Change) : Option String :=
  c.header?.bind fun h => if h.1 = name ∧ ¬SameName name "Content-Type" then some h.2 else none

def status? : Change → Option Nat
  | status code => some code
  | redirect _ code => some code
  | json => some 200
  | notFound => some 404
  | _ => none

def outputType? : Change → Option OutputType
  | outputType type => some type
  | _ => none

def redirect? : Change → Option String
  | redirect url _ => some url
  | _ => none

/-- The last that is told of one thing. -/
def last {α : Type} (told? : Change → Option α) (cs : List Change) : Option α :=
  (cs.filterMap told?).getLast?

variable {α : Type} {told? : Change → Option α} {cs : List Change} {name : String}

theorem last_append (told? : Change → Option α) (cs : List Change) (c : Change) :
    last told? (cs ++ [c]) = (told? c).or (last told? cs) := by
  rw [last, List.filterMap_append, List.getLast?_append]
  cases h : told? c <;> simp [last, h]

theorem last_headerAs? (h : SameName name "Content-Type") : last (headerAs? name) cs = none := by
  rw [last, List.getLast?_eq_none_iff, List.filterMap_eq_nil_iff]
  intro c _
  simp [headerAs?, h]

end Change

/-! ## Addresses -/

/-- The address begins with a slash, with a dot or with a scheme in small letters. -/
def OpensAsAddress (address : String) : Prop :=
  address.toList.head? = some '/' ∨ address.toList.head? = some '.' ∨
    ∃ scheme rest, address.toList = scheme ++ "://".toList ++ rest ∧ scheme ≠ [] ∧
      ∀ c ∈ scheme, 'a' ≤ c ∧ c ≤ 'z'

namespace Context

variable {address : String}

theorem hasScheme_iff (cs : List Char) :
    (!(cs.span fun c => 'a' ≤ c && c ≤ 'z').1.isEmpty &&
        "://".toList.isPrefixOf (cs.span fun c => 'a' ≤ c && c ≤ 'z').2) = true ↔
      ∃ scheme rest, cs = scheme ++ "://".toList ++ rest ∧ scheme ≠ [] ∧
        ∀ c ∈ scheme, 'a' ≤ c ∧ c ≤ 'z' := by
  rw [List.span_eq_takeWhile_dropWhile, Bool.and_eq_true, Bool.not_eq_true',
    List.isPrefixOf_iff_prefix]
  constructor
  · rintro ⟨hscheme, rest, hrest⟩
    refine ⟨_, rest, ?_, by simpa only [List.isEmpty_eq_false_iff] using hscheme,
      fun c hc => by simpa using List.mem_takeWhile_imp hc⟩
    rw [List.append_assoc, hrest, List.takeWhile_append_dropWhile]
  · rintro ⟨scheme, rest, rfl, hscheme, hsmall⟩
    have hletters : ∀ c ∈ scheme, (decide ('a' ≤ c) && decide (c ≤ 'z')) = true := by
      simpa using hsmall
    have htext : scheme ++ "://".toList ++ rest = scheme ++ ':' :: ('/' :: '/' :: rest) := by
      rw [List.append_assoc]
      rfl
    rw [htext, List.takeWhile_append_of_pos hletters, List.dropWhile_append_of_pos hletters,
      List.takeWhile_cons_of_neg (by decide), List.dropWhile_cons_of_neg (by decide)]
    exact ⟨by simpa using hscheme, rest, rfl⟩

theorem isAddress_iff : isAddress address.toList = true ↔ OpensAsAddress address := by
  rw [OpensAsAddress]
  generalize address.toList = cs
  unfold isAddress
  split
  · simp
  · simp
  · next hslash hdot =>
    have hnoSlash : cs.head? ≠ some '/' := fun h => by
      obtain ⟨rest, rfl⟩ := List.head?_eq_some_iff.1 h
      exact hslash rest rfl
    have hnoDot : cs.head? ≠ some '.' := fun h => by
      obtain ⟨rest, rfl⟩ := List.head?_eq_some_iff.1 h
      exact hdot rest rfl
    rw [or_iff_right hnoSlash, or_iff_right hnoDot]
    exact hasScheme_iff cs

theorem opensAsAddress_location (url : String) : OpensAsAddress (location url) := by
  unfold location
  split
  · next h => exact isAddress_iff.1 h
  · rw [OpensAsAddress, String.toList_append]
    exact .inl rfl

theorem location_eq (url : String) :
    location url = url ∨ ¬OpensAsAddress url ∧ location url = "/" ++ url := by
  unfold location
  split
  · exact .inl rfl
  · next h => exact .inr ⟨fun hopens => h (isAddress_iff.2 hopens), rfl⟩

/-! ## One change -/

variable {ctx ctx' : Context} {charset : String} {cs : List Change}

theorem setHeader_eq (ctx : Context) (name value : String) :
    ctx.setHeader name value =
      if SameName name "Content-Type" then { ctx with contentType := some value }
      else { ctx with headers := ctx.headers.insert name value } := rfl

theorem contentType_setHeader (ctx : Context) (name value : String) :
    (ctx.setHeader name value).contentType =
      if SameName name "Content-Type" then some value else ctx.contentType := by
  rw [setHeader_eq]
  split <;> rfl

theorem get?_headers_setHeader (ctx : Context) (name value other : String) :
    (ctx.setHeader name value).headers.get? other =
      if name = other ∧ ¬SameName other "Content-Type" then some value
      else ctx.headers.get? other := by
  rw [setHeader_eq]
  by_cases hname : SameName name "Content-Type"
  · rw [if_pos hname, if_neg fun h => h.2 (h.1 ▸ hname)]
  · rw [if_neg hname]
    by_cases hother : name = other
    · rw [if_pos ⟨hother, hother ▸ hname⟩, hother]
      exact Dict.get?_insert_self ..
    · rw [if_neg fun h => hother h.1]
      exact Dict.get?_insert_ne (Ne.symm hother) ..

/-- What a change tells takes the place of what was told before. -/
structure Retold (c : Change) (ctx ctx' : Context) : Prop where
  header : ∀ name, ctx'.headers.get? name = (c.headerAs? name).or (ctx.headers.get? name)
  contentType : ctx'.contentType = c.contentType?.or ctx.contentType
  status : ctx'.status = c.status?.or ctx.status
  outputType : ctx'.outputType = c.outputType?.getD ctx.outputType
  redirect : ctx'.redirect = (c.redirect?.map location).or ctx.redirect
  charset : ctx'.charset = ctx.charset

theorem retold_setHeader {c : Change} {name value : String} {status : Option Nat}
    (hheader : c.header? = some (name, value)) (hstatus : status = c.status?.or ctx.status)
    (houtput : c.outputType? = none) (hredirect : c.redirect? = none) :
    Retold c ctx ({ ctx with status := status }.setHeader name value) := by
  have hframe := setHeader_frame { ctx with status := status } name value
  constructor
  case header =>
    intro other
    rw [get?_headers_setHeader, Change.headerAs?, hheader, Option.bind_some]
    split <;> rfl
  case contentType =>
    rw [contentType_setHeader, Change.contentType?, hheader, Option.bind_some]
    split <;> rfl
  case status => rw [hframe, hstatus]
  case outputType => rw [hframe, houtput, Option.getD_none]
  case redirect => rw [hframe, hredirect, Option.map_none, Option.none_or]
  case charset => rw [hframe]

theorem retold_of_silent {c : Change} (hheader : c.header? = none)
    (hheaders : ctx'.headers = ctx.headers) (hcontentType : ctx'.contentType = ctx.contentType)
    (hstatus : ctx'.status = c.status?.or ctx.status)
    (houtput : ctx'.outputType = c.outputType?.getD ctx.outputType)
    (hredirect : ctx'.redirect = (c.redirect?.map location).or ctx.redirect)
    (hcharset : ctx'.charset = ctx.charset) : Retold c ctx ctx' where
  header name := by simp [Change.headerAs?, hheader, hheaders]
  contentType := by simp [Change.contentType?, hheader, hcontentType]
  status := hstatus
  outputType := houtput
  redirect := hredirect
  charset := hcharset

theorem retold_apply (ctx : Context) (c : Change) : Retold c ctx (ctx.apply c) := by
  cases c
  case header | contentType | json => exact retold_setHeader rfl rfl rfl rfl
  case rawHeader line =>
    simp only [apply]
    split
    · next name value hline =>
      refine retold_setHeader ?_ rfl rfl rfl
      rw [Change.header?, hline]
      rfl
    · next hline =>
      refine retold_of_silent ?_ rfl rfl rfl rfl rfl rfl
      rw [Change.header?, hline]
      rfl
  all_goals exact retold_of_silent rfl rfl rfl rfl rfl rfl rfl

/-! ## Many changes -/

/-- A context holds what some changes told last. -/
structure Heeds (charset : String) (cs : List Change) (ctx : Context) : Prop where
  header : ∀ name, ctx.headers.get? name = Change.last (Change.headerAs? name) cs
  contentType : ctx.contentType = Change.last Change.contentType? cs
  status : ctx.status = Change.last Change.status? cs
  outputType : ctx.outputType = (Change.last Change.outputType? cs).getD .webpage
  redirect : ctx.redirect = (Change.last Change.redirect? cs).map location
  charset : ctx.charset = charset

theorem heeds_new (path charset : String) : Heeds charset [] { new path with charset } where
  header _ := rfl
  contentType := rfl
  status := rfl
  outputType := rfl
  redirect := rfl
  charset := rfl

theorem Heeds.retold {c : Change} (h : Heeds charset cs ctx) (hc : Retold c ctx ctx') :
    Heeds charset (cs ++ [c]) ctx' where
  header name := by rw [hc.header, h.header, Change.last_append]
  contentType := by rw [hc.contentType, h.contentType, Change.last_append]
  status := by rw [hc.status, h.status, Change.last_append]
  outputType := by
    rw [hc.outputType, h.outputType, Change.last_append]
    cases c.outputType? <;> rfl
  redirect := by
    rw [hc.redirect, h.redirect, Change.last_append]
    cases c.redirect? <;> rfl
  charset := hc.charset.trans h.charset

theorem Heeds.afterInquiry (h : Heeds charset cs ctx) (hctx : ctx.AfterInquiry ctx') :
    Heeds charset cs ctx' := by
  rw [AfterInquiry] at hctx
  rw [hctx]
  exact ⟨h.header, h.contentType, h.status, h.outputType, h.redirect, h.charset⟩

theorem Heeds.afterChanges {later : List Change} (h : Heeds charset cs ctx)
    (hctx : AfterChanges later ctx ctx') : Heeds charset (cs ++ later) ctx' := by
  induction hctx generalizing cs with
  | asked hctx =>
    rw [List.append_nil]
    exact h.afterInquiry hctx
  | @changed c later _ mid _ hmid _ ih =>
    rw [← List.singleton_append, ← List.append_assoc]
    exact ih ((h.afterInquiry hmid).retold (retold_apply mid c))

theorem afterChanges_foldl (cs : List Change) (ctx : Context) :
    AfterChanges cs ctx (cs.foldl apply ctx) := by
  induction cs generalizing ctx with
  | nil => exact .asked (.refl ctx)
  | cons c cs ih => exact .changed (.refl ctx) (ih _)

end Context

/-! ## Responses -/

/-- A response with a body as some changes told it last. -/
structure Response.Obeys (charset : String) (cs : List Change) (body : String) (r : Response) :
    Prop where
  apart : ∀ name ∈ r.headers.keys, ¬SameName name "Content-Type"
  header : ∀ name, (name = "Location" → Change.last Change.redirect? cs = none) →
    r.headers.get? name = Change.last (Change.headerAs? name) cs
  /-- Where no content type is given it is that of the output, which is a web page at first. -/
  contentType : r.contentType =
    match Change.last Change.contentType? cs, (Change.last Change.outputType? cs).getD .webpage with
    | some given, _ => some given
    | none, .webpage => some ("text/html; charset=" ++ charset)
    | none, .css => some "text/css"
    | none, .js => some "text/javascript"
    | none, .json => some "application/json"
    | none, .xml => some "text/xml"
    | none, .feed => none
    | none, .notFound => none
  status : r.status = (Change.last Change.status? cs).getD 200
  /-- A redirect leads to its address, or to the path of a template, whatever header is given. -/
  location : ∀ url, Change.last Change.redirect? cs = some url →
    ∃ place, r.headers.get? "Location" = some place ∧ OpensAsAddress place ∧
      (place = url ∨ ¬OpensAsAddress url ∧ place = "/" ++ url)
  body : r.body =
    if Change.last Change.contentType? cs = none ∧ Change.last Change.outputType? cs = some .xml then
      Text.trimBlanks body
    else body

namespace Context

variable {ctx : Context} {charset : String} {cs : List Change}

theorem get?_headers_response_ne {name : String}
    (h : name = "Location" → ctx.redirect = none) (body : String) :
    (ctx.response body).headers.get? name = ctx.headers.get? name := by
  unfold response
  cases hredirect : ctx.redirect with
  | none => rfl
  | some place =>
    refine Dict.get?_insert_ne (fun hname => ?_) _ _
    rw [h hname] at hredirect
    cases hredirect

theorem get?_headers_response_location {place : String} (h : ctx.redirect = some place)
    (body : String) : (ctx.response body).headers.get? "Location" = some place := by
  simp only [response, h]
  exact Dict.get?_insert_self ..

theorem Heeds.obeys (h : Heeds charset cs ctx) (body : String) :
    Response.Obeys charset cs body (ctx.response body) := by
  have hheader : ∀ name, (name = "Location" → Change.last Change.redirect? cs = none) →
      (ctx.response body).headers.get? name = Change.last (Change.headerAs? name) cs := by
    intro name hname
    rw [get?_headers_response_ne (fun heq => by rw [h.redirect, hname heq]; rfl), h.header]
  constructor
  case apart =>
    intro name hname hsame
    obtain ⟨e, he, rfl⟩ := List.mem_map.1 hname
    have hvalue : (ctx.response body).headers.get? e.1 = some e.2 := Dict.get?_eq_some_of_mem he
    have hother : e.1 ≠ "Location" := fun heq => absurd (heq ▸ hsame) (by decide)
    rw [hheader e.1 (fun heq => absurd heq hother), Change.last_headerAs? hsame] at hvalue
    cases hvalue
  case header => exact hheader
  case contentType =>
    rw [response, h.contentType, h.outputType, h.charset]
    cases Change.last Change.contentType? cs with
    | some given => rfl
    | none => cases (Change.last Change.outputType? cs).getD .webpage <;> rfl
  case status => rw [response, h.status]
  case location =>
    intro url hurl
    have hredirect : ctx.redirect = some (location url) := by rw [h.redirect, hurl]; rfl
    exact ⟨location url, get?_headers_response_location hredirect body,
      opensAsAddress_location url, location_eq url⟩
  case body =>
    have hxml : (Change.last Change.outputType? cs).getD .webpage = .xml ↔
        Change.last Change.outputType? cs = some .xml := by
      cases Change.last Change.outputType? cs <;> simp
    simp only [response, h.contentType, h.outputType, Bool.and_eq_true, beq_iff_eq, hxml,
      Option.isNone_iff_eq_none]

/-- A response obeys the last word of every change to a new context. -/
theorem response_obeys (path charset : String) (cs : List Change) (body : String) :
    Response.Obeys charset cs body
      ((cs.foldl apply { new path with charset }).response body) :=
  ((heeds_new path charset).afterChanges (afterChanges_foldl cs _)).obeys body

theorem obeys_run {α : Type} (store : Store) (h : Handler α) (tokens : List Token)
    (path charset body : String) :
    Response.Obeys
      (if h.renews store tokens { new path with charset } then "UTF-8" else charset)
      (h.changes store tokens { new path with charset }) body
      ((h.run store tokens { new path with charset }).context.response body) := by
  have hstart : Heeds (if h.renews store tokens { new path with charset } then "UTF-8" else charset)
      [] ((h.trail store tokens { new path with charset }).start { new path with charset }) := by
    unfold Handler.renews Trail.start
    cases (h.trail store tokens { new path with charset }).renewal? with
    | none => exact heeds_new path charset
    | some later => exact heeds_new later "UTF-8"
  exact (hstart.afterChanges (h.run_afterChanges tokens _)).obeys body

end Context

end Signpost
