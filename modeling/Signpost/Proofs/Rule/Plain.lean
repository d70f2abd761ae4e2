import Signpost.Proofs.Rule.Anchoring
import Signpost.Proofs.Rule.Layout
import Signpost.Proofs.Rule.Pieces
import Signpost.Proofs.Rule.Segments

/-!
# Plain rules

A plain rule is a row of items with slashes between them: literals, wildcards for whole segments and
references to pages. Every stage of compiling it keeps the row, so it ends in a layout.
-/

namespace Signpost

/-- Kinds of wildcards that stand for whole segments. -/
def Kind.isSegment : Kind → Bool
  | .pagination | .all => false
  | _ => true

/-- The path of a page without slashes at its ends. -/
def Pages.uri? (pages : Pages) (digits : List Char) : Option (List Char) :=
  ((PageId.ofDigits? digits).bind pages.get?).map fun path => Text.trim Text.isSlash path.toList

namespace Plain

/-- A text for one segment whose characters have no meaning in rules and in expressions. -/
def isLiteral (cs : List Char) : Bool :=
  !cs.isEmpty && cs.all fun c => c != '/' && c != ':' && !Regex.isOperator c

inductive Item
  | literal (text : List Char)
  | wildcard (kind : Kind)
  /-- A reference to a page by its number. -/
  | page (digits : List Char)
  deriving DecidableEq, Repr

namespace Item

def text : Item → List Char
  | literal cs => cs
  | wildcard kind => ':' :: kind.name.toList
  | page digits => ":page:".toList ++ digits

/-- A page has to be known, with a path of literals between slashes. -/
def isValid (pages : Pages) : Item → Bool
  | literal cs => isLiteral cs
  | wildcard kind => kind.isSegment
  | page digits => (pages.uri? digits).any fun uri => (uri.splitOn '/').all isLiteral

end Item

/-- Items with slashes between them, and perhaps `/:pagination` after the last. -/
structure Rule where
  first : Item
  others : List Item
  paginated : Bool
  deriving DecidableEq, Repr

namespace Rule

variable {α : Type}

def items (r : Rule) : List Item := r.first :: r.others

def isValid (pages : Pages) (r : Rule) : Bool := r.items.all (Item.isValid pages)

/-- The items in another form, with separators between them. -/
def join (r : Rule) (form : Item → List α) (sep : α) (pagination : List α) : List α :=
  form r.first ++ (r.others.flatMap fun item => sep :: form item) ++
    (if r.paginated then pagination else [])

def text (r : Rule) : List Char := r.join Item.text '/' "/:pagination".toList

end Rule

/-! ## Literals -/

theorem isLiteral_iff {cs : List Char} : isLiteral cs = true ↔
    cs ≠ [] ∧ ∀ c ∈ cs, c ≠ '/' ∧ c ≠ ':' ∧ Regex.isOperator c = false := by
  simp [isLiteral, and_assoc]

theorem letters_of_segments {uri : List Char} (h : (uri.splitOn '/').all isLiteral = true) :
    ∀ c ∈ uri, c ≠ ':' ∧ Regex.isOperator c = false := by
  intro c hc
  obtain rfl | ⟨s, hs, hc⟩ := mem_segment_of_mem hc
  · decide
  · exact ((isLiteral_iff.1 (List.all_eq_true.1 h s hs)).2 c hc).2

/-! ## The forms of an item -/

namespace Item

def uri (pages : Pages) (digits : List Char) : List Char := (pages.uri? digits).getD []

/-- The text that is cut into pieces: a page stands there with its path in parentheses. -/
def source (pages : Pages) : Item → List Char
  | page digits => '(' :: (uri pages digits ++ [')'])
  | item => item.text

def pieces (pages : Pages) : Item → List Piece
  | literal cs => cs.map .char
  | wildcard kind => [.wildcard false kind]
  | page digits => .paren true :: ((uri pages digits).map .char ++ [.char ')'])

def body (setting : CategorySetting) (pages : Pages) (item : Item) : List Char :=
  (item.pieces pages).flatMap (Piece.expansion setting)

def kinds : Item → List (Option Kind)
  | literal _ => []
  | wildcard kind => [some kind]
  | page _ => [none]

end Item

theorem page_of_isValid {pages : Pages} {digits : List Char}
    (h : (Item.page digits).isValid pages = true) :
    (∃ path, (PageId.ofDigits? digits).bind pages.get? = some path ∧
      Text.trim Text.isSlash path.toList = Item.uri pages digits) ∧
    pages.uri? digits = some (Item.uri pages digits) ∧
    ((Item.uri pages digits).splitOn '/').all isLiteral = true := by
  obtain ⟨uri, huri, hall⟩ := (Option.any_eq_true _ _).1 h
  obtain ⟨path, hpath, rfl⟩ := Option.map_eq_some_iff.1 huri
  rw [Item.uri, huri]
  exact ⟨⟨path, hpath, rfl⟩, rfl, hall⟩

/-! ## Reading a row of items -/

namespace Rule

theorem endsItem_row {last : List Char} (form : Item → List Char) (h : EndsItem last)
    (items : List Item) : EndsItem ((items.flatMap fun item => '/' :: form item) ++ last) := by
  cases items with
  | nil => exact h
  | cons item items => exact .inr ⟨_, rfl⟩

theorem read_join {β : Type} {r : Rule} {scan : List Char → List β} {form : Item → List Char}
    {pagination : List Char} {form' : Item → List β} {sep : β} {pagination' : List β}
    (hitem : ∀ item ∈ r.items, ∀ rest, EndsItem rest →
      scan (form item ++ rest) = form' item ++ scan rest)
    (hsep : ∀ item ∈ r.items, ∀ rest, EndsItem rest →
      scan ('/' :: (form item ++ rest)) = sep :: scan (form item ++ rest))
    (hpagination : scan pagination = pagination') (hnil : scan [] = [])
    (hends : EndsItem pagination) :
    scan (r.join form '/' pagination) = r.join form' sep pagination' := by
  have hlast : EndsItem (if r.paginated then pagination else []) := by
    split
    · exact hends
    · exact .inl rfl
  have hrow : ∀ items : List Item, (∀ item ∈ items, item ∈ r.items) →
      scan ((items.flatMap fun item => '/' :: form item) ++
          (if r.paginated then pagination else [])) =
        (items.flatMap fun item => sep :: form' item) ++
          (if r.paginated then pagination' else []) := by
    intro items
    induction items with
    | nil =>
      intro _
      simp only [List.flatMap_nil, List.nil_append]
      split
      · exact hpagination
      · exact hnil
    | cons item items ih =>
      intro hmem
      obtain ⟨hhead, htail⟩ := List.forall_mem_cons.1 hmem
      have hrest := endsItem_row form hlast items
      simp only [List.flatMap_cons, List.cons_append, List.append_assoc]
      rw [hsep item hhead _ hrest, hitem item hhead _ hrest, ih htail]
  rw [join, List.append_assoc, hitem _ List.mem_cons_self _ (endsItem_row form hlast _),
    hrow _ fun item => List.mem_cons_of_mem _, join, List.append_assoc]

end Rule

/-! ## References are resolved -/

theorem resolveFrom_wildcard (pages : Pages) (kind : Kind) (rest : List Char) :
    Pages.resolveFrom pages 0 ((Item.wildcard kind).text ++ rest) =
      (Item.wildcard kind).text ++ Pages.resolveFrom pages 0 rest := by
  have hnone : Pages.Reference.atFront? (':' :: (kind.name.toList ++ rest)) = none := by
    cases kind <;> rfl
  have hall : kind.name.toList.all (fun c => c != ':' && c != '(') = true := by
    cases kind <;> decide
  have hname : ∀ c ∈ kind.name.toList, c ≠ ':' ∧ c ≠ '(' := by
    simpa using hall
  have htext : (Item.wildcard kind).text ++ rest = ':' :: (kind.name.toList ++ rest) := rfl
  rw [htext, Pages.resolveFrom_none hnone, Pages.resolveFrom_letters hname]
  rfl

theorem resolveFrom_item {pages : Pages} {item : Item} {rest : List Char}
    (h : item.isValid pages = true) (hrest : EndsItem rest) :
    Pages.resolveFrom pages 0 (item.text ++ rest) =
      item.source pages ++ Pages.resolveFrom pages 0 rest := by
  cases item with
  | literal cs =>
    refine Pages.resolveFrom_letters (fun c hc => ?_) rest
    obtain ⟨-, hcolon, hoperator⟩ := (isLiteral_iff.1 h).2 c hc
    refine ⟨hcolon, ?_⟩
    rintro rfl
    cases hoperator
  | wildcard kind => exact resolveFrom_wildcard pages kind rest
  | page digits =>
    obtain ⟨⟨path, hpath, huri⟩, -, -⟩ := page_of_isValid h
    obtain ⟨id, hid, -⟩ := Option.bind_eq_some_iff.1 hpath
    obtain ⟨hne, hall⟩ := PageId.digits_of_ofDigits? hid
    have hresolved : Pages.resolveFrom pages 0 (':' :: ("page:".toList ++ digits ++ rest)) =
        Pages.Reference.resolve pages ⟨digits, ":page:".toList ++ digits⟩ ++
          Pages.resolveFrom pages 0 rest :=
      Pages.resolveFrom_front rfl (Pages.ofColon?_page hne hall hrest)
    refine hresolved.trans ?_
    simp only [Pages.Reference.resolve, hpath, huri]
    rfl

theorem resolve_text {pages : Pages} {r : Rule} (h : r.isValid pages = true) :
    pages.resolve r.text = r.join (Item.source pages) '/' "/:pagination".toList := by
  have hvalid := List.all_eq_true.1 h
  refine Rule.read_join (fun item hmem rest hrest => resolveFrom_item (hvalid item hmem) hrest)
    (fun item hmem rest hrest => ?_) rfl rfl (.inr ⟨_, rfl⟩)
  exact Pages.resolveFrom_none (Pages.atFront?_other (by decide) (by decide) _)

/-! ## The pieces -/

theorem opensCapture_letter {c : Char} (h : c ≠ '?') (cs : List Char) :
    Piece.opensCapture (c :: cs) = true := by
  unfold Piece.opensCapture
  split <;> first | rfl | (rename_i hcs; exact absurd (List.cons.inj hcs).1 h)

theorem cutFrom_item {pages : Pages} {item : Item} {rest : List Char}
    (h : item.isValid pages = true) (hrest : EndsItem rest) :
    Piece.cutFrom 0 (item.source pages ++ rest) = item.pieces pages ++ Piece.cutFrom 0 rest := by
  cases item with
  | literal cs =>
    exact Piece.cutFrom_letters (fun c hc => ((isLiteral_iff.1 h).2 c hc).2) hrest.ne_colon
  | wildcard kind =>
    have hfirst : Piece.first ':' (kind.name.toList ++ rest) = .wildcard false kind := by
      unfold Piece.first
      rw [Piece.wildcard?, Piece.named?_name kind hrest]
      rfl
    exact Piece.cutFrom_source rfl hfirst
  | page digits =>
    obtain ⟨-, -, hall⟩ := page_of_isValid h
    have hletters := letters_of_segments hall
    obtain ⟨c, cs, huri⟩ : ∃ c cs, Item.uri pages digits = c :: cs := by
      refine List.exists_cons_of_ne_nil fun hnil => ?_
      rw [hnil] at hall
      cases hall
    have hquestion : c ≠ '?' := by
      rintro rfl
      cases (hletters '?' (huri ▸ List.mem_cons_self)).2
    have hopen : Piece.first '(' (Item.uri pages digits ++ (')' :: rest)) = .paren true := by
      have hcapture := opensCapture_letter hquestion (cs ++ ')' :: rest)
      rw [huri, List.cons_append]
      exact congrArg Piece.paren hcapture
    have hclose : Piece.first ')' rest = .char ')' := rfl
    have hbegin : Piece.cutFrom 0 ('(' :: (Item.uri pages digits ++ (')' :: rest))) =
        .paren true :: Piece.cutFrom 0 (Item.uri pages digits ++ (')' :: rest)) :=
      Piece.cutFrom_source (w := []) rfl hopen
    have hend : Piece.cutFrom 0 (')' :: rest) = .char ')' :: Piece.cutFrom 0 rest :=
      Piece.cutFrom_source (w := []) rfl hclose
    rw [Item.source, List.cons_append, List.append_assoc, List.singleton_append, hbegin,
      Piece.cutFrom_letters hletters (by simp), hend]
    simp [Item.pieces]

theorem cutFrom_slash {pages : Pages} {item : Item} {rest : List Char}
    (h : item.isValid pages = true) (hrest : EndsItem rest) :
    Piece.cutFrom 0 ('/' :: (item.source pages ++ rest)) =
      .char '/' :: Piece.cutFrom 0 (item.source pages ++ rest) := by
  have hnone : Piece.wildcard? ('/' :: (item.source pages ++ rest)) = none := by
    cases item with
    | literal cs =>
      refine Piece.wildcard?_other (by decide) fun _ x hx => ?_
      obtain ⟨hne, hcs⟩ := isLiteral_iff.1 h
      obtain ⟨c, cs, rfl⟩ := List.exists_cons_of_ne_nil hne
      exact (hcs c List.mem_cons_self).2.1 (List.cons.inj hx).1
    | wildcard kind =>
      have htakes : Piece.takesSlash kind = false := by
        cases kind <;> first | rfl | cases h
      have hname := Piece.named?_name kind hrest
      have htext : (Item.wildcard kind).source pages ++ rest = ':' :: (kind.name.toList ++ rest) :=
        rfl
      simp [htext, Piece.wildcard?, hname, htakes]
    | page digits => exact Piece.wildcard?_other (by decide) (by simp [Item.source])
  have hfirst : Piece.first '/' (item.source pages ++ rest) = .char '/' :=
    Piece.first_char hnone (by decide)
  exact Piece.cutFrom_source (w := []) rfl hfirst

theorem cut_source {pages : Pages} {r : Rule} (h : r.isValid pages = true) :
    Piece.cut (r.join (Item.source pages) '/' "/:pagination".toList) =
      r.join (Item.pieces pages) (.char '/') [.wildcard true .pagination] := by
  have hvalid := List.all_eq_true.1 h
  exact Rule.read_join (fun item hmem rest hrest => cutFrom_item (hvalid item hmem) hrest)
    (fun item hmem rest hrest => cutFrom_slash (hvalid item hmem) hrest) rfl rfl (.inr ⟨_, rfl⟩)

/-! ## Slashes at the ends -/

/-- The text begins with something else than a slash. -/
def StartsInside (cs : List Char) : Prop := ∃ c rest, cs = c :: rest ∧ c ≠ '/'

/-- The text ends with something else than a slash. -/
def StopsInside (cs : List Char) : Prop := ∃ before c, cs = before ++ [c] ∧ c ≠ '/'

theorem StartsInside.append {cs : List Char} (h : StartsInside cs) (rest : List Char) :
    StartsInside (cs ++ rest) := by
  obtain ⟨c, tail, rfl, hc⟩ := h
  exact ⟨c, tail ++ rest, rfl, hc⟩

theorem StopsInside.append {cs : List Char} (h : StopsInside cs) (before : List Char) :
    StopsInside (before ++ cs) := by
  obtain ⟨middle, c, rfl, hc⟩ := h
  exact ⟨before ++ middle, c, (List.append_assoc ..).symm, hc⟩

theorem stopsInside_of_notMem {cs : List Char} (hne : cs ≠ []) (h : '/' ∉ cs) :
    StopsInside cs := by
  refine ⟨cs.dropLast, cs.getLast hne, (List.dropLast_concat_getLast hne).symm, ?_⟩
  intro hc
  exact h (hc ▸ List.getLast_mem hne)

theorem trimStart_of_startsInside {cs : List Char} (h : StartsInside cs) :
    Text.trimStart Text.isSlash cs = cs := by
  obtain ⟨c, rest, rfl, hc⟩ := h
  exact List.dropWhile_cons_of_neg (by simpa [Text.isSlash] using hc)

theorem trimEnd_of_stopsInside {cs : List Char} (h : StopsInside cs) :
    Text.trimEnd Text.isSlash cs = cs := by
  obtain ⟨before, c, rfl, hc⟩ := h
  have hslash : ¬ Text.isSlash c = true := by simpa [Text.isSlash] using hc
  rw [Text.trimEnd, List.reverse_append, List.reverse_singleton, List.singleton_append,
    List.dropWhile_cons_of_neg hslash]
  simp

theorem trim_of_inside {cs : List Char} (hstart : StartsInside cs) (hstop : StopsInside cs) :
    Text.trim Text.isSlash cs = cs := by
  rw [Text.trim, trimStart_of_startsInside hstart, trimEnd_of_stopsInside hstop]

theorem startsInside_join {r : Rule} {form : Item → List Char} {pagination : List Char}
    (h : StartsInside (form r.first)) : StartsInside (r.join form '/' pagination) :=
  (h.append _).append _

theorem stopsInside_join {r : Rule} {form : Item → List Char} {pagination : List Char}
    (h : ∀ item ∈ r.items, StopsInside (form item)) (hpagination : StopsInside pagination) :
    StopsInside (r.join form '/' pagination) := by
  have hrow : ∀ items : List Item, (∀ item ∈ items, StopsInside (form item)) → items ≠ [] →
      StopsInside (items.flatMap fun item => '/' :: form item) := by
    intro items
    induction items with
    | nil => exact fun _ hne => absurd rfl hne
    | cons item items ih =>
      intro hitems _
      obtain ⟨hitem, hitems⟩ := List.forall_mem_cons.1 hitems
      rw [List.flatMap_cons]
      by_cases hnil : items = []
      · rw [hnil, List.flatMap_nil, List.append_nil]
        exact hitem.append ['/']
      · exact (ih hitems hnil).append _
  obtain ⟨hfirst, hothers⟩ := List.forall_mem_cons.1 h
  rw [Rule.join]
  split
  · exact hpagination.append _
  · rw [List.append_nil]
    by_cases hnil : r.others = []
    · rwa [hnil, List.flatMap_nil, List.append_nil]
    · exact (hrow _ hothers hnil).append _

theorem literal_inside {cs : List Char} (h : isLiteral cs = true) :
    StartsInside cs ∧ StopsInside cs := by
  obtain ⟨hne, hcs⟩ := isLiteral_iff.1 h
  refine ⟨?_, stopsInside_of_notMem hne fun hmem => (hcs '/' hmem).1 rfl⟩
  obtain ⟨c, rest, rfl⟩ := List.exists_cons_of_ne_nil hne
  exact ⟨c, rest, rfl, (hcs c List.mem_cons_self).1⟩

theorem stopsInside_text {pages : Pages} {item : Item} (h : item.isValid pages = true) :
    StopsInside item.text := by
  cases item with
  | literal cs => exact (literal_inside h).2
  | wildcard kind =>
    have hname : '/' ∉ ':' :: kind.name.toList := by cases kind <;> decide
    exact stopsInside_of_notMem (List.cons_ne_nil _ _) hname
  | page digits =>
    obtain ⟨⟨path, hpath, -⟩, -, -⟩ := page_of_isValid h
    obtain ⟨id, hid, -⟩ := Option.bind_eq_some_iff.1 hpath
    obtain ⟨hne, hall⟩ := PageId.digits_of_ofDigits? hid
    refine (stopsInside_of_notMem hne fun hmem => ?_).append _
    cases List.all_eq_true.1 hall '/' hmem

theorem source_inside {pages : Pages} {item : Item} (h : item.isValid pages = true) :
    StartsInside (item.source pages) ∧ StopsInside (item.source pages) := by
  cases item with
  | literal cs => exact literal_inside h
  | wildcard kind => exact ⟨⟨':', _, rfl, by decide⟩, stopsInside_text h⟩
  | page digits =>
    exact ⟨⟨'(', _, rfl, by decide⟩, '(' :: Item.uri pages digits, ')', rfl, by decide⟩

/-! ## What is written for the items -/

end Plain

namespace Kind

/-- The group for a wildcard. -/
def field (byName : Bool) : Kind → Regex.Field
  | .any | .urlTitle | .categoryUrlTitle | .username => .segment
  | .num | .entryId | .categoryId | .memberId => .digits
  | .year => .fourDigits
  | .month | .day => .twoDigits
  | .category => if byName then .segment else .digits
  | .pagination => .pagination
  | .all => .remainder

/-- The fixed segments before what a wildcard captures. -/
def before (setting : CategorySetting) : Kind → List (List Char)
  | .category => [setting.word.toList]
  | _ => []

end Kind

namespace Plain

open Regex (Atom Layout Field Lexeme lexemes)

theorem capture_eq (setting : CategorySetting) (kind : Kind) :
    Piece.capture setting kind =
      ((kind.before setting).flatMap fun word => Regex.escape word ++ ['/']) ++
        (kind.field setting.byName).text := by
  cases kind with
  | category =>
    have hvalue : (if setting.byName then "([^/]+)".toList else "([0-9]+)".toList) =
        (Kind.category.field setting.byName).text := by
      cases setting.byName <;> rfl
    unfold Piece.capture
    simp only [hvalue, Kind.before, List.flatMap_singleton, List.append_assoc,
      List.singleton_append]
  | _ => rfl

def Item.layout (setting : CategorySetting) (pages : Pages) : Item → Layout
  | literal cs => cs.map .letter
  | wildcard kind =>
    ((kind.before setting).flatMap fun word => word.map .letter ++ [.letter '/']) ++
      [.field (kind.field setting.byName)]
  | page digits => [.field (.letters (uri pages digits))]

def Rule.layout (setting : CategorySetting) (pages : Pages) (r : Rule) : Layout :=
  r.join (Item.layout setting pages) (.letter '/') [.field .pagination]

/-- The text is cut into these lexemes, whatever follows it. -/
def Lexes (cs : List Char) (ls : List Lexeme) : Prop :=
  ∀ rest, lexemes 0 (cs ++ rest) = (lexemes 0 rest).map (ls ++ ·)

namespace Lexes

variable {cs ds : List Char} {ls ms : List Lexeme}

theorem nil : Lexes [] [] := fun rest => by
  rw [List.nil_append]
  cases lexemes 0 rest <;> rfl

theorem append (h : Lexes cs ls) (h' : Lexes ds ms) : Lexes (cs ++ ds) (ls ++ ms) := fun rest => by
  rw [List.append_assoc, h, h']
  cases lexemes 0 rest <;> simp [Except.map]

theorem flatMap {α : Type} {f : α → List Char} {g : α → List Lexeme} {as : List α}
    (h : ∀ a ∈ as, Lexes (f a) (g a)) : Lexes (as.flatMap f) (as.flatMap g) := by
  induction as with
  | nil => exact nil
  | cons a as ih =>
    obtain ⟨ha, has⟩ := List.forall_mem_cons.1 h
    exact ha.append (ih has)

theorem eq (h : Lexes cs ls) : lexemes 0 cs = .ok ls := by
  have hend := h []
  rwa [List.append_nil, show lexemes 0 [] = .ok [] from rfl, Except.map, List.append_nil] at hend

end Lexes

theorem lexes_letters {cs : List Char} (h : ∀ c ∈ cs, Regex.isOperator c = false) :
    Lexes cs ((cs.map Atom.letter).flatMap Atom.lexemes) := fun rest => by
  rw [Regex.lexemes_letters h]
  simp [Atom.lexemes, List.flatMap_map, ← List.map_eq_flatMap]

theorem lexes_slash : Lexes ['/'] (([Atom.letter '/'] : Layout).flatMap Atom.lexemes) :=
  lexes_letters (List.forall_mem_singleton.2 rfl)

theorem lexes_field {f : Field} (h : f.Plain) :
    Lexes f.text (([Atom.field f] : Layout).flatMap Atom.lexemes) := fun rest => by
  rw [Regex.lexemes_field h]
  simp [Atom.lexemes]

theorem readLexeme_escaped {c : Char} (h : Regex.isMeta c = true) (rest : List Char) :
    Regex.readLexeme '\\' (c :: rest) = .ok (.char (.single c) 0, rest) := by
  have hescapable : Regex.escapable c = true := by
    have hall : "\\.+*?()|[]\x7b\x7d^$#&-~".toList.all Regex.escapable = true := by decide
    exact List.all_eq_true.1 hall c (List.contains_iff_mem.1 h)
  have hescape : Regex.readEscape (c :: rest) = .ok (.char c, rest) := by
    simp only [Regex.readEscape]
    split <;> first | cases h | rw [if_pos hescapable]
  unfold Regex.readLexeme
  rw [hescape]
  rfl

theorem isOperator_of_not_isMeta {c : Char} (h : ¬ Regex.isMeta c = true) :
    Regex.isOperator c = false := by
  rw [← Bool.not_eq_true]
  intro hc
  have hall : "()|[?*+\x7b.^$\\".toList.all Regex.isMeta = true := by decide
  exact h (List.all_eq_true.1 hall c (List.contains_iff_mem.1 hc))

theorem lexes_escape (cs : List Char) :
    Lexes (Regex.escape cs) ((cs.map Atom.letter).flatMap Atom.lexemes) := by
  have hone : ∀ c, Lexes (if Regex.isMeta c then ['\\', c] else [c])
      (([Atom.letter c] : Layout).flatMap Atom.lexemes) := by
    intro c
    by_cases hc : Regex.isMeta c = true
    · rw [if_pos hc]
      exact fun rest => Regex.lexemes_step (readLexeme_escaped hc rest)
    · rw [if_neg hc]
      refine lexes_letters fun d hd => ?_
      obtain rfl := List.mem_singleton.1 hd
      exact isOperator_of_not_isMeta hc
  have hmap : (cs.map Atom.letter).flatMap Atom.lexemes =
      cs.flatMap fun c => ([Atom.letter c] : Layout).flatMap Atom.lexemes := by
    rw [List.flatMap_map]
    simp
  rw [hmap]
  exact .flatMap fun c _ => hone c

theorem plain_field {kind : Kind} (byName : Bool) : (kind.field byName).Plain := by
  rintro cs hcs
  cases kind <;> cases byName <;> cases hcs

theorem expansion_letters (setting : CategorySetting) (cs : List Char) :
    (cs.map Piece.char).flatMap (Piece.expansion setting) = cs := by
  rw [List.flatMap_map]
  exact List.flatMap_singleton' cs

theorem lexes_body (setting : CategorySetting) {pages : Pages} {item : Item}
    (h : item.isValid pages = true) :
    Lexes (item.body setting pages) ((item.layout setting pages).flatMap Atom.lexemes) := by
  cases item with
  | literal cs =>
    have hbody : (Item.literal cs).body setting pages = cs := expansion_letters setting cs
    rw [hbody]
    exact lexes_letters fun c hc => ((isLiteral_iff.1 h).2 c hc).2.2
  | wildcard kind =>
    have hbody : (Item.wildcard kind).body setting pages = Piece.capture setting kind :=
      List.flatMap_singleton ..
    rw [hbody, capture_eq, Item.layout, List.flatMap_append, List.flatMap_assoc]
    refine Lexes.append (.flatMap fun word _ => ?_) (lexes_field (plain_field _))
    rw [List.flatMap_append]
    exact (lexes_escape word).append lexes_slash
  | page digits =>
    obtain ⟨-, -, hall⟩ := page_of_isValid h
    have hbody : (Item.page digits).body setting pages =
        (Field.letters (Item.uri pages digits)).text := by
      rw [Item.body, Item.pieces, List.flatMap_cons, List.flatMap_append, expansion_letters]
      rfl
    rw [hbody]
    refine lexes_field fun cs hcs => ?_
    obtain rfl := Field.letters.inj hcs
    exact fun c hc => (letters_of_segments hall c hc).2

def Rule.body (setting : CategorySetting) (pages : Pages) (r : Rule) : List Char :=
  r.join (Item.body setting pages) '/' Field.pagination.text

theorem lexes_rule (setting : CategorySetting) {pages : Pages} {r : Rule}
    (h : r.isValid pages = true) :
    Lexes (r.body setting pages) ((r.layout setting pages).flatMap Atom.lexemes) := by
  have hvalid := List.all_eq_true.1 h
  have hpagination : Lexes (if r.paginated then Field.pagination.text else [])
      ((if r.paginated then [Atom.field .pagination] else []).flatMap Atom.lexemes) := by
    have hplain : Field.pagination.Plain := by
      rintro cs ⟨⟩
    cases r.paginated with
    | false => exact .nil
    | true => exact lexes_field hplain
  rw [Rule.body, Rule.layout, Rule.join, Rule.join, List.flatMap_append, List.flatMap_append,
    List.flatMap_assoc]
  refine .append (.append (lexes_body setting (hvalid _ List.mem_cons_self)) (.flatMap ?_))
    hpagination
  intro item hitem
  rw [List.flatMap_cons]
  exact lexes_slash.append (lexes_body setting (hvalid item (List.mem_cons_of_mem _ hitem)))

/-! ## Compiling -/

/-- A word before the values of categories that is a segment. -/
def IsSegment (word : List Char) : Prop := word ≠ [] ∧ '/' ∉ word

instance (word : List Char) : Decidable (IsSegment word) :=
  inferInstanceAs (Decidable (word ≠ [] ∧ '/' ∉ word))

theorem text_inside (f : Field) : StartsInside f.text ∧ StopsInside f.text :=
  ⟨⟨'(', _, rfl, by decide⟩, '(' :: f.inner, ')', rfl, by decide⟩

theorem startsInside_escape_cons {c : Char} (hc : c ≠ '/') (cs : List Char) :
    StartsInside (Regex.escape (c :: cs)) := by
  have hone : StartsInside (if Regex.isMeta c then ['\\', c] else [c]) := by
    split
    · exact ⟨'\\', [c], rfl, by decide⟩
    · exact ⟨c, [], rfl, hc⟩
  exact hone.append _

theorem startsInside_escape {word : List Char} (h : IsSegment word) :
    StartsInside (Regex.escape word) := by
  obtain ⟨c, cs, rfl⟩ := List.exists_cons_of_ne_nil h.1
  exact startsInside_escape_cons (fun hc => h.2 (hc ▸ List.mem_cons_self)) cs

theorem body_inside {setting : CategorySetting} {pages : Pages} {item : Item}
    (hword : IsSegment setting.word.toList) (h : item.isValid pages = true) :
    StartsInside (item.body setting pages) ∧ StopsInside (item.body setting pages) := by
  cases item with
  | literal cs =>
    have hbody : (Item.literal cs).body setting pages = cs := expansion_letters setting cs
    rw [hbody]
    exact literal_inside h
  | wildcard kind =>
    have hbody : (Item.wildcard kind).body setting pages = Piece.capture setting kind :=
      List.flatMap_singleton ..
    rw [hbody, capture_eq]
    refine ⟨?_, (text_inside _).2.append _⟩
    cases kind with
    | category => exact (((startsInside_escape hword).append _).append _).append _
    | _ => exact (text_inside _).1
  | page digits =>
    refine ⟨⟨'(', _, rfl, by decide⟩, ?_⟩
    have hclose : StopsInside [')'] := ⟨[], ')', rfl, by decide⟩
    rw [Item.body, Item.pieces, List.flatMap_cons, List.flatMap_append]
    exact (hclose.append _).append _

namespace Rule

def source (pages : Pages) (r : Rule) : List Char :=
  r.join (Item.source pages) '/' "/:pagination".toList

def kinds (r : Rule) : List (Option Kind) :=
  r.items.flatMap Item.kinds ++ (if r.paginated then [some .pagination] else [])

end Rule

variable {setting : CategorySetting} {pages : Pages} {r : Rule}

theorem kinds_item (pages : Pages) (item : Item) :
    (item.pieces pages).flatMap Piece.kinds = item.kinds := by
  have hletters : ∀ cs : List Char, (cs.map Piece.char).flatMap Piece.kinds = [] := by
    intro cs
    simp [List.flatMap_map, Piece.kinds]
  cases item with
  | literal cs => exact hletters cs
  | wildcard kind => rfl
  | page digits =>
    rw [Item.pieces, List.flatMap_cons, List.flatMap_append, hletters]
    rfl

theorem expandRule_source (h : r.isValid pages = true) :
    expandRule setting (r.source pages) = (r.body setting pages, r.kinds) := by
  have hbody : (r.join (Item.pieces pages) (.char '/') [.wildcard true .pagination]).flatMap
      (Piece.expansion setting) = r.body setting pages := by
    rw [Rule.join, List.flatMap_append, List.flatMap_append, List.flatMap_assoc, Rule.body,
      Rule.join]
    cases r.paginated <;> rfl
  have hkinds : (r.join (Item.pieces pages) (.char '/') [.wildcard true .pagination]).flatMap
      Piece.kinds = r.kinds := by
    rw [Rule.join, List.flatMap_append, List.flatMap_append, List.flatMap_assoc, kinds_item,
      Rule.kinds, Rule.items, List.flatMap_cons]
    simp only [List.flatMap_cons, kinds_item]
    cases r.paginated <;> rfl
  rw [expandRule, Rule.source, cut_source h, hbody, hkinds]

theorem literal_of_notMem {item : Item} (hcolon : ':' ∉ item.source pages)
    (hparen : '(' ∉ item.source pages) : ∃ cs, item = .literal cs := by
  cases item with
  | literal cs => exact ⟨cs, rfl⟩
  | wildcard kind => exact absurd List.mem_cons_self hcolon
  | page digits => exact absurd List.mem_cons_self hparen

theorem source_of_notMem (setting : CategorySetting) (hcolon : ':' ∉ r.source pages)
    (hparen : '(' ∉ r.source pages) :
    r.layout setting pages = (r.source pages).map .letter ∧ r.kinds = [] := by
  obtain ⟨first, others, paginated⟩ := r
  cases paginated with
  | true =>
    have hmem : ':' ∈ "/:pagination".toList := by decide
    exact absurd (List.mem_append_right _ hmem) hcolon
  | false =>
    have hitems : ∀ item ∈ first :: others, ∃ cs, item = .literal cs := by
      have hmem : ∀ item ∈ first :: others, ∀ c ∈ item.source pages,
          c ∈ Rule.source pages ⟨first, others, false⟩ := by
        intro item hitem c hc
        rcases List.mem_cons.1 hitem with rfl | hitem
        · exact List.mem_append_left _ (List.mem_append_left _ hc)
        · exact List.mem_append_left _ (List.mem_append_right _
            (List.mem_flatMap.2 ⟨item, hitem, List.mem_cons_of_mem _ hc⟩))
      exact fun item hitem => literal_of_notMem (fun hc => hcolon (hmem item hitem _ hc))
        fun hc => hparen (hmem item hitem _ hc)
    have hlayout : ∀ item ∈ first :: others,
        item.layout setting pages = (item.source pages).map .letter := by
      intro item hitem
      obtain ⟨cs, rfl⟩ := hitems item hitem
      rfl
    obtain ⟨hfirst, hothers⟩ := List.forall_mem_cons.1 hlayout
    constructor
    · rw [Rule.layout, Rule.source, Rule.join, Rule.join, hfirst]
      simp only [Bool.false_eq_true, if_false, List.append_nil, List.map_append, List.map_flatMap,
        List.map_cons]
      rw [List.flatMap_def, List.flatMap_def]
      congr 2
      exact List.map_congr_left fun item hitem => by rw [hothers item hitem]
    · rw [Rule.kinds, Rule.items, List.flatMap_eq_nil_iff.2]
      · rfl
      · intro item hitem
        obtain ⟨cs, rfl⟩ := hitems item hitem
        rfl

theorem body_source (hword : IsSegment setting.word.toList) (h : r.isValid pages = true) :
    ∃ body, Pattern.body setting (r.source pages) = (body, r.kinds) ∧
      lexemes 0 body = .ok ((r.layout setting pages).flatMap Atom.lexemes) := by
  have hvalid := List.all_eq_true.1 h
  have hpagination : StopsInside "/:pagination".toList :=
    ⟨"/:paginatio".toList, 'n', by decide, by decide⟩
  by_cases hpattern : ((r.source pages).contains ':' || (r.source pages).contains '(') = true
  · refine ⟨r.body setting pages, ?_, (lexes_rule setting h).eq⟩
    have htrim : Text.trim Text.isSlash (r.body setting pages) = r.body setting pages :=
      trim_of_inside (startsInside_join (body_inside hword (hvalid _ List.mem_cons_self)).1)
        (stopsInside_join (fun item hitem => (body_inside hword (hvalid item hitem)).2)
          (text_inside _).2)
    rw [Pattern.body, if_pos hpattern, expandRule_source h]
    simp only [htrim]
  · obtain ⟨hcolon, hparen⟩ : ':' ∉ r.source pages ∧ '(' ∉ r.source pages := by
      simpa [not_or] using hpattern
    obtain ⟨hlayout, hkinds⟩ := source_of_notMem setting hcolon hparen
    refine ⟨Regex.escape (r.source pages), ?_, ?_⟩
    · have htrim : Text.trim Text.isSlash (r.source pages) = r.source pages :=
        trim_of_inside (startsInside_join (source_inside (hvalid _ List.mem_cons_self)).1)
          (stopsInside_join (fun item hitem => (source_inside (hvalid item hitem)).2) hpagination)
      rw [Pattern.body, if_neg hpattern, htrim, hkinds]
    · rw [(lexes_escape _).eq, hlayout]

/-- A plain rule compiles to its layout between anchors, unless that is too large. -/
theorem compile_plain (hword : IsSegment setting.word.toList) (h : r.isValid pages = true) :
    ∃ p : Pattern,
      Pattern.compile (String.ofList r.text) pages setting =
        (if p.regex.expr.isTooLarge then .error .tooLarge else .ok p) ∧
      p.regex.expr = (Regex.Expr.ofItems (Layout.exprs 0 (r.layout setting pages))).anchored ∧
      p.kinds = r.kinds := by
  obtain ⟨body, hbody, hlexemes⟩ := body_source hword h
  have htext : Text.trimEnd Text.isSlash r.text = r.text := by
    have hvalid := List.all_eq_true.1 h
    have hpagination : StopsInside "/:pagination".toList :=
      ⟨"/:paginatio".toList, 'n', by decide, by decide⟩
    exact trimEnd_of_stopsInside
      (stopsInside_join (fun item hitem => stopsInside_text (hvalid item hitem)) hpagination)
  have hsource : pages.resolve r.text = r.source pages := resolve_text h
  have hbodyText : Pattern.bodyText (String.ofList r.text) pages setting = body := by
    rw [Pattern.bodyText, String.toList_ofList, htext, hsource, hbody]
  have hread := Regex.read_layout hlexemes
  rw [← hbodyText, ← Pattern.toList_anchor] at hread
  obtain ⟨p, hp, hexpr, hkinds, -⟩ := Pattern.compile_of_read hread
  rw [String.toList_ofList, htext, hsource, hbody] at hkinds
  exact ⟨p, hp, hexpr, hkinds⟩

end Plain

end Signpost
