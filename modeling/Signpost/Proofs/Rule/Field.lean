import Signpost.Proofs.Regex.Anchors
import Signpost.Proofs.Regex.Words
import Signpost.Rule.Piece

/-!
# Fields

The groups that wildcards and pages of a rule come to: how they are written, what they are read
into, and which words they take.
-/

namespace Signpost.Regex

/-- A group that a wildcard or a page stands for. -/
inductive Field
  | segment
  | digits
  | fourDigits
  | twoDigits
  | letters (text : List Char)
  | pagination
  | remainder
  deriving DecidableEq, Repr

/-- Every character but a slash. -/
def notSlash : CharSet := .compl (.union .empty (.single '/'))

def asciiDigit : CharSet := .union .empty (.range '0' '9')

namespace Field

def inner : Field → List Char
  | segment => "[^/]+".toList
  | digits => "[0-9]+".toList
  | fourDigits => "[0-9]\x7b4\x7d".toList
  | twoDigits => "[0-9]\x7b2\x7d".toList
  | letters cs => cs
  | pagination => "(?:/P[0-9]+)?".toList
  | remainder => "(?:/.*)?".toList

def text (f : Field) : List Char := '(' :: (f.inner ++ [')'])

def inside : Field → List Lexeme
  | segment => [.char notSlash 1, .times 1 none true]
  | digits => [.char asciiDigit 1, .times 1 none true]
  | fourDigits => [.char asciiDigit 1, .times 4 (some 4) true]
  | twoDigits => [.char asciiDigit 1, .times 2 (some 2) true]
  | letters cs => cs.map fun c => .char (.single c) 0
  | pagination =>
    [.openPlain [], .char (.single '/') 0, .char (.single 'P') 0, .char asciiDigit 1,
      .times 1 none true, .close, .times 0 (some 1) true]
  | remainder =>
    [.openPlain [], .char (.single '/') 0, .dot, .times 0 none true, .close,
      .times 0 (some 1) true]

def lexemes (f : Field) : List Lexeme := .openCapture none :: f.inside ++ [.close]

def body : Field → Expr
  | segment => .times 1 none true (.char notSlash)
  | digits => .times 1 none true (.char asciiDigit)
  | fourDigits => .times 4 (some 4) true (.char asciiDigit)
  | twoDigits => .times 2 (some 2) true (.char asciiDigit)
  | letters cs => .ofItems (cs.map fun c => .char (.single c))
  | pagination =>
    .times 0 (some 1) true (.cat (.char (.single '/'))
      (.cat (.char (.single 'P')) (.times 1 none true (.char asciiDigit))))
  | remainder =>
    .times 0 (some 1) true
      (.cat (.char (.single '/')) (.times 0 none true (.char (.allBut '\n'))))

def takes : Field → List Char → Prop
  | segment, w => w ≠ [] ∧ '/' ∉ w
  | digits, w => w ≠ [] ∧ ∀ c ∈ w, c.isDigit = true
  | fourDigits, w => w.length = 4 ∧ ∀ c ∈ w, c.isDigit = true
  | twoDigits, w => w.length = 2 ∧ ∀ c ∈ w, c.isDigit = true
  | letters cs, w => w = cs
  | pagination, w => w = [] ∨ ∃ ds, (ds ≠ [] ∧ ∀ c ∈ ds, c.isDigit = true) ∧ w = '/' :: 'P' :: ds
  | remainder, w => w = [] ∨ ∃ rest, '\n' ∉ rest ∧ w = '/' :: rest

end Field

/-! ## What a field takes -/

theorem contains_notSlash (c : Char) : notSlash.contains c = true ↔ c ≠ '/' := by
  simp only [notSlash, CharSet.contains, CharSet.contains_empty, Bool.false_or,
    Bool.not_eq_true', ← Bool.not_eq_true, CharSet.contains_single, ne_eq]

theorem contains_asciiDigit (c : Char) : asciiDigit.contains c = true ↔ c.isDigit = true := by
  simp only [asciiDigit, CharSet.contains, CharSet.contains_empty, Bool.false_or, CharSet.range,
    List.any_cons, List.any_nil, Bool.or_false, Bool.and_eq_true, decide_eq_true_eq, Char.isDigit]
  rfl

theorem spells_body (f : Field) : Spells f.body f.takes := by
  cases f with
  | segment =>
    refine spells_many.congr fun w => and_congr_right fun _ => ?_
    simp only [contains_notSlash]
    exact ⟨fun h hmem => h _ hmem rfl, fun h c hmem hc => h (hc ▸ hmem)⟩
  | digits => exact spells_many.congr fun w => by simp [Field.takes, contains_asciiDigit]
  | fourDigits => exact spells_exactly.congr fun w => by simp [Field.takes, contains_asciiDigit]
  | twoDigits => exact spells_exactly.congr fun w => by simp [Field.takes, contains_asciiDigit]
  | letters cs => exact spells_letters cs
  | pagination =>
    refine (((spells_letter '/').cat ((spells_letter 'P').cat spells_many)).optional).congr ?_
    intro w
    simp [Field.takes, contains_asciiDigit]
  | remainder =>
    refine (((spells_letter '/').cat spells_anyNumber).optional).congr fun w => ?_
    have hline : ∀ rest : List Char,
        (∀ c ∈ rest, (CharSet.allBut '\n').contains c = true) ↔ '\n' ∉ rest := by
      intro rest
      simp only [CharSet.contains_allBut]
      exact ⟨fun h hmem => h _ hmem rfl, fun h c hc hline => h (hline ▸ hc)⟩
    simp only [hline]
    simp [Field.takes]

/-! ## How a field is read -/

theorem readLexeme_notSlash (rest : List Char) :
    readLexeme '[' ('^' :: '/' :: ']' :: rest) = .ok (.char notSlash 1, rest) := by
  have hitem : readClassItem ('/' :: ']' :: rest) = .ok (.single '/', ']' :: rest) := rfl
  have hclass : readClass [] ⟨true, none, .empty, []⟩ 0 ('/' :: ']' :: rest) =
      .ok (⟨notSlash, 1⟩, rest) := by
    rw [readClass_item (by decide) (by decide) (by simp) (by simp) (by simp), hitem]
    simp [Except.bind]
    rfl
  exact congrArg (Except.map fun r => (Lexeme.char r.1.set r.1.depth, r.2)) hclass

theorem readLexeme_asciiDigit (rest : List Char) :
    readLexeme '[' ('0' :: '-' :: '9' :: ']' :: rest) = .ok (.char asciiDigit 1, rest) := by
  have hitem : readClassItem ('0' :: '-' :: '9' :: ']' :: rest) =
      .ok (.range '0' '9', ']' :: rest) := rfl
  have hclass : readClass [] ⟨false, none, .empty, []⟩ 0 ('0' :: '-' :: '9' :: ']' :: rest) =
      .ok (⟨asciiDigit, 1⟩, rest) := by
    rw [readClass_item (by decide) (by decide) (by simp) (by simp) (by simp), hitem]
    simp [Except.bind]
    rfl
  exact congrArg (Except.map fun r => (Lexeme.char r.1.set r.1.depth, r.2)) hclass

/-- A field can be written into an expression: its letters stand for themselves. -/
def Field.Plain (f : Field) : Prop := ∀ cs, f = .letters cs → ∀ c ∈ cs, isOperator c = false

theorem lexemes_repeated {c d : Char} {cs ds rest : List Char} {l times : Lexeme}
    (hclass : readLexeme c cs = .ok (l, d :: ds)) (htimes : readLexeme d ds = .ok (times, rest)) :
    lexemes 0 (c :: cs) = (lexemes 0 rest).map ([l, times] ++ ·) := by
  rw [lexemes_step hclass, lexemes_step htimes]
  cases lexemes 0 rest <;> rfl

theorem lexemes_inner {f : Field} (hf : f.Plain) (rest : List Char) :
    lexemes 0 (f.inner ++ ')' :: rest) = (lexemes 0 (')' :: rest)).map (f.inside ++ ·) := by
  have hmany : ∀ cs, readLexeme '+' (')' :: cs) = .ok (.times 1 none true, ')' :: cs) :=
    fun _ => rfl
  have hopen : ∀ cs, readLexeme '(' ('?' :: ':' :: cs) = .ok (.openPlain [], cs) :=
    fun _ => rfl
  have hslash : ∀ cs, readLexeme '/' cs = .ok (.char (.single '/') 0, cs) :=
    readLexeme_plain (by decide)
  have hclose : ∀ cs, readLexeme ')' cs = .ok (.close, cs) := fun _ => rfl
  have hoptional : readLexeme '?' (')' :: rest) = .ok (.times 0 (some 1) true, ')' :: rest) :=
    rfl
  cases f with
  | segment => exact lexemes_repeated (readLexeme_notSlash _) (hmany rest)
  | digits => exact lexemes_repeated (readLexeme_asciiDigit _) (hmany rest)
  | fourDigits =>
    have hfour : readLexeme '\x7b' ('4' :: '\x7d' :: ')' :: rest) =
      .ok (.times 4 (some 4) true, ')' :: rest) := rfl
    exact lexemes_repeated (readLexeme_asciiDigit _) hfour
  | twoDigits =>
    have htwo : readLexeme '\x7b' ('2' :: '\x7d' :: ')' :: rest) =
      .ok (.times 2 (some 2) true, ')' :: rest) := rfl
    exact lexemes_repeated (readLexeme_asciiDigit _) htwo
  | letters cs => exact lexemes_letters (hf cs rfl) _
  | pagination =>
    have htext : Field.pagination.inner ++ ')' :: rest =
      '(' :: '?' :: ':' :: '/' :: 'P' :: '[' :: '0' :: '-' :: '9' :: ']' :: '+' :: ')' :: '?' ::
        ')' :: rest := rfl
    have hpage : ∀ cs, readLexeme 'P' cs = .ok (.char (.single 'P') 0, cs) :=
      readLexeme_plain (by decide)
    rw [htext, lexemes_step (hopen _), lexemes_step (hslash _), lexemes_step (hpage _),
      lexemes_step (readLexeme_asciiDigit _), lexemes_step (hmany _), lexemes_step (hclose _),
      lexemes_step hoptional]
    cases lexemes 0 (')' :: rest) <;> rfl
  | remainder =>
    have htext : Field.remainder.inner ++ ')' :: rest =
      '(' :: '?' :: ':' :: '/' :: '.' :: '*' :: ')' :: '?' :: ')' :: rest := rfl
    have hdot : ∀ cs, readLexeme '.' cs = .ok (.dot, cs) := fun _ => rfl
    have hstar : ∀ cs, readLexeme '*' (')' :: cs) = .ok (.times 0 none true, ')' :: cs) :=
      fun _ => rfl
    rw [htext, lexemes_step (hopen _), lexemes_step (hslash _), lexemes_step (hdot _),
      lexemes_step (hstar _), lexemes_step (hclose _), lexemes_step hoptional]
    cases lexemes 0 (')' :: rest) <;> rfl

theorem inner_ne_question {f : Field} (hf : f.Plain) (rest : List Char) :
    ∀ x, f.inner ++ ')' :: rest ≠ '?' :: x := by
  intro x hx
  cases f with
  | letters cs =>
    rcases cs with _ | ⟨c, cs⟩
    · cases hx
    · obtain rfl := (List.cons.inj hx).1
      cases hf _ rfl '?' List.mem_cons_self
  | _ => cases hx

theorem lexemes_field {f : Field} (hf : f.Plain) (rest : List Char) :
    lexemes 0 (f.text ++ rest) = (lexemes 0 rest).map (f.lexemes ++ ·) := by
  have hopen : readLexeme '(' (f.inner ++ ')' :: rest) =
      .ok (.openCapture none, f.inner ++ ')' :: rest) :=
    readOpening_other (inner_ne_question hf rest)
  have hclose : readLexeme ')' rest = .ok (.close, rest) := rfl
  have htext : f.text ++ rest = '(' :: (f.inner ++ ')' :: rest) := by simp [Field.text]
  rw [htext, lexemes_step hopen, lexemes_inner hf, lexemes_step hclose]
  cases lexemes 0 rest with
  | error e => rfl
  | ok ls => simp [Except.map, Field.lexemes]

/-! ## What a field is read into -/

theorem listDepth_le {ds : List Nat} {n : Nat} (h : ∀ d ∈ ds, d ≤ n) : listDepth ds ≤ n + 1 := by
  rcases ds with _ | ⟨d, _ | ⟨d', ds⟩⟩
  · exact Nat.zero_le _
  · exact Nat.le_succ_of_le (h d List.mem_cons_self)
  · exact Nat.succ_le_succ (foldl_max_le.2 ⟨Nat.zero_le _, h⟩)

theorem whole_parts {parts : List Part} {es : List Expr} (h : ∀ e ∈ es, e.IsPart)
    (hparts : parts.map Part.expr = (es.map some).reverse) :
    (Level.mk [] parts).whole.expr = .ofItems es := by
  have hes : parts.reverse.filterMap Part.expr = es := by
    have hmap := congrArg List.reverse hparts
    rw [List.reverse_reverse, ← List.map_reverse] at hmap
    have hfilter := congrArg (List.filterMap id) hmap
    simpa [List.filterMap_map] using hfilter
  have hbranch : (Level.mk [] parts).branch.expr = .ofItems es := by
    rw [Level.branch, hes, Expr.seq_of_isPart h]
  have hwhole : (Level.mk [] parts).whole.expr = .oneOf [(Level.mk [] parts).branch.expr] := rfl
  rw [hwhole, hbranch, Expr.oneOf_singleton (Expr.branches_ofItems h)]

theorem depth_whole_le {parts : List Part} {n : Nat} (h : ∀ p ∈ parts, p.depth ≤ n) :
    (Level.mk [] parts).whole.depth ≤ n + 1 := by
  refine listDepth_le fun d hd => ?_
  obtain ⟨p, hp, rfl⟩ := List.mem_map.1 hd
  exact h p hp

theorem read_parts {body : List Char} {ls : List Lexeme} {parts : List Part} {count : Nat}
    (hlexemes : lexemes 0 body = .ok ls)
    (hread : ls.foldlM Reading.step {} = .ok { level := ⟨[], parts⟩, count })
    (hdepth : ∀ p ∈ parts, p.depth + 3 ≤ depthLimit) :
    Expr.read ("^(?:".toList ++ body ++ ")$".toList) =
      if (Level.mk [] parts).whole.expr.anchored.isTooLarge then .error .tooLarge
      else .ok (Level.mk [] parts).whole.expr.anchored := by
  have hwhole : Nested.ofLexemes ls = .ok (Level.mk [] parts).whole := by
    rw [Nested.ofLexemes, hread, ok_bind]
    rfl
  have hle : (Level.mk [] parts).whole.depth ≤ depthLimit - 3 + 1 :=
    depth_whole_le fun p hp => Nat.le_sub_of_add_le (hdepth p hp)
  have hshallow : (Level.mk [] parts).whole.depth + 2 ≤ depthLimit :=
    Nat.le_trans (Nat.add_le_add_right hle 2) (by decide)
  have hanchored := read_anchored hlexemes hwhole hshallow
  exact hanchored

theorem foldlM_inside (f : Field) (r : Reading) (hflags : r.flags = {}) (hlevel : r.level = {}) :
    ∃ level : Level, f.inside.foldlM Reading.step r = .ok { r with level } ∧
      level.whole.expr = f.body ∧ level.whole.depth ≤ 5 := by
  obtain ⟨openGroups, level, flags, count, names⟩ := r
  obtain rfl : level = {} := hlevel
  obtain rfl : flags = {} := hflags
  cases f with
  | letters cs =>
    refine ⟨_, foldlM_letters cs _, ?_, ?_⟩
    · rw [List.append_nil]
      refine whole_parts (fun e he => ?_) (by simp [← List.map_reverse, Flags.ofSet])
      obtain ⟨c, -, rfl⟩ := List.mem_map.1 he
      exact Expr.isPart_char _
    · rw [List.append_nil]
      refine Nat.le_trans (depth_whole_le (n := 0) fun p hp => ?_) (by decide)
      obtain ⟨c, -, rfl⟩ := List.mem_map.1 (List.mem_reverse.1 hp)
      exact Nat.le_refl _
  | _ => exact ⟨_, rfl, rfl, Nat.le_of_ble_eq_true rfl⟩

theorem foldlM_field (f : Field) (r : Reading) (hflags : r.flags = {}) :
    ∃ depth ≤ 6, f.lexemes.foldlM Reading.step r =
      .ok { r.push (.group (r.count + 1) f.body) depth with count := r.count + 1 } := by
  obtain ⟨openGroups, level, flags, count, names⟩ := r
  obtain rfl : flags = {} := hflags
  let g : OpenGroup := ⟨level, {}, some (count + 1)⟩
  obtain ⟨inner, hinside, hbody, hdepth⟩ :=
    foldlM_inside f ⟨g :: openGroups, {}, {}, count + 1, names⟩ rfl rfl
  refine ⟨inner.whole.depth + 1, Nat.succ_le_succ hdepth, ?_⟩
  have hopen : Reading.step ⟨openGroups, level, {}, count, names⟩ (.openCapture none) =
    .ok ⟨g :: openGroups, {}, {}, count + 1, names⟩ := rfl
  rw [Field.lexemes, List.cons_append, List.foldlM_cons, hopen, ok_bind, List.foldlM_append,
    hinside, ok_bind, ← hbody]
  rfl

end Signpost.Regex
