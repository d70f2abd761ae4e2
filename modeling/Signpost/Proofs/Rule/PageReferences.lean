import Signpost.Proofs.Regex.Pairs
import Signpost.Proofs.Rule.Anchoring
import Signpost.Proofs.Rule.Parentheses
import Signpost.Proofs.Rule.References
import Signpost.Proofs.Text

/-!
# References and paths that are written out

A reference to a page stands for the path of the page in parentheses. It also takes a parenthesis
along on either side of it. So it means what the path in parentheses would mean if there is none or
one on both sides, and the rule is broken if there is one on one side only.
-/

namespace Signpost

open Pages.Reference (opening closing leftBefore leftBehind)

variable {uri cs : List Char}

/-! ## A path in parentheses -/

/-- A path with so many parentheses on either side. -/
def fenced (opens : Nat) (uri : List Char) (closes : Nat) : List Char :=
  List.replicate opens '(' ++ uri ++ List.replicate closes ')'

/-- Every character of the path stands for itself, in a rule and in its expression. -/
def IsPlainPath (uri : List Char) : Prop :=
  ∀ c ∈ uri, c ≠ ':' ∧ c ≠ ']' ∧ Regex.isOperator c = false

instance (uri : List Char) : Decidable (IsPlainPath uri) :=
  List.decidableBAll (fun c => c ≠ ':' ∧ c ≠ ']' ∧ Regex.isOperator c = false) uri

theorem IsPlainPath.quiet (huri : IsPlainPath uri) {c : Char} (hc : c ∈ uri) :
    c ∉ ":\\[]".toList := by
  obtain ⟨hcolon, hclose, hplain⟩ := huri c hc
  simp only [Regex.isOperator, List.contains_eq_mem, decide_eq_false_iff_not] at hplain
  simp_all

namespace Regex

theorem lexemes_fenced (huri : IsPlainPath uri) (a b : Nat) (cs : List Char) :
    lexemes 0 (fenced a uri (b + 1) ++ cs) =
      (lexemes 0 cs).map (wrapped a uri (b + 1) ++ ·) := by
  have hplain : ∀ c ∈ uri, isOperator c = false := fun c hc => (huri c hc).2.2
  have hne : ∀ x, uri ++ (List.replicate (b + 1) ')' ++ cs) ≠ '?' :: x := by
    intro x hx
    cases uri with
    | nil => cases hx
    | cons c uri =>
      obtain rfl := (List.cons.inj hx).1
      cases hplain '?' List.mem_cons_self
  rw [fenced, List.append_assoc, List.append_assoc, lexemes_opens a hne, lexemes_letters hplain,
    lexemes_closes]
  cases lexemes 0 cs with
  | error e => rfl
  | ok ls => simp [Except.map, wrapped]

end Regex

namespace Pattern

variable {setting : CategorySetting}

theorem body_fenced (setting : CategorySetting) (source : List Char) :
    ∃ k : List Char → List Char, ∀ a uri b rest, IsPlainPath uri →
      (body setting (source ++ (fenced (a + 1) uri (b + 1) ++ rest))).1 =
        Text.trimStart Text.isSlash (expandRule setting source).1 ++
          (fenced (a + 1) uri (b + 1) ++ Text.trimEnd Text.isSlash (k rest)) := by
  obtain ⟨k, hk, hstands⟩ := Piece.stands setting source
  refine ⟨k, fun a uri b rest huri => ?_⟩
  let inner : List Char := List.replicate a '(' ++ uri ++ List.replicate (b + 1) ')'
  have hopens : fenced (a + 1) uri (b + 1) = '(' :: inner := by
    rw [fenced, List.replicate_succ]
    rfl
  have hcloses : inner = List.replicate a '(' ++ uri ++ List.replicate b ')' ++ [')'] := by
    simp [inner, List.replicate_succ']
  have hquiet : ∀ c ∈ inner, c ∉ ":\\[]".toList := by
    intro c hc
    rcases List.mem_append.1 hc with hc | hc
    · rcases List.mem_append.1 hc with hc | hc
      · rw [List.eq_of_mem_replicate hc]
        decide
      · exact huri.quiet hc
    · rw [List.eq_of_mem_replicate hc]
      decide
  have hlast : inner.getLast? ≠ some '/' := by
    rw [hcloses, List.getLast?_concat]
    decide
  have hexpand : (expandRule setting (source ++ ('(' :: inner ++ rest))).1 =
      (expandRule setting source).1 ++
        '(' :: (List.replicate a '(' ++ uri ++ List.replicate b ')' ++ ')' :: k rest) := by
    rw [List.cons_append, hstands, hk.letters hquiet hlast, hcloses, List.append_assoc]
    rfl
  have hpattern : (source ++ ('(' :: inner ++ rest)).contains '(' = true := by simp
  rw [hopens, body, hpattern, Bool.or_true, if_pos rfl]
  dsimp only
  rw [hexpand, Text.trim, Text.trimStart_append_cons (by decide), ← List.cons_append,
    ← List.append_assoc, Text.trimEnd_append_cons (by decide), hcloses]
  simp

/-! ## The rule with the reference and the rule with the path -/

variable {pages : Pages} {before after digits path word : String} {id : PageId} {p : Pattern}

theorem trimEnd_written (word : String) :
    Text.trimEnd Text.isSlash (before ++ "(" ++ word ++ ")" ++ after).toList = before.toList ++
      (Pages.written word.toList ++ Text.trimEnd Text.isSlash after.toList) := by
  have hlast : (before ++ "(" ++ word ++ ")").toList.getLast? = some ')' := by
    rw [String.toList_append, List.getLast?_append]
    rfl
  rw [String.toList_append, Text.trimEnd_append hlast (by decide)]
  simp [Pages.written]

theorem opening_eq (before : List Char) :
    opening before = List.replicate (if before.getLast? = some '(' then 1 else 0) '(' := by
  unfold opening
  split <;> rfl

theorem closing_eq (after : List Char) :
    closing after = List.replicate (if after.head? = some ')' then 1 else 0) ')' := by
  unfold closing
  split <;> rfl

theorem closing_trimEnd (after : List Char) :
    closing (Text.trimEnd Text.isSlash after) = closing after := by
  have hhead : Text.isSlash ')' = false := by decide
  unfold closing
  simp only [Text.head?_trimEnd_iff hhead]

theorem source_reference (hid : PageId.ofDigits? digits.toList = some id)
    (hpage : pages.get? id = some path) (hafter : ∀ c ∈ after.toList.head?, c.isDigit = false) :
    pages.resolve (Text.trimEnd Text.isSlash (before ++ ":page:" ++ digits ++ after).toList) =
      pages.resolve (leftBefore before.toList) ++ (fenced 1 (Text.trimSlashes path).toList 1 ++
        pages.resolve (leftBehind (Text.trimEnd Text.isSlash after.toList))) := by
  have hbehind : ∀ c ∈ (Text.trimEnd Text.isSlash after.toList).head?, c.isDigit = false :=
    fun c hc => hafter c (Text.head?_of_head?_trimEnd hc)
  have htext : (before ++ ":page:" ++ digits ++ after).toList =
      before.toList ++ (":page:".toList ++ digits.toList ++ after.toList) := by simp
  rw [htext, Pages.trimEnd_reference hid, Pages.resolve_reference hid hpage hbehind,
    Text.trimSlashes, String.toList_ofList]
  rfl

theorem source_written (hword : IsPlainPath word.toList) :
    pages.resolve (Text.trimEnd Text.isSlash (before ++ "(" ++ word ++ ")" ++ after).toList) =
      pages.resolve (leftBefore before.toList) ++
        (fenced ((if before.toList.getLast? = some '(' then 1 else 0) + 1) word.toList
            ((if after.toList.head? = some ')' then 1 else 0) + 1) ++
          pages.resolve (leftBehind (Text.trimEnd Text.isSlash after.toList))) := by
  have hletters : ∀ c ∈ word.toList, c ≠ ':' ∧ c ≠ '(' := by
    intro c hc
    refine ⟨(hword c hc).1, ?_⟩
    rintro rfl
    cases (hword '(' hc).2.2
  rw [trimEnd_written, Pages.resolve_written hletters, closing_trimEnd, opening_eq, closing_eq,
    fenced, List.replicate_succ', List.replicate_succ]
  simp [Pages.written]

theorem bodies (setting : CategorySetting) (before : String)
    (hid : PageId.ofDigits? digits.toList = some id)
    (hpage : pages.get? id = some path) (hpath : IsPlainPath (Text.trimSlashes path).toList)
    (hafter : ∀ c ∈ after.toList.head?, c.isDigit = false) :
    ∃ rest,
      bodyText (before ++ ":page:" ++ digits ++ after) pages setting =
        Text.trimStart Text.isSlash
            (expandRule setting (pages.resolve (leftBefore before.toList))).1 ++
          (fenced 1 (Text.trimSlashes path).toList 1 ++ rest) ∧
      bodyText (before ++ "(" ++ Text.trimSlashes path ++ ")" ++ after) pages setting =
        Text.trimStart Text.isSlash
            (expandRule setting (pages.resolve (leftBefore before.toList))).1 ++
          (fenced ((if before.toList.getLast? = some '(' then 1 else 0) + 1)
            (Text.trimSlashes path).toList
            ((if after.toList.head? = some ')' then 1 else 0) + 1) ++ rest) := by
  obtain ⟨k, hk⟩ := body_fenced setting (pages.resolve (leftBefore before.toList))
  refine ⟨Text.trimEnd Text.isSlash
    (k (pages.resolve (leftBehind (Text.trimEnd Text.isSlash after.toList)))), ?_, ?_⟩
  · rw [bodyText, source_reference hid hpage hafter, hk 0 _ 0 _ hpath]
  · rw [bodyText, source_written hpath, hk _ _ _ _ hpath]

/-- What stands before a reference is cut by itself, so it ends neither inside brackets nor with a
backslash, and has no syntax that is not read here. -/
def CutBefore (before : String) (pages : Pages) (setting : CategorySetting) : Prop :=
  ∃ ls, Regex.lexemes 0 (expandRule setting (pages.resolve (leftBefore before.toList))).1 = .ok ls

instance (before : String) (pages : Pages) (setting : CategorySetting) :
    Decidable (CutBefore before pages setting) :=
  match h : Regex.lexemes 0 (expandRule setting (pages.resolve (leftBefore before.toList))).1 with
  | .ok ls => .isTrue ⟨ls, h⟩
  | .error e => .isFalse (by simp [CutBefore, h])

theorem lexemes_trimStart {ls : List Regex.Lexeme} (h : Regex.lexemes 0 cs = .ok ls) :
    ∃ ls, Regex.lexemes 0 (Text.trimStart Text.isSlash cs) = .ok ls := by
  have hslashes : ∀ c ∈ cs.takeWhile Text.isSlash, Regex.isOperator c = false := by
    intro c hc
    have hslash : Text.isSlash c = true := List.mem_takeWhile_imp hc
    obtain rfl := beq_iff_eq.1 hslash
    rfl
  rw [← List.takeWhile_append_dropWhile (p := Text.isSlash) (l := cs),
    Regex.lexemes_letters hslashes] at h
  obtain ⟨ls, hls, -⟩ := except_map_eq_ok.1 h
  exact ⟨ls, hls⟩

theorem lexemes_anchor_fenced {front : List Char} {ls : List Regex.Lexeme}
    (hfront : Regex.lexemes 0 front = .ok ls) (huri : IsPlainPath uri) (rest : List Char)
    (a b : Nat) :
    Regex.lexemes 0 (anchor (front ++ (fenced (a + 1) uri (b + 1) ++ rest))).toList =
      (Regex.lexemes 0 (rest ++ ")$".toList)).map fun after =>
        [.lineStart, .openPlain []] ++ ls ++ Regex.wrapped (a + 1) uri (b + 1) ++ after := by
  have hparted : Regex.Parted (fenced (a + 1) uri (b + 1) ++ (rest ++ ")$".toList)) :=
    ⟨_, .inl rfl⟩
  rw [toList_anchor, List.append_assoc, List.append_assoc, List.append_assoc,
    Regex.lexemes_anchor, Regex.lexemes_append hfront hparted, Regex.lexemes_fenced huri]
  cases Regex.lexemes 0 (rest ++ ")$".toList) with
  | error e => rfl
  | ok after => simp [Except.map]

section

variable {rule rule' : String} {front rest : List Char} {ls : List Regex.Lexeme}

theorem compile_congr (h : pages.resolve (Text.trimEnd Text.isSlash rule.toList) =
    pages.resolve (Text.trimEnd Text.isSlash rule'.toList)) :
    compile rule pages setting = compile rule' pages setting := by
  rw [compile, compile, h]

theorem exists_lexemes {a b : Nat} {e : Regex.Expr} (hfront : Regex.lexemes 0 front = .ok ls)
    (huri : IsPlainPath uri)
    (h : Regex.Expr.read (anchor (front ++ (fenced (a + 1) uri (b + 1) ++ rest))).toList = .ok e) :
    ∃ before after, ∀ a b,
      Regex.lexemes 0 (anchor (front ++ (fenced (a + 1) uri (b + 1) ++ rest))).toList =
        .ok (before ++ Regex.wrapped (a + 1) uri (b + 1) ++ after) := by
  have hlexemes := lexemes_anchor_fenced hfront huri rest
  obtain ⟨_, hwhole, -⟩ := bind_eq_ok.1 h
  rw [hlexemes] at hwhole
  obtain ⟨after, hafter, -⟩ := except_map_eq_ok.1 hwhole
  refine ⟨[.lineStart, .openPlain []] ++ ls, after, fun a b => ?_⟩
  rw [hlexemes, hafter]
  rfl

theorem compile_of_doubled (hfront : Regex.lexemes 0 front = .ok ls) (huri : IsPlainPath uri)
    (hbody : bodyText rule pages setting = front ++ (fenced 1 uri 1 ++ rest))
    (hbody' : bodyText rule' pages setting = front ++ (fenced 2 uri 2 ++ rest))
    (h : compile rule' pages setting = .ok p) :
    compile rule pages setting = .error .tooLarge ∨
      ∃ q, compile rule pages setting = .ok q ∧
        ∀ path, q.regex.isMatch path = p.regex.isMatch path := by
  rw [compile_eq, hbody', except_map_eq_ok] at h
  obtain ⟨e, he, rfl⟩ := h
  obtain ⟨before, after, hlexemes⟩ := exists_lexemes hfront huri he
  rw [compile_eq, hbody]
  rcases Regex.read_wrapped (hlexemes 1 1) (hlexemes 0 0) he with hlarge | ⟨k, f, hf, hdoubled⟩
  · rw [hlarge]
    exact .inl rfl
  · rw [hf]
    refine .inr ⟨_, rfl, fun path => ?_⟩
    exact (Regex.isMatch_eq_of_doubled hdoubled path).symm

theorem error_of_unbalanced {a b : Nat} (hfront : Regex.lexemes 0 front = .ok ls)
    (huri : IsPlainPath uri) (hne : a ≠ b)
    (hbody : bodyText rule pages setting = front ++ (fenced 1 uri 1 ++ rest))
    (hbody' : bodyText rule' pages setting = front ++ (fenced (a + 1) uri (b + 1) ++ rest))
    (h : compile rule' pages setting = .ok p) : ∃ e, compile rule pages setting = .error e := by
  rw [compile_eq, hbody', except_map_eq_ok] at h
  obtain ⟨e, he, rfl⟩ := h
  obtain ⟨before, after, hlexemes⟩ := exists_lexemes hfront huri he
  rw [compile_eq, hbody]
  cases hread : Regex.Expr.read (anchor (front ++ (fenced 1 uri 1 ++ rest))).toList with
  | error err => exact ⟨err, rfl⟩
  | ok f =>
    have hcount := Regex.count_close_of_read (hlexemes a b) he
    have hcount' := Regex.count_close_of_read (hlexemes 0 0) hread
    simp only [List.count_append, List.countP_append, Regex.count_wrapped,
      Regex.countP_wrapped] at hcount hcount'
    omega

end

/-- A reference means what its path would mean in parentheses, but it takes a parenthesis along on
either side of it. -/
theorem compile_reference (hid : PageId.ofDigits? digits.toList = some id)
    (hpage : pages.get? id = some path) (hpath : IsPlainPath (Text.trimSlashes path).toList)
    (hafter : ∀ c ∈ after.toList.head?, c.isDigit = false)
    (h : compile (before ++ "(" ++ Text.trimSlashes path ++ ")" ++ after) pages setting = .ok p) :
    (before.toList.getLast? ≠ some '(' → after.toList.head? ≠ some ')' →
      compile (before ++ ":page:" ++ digits ++ after) pages setting = .ok p) ∧
    (CutBefore before pages setting →
      (before.toList.getLast? = some '(' ↔ after.toList.head? = some ')') →
      compile (before ++ ":page:" ++ digits ++ after) pages setting = .error .tooLarge ∨
        ∃ q, compile (before ++ ":page:" ++ digits ++ after) pages setting = .ok q ∧
          ∀ path, q.regex.isMatch path = p.regex.isMatch path) ∧
    (CutBefore before pages setting →
      ¬ (before.toList.getLast? = some '(' ↔ after.toList.head? = some ')') →
      ∃ e, compile (before ++ ":page:" ++ digits ++ after) pages setting = .error e) := by
  obtain ⟨rest, hbody, hbody'⟩ := bodies setting before hid hpage hpath hafter
  have halone : before.toList.getLast? ≠ some '(' → after.toList.head? ≠ some ')' →
      compile (before ++ ":page:" ++ digits ++ after) pages setting = .ok p := by
    intro hopen hclose
    rw [← h]
    refine compile_congr ?_
    rw [source_reference hid hpage hafter, source_written hpath, if_neg hopen, if_neg hclose]
  refine ⟨halone, fun ⟨ls, hls⟩ hbeside => ?_, fun ⟨ls, hls⟩ hbeside => ?_⟩
  · obtain ⟨ls, hfront⟩ := lexemes_trimStart hls
    by_cases hopen : before.toList.getLast? = some '('
    · rw [if_pos hopen, if_pos (hbeside.1 hopen)] at hbody'
      exact compile_of_doubled hfront hpath hbody hbody' h
    · exact .inr ⟨p, halone hopen (mt hbeside.2 hopen), fun _ => rfl⟩
  · obtain ⟨ls, hfront⟩ := lexemes_trimStart hls
    refine error_of_unbalanced hfront hpath ?_ hbody hbody' h
    split <;> split <;> simp_all

theorem compile_reference_beside :
    ∃ p q : Pattern,
      compile ("blog/(" ++ "(" ++ Text.trimSlashes "/about/" ++ ")" ++ ")/:any")
        (.ofList [(3, "/about/")]) {} = .ok p ∧
      compile ("blog/(" ++ ":page:" ++ "3" ++ ")/:any") (.ofList [(3, "/about/")]) {} = .ok q ∧
      ∀ path, q.regex.isMatch path = p.regex.isMatch path := by
  have hwritten : (compile ("blog/(" ++ "(" ++ Text.trimSlashes "/about/" ++ ")" ++ ")/:any")
      (.ofList [(3, "/about/")]) {}).toOption.isSome = true := by decide +kernel
  obtain ⟨p, hp⟩ := Option.isSome_iff_exists.1 hwritten
  have hid : PageId.ofDigits? "3".toList = some 3 := by decide +kernel
  have hpage : (Pages.ofList [(3, "/about/")]).get? 3 = some "/about/" := by decide +kernel
  have hafter : ∀ c ∈ ")/:any".toList.head?, c.isDigit = false := by
    rintro c ⟨⟩
    rfl
  have hreference := compile_reference hid hpage (by decide +kernel) hafter (ok_of_toOption hp)
  have hsmall : compile ("blog/(" ++ ":page:" ++ "3" ++ ")/:any") (.ofList [(3, "/about/")]) {} ≠
      .error .tooLarge := by decide +kernel
  have hbeside := hreference.2.1 (by decide +kernel) (by decide +kernel)
  obtain ⟨q, hq, hmatch⟩ := hbeside.resolve_left hsmall
  exact ⟨p, q, ok_of_toOption hp, hq, hmatch⟩

/-- A reference first in a group loses the parenthesis of the group. -/
theorem reference_first_in_group :
    (compile "((about)|news)" (.ofList [(3, "/about")]) {}).isOk = true ∧
      compile "(:page:3|news)" (.ofList [(3, "/about")]) {} = .error .unopenedGroup := by
  decide +kernel

end Pattern

end Signpost
