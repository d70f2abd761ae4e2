import Mathlib.Data.List.Sort
import Signpost.Proofs.Regex.Openings
import Signpost.Proofs.Rule.Anchoring
import Signpost.Proofs.Rule.Places
import Signpost.Proofs.Text

/-!
# Alignment

A kind is meant for the group that its wildcard writes. The scanner that records the kinds counts
groups by itself, so a kind goes to the wrong group wherever the expression opens more groups than
the scanner counts, or fewer.

Neither the scanner nor the reader of expressions knows the flag `x`, behind which white space and
comments count for nothing. Expressions with it are refused here, so nothing is said of rules that
have it.
-/

namespace Signpost

/-- A parenthesis that the expansion of a wildcard writes. -/
structure Written where
  kind : Kind
  /-- What the expansion of the rule has before it. -/
  before : List Char
  /-- How many captures the scanner has counted before it. -/
  earlier : Nat
  deriving DecidableEq, Repr

/-- Where the parenthesis stands in the text between the anchors and the opening anchor. -/
def Written.place (w : Written) : Nat :=
  "^(?:".toList.length + (Text.trimStart Text.isSlash w.before).length

namespace Piece

/-- The parentheses that the wildcards among some pieces write. -/
def written (setting : CategorySetting) :
    (before : List Char) → (earlier : Nat) → List Piece → List Written
  | _, _, [] => []
  | before, earlier, p :: ps =>
    let later := written setting (before ++ p.expansion setting) (earlier + p.kinds.length) ps
    match p with
    | wildcard _ kind => ⟨kind, before ++ lead setting kind, earlier⟩ :: later
    | _ => later

end Piece

namespace Pattern

def written (p : Pattern) (setting : CategorySetting) : List Written :=
  Piece.written setting [] 0 (Piece.cut p.source.toList)

/-- The places where the groups of the expression open, in the order of their numbers. -/
def openings (p : Pattern) : List Nat := Regex.openings 0 0 p.regex.text.toList

/-- There is a kind for each group, and a group has a kind if a wildcard of that kind wrote it. -/
structure Aligned (p : Pattern) (setting : CategorySetting) : Prop where
  count : p.kinds.length = p.captureCount
  kind : ∀ n kind, p.kind? (n + 1) = some kind ↔
    ∃ w ∈ p.written setting, w.kind = kind ∧ p.openings[n]? = some w.place

/-- The scanner counts as many groups as there are, on the whole and before each wildcard. -/
structure InStep (p : Pattern) (setting : CategorySetting) : Prop where
  count : p.kinds.length = p.captureCount
  opens : ∀ w ∈ p.written setting, w.place ∈ p.openings
  before : ∀ w ∈ p.written setting, (p.openings.countP fun o => o < w.place) = w.earlier

/-- The flags behind an opening parenthesis, with the minus sign among them. -/
def flagLetters : List Char → List Char
  | '?' :: cs => cs.takeWhile fun c => c.isAlpha || c == '-'
  | _ => []

/-- Whether some parenthesis of an expression has the flag `x` behind it. -/
def isVerbose : List Char → Bool
  | [] => false
  | c :: cs => (c == '(' && (flagLetters cs).contains 'x') || isVerbose cs

/-- A rule in which nothing leads the scanner astray. -/
structure Flat (p : Pattern) (setting : CategorySetting) : Prop where
  word : setting.isMild = true
  pieces : ∀ piece ∈ Piece.cut p.source.toList, piece.isFlat = true
  lexemes : ∀ ls, Regex.lexemes 0 p.regex.text.toList = .ok ls → ∀ l ∈ ls, l.isFlat = true
  /-- White space and what stands behind a number sign is read like anything else. -/
  verbose : isVerbose p.regex.text.toList = false

end Pattern

/-! ## The parentheses in the text -/

namespace Piece

variable {setting : CategorySetting} {before : List Char} {earlier : Nat} {ps : List Piece}
  {w : Written}

theorem written_cons (p : Piece) :
    written setting before earlier (p :: ps) =
      (match p with
        | wildcard _ kind => [⟨kind, before ++ lead setting kind, earlier⟩]
        | _ => []) ++
      written setting (before ++ p.expansion setting) (earlier + p.kinds.length) ps := by
  cases p <;> rfl

theorem before_written (h : w ∈ written setting before earlier ps) :
    earlier ≤ w.earlier ∧ before <+: w.before := by
  induction ps generalizing before earlier with
  | nil => cases h
  | cons p ps ih =>
    rw [written_cons] at h
    rcases List.mem_append.1 h with h | h
    · cases p with
      | wildcard slash kind =>
        obtain rfl := List.mem_singleton.1 h
        exact ⟨Nat.le_refl _, List.prefix_append _ _⟩
      | _ => cases h
    · obtain ⟨hearlier, hbefore⟩ := ih h
      exact ⟨Nat.le_trans (Nat.le_add_right _ _) hearlier,
        (List.prefix_append _ _).trans hbefore⟩

theorem place_of_written (h : w ∈ written setting before earlier ps) :
    (places setting before.length ps)[w.earlier - earlier]? = some w.before.length := by
  induction ps generalizing before earlier with
  | nil => cases h
  | cons p ps ih =>
    rw [written_cons] at h
    rcases List.mem_append.1 h with h | h
    · cases p with
      | wildcard slash kind =>
        obtain rfl := List.mem_singleton.1 h
        simp [places]
      | _ => cases h
    · have hearlier := (before_written h).1
      have hplace := ih h
      rw [List.length_append] at hplace
      obtain ⟨own, hown, hplaces⟩ := places_cons setting before.length p ps
      rw [hplaces, List.getElem?_append_right (by omega), hown, Nat.sub_sub]
      exact hplace

theorem written_increasing (setting : CategorySetting) (before : List Char) (earlier : Nat)
    (ps : List Piece) : (written setting before earlier ps).Pairwise fun a b =>
      a.earlier < b.earlier ∧ a.before ++ ['('] <+: b.before := by
  induction ps generalizing before earlier with
  | nil => exact .nil
  | cons p ps ih =>
    rw [written_cons]
    cases p with
    | wildcard slash kind =>
      refine .cons (fun w hw => ?_) (ih _ _)
      obtain ⟨hearlier, hbefore⟩ := before_written hw
      refine ⟨hearlier, .trans ?_ hbefore⟩
      obtain ⟨inside, hcapture⟩ := capture_eq_lead setting kind
      have hexpansion : (wildcard slash kind).expansion setting =
          lead setting kind ++ '(' :: inside := hcapture
      rw [hexpansion]
      simp
    | _ => exact ih _ _

theorem mem_written (h : w ∈ written setting before earlier ps) :
    (∃ rest, before ++ ps.flatMap (expansion setting) = w.before ++ '(' :: rest) ∧
      ∃ slash, wildcard slash w.kind ∈ ps := by
  induction ps generalizing before earlier with
  | nil => cases h
  | cons p ps ih =>
    rw [written_cons] at h
    rcases List.mem_append.1 h with h | h
    · cases p with
      | wildcard slash kind =>
        obtain rfl := List.mem_singleton.1 h
        obtain ⟨inside, hcapture⟩ := capture_eq_lead setting kind
        have hexpansion : (wildcard slash kind).expansion setting =
            lead setting kind ++ '(' :: inside := hcapture
        refine ⟨⟨inside ++ ps.flatMap (expansion setting), ?_⟩, slash, List.mem_cons_self⟩
        rw [List.flatMap_cons, hexpansion]
        simp
      | _ => cases h
    · obtain ⟨⟨rest, hrest⟩, slash, hmem⟩ := ih h
      refine ⟨⟨rest, ?_⟩, slash, List.mem_cons_of_mem _ hmem⟩
      rw [← hrest, List.flatMap_cons, List.append_assoc]

theorem kinds_written_iff (setting : CategorySetting) (before : List Char) (earlier : Nat)
    (ps : List Piece) (n : Nat) (kind : Kind) :
    (ps.flatMap kinds)[n]? = some (some kind) ↔
      ∃ w ∈ written setting before earlier ps, w.kind = kind ∧ w.earlier = earlier + n := by
  induction ps generalizing before earlier n with
  | nil => simp [written]
  | cons p ps ih =>
    have hlater : ∀ w ∈ written setting (before ++ p.expansion setting) (earlier + 1) ps,
        w.earlier ≠ earlier := fun w hw heq => by
      have := (before_written hw).1
      omega
    have hnext : ∀ n, (ps.flatMap kinds)[n]? = some (some kind) ↔
        ∃ w ∈ written setting (before ++ p.expansion setting) (earlier + 1) ps,
          w.kind = kind ∧ w.earlier = earlier + (n + 1) := fun n => by
      rw [Nat.add_comm n, ← Nat.add_assoc]
      exact ih _ _ _
    rw [written_cons, List.flatMap_cons]
    cases p with
    | wildcard slash k =>
      rw [List.cons_append, List.nil_append, List.exists_mem_cons_iff]
      cases n with
      | zero =>
        simp only [kinds, List.singleton_append, List.getElem?_cons_zero, Option.some.injEq,
          Nat.add_zero, and_true, List.length_singleton]
        constructor
        · exact .inl
        · rintro (h | ⟨w, hw, -, heq⟩)
          · exact h
          · exact absurd heq (hlater w hw)
      | succ n =>
        simp only [kinds, List.singleton_append, List.getElem?_cons_succ, hnext,
          List.length_singleton]
        simp
    | paren captures =>
      cases captures with
      | false => exact ih _ _ _
      | true =>
        rw [List.nil_append]
        cases n with
        | zero =>
          simp only [kinds, List.singleton_append, List.getElem?_cons_zero, Option.some.injEq,
            reduceCtorEq, Nat.add_zero, false_iff, not_exists, not_and]
          exact fun w hw _ => hlater w hw
        | succ n =>
          exact hnext n
    | _ => exact ih _ _ _

end Piece

namespace Pattern

variable {rule : String} {pages : Pages} {setting : CategorySetting} {p : Pattern}

theorem kinds_body (setting : CategorySetting) (source : List Char) :
    (body setting source).2 = (Piece.cut source).flatMap Piece.kinds := by
  unfold body
  split
  · rfl
  · next hplain =>
    rw [Bool.or_eq_true, not_or, List.contains_iff_mem, List.contains_iff_mem] at hplain
    obtain ⟨hcolon, hparen⟩ := hplain
    have hsource : ∀ piece ∈ Piece.cut source, ∀ c ∈ piece.source, c ≠ ':' ∧ c ≠ '(' := by
      intro piece hpiece c hc
      have hmem := List.mem_flatMap.2 ⟨piece, hpiece, hc⟩
      rw [Piece.cut, Piece.flatMap_source_cutFrom, List.drop_zero] at hmem
      exact ⟨fun h => hcolon (h ▸ hmem), fun h => hparen (h ▸ hmem)⟩
    refine (List.flatMap_eq_nil_iff.2 fun piece hpiece => ?_).symm
    cases piece with
    | wildcard slash kind =>
      have hmem : ':' ∈ (Piece.wildcard slash kind).source := by cases slash <;> simp [Piece.source]
      exact absurd rfl (hsource _ hpiece ':' hmem).1
    | paren captures => exact absurd rfl (hsource _ hpiece '(' List.mem_cons_self).2
    | _ => rfl

theorem parts_of_compile (h : compile rule pages setting = .ok p) :
    ∃ source : List Char, p.source = String.ofList source ∧
      p.regex.text = anchor (body setting source).1 ∧ p.kinds = (body setting source).2 := by
  rw [compile_eq, except_map_eq_ok] at h
  obtain ⟨expr, -, rfl⟩ := h
  exact ⟨_, rfl, rfl, rfl⟩

theorem kinds_of_compile (h : compile rule pages setting = .ok p) :
    p.kinds = (Piece.cut p.source.toList).flatMap Piece.kinds := by
  obtain ⟨source, hsource, -, hkinds⟩ := parts_of_compile h
  rw [hkinds, hsource, String.toList_ofList, kinds_body]

theorem written_increasing (p : Pattern) (setting : CategorySetting) :
    (p.written setting).Pairwise fun a b => a.earlier < b.earlier ∧ a.place < b.place := by
  refine (Piece.written_increasing setting [] 0 _).imp ?_
  rintro a b ⟨hearlier, rest, hbefore⟩
  refine ⟨hearlier, ?_⟩
  rw [List.append_assoc, List.singleton_append] at hbefore
  have hparen : Text.isSlash '(' = false := by decide
  simp only [Written.place, ← hbefore, Text.trimStart_append_cons hparen, List.length_append,
    List.length_cons]
  omega

theorem paren_at_place (h : compile rule pages setting = .ok p) {w : Written}
    (hw : w ∈ p.written setting) : p.regex.text.toList[w.place]? = some '(' := by
  obtain ⟨source, hsource, htext, -⟩ := parts_of_compile h
  rw [written, hsource, String.toList_ofList] at hw
  obtain ⟨⟨rest, hrest⟩, slash, hmem⟩ := Piece.mem_written hw
  have hcolon : ':' ∈ source := by
    have hpiece : ':' ∈ (Piece.wildcard slash w.kind).source := by
      cases slash <;> simp [Piece.source]
    have hsource := List.mem_flatMap.2 ⟨_, hmem, hpiece⟩
    rwa [Piece.cut, Piece.flatMap_source_cutFrom, List.drop_zero] at hsource
  have hbody : (body setting source).1 =
      Text.trim Text.isSlash ((Piece.cut source).flatMap (Piece.expansion setting)) := by
    unfold body
    rw [if_pos (by simp [hcolon])]
    rfl
  rw [List.nil_append] at hrest
  have htrim : (body setting source).1 = Text.trimStart Text.isSlash w.before ++
      '(' :: Text.trimEnd Text.isSlash rest := by
    have hparen : Text.isSlash '(' = false := by decide
    rw [hbody, hrest, Text.trim, Text.trimStart_append_cons hparen,
      Text.trimEnd_append_cons hparen]
  have hchars : p.regex.text.toList = "^(?:".toList ++ (Text.trimStart Text.isSlash w.before ++
      '(' :: (Text.trimEnd Text.isSlash rest ++ ")$".toList)) := by
    rw [htext, toList_anchor, htrim, List.append_assoc, List.append_assoc,
      List.cons_append]
  have hat : ∀ a b c : List Char, (a ++ (b ++ '(' :: c))[a.length + b.length]? = some '(' := by
    simp
  rw [hchars]
  exact hat _ _ _

/-! ## When kinds are aligned -/

theorem kind?_iff (h : compile rule pages setting = .ok p) (n : Nat) (kind : Kind) :
    p.kind? (n + 1) = some kind ↔
      ∃ w ∈ p.written setting, w.kind = kind ∧ w.earlier = n := by
  have hkind : p.kind? (n + 1) = some kind ↔ p.kinds[n]? = some (some kind) := by
    simp [kind?, Option.join_eq_some_iff]
  rw [hkind, kinds_of_compile h]
  refine (Piece.kinds_written_iff setting [] 0 _ n kind).trans ?_
  rw [Nat.zero_add]
  rfl

theorem openings_increasing (p : Pattern) : p.openings.Pairwise (· < ·) :=
  Regex.openings_increasing 0 0 _

theorem openings_iff {i o : Nat} : p.openings[i]? = some o ↔
    o ∈ p.openings ∧ (p.openings.countP fun o' => o' < o) = i :=
  Regex.getElem?_iff_countP (openings_increasing p)

theorem openings_lt {i j o o' : Nat} (hi : p.openings[i]? = some o)
    (hj : p.openings[j]? = some o') (hij : i < j) : o < o' := by
  obtain ⟨hilt, rfl⟩ := List.getElem?_eq_some_iff.1 hi
  obtain ⟨hjlt, rfl⟩ := List.getElem?_eq_some_iff.1 hj
  exact List.pairwise_iff_getElem.1 (openings_increasing p) i j hilt hjlt hij

theorem aligned_of_inStep (h : compile rule pages setting = .ok p) (hstep : p.InStep setting) :
    p.Aligned setting := by
  refine ⟨hstep.count, fun n kind => (kind?_iff h n kind).trans ?_⟩
  refine exists_congr fun w => and_congr_right fun hw => and_congr_right fun _ => ?_
  rw [openings_iff, hstep.before w hw, and_iff_right (hstep.opens w hw)]

theorem inStep_of_openings (hcount : p.kinds.length = p.captureCount)
    (h : ∀ w ∈ p.written setting, p.openings[w.earlier]? = some w.place) : p.InStep setting where
  count := hcount
  opens w hw := (openings_iff.1 (h w hw)).1
  before w hw := (openings_iff.1 (h w hw)).2

theorem inStep_of_aligned (h : compile rule pages setting = .ok p) (haligned : p.Aligned setting) :
    p.InStep setting := by
  have hopened : ∀ w ∈ p.written setting, ∃ v ∈ p.written setting,
      p.openings[w.earlier]? = some v.place := by
    intro w hw
    obtain ⟨v, hv, -, hplace⟩ :=
      (haligned.kind w.earlier w.kind).1 ((kind?_iff h _ _).2 ⟨w, hw, rfl, rfl⟩)
    exact ⟨v, hv, hplace⟩
  let reached := (p.written setting).map fun w => p.openings[w.earlier]?.getD 0
  have hplaces : ((p.written setting).map Written.place).Pairwise (· < ·) :=
    List.pairwise_map.2 ((p.written_increasing setting).imp And.right)
  have hreaches : reached.Pairwise (· < ·) := by
    refine List.pairwise_map.2 ((p.written_increasing setting).imp_of_mem ?_)
    rintro a b ha hb ⟨hearlier, -⟩
    obtain ⟨va, -, hva⟩ := hopened a ha
    obtain ⟨vb, -, hvb⟩ := hopened b hb
    rw [hva, hvb]
    exact openings_lt hva hvb hearlier
  have hsubset : reached ⊆ (p.written setting).map Written.place := by
    intro o ho
    obtain ⟨w, hw, rfl⟩ := List.mem_map.1 ho
    obtain ⟨v, hv, hplace⟩ := hopened w hw
    rw [hplace]
    exact List.mem_map_of_mem hv
  have hperm : reached.Perm ((p.written setting).map Written.place) := by
    have hnodup : reached.Nodup := hreaches.imp fun h => Nat.ne_of_lt h
    exact (List.subperm_of_subset hnodup hsubset).perm_of_length_le (by simp [reached])
  -- Two increasing lists of the same places are the same.
  have hreached : reached = (p.written setting).map Written.place :=
    hperm.eq_of_pairwise (fun _ _ _ _ h h' => absurd (Nat.lt_trans h h') (Nat.lt_irrefl _))
      hreaches hplaces
  refine inStep_of_openings haligned.count fun w hw => ?_
  obtain ⟨v, -, hv⟩ := hopened w hw
  have hw := List.map_inj_left.1 hreached w hw
  rw [hv, ← hw, hv]
  rfl

/-! ## Flat rules -/

theorem counted?_body (hword : setting.isMild = true) {source : List Char}
    (hpieces : ∀ piece ∈ Piece.cut source, piece.isFlat = true) :
    ∃ base, Piece.counted? 0 0 (body setting source).1 = some base ∧
      Piece.places setting 0 (Piece.cut source) = base.map
        (· + ((expandRule setting source).1.takeWhile Text.isSlash).length) := by
  have hplaces := Piece.counted?_expandRule hword hpieces 0
  by_cases hplain : (source.contains ':' || source.contains '(') = true
  · have hbody : (body setting source).1 =
        Text.trim Text.isSlash (expandRule setting source).1 := by
      unfold body
      rw [if_pos hplain]
    rw [Piece.counted?_trimStart] at hplaces
    obtain ⟨base, hbase, heq⟩ := Option.map_eq_some_iff.1 hplaces
    refine ⟨base, ?_, heq.symm⟩
    rw [hbody, Text.trim, Piece.counted?_trimEnd, hbase]
  · have hbody : body setting source = (Regex.escape (Text.trim Text.isSlash source), []) := by
      unfold body
      rw [if_neg hplain]
    have hnone : Piece.places setting 0 (Piece.cut source) = [] := by
      rw [← List.length_eq_zero_iff, Piece.length_places, ← kinds_body setting, hbody]
      rfl
    refine ⟨[], ?_, hnone⟩
    have hescape := Piece.counted?_escape (Text.trim Text.isSlash source) [] 0
    rw [List.append_nil] at hescape
    rw [hbody, hescape]
    rfl

theorem openings_of_flat (h : compile rule pages setting = .ok p) (hflat : p.Flat setting) :
    ∃ base : List Nat, p.openings = base.map (· + "^(?:".toList.length) ∧
      Piece.places setting 0 (Piece.cut p.source.toList) = base.map
        (· + ((expandRule setting p.source.toList).1.takeWhile Text.isSlash).length) := by
  obtain ⟨source, hsource, htext, -⟩ := parts_of_compile h
  obtain ⟨ls, hls, -⟩ := bind_eq_ok.1 (read_text_of_compile h)
  have hchars : p.source.toList = source := by rw [hsource, String.toList_ofList]
  obtain ⟨base, hbase, hplaces⟩ := counted?_body hflat.word hflat.pieces
  rw [hchars] at hbase
  refine ⟨base, Piece.openings_of_counted? hls ?_ (hflat.lexemes ls hls), hplaces⟩
  rw [htext, toList_anchor, Piece.counted?_anchor, hbase]
  rfl

theorem inStep_of_flat (h : compile rule pages setting = .ok p) (hflat : p.Flat setting) :
    p.InStep setting := by
  obtain ⟨base, hopenings, hplaces⟩ := openings_of_flat h hflat
  obtain ⟨ls, hls, -⟩ := bind_eq_ok.1 (read_text_of_compile h)
  refine inStep_of_openings ?_ ?_
  · have hlength : p.openings.length = p.kinds.length := by
      rw [kinds_of_compile h, ← Piece.length_places setting 0, hopenings, hplaces,
        List.length_map, List.length_map]
    rw [← hlength]
    refine (Regex.groupCount_eq_openings (read_text_of_compile h) hls fun l hl => ?_).symm
    exact Regex.Lexeme.drops_of_isFlat (hflat.lexemes ls hls l hl)
  · intro w hw
    obtain ⟨⟨rest, hrest⟩, -⟩ := Piece.mem_written hw
    have hplace := Piece.place_of_written hw
    rw [List.length_nil, hplaces, List.getElem?_map, Nat.sub_zero] at hplace
    obtain ⟨place, hbase, hplace⟩ := Option.map_eq_some_iff.1 hplace
    have hexpanded : (expandRule setting p.source.toList).1 = w.before ++ '(' :: rest := hrest
    have hlength : place = (Text.trimStart Text.isSlash w.before).length := by
      have hcut := congrArg List.length (List.takeWhile_append_dropWhile (p := Text.isSlash)
        (l := (expandRule setting p.source.toList).1))
      have htrim : Text.trimStart Text.isSlash (w.before ++ '(' :: rest) =
          Text.trimStart Text.isSlash w.before ++ '(' :: rest :=
        Text.trimStart_append_cons (by decide) w.before rest
      rw [Text.trimStart] at htrim
      rw [hexpanded] at hcut hplace
      rw [htrim] at hcut
      simp only [List.length_append, List.length_cons] at hcut
      omega
    rw [hopenings, List.getElem?_map, hbase, Option.map_some, Written.place, hlength,
      Nat.add_comm]

/-- Kinds are aligned for exactly the rules that keep in step, as flat rules do. -/
theorem aligned_iff (rule : String) (pages : Pages) (setting : CategorySetting) :
    ((∀ p, compile rule pages setting = .ok p → p.Aligned setting) ↔
      ∀ p, compile rule pages setting = .ok p → p.InStep setting) ∧
    ((∀ p, compile rule pages setting = .ok p → p.Flat setting) →
      ∀ p, compile rule pages setting = .ok p → p.Aligned setting) := by
  refine ⟨?_, fun hflat p h => aligned_of_inStep h (inStep_of_flat h (hflat p h))⟩
  exact forall_congr' fun p => forall_congr' fun h => ⟨inStep_of_aligned h, aligned_of_inStep h⟩

theorem aligned_groups : ∃ p, compile "(?:old|new)(er)?/:year/[(:]:url_title" .empty {} = .ok p ∧
    p.Aligned {} := by
  have hflat : (compile "(?:old|new)(er)?/:year/[(:]:url_title" .empty {}).toOption.map (fun p =>
      ((Piece.cut p.source.toList).all Piece.isFlat &&
        (Regex.lexemes 0 p.regex.text.toList).toOption.all (·.all Regex.Lexeme.isFlat),
        isVerbose p.regex.text.toList)) = some (true, false) := by decide +kernel
  obtain ⟨p, hp, heq⟩ := Option.map_eq_some_iff.1 hflat
  obtain ⟨hflat, hverbose⟩ := Prod.mk.inj heq
  rw [Bool.and_eq_true, List.all_eq_true] at hflat
  refine ⟨p, ok_of_toOption hp, (aligned_iff _ .empty {}).2 (fun q hq => ?_) p (ok_of_toOption hp)⟩
  obtain rfl := Except.ok.inj ((ok_of_toOption hp).symm.trans hq)
  refine ⟨by decide, hflat.1, fun ls hls => ?_, hverbose⟩
  rw [hls] at hflat
  exact List.all_eq_true.1 hflat.2

/-- The scanner takes the first closing bracket for the end of the class, and counts a parenthesis
inside it. -/
theorem not_aligned_nested :
    ¬ ∀ p, compile "[[a](]:entry_id" .empty {} = .ok p → p.Aligned {} := by
  have hcount : (compile "[[a](]:entry_id" .empty {}).toOption.map
      (fun p => (p.kinds.length, p.captureCount)) = some (2, 1) := by decide +kernel
  intro h
  obtain ⟨p, hp, hcount⟩ := Option.map_eq_some_iff.1 hcount
  obtain ⟨hkinds, hcaptures⟩ := Prod.mk.inj hcount
  have hsame := (h p (ok_of_toOption hp)).count
  rw [hkinds, hcaptures] at hsame
  cases hsame

end Pattern

end Signpost
