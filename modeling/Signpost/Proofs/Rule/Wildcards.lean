import Signpost.Store.Memory
import Signpost.Proofs.Dispatch.Walk
import Signpost.Proofs.Rule.Alignment
import Signpost.Proofs.Rule.PagesOnly

/-!
# Whether a rule has wildcards

A rule is taken to have a wildcard if it has a colon, and its first wildcard is looked for where the
first colon stands. That is right as long as the first colon is the colon of a wildcard, and not one
that the rule writes for something else: in a group, in a bracketed class, behind a backslash.
-/

namespace Signpost

variable {w cs : List Char} {ps : List Piece} {q : Piece}

/-! ## The first colon of a text -/

namespace Text

/-- Where the first colon stands, in bytes. -/
def colonOffset? : List Char → Option Nat
  | [] => none
  | c :: cs => if c = ':' then some 0 else (colonOffset? cs).map (c.utf8Size + ·)

theorem colonOffset?_append (h : ':' ∉ w) (cs : List Char) :
    colonOffset? (w ++ cs) = (colonOffset? cs).map (byteLength w + ·) := by
  induction w with
  | nil => simp [byteLength]
  | cons c w ih =>
    obtain ⟨hc, hw⟩ := not_or.1 (mt List.mem_cons.2 h)
    have hlength : byteLength (c :: w) = c.utf8Size + byteLength w := rfl
    rw [List.cons_append, colonOffset?, if_neg (Ne.symm hc), ih hw, Option.map_map, hlength]
    exact congrArg (Option.map · _) (funext fun n => (Nat.add_assoc ..).symm)

theorem colonOffset?_append_of_mem (h : ':' ∈ w) (cs : List Char) :
    ∃ n, colonOffset? (w ++ cs) = some n ∧ n < byteLength w := by
  obtain ⟨before, behind, rfl, hbefore⟩ := List.eq_append_cons_of_mem h
  clear h
  refine ⟨byteLength before, ?_, ?_⟩
  · rw [List.append_assoc, colonOffset?_append hbefore]
    rfl
  · induction before with
    | nil => exact Nat.zero_lt_one.trans_le (Nat.le_add_right 1 _)
    | cons c before ih =>
      have hlt := ih fun h => hbefore (List.mem_cons_of_mem c h)
      exact Nat.add_lt_add_left hlt c.utf8Size

end Text

theorem Pattern.wildcardOffset?_eq (p : Pattern) :
    p.wildcardOffset? = Text.colonOffset? p.source.toList := by
  rw [wildcardOffset?, List.span_eq_takeWhile_dropWhile]
  generalize p.source.toList = cs
  induction cs with
  | nil => rfl
  | cons c cs ih =>
    by_cases hc : c = ':'
    · subst hc
      rfl
    · have htest : (c != ':') = true := bne_iff_ne.2 hc
      rw [Text.colonOffset?, if_neg hc, ← ih]
      simp only [List.dropWhile_cons_of_pos, List.takeWhile_cons_of_pos, htest]
      cases cs.dropWhile (· != ':') <;> rfl

/-! ## The first wildcard of a rule -/

namespace Piece

def isWildcard : Piece → Bool
  | wildcard .. => true
  | _ => false

/-- Where the colon of the first wildcard stands, in bytes. -/
def wildcardOffset? : List Piece → Option Nat
  | [] => none
  | wildcard slash _ :: _ => some (if slash then 1 else 0)
  | q :: ps => (wildcardOffset? ps).map (Text.byteLength q.source + ·)

/-- The first piece with a colon, if there is one, is a wildcard. -/
def FirstColonInWildcard (ps : List Piece) : Prop :=
  ∀ q, ps.find? (fun q => q.source.contains ':') = some q → q.isWildcard = true

theorem wildcardOffset?_cons (h : q.isWildcard = false) (ps : List Piece) :
    wildcardOffset? (q :: ps) = (wildcardOffset? ps).map (Text.byteLength q.source + ·) := by
  cases q with
  | wildcard => cases h
  | _ => rfl

theorem isSome_wildcardOffset?_iff (ps : List Piece) :
    (wildcardOffset? ps).isSome = true ↔ ∃ kind, some kind ∈ ps.flatMap kinds := by
  induction ps with
  | nil => simp [wildcardOffset?]
  | cons q ps ih =>
    cases q with
    | wildcard slash kind => simp [wildcardOffset?, kinds]
    | paren captures => cases captures <;> simp [wildcardOffset?, kinds, ih]
    | _ => simp [wildcardOffset?, kinds, ih]

theorem colonOffset?_eq_iff (ps : List Piece) :
    Text.colonOffset? (ps.flatMap source) = wildcardOffset? ps ↔ FirstColonInWildcard ps := by
  induction ps with
  | nil => simp [Text.colonOffset?, wildcardOffset?, FirstColonInWildcard]
  | cons q ps ih =>
    rw [List.flatMap_cons]
    by_cases hcolon : ':' ∈ q.source
    · have hfirst : FirstColonInWildcard (q :: ps) ↔ q.isWildcard = true := by
        simp [FirstColonInWildcard, hcolon]
      rw [hfirst]
      cases hq : q.isWildcard with
      | true =>
        refine iff_of_true ?_ rfl
        cases q with
        | wildcard slash kind => cases slash <;> rfl
        | _ => cases hq
      | false =>
        -- A wildcard could only stand behind this piece, and the colon is in it.
        obtain ⟨n, hn, hlt⟩ := Text.colonOffset?_append_of_mem hcolon (ps.flatMap source)
        refine iff_of_false (fun heq => ?_) Bool.false_ne_true
        rw [hn, wildcardOffset?_cons hq, eq_comm, Option.map_eq_some_iff] at heq
        obtain ⟨m, -, hm⟩ := heq
        omega
    · have hq : q.isWildcard = false := by
        cases q with
        | wildcard slash kind => cases slash <;> simp [source] at hcolon
        | _ => rfl
      have hfirst : FirstColonInWildcard (q :: ps) ↔ FirstColonInWildcard ps := by
        simp [FirstColonInWildcard, hcolon]
      have hinj : Function.Injective (Text.byteLength q.source + ·) :=
        fun _ _ h => Nat.add_left_cancel h
      rw [Text.colonOffset?_append hcolon, wildcardOffset?_cons hq, hfirst, ← ih]
      exact (Option.map_injective hinj).eq_iff

end Piece

/-! ## Patterns -/

namespace Pattern

variable {p : Pattern} {rule : String} {pages : Pages} {setting : CategorySetting}

/-- What a pattern tells of its wildcards is so. -/
structure TellsWildcards (p : Pattern) : Prop where
  hasWildcard : p.hasWildcard = true ↔ ∃ kind, some kind ∈ p.kinds
  /-- The offset is that of the colon of the first wildcard in the source. -/
  offset : p.wildcardOffset? = Piece.wildcardOffset? (Piece.cut p.source.toList)
  /-- Without wildcards no request gets a query string from the rule. -/
  queryString : (∀ kind, some kind ∉ p.kinds) →
    ∀ (table : RouteTable) (decision : Decision) (ctx : Context), decision.route.pattern = p →
      (table.finish (some decision) ctx).queryString = none

theorem queryString_finish (h : p.hasWildcard = false) (table : RouteTable) (decision : Decision)
    (ctx : Context) (hdecision : decision.route.pattern = p) :
    (table.finish (some decision) ctx).queryString = none := by
  subst hdecision
  unfold RouteTable.finish
  split
  · rfl
  · next d heq =>
    obtain rfl := Option.some.inj heq
    split
    · rfl
    · rfl
    · simp [RouteTable.finishSelected, h]

/-- A compiled rule tells of its wildcards just if no piece but a wildcard has its first colon. -/
theorem tellsWildcards_iff (h : compile rule pages setting = .ok p) :
    p.TellsWildcards ↔ Piece.FirstColonInWildcard (Piece.cut p.source.toList) := by
  have hsource : (Piece.cut p.source.toList).flatMap Piece.source = p.source.toList :=
    Piece.flatMap_source_cutFrom 0 _
  have hoffset : p.wildcardOffset? = Piece.wildcardOffset? (Piece.cut p.source.toList) ↔
      Piece.FirstColonInWildcard (Piece.cut p.source.toList) := by
    rw [← Piece.colonOffset?_eq_iff, hsource, wildcardOffset?_eq]
  refine ⟨fun htells => hoffset.1 htells.offset, fun hfirst => ?_⟩
  have heq := hoffset.2 hfirst
  have hflag : p.hasWildcard = true ↔ ∃ kind, some kind ∈ p.kinds := by
    rw [Pattern.hasWildcard, heq, Piece.isSome_wildcardOffset?_iff, kinds_of_compile h]
  refine ⟨hflag, heq, fun hnone table decision ctx hdecision => ?_⟩
  refine queryString_finish (Bool.eq_false_iff.2 fun htrue => ?_) table decision ctx hdecision
  obtain ⟨kind, hkind⟩ := hflag.1 htrue
  exact hnone kind hkind

theorem tellsWildcards_year : ∃ p, compile "[0-9]/:year/(?:old|new)" .empty {} = .ok p ∧
    p.TellsWildcards ∧ p.wildcardOffset? = some 6 := by
  have hfound : (compile "[0-9]/:year/(?:old|new)" .empty {}).toOption.map (fun p =>
      ((Piece.cut p.source.toList).find? fun q => q.source.contains ':', p.wildcardOffset?)) =
        some (some (.wildcard false .year), some 6) := by
    decide +kernel
  obtain ⟨p, hp, hfound⟩ := Option.map_eq_some_iff.1 hfound
  obtain ⟨hfirst, hoffset⟩ := Prod.mk.inj hfound
  refine ⟨p, ok_of_toOption hp, (tellsWildcards_iff (ok_of_toOption hp)).2 fun q hq => ?_, hoffset⟩
  obtain rfl := Option.some.inj (hfirst.symm.trans hq)
  rfl

/-- The colon of a group makes a query string of the path of a rule without wildcards. -/
theorem not_tellsWildcards_group :
    ¬ (∀ p, compile "(?:news|blog)" .empty {} = .ok p → p.TellsWildcards) ∧
      (RouteTable.dispatch { routes := [.toTemplate "(?:news|blog)" ⟨"blog", "index"⟩] }
        (MemoryStore.toStore {}) "news").result.toOption.map (fun r => r.1.queryString) =
          some (some "news") := by
  refine ⟨fun h => ?_, by decide +kernel⟩
  have hcompile : (compile "(?:news|blog)" .empty {}).toOption.map
      (fun p => (p.hasWildcard, p.kinds)) = some (true, []) := by decide +kernel
  obtain ⟨p, hp, hboth⟩ := Option.map_eq_some_iff.1 hcompile
  obtain ⟨htrue, hkinds⟩ := Prod.mk.inj hboth
  obtain ⟨kind, hkind⟩ := (h p (ok_of_toOption hp)).hasWildcard.1 htrue
  rw [hkinds] at hkind
  cases hkind

end Pattern

end Signpost
