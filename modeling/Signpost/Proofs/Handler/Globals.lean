import Mathlib.Data.List.Nodup
import Signpost.Proofs.Dict
import Signpost.Proofs.Except
import Signpost.Proofs.Handler.Changes
import Signpost.Proofs.Token.Checking
import Signpost.Proofs.Token.Placeholders

/-!
# What is written into the globals

The handlers of the host, the checks of tokens and the export of their texts all write into the same
globals. None of them takes a name away, and a new context has the names that every context starts
with. The names that belong to a token are its own: no other token is checked or exported into them.
-/

namespace Signpost

variable {store : Store} {ctx : Context} {t u : Token} {ts : List Token} {key : String}

/-! ## Names -/

namespace Context

theorem globalName_toList (n : Nat) :
    (globalName n).toList = "route_".toList ++ Token.numeral n :=
  String.toList_append

theorem globalName_inj {m n : Nat} (h : globalName m = globalName n) : m = n := by
  have hlists := congrArg String.toList h
  rw [globalName_toList, globalName_toList] at hlists
  exact Token.numeral_inj (List.append_cancel_left hlists)

end Context

namespace Token

theorem columnGlobal_toList (t : Token) (c : String) :
    (t.columnGlobal c).toList = "route_".toList ++ (numeral t.index ++ '_' :: c.toList) := by
  rw [columnGlobal, String.toList_append, String.toList_append, Context.globalName_toList]
  simp

theorem columnGlobal_ne_globalName (t : Token) (c : String) (n : Nat) :
    t.columnGlobal c ≠ Context.globalName n := by
  intro h
  have hlists := congrArg String.toList h
  rw [columnGlobal_toList, Context.globalName_toList] at hlists
  have hmem : '_' ∈ numeral n := by
    rw [← List.append_cancel_left hlists]
    simp
  exact absurd (isDigit_of_mem_numeral hmem) (by decide)

theorem columnGlobal_inj {c c' : String} (h : t.columnGlobal c = u.columnGlobal c') :
    t.index = u.index ∧ c = c' := by
  have hlists := congrArg String.toList h
  rw [columnGlobal_toList, columnGlobal_toList] at hlists
  have hrest := List.append_cancel_left hlists
  -- the numeral ends where the first character stands that is not a digit
  have hnumeral : ∀ (n : Nat) (cs : List Char),
      (numeral n ++ '_' :: cs).takeWhile Char.isDigit = numeral n := by
    intro n cs
    rw [List.takeWhile_append_of_pos fun c hc => isDigit_of_mem_numeral hc]
    simp
  have hindex : numeral t.index = numeral u.index := by
    rw [← hnumeral t.index c.toList, hrest, hnumeral]
  rw [hindex] at hrest
  have hcolumn : c.toList = c'.toList := (List.cons.inj (List.append_cancel_left hrest)).2
  exact ⟨numeral_inj hindex, String.toList_inj.1 hcolumn⟩

end Token

/-! ## What is written -/

theorem Context.globals_foldl {α : Type} (key value : α → String) (es : List α) (ctx : Context) :
    (es.foldl (fun ctx e => ctx.setGlobal (key e) (value e)) ctx).globals =
      es.foldl (fun globals e => globals.insert (key e) (value e)) ctx.globals := by
  induction es generalizing ctx with
  | nil => rfl
  | cons e es ih => exact ih _

namespace Token

/-! ### Texts -/

theorem globals_exportAll (ts : List Token) (ctx : Context) :
    (exportAll ts ctx).globals =
      ts.foldl (fun globals t => globals.insert (Context.globalName t.index) t.text) ctx.globals :=
  Context.globals_foldl (fun t : Token => Context.globalName t.index) text ts ctx

theorem get?_exportAll (hts : (ts.map index).Nodup) (ht : t ∈ ts) (ctx : Context) :
    (exportAll ts ctx).globals.get? (Context.globalName t.index) = some t.text := by
  rw [globals_exportAll]
  refine Dict.get?_foldl_insert (fun u hu hkey => ?_) (.inr ⟨t, ht, rfl⟩)
  rw [List.inj_on_of_nodup_map hts hu ht (Context.globalName_inj hkey)]

theorem get?_exportAll_ne (h : ∀ n, key ≠ Context.globalName n) (ts : List Token) (ctx : Context) :
    (exportAll ts ctx).globals.get? key = ctx.globals.get? key := by
  rw [globals_exportAll]
  exact Dict.get?_foldl_insert_ne (fun t _ hkey => h t.index hkey.symm) _

/-! ### Columns -/

theorem globals_adopt (t : Token) (columns : List String) (row : Option Row) (ctx : Context) :
    (t.adopt columns row ctx).2.globals =
      (columnsOf columns row).entries.foldl
        (fun globals e => globals.insert (t.columnGlobal e.1) (e.2.getD "")) ctx.globals :=
  Context.globals_foldl (fun e : String × Option String => t.columnGlobal e.1)
    (fun e => e.2.getD "") _ ctx

theorem get?_columnsOf (columns : List String) (row : Option Row) (c : String) :
    (columnsOf columns row).get? c =
      if c ∈ columns then some (row.map fun r => (r.get? c).getD "") else none := by
  split
  · next hc => exact Dict.get?_ofList_map (fun c => row.map fun r => (r.get? c).getD "") hc
  · next hc => exact Dict.get?_ofList_map_ne (fun c => row.map fun r => (r.get? c).getD "") hc

theorem column?_adopt (t : Token) (columns : List String) (row : Option Row) (ctx : Context)
    (c : String) :
    (t.adopt columns row ctx).1.column? c =
      if c ∈ columns then row.map fun r => (r.get? c).getD "" else none := by
  rw [column?, adopt, Option.bind_some, get?_columnsOf]
  split <;> rfl

theorem get?_globals_adopt {columns : List String} {c : String} (hc : c ∈ columns) (t : Token)
    (row : Option Row) (ctx : Context) :
    (t.adopt columns row ctx).2.globals.get? (t.columnGlobal c) =
      some ((row.map fun r => (r.get? c).getD "").getD "") := by
  have hfound := get?_columnsOf columns row c
  rw [if_pos hc] at hfound
  rw [globals_adopt]
  refine Dict.get?_foldl_insert (fun e he hkey => ?_)
    (.inr ⟨_, Dict.mem_of_get?_eq_some hfound, rfl⟩)
  have hentry := Dict.get?_eq_some_of_mem he
  rw [(columnGlobal_inj hkey).2, hfound] at hentry
  rw [← Option.some.inj hentry]

theorem get?_globals_adopt_ne {columns : List String} (h : ∀ c ∈ columns, key ≠ t.columnGlobal c)
    (row : Option Row) (ctx : Context) :
    (t.adopt columns row ctx).2.globals.get? key = ctx.globals.get? key := by
  rw [globals_adopt]
  refine Dict.get?_foldl_insert_ne (fun e he hkey => ?_) ctx.globals
  have hentry := Dict.get?_eq_some_of_mem he
  rw [get?_columnsOf] at hentry
  split at hentry
  · next hc => exact h e.1 hc hkey.symm
  · cases hentry

theorem Checks.get?_globals {checked : Checked} (h : t.Checks ctx checked)
    (hkey : ∀ c, key ≠ t.columnGlobal c) : checked.context.globals.get? key = ctx.globals.get? key := by
  induction h with
  | own | failed => rfl
  | found => exact get?_globals_adopt_ne (fun c _ => hkey c) ..
  | narrowed _ _ ih => exact ih

theorem get?_checkAll (hkey : ∀ t ∈ ts, ∀ c, key ≠ t.columnGlobal c) (ctx : Context) :
    (checkAll store ts ctx).context.globals.get? key = ctx.globals.get? key := by
  induction ts generalizing ctx with
  | nil => rfl
  | cons t ts ih =>
    have hhead := (checks_check store t .own .empty ctx).get?_globals (hkey t List.mem_cons_self)
    rw [checkAll]
    simp only
    split
    · exact hhead
    · exact (ih (fun u hu => hkey u (List.mem_cons_of_mem t hu)) _).trans hhead

/-- The token has every column of the rows that its kind looks up, and the globals have the same. -/
def ShowsRow (t : Token) (globals : Names String) : Prop :=
  ∀ l, t.kind.bind Kind.lookup? = some l → ∀ c ∈ l.columns,
    ∃ v, t.column? c = some v ∧ globals.get? (t.columnGlobal c) = some v

theorem ShowsRow.of_get? {globals globals' : Names String} (h : t.ShowsRow globals)
    (hkept : ∀ c, globals'.get? (t.columnGlobal c) = globals.get? (t.columnGlobal c)) :
    t.ShowsRow globals' := by
  intro l hl c hc
  obtain ⟨v, hcolumn, hglobal⟩ := h l hl c hc
  exact ⟨v, hcolumn, (hkept c).trans hglobal⟩

theorem showsRow_adopt {l : Lookup} (hl : t.kind.bind Kind.lookup? = some l) (row : Row)
    (ctx : Context) :
    (t.adopt l.columns (some row) ctx).1.ShowsRow (t.adopt l.columns (some row) ctx).2.globals := by
  intro l' hl' c hc
  obtain rfl : l = l' := Option.some.inj (hl.symm.trans hl')
  exact ⟨(row.get? c).getD "", (column?_adopt ..).trans (if_pos hc), get?_globals_adopt hc ..⟩

theorem showsRow_check (h : (t.check store .own .empty ctx).answer = .ok true) :
    (t.check store .own .empty ctx).token.ShowsRow
      (t.check store .own .empty ctx).context.globals := by
  rw [check_own] at h ⊢
  cases hl : t.kind.bind Kind.lookup? with
  | none =>
    intro l hl'
    simp only [hl] at hl'
    cases hl'
  | some l =>
    simp only [hl, checkRows] at h ⊢
    cases hrows : l.ask store (.only l.column t.text) with
    | error e =>
      rw [hrows] at h
      cases h
    | ok rows =>
      simp only [hrows] at h ⊢
      cases hrow : rows.head? with
      | none => simp [hrow] at h
      | some row => exact showsRow_adopt hl row _

theorem showsRow_checkAll (hts : (ts.map index).Nodup)
    (h : (checkAll store ts ctx).answer = .ok true) :
    ∀ t ∈ (checkAll store ts ctx).tokens,
      t.ShowsRow (checkAll store ts ctx).context.globals := by
  -- The checks of the later tokens do not write over the columns of the earlier ones.
  induction ts generalizing ctx with
  | nil => simp [checkAll]
  | cons t ts ih =>
    rw [List.map_cons, List.nodup_cons] at hts
    have hindex : (t.check store .own .empty ctx).token.index = t.index :=
      (checks_check store t .own .empty ctx).index
    rw [checkAll] at h ⊢
    simp only at h ⊢
    cases hanswer : (t.check store .own .empty ctx).answer with
    | error e =>
      rw [hanswer] at h
      cases h
    | ok valid =>
      simp only [hanswer] at h ⊢
      obtain ⟨rest, hrest, hboth⟩ := except_map_eq_ok.1 h
      obtain ⟨rfl, rfl⟩ : valid = true ∧ rest = true := by simpa using hboth
      intro u hu
      rcases List.mem_cons.1 hu with rfl | hu
      · refine (showsRow_check hanswer).of_get? fun c => get?_checkAll (fun u hu c' hkey => ?_) _
        have hsame : u.index = t.index := (columnGlobal_inj hkey).1.symm.trans hindex
        exact hts.1 (hsame ▸ List.mem_map_of_mem hu)
      · exact ih hts.2 hrest u hu

theorem showsRow_validate (hts : (ts.map index).Nodup)
    (h : (validate store ts ctx).answer = .ok true) :
    ∀ t ∈ (validate store ts ctx).tokens, t.ShowsRow (validate store ts ctx).context.globals := by
  rw [validate] at h ⊢
  simp only at h ⊢
  split at h
  · next hrejected =>
    rw [hrejected] at h
    cases h
  · exact showsRow_checkAll hts h

end Token

/-! ## What stays -/

theorem Context.keysWithin_apply (ctx : Context) (c : Change) :
    ctx.globals.KeysWithin (ctx.apply c).globals := by
  have hheader : ∀ (ctx : Context) name value,
      ctx.globals.KeysWithin (ctx.setHeader name value).globals := by
    intro ctx name value
    rw [setHeader_frame]
    exact .refl ctx.globals
  cases c
  case global key value => exact Dict.keysWithin_insert ctx.globals key value
  case header | contentType => exact hheader ..
  case json => exact hheader { ctx with status := some 200 } ..
  case rawHeader line =>
    simp only [apply]
    split
    · exact hheader ..
    · exact .refl ctx.globals
  all_goals exact .refl ctx.globals

namespace Token

theorem keysWithin_exportAll (ts : List Token) (ctx : Context) :
    ctx.globals.KeysWithin (exportAll ts ctx).globals := by
  rw [globals_exportAll]
  exact Dict.keysWithin_foldl_insert ts ctx.globals

theorem Checks.keysWithin {checked : Checked} (h : t.Checks ctx checked) :
    ctx.globals.KeysWithin checked.context.globals := by
  induction h with
  | own | failed => exact .refl _
  | found =>
    rw [globals_adopt]
    exact Dict.keysWithin_foldl_insert _ _
  | narrowed _ _ ih => exact ih

theorem keysWithin_checkAll (store : Store) (ts : List Token) (ctx : Context) :
    ctx.globals.KeysWithin (checkAll store ts ctx).context.globals := by
  induction ts generalizing ctx with
  | nil => exact .refl ctx.globals
  | cons t ts ih =>
    rw [checkAll]
    simp only
    split
    · exact (checks_check ..).keysWithin
    · exact (checks_check store t .own .empty ctx).keysWithin.trans (ih _)

theorem keysWithin_validate (store : Store) (ts : List Token) (ctx : Context) :
    ctx.globals.KeysWithin (validate store ts ctx).context.globals := by
  -- Globals that are taken back are those from before.
  rw [validate]
  simp only
  split
  · exact .refl ctx.globals
  · exact keysWithin_checkAll store ts ctx

end Token

theorem Handler.keysWithin_run {α : Type} (h : Handler α) (store : Store) (tokens : List Token)
    {ctx : Context} (hctx : Context.blankGlobals.KeysWithin ctx.globals) :
    Context.blankGlobals.KeysWithin (h.run store tokens ctx).context.globals := by
  induction h generalizing tokens ctx with
  | done | fail => exact hctx
  | look _ ih => exact ih _ _ _ hctx
  | change c _ ih => exact ih tokens (hctx.trans (ctx.keysWithin_apply c))
  | renew path _ ih => exact ih tokens (.refl _)
  | note message _ ih => exact ih tokens hctx
  | setValue position _ _ ih =>
    simp only [run]
    split <;> exact ih _ hctx
  | check position c filter _ ih =>
    simp only [run]
    split
    · exact ih _ _ (hctx.trans (Token.checks_check ..).keysWithin)
    · exact ih _ _ hctx
  | examine t c filter _ ih => exact ih _ _ tokens (hctx.trans (Token.checks_check ..).keysWithin)

end Signpost
