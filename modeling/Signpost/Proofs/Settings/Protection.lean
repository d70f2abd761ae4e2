import Signpost.Settings
import Signpost.Store.Memory
import Signpost.Proofs.Dict
import Signpost.Proofs.Dispatch.PagePaths
import Signpost.Proofs.Dispatch.Selected
import Signpost.Proofs.RouteTable.Editing
import Signpost.Proofs.Text

/-!
# Pages of a settings file

A settings file lists pages by the texts of their numbers. Several texts can stand for one number, and
then the last of them counts; and the path of a page is compared as it is written. So a page is kept
from the rules if nothing behind it has its number, and its path is written with one slash before it
and none after it.
-/

namespace Signpost

theorem Pages.owns_iff {pages : Pages} {path : String} :
    pages.owns path = true ↔ ∃ id, pages.get? id = some path := by
  rw [owns, List.contains_iff_mem, Dict.values, List.mem_map]
  constructor
  · rintro ⟨⟨id, _⟩, hmem, rfl⟩
    exact ⟨id, Dict.get?_eq_some_of_mem hmem⟩
  · rintro ⟨id, hget⟩
    exact ⟨(id, path), Dict.mem_of_get?_eq_some hget, rfl⟩

namespace Settings

variable {s : Settings} {table : RouteTable} {store : Store} {key path : String} {d : Dispatch}
  {m : Metrics}

/-- The number that the key of a page is read as. -/
def pageId? (key : String) : Option PageId := PageId.read? (Text.trim Unicode.isBlank key.toList)

/-- The settings have a page with this key and this path, and none with its number behind it. -/
def Keeps (s : Settings) (key path : String) : Prop :=
  ∃ before later, s.pages.entries = before ++ (key, path) :: later ∧
    ∀ e ∈ later, pageId? e.1 ≠ pageId? key

/-- Requests for a path are never given a template. -/
def Protects (s : Settings) (path : String) : Prop :=
  ∀ table store d m, s.toTable = .ok table →
    (table.dispatch store (Text.trimSlashes path)).result = .ok (d, m) →
      ∀ t, d.outcome ≠ .template t

/-! ## The pages of the table -/

theorem mapM_page {entries : List (String × String)} {pages : List (PageId × String)}
    (h : (entries.mapM fun (key, path) => page key path) = .ok pages) :
    pages = entries.map (fun e => ((pageId? e.1).getD 0, e.2)) ∧
      ∀ e ∈ entries, pageId? e.1 = some ((pageId? e.1).getD 0) := by
  induction entries generalizing pages with
  | nil =>
    cases h
    exact ⟨rfl, fun _ h => nomatch h⟩
  | cons e entries ih =>
    rw [List.mapM_cons, bind_eq_ok] at h
    obtain ⟨first, hfirst, hrest⟩ := h
    obtain ⟨rest, hmapped, ⟨⟩⟩ := bind_eq_ok.1 hrest
    obtain ⟨rfl, hread⟩ := ih hmapped
    have hpage : page e.1 e.2 = .ok first := hfirst
    rw [page, ← pageId?] at hpage
    cases hid : pageId? e.1 with
    | none =>
      rw [hid] at hpage
      cases hpage
    | some id =>
      rw [hid] at hpage
      cases hpage
      refine ⟨by rw [List.map_cons, hid]; rfl, List.forall_mem_cons.2 ⟨?_, hread⟩⟩
      rw [hid]
      rfl

theorem foldlM_add {routes : List RouteSetting} {table table' : RouteTable}
    (h : routes.foldlM (fun table route => table.add route.rule (.ofText route.template)) table =
      .ok table') (htable : table.HandlerFree) : table'.pages = table.pages ∧ table'.HandlerFree := by
  induction routes generalizing table with
  | nil =>
    cases h
    exact ⟨rfl, htable⟩
  | cons route routes ih =>
    rw [List.foldlM_cons] at h
    obtain ⟨added, hadd, hrest⟩ := bind_eq_ok.1 h
    obtain ⟨pattern, -, heq⟩ := RouteTable.add_eq_ok.1 hadd
    have hfree : added.HandlerFree := by
      rw [heq]
      refine ⟨htable.before, fun r hr => ?_⟩
      rcases List.mem_append.1 hr with hr | hr
      · exact htable.routes r hr
      · rw [List.mem_singleton.1 hr]
        exact ⟨_, rfl⟩
    obtain ⟨hpages, hfree⟩ := ih hrest hfree
    exact ⟨hpages.trans (by rw [heq]), hfree⟩

theorem toTable_pages (h : s.toTable = .ok table) :
    (∃ pages, (s.pages.entries.mapM fun (key, path) => page key path) = .ok pages ∧
      table.pages = .ofList pages) ∧ table.HandlerFree := by
  obtain ⟨pages, hpages, h⟩ := bind_eq_ok.1 h
  obtain ⟨set, hset, h⟩ := bind_eq_ok.1 h
  obtain ⟨hset, hroutes, -⟩ := RouteTable.withSetting_eq_ok.1 hset
  have hempty : set.routes = [] := List.map_eq_nil_iff.1 hroutes
  rw [hempty] at hset
  obtain ⟨htable, hfree⟩ := foldlM_add h (hset ▸ ⟨rfl, fun _ hr => nomatch hr⟩)
  refine ⟨⟨pages, hpages, htable.trans ?_⟩, hfree⟩
  rw [hset]
  rfl

theorem owns_toTable_iff (h : s.toTable = .ok table) :
    table.pages.owns path = true ↔ ∃ key, s.Keeps key path := by
  obtain ⟨⟨pages, hpages, htable⟩, -⟩ := toTable_pages h
  obtain ⟨rfl, hread⟩ := mapM_page hpages
  rw [htable, Pages.owns_iff]
  constructor
  · rintro ⟨id, hget⟩
    obtain ⟨before, later, hsplit, hlater⟩ := Dict.get?_ofList_eq_some_iff.1 hget
    obtain ⟨front, back, hentries, -, hback⟩ := List.map_eq_append_iff.1 hsplit
    obtain ⟨e, rest, rfl, he, rfl⟩ := List.map_eq_cons_iff.1 hback
    obtain ⟨hid, rfl⟩ := Prod.mk.inj he
    refine ⟨e.1, front, rest, hentries, fun f hf hsame => ?_⟩
    exact hlater _ (List.mem_map_of_mem hf) (by rw [hsame, hid])
  · rintro ⟨key, before, later, hentries, hlater⟩
    refine ⟨(pageId? key).getD 0, Dict.get?_ofList_eq_some_iff.2
      ⟨_, _, by rw [hentries, List.map_append, List.map_cons], fun p hp hsame => ?_⟩⟩
    obtain ⟨e, he, rfl⟩ := List.mem_map.1 hp
    have hmem : ∀ e ∈ (key, path) :: later, pageId? e.1 = some ((pageId? e.1).getD 0) := by
      intro e he
      exact hread e (hentries ▸ List.mem_append_right before he)
    refine hlater e he ?_
    rw [hmem e (List.mem_cons_of_mem _ he), hmem _ List.mem_cons_self]
    exact congrArg some hsame

/-! ## Requests for pages -/

/-- A path that was trimmed is that of a page just if a page that is kept is written so, with a slash
before it; and then it is given no template. -/
theorem dispatch_trimmed (htable : s.toTable = .ok table)
    (h : (table.dispatch store (Text.trimSlashes path)).result = .ok (d, m)) :
    (d.isPage = true ↔ ∃ key, s.Keeps key ("/" ++ Text.trimSlashes path)) ∧
      (d.isPage = true → ∀ t, d.outcome ≠ .template t) ∧
      ∀ key, s.Keeps key path → path = "/" ++ Text.trimSlashes path →
        ∀ t, d.outcome ≠ .template t := by
  obtain ⟨-, hcourse⟩ := RouteTable.course_of_dispatch h
  have hpage := hcourse.isPage (toTable_pages htable).2.not_renewed
  rw [Text.dropTrailingSlashes_trimSlashes] at hpage
  have hiff : d.isPage = true ↔ ∃ key, s.Keeps key ("/" ++ Text.trimSlashes path) := by
    rw [hpage]
    exact owns_toTable_iff htable
  have hprotected : d.isPage = true → ∀ t, d.outcome ≠ .template t := fun hisPage =>
    (hcourse.outcome_of_isPage hisPage).1
  exact ⟨hiff, hprotected, fun key hkeeps hpath => hprotected (hiff.2 ⟨key, hpath ▸ hkeeps⟩)⟩

/-! ### A page with a rule for its path -/

/-- Pages, and a rule for the path of one of them. -/
def pageSettings (pages : List (String × String)) : Settings where
  pages := .ofList pages
  routes := [⟨"about", "site/about"⟩]

theorem dispatch_trimmed_about :
    ∃ table d m, (pageSettings [("3", "/about")]).toTable = .ok table ∧
      (table.dispatch (MemoryStore.toStore {}) "about").result = .ok (d, m) ∧ d.isPage = true ∧
      ∀ t, d.outcome ≠ .template t := by
  have hrun : ((pageSettings [("3", "/about")]).toTable.toOption.bind fun table =>
      (table.dispatch (MemoryStore.toStore {}) "about").result.toOption.map fun r =>
        r.1.isPage) = some true := by
    decide +kernel
  obtain ⟨table, htable, hdispatch⟩ := Option.bind_eq_some_iff.1 hrun
  obtain ⟨⟨d, m⟩, hresult, hpage⟩ := Option.map_eq_some_iff.1 hdispatch
  have htrimmed : Text.trimSlashes "/about" = "about" := by decide +kernel
  have hkeeps : (pageSettings [("3", "/about")]).Keeps "3" "/about" :=
    ⟨[], [], rfl, fun _ h => nomatch h⟩
  obtain ⟨-, -, hprotected⟩ := dispatch_trimmed (ok_of_toOption htable)
    (htrimmed.symm ▸ ok_of_toOption hresult)
  exact ⟨table, d, m, ok_of_toOption htable, ok_of_toOption hresult, hpage,
    hprotected "3" hkeeps (by rw [htrimmed]; decide +kernel)⟩

/-- A page is lost to the rules if there is a slash behind its path, and if a later key has its
number. -/
theorem pages_not_protected :
    (("3", "/about/") ∈ (pageSettings [("3", "/about/")]).pages.entries ∧
        ¬(pageSettings [("3", "/about/")]).Protects "/about/") ∧
      (("+3", "/about") ∈ (pageSettings [("+3", "/about"), ("3", "/team")]).pages.entries ∧
        ¬(pageSettings [("+3", "/about"), ("3", "/team")]).Protects "/about") := by
  have hlost : ∀ (pages : List (String × String)) (path : String),
      Text.trimSlashes path = "about" →
      ((pageSettings pages).toTable.toOption.bind fun table =>
        (table.dispatch (MemoryStore.toStore {}) "about").result.toOption.map fun r =>
          (r.2.trace.getLast?.map TraceEntry.verdict,
            table.template? (MemoryStore.toStore {}) "about",
            table.pages.owns ("/" ++ Text.dropTrailingSlashes "about"))) =
        some (some .selected, some ⟨"site", "about"⟩, false) →
      ¬(pageSettings pages).Protects path := by
    intro pages path htrimmed hrun hprotects
    obtain ⟨table, htable, hdispatch⟩ := Option.bind_eq_some_iff.1 hrun
    obtain ⟨⟨d, m⟩, hresult, heq⟩ := Option.map_eq_some_iff.1 hdispatch
    obtain ⟨hlast, heq⟩ := Prod.mk.inj heq
    obtain ⟨htemplate, hpage⟩ := Prod.mk.inj heq
    obtain ⟨t, houtcome⟩ := RouteTable.routed_of_selected (ok_of_toOption hresult) hpage hlast
      htemplate (.inr ⟨'s', by decide, by decide, rfl⟩) (.inr ⟨'a', by decide, by decide, rfl⟩)
    exact hprotects table _ d m (ok_of_toOption htable)
      (htrimmed.symm ▸ ok_of_toOption hresult) t houtcome
  refine ⟨⟨by decide +kernel, hlost _ _ (by decide +kernel) (by decide +kernel)⟩, by decide +kernel,
    hlost _ _ (by decide +kernel) (by decide +kernel)⟩

end Settings

end Signpost
