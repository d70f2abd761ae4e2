import Signpost.Proofs.Dispatch.MoreRules

/-!
# Tables that are edited

A table is built by edits, and one that fails changes nothing. Whatever was edited in which order, the
rules of a table are compiled under the settings that it has at the end: adding them once more, under
these settings from the start, gives the same table.
-/

namespace Signpost

/-- Rule and destination as they were declared. -/
def Route.declared (route : Route) : String × Destination := (route.rule, route.destination)

inductive Edit
  | add (rule : String) (destination : Destination)
  | setting (value : CategorySetting)
  | charset (value : String)
  | before (h : Handler Unit)

namespace Edit

def declared? : Edit → Option (String × Destination)
  | add rule destination => some (rule, destination)
  | _ => none

def setting? : Edit → Option CategorySetting
  | setting value => some value
  | _ => none

def charset? : Edit → Option String
  | charset value => some value
  | _ => none

def before? : Edit → Option (Handler Unit)
  | before h => some h
  | _ => none

end Edit

namespace RouteTable

variable {table table' : RouteTable}

/-! ## One edit -/

def edit (table : RouteTable) : Edit → Except Error RouteTable
  | .add rule destination => table.add rule destination
  | .setting value => table.withSetting value
  | .charset value => .ok (table.withCharset value)
  | .before h => .ok (table.withBefore h)

/-- Every rule is compiled for the pages and under the settings of the table. -/
def Current (table : RouteTable) : Prop :=
  ∀ route ∈ table.routes, compile table.pages table.setting route.rule = .ok route.pattern

theorem current_of_routes_eq_nil (h : table.routes = []) : table.Current := by
  intro route hroute
  rw [h] at hroute
  cases hroute

theorem add_eq_ok {rule : String} {destination : Destination} :
    table.add rule destination = .ok table' ↔
      ∃ pattern, compile table.pages table.setting rule = .ok pattern ∧
        table' = { table with routes := table.routes ++ [⟨rule, pattern, destination⟩] } := by
  rw [add, bind_eq_ok]
  refine exists_congr fun pattern => and_congr_right fun _ => ?_
  exact ⟨fun h => (Except.ok.inj h).symm, fun h => congrArg Except.ok h.symm⟩

theorem recompile_eq_ok {pages : Pages} {setting : CategorySetting} {routes routes' : List Route} :
    (routes.mapM fun route => do
        let pattern ← compile pages setting route.rule
        return { route with pattern }) = .ok routes' ↔
      routes'.map Route.declared = routes.map Route.declared ∧
        ∀ route ∈ routes', compile pages setting route.rule = .ok route.pattern := by
  induction routes generalizing routes' with
  | nil =>
    rw [List.mapM_nil]
    constructor
    · rintro ⟨⟩
      exact ⟨rfl, fun _ h => nomatch h⟩
    · rintro ⟨hdeclared, -⟩
      rw [List.map_eq_nil_iff.1 hdeclared]
      rfl
  | cons route routes ih =>
    rw [List.mapM_cons, bind_eq_ok]
    constructor
    · rintro ⟨first, hfirst, hrest⟩
      obtain ⟨pattern, hpattern, ⟨⟩⟩ := bind_eq_ok.1 hfirst
      obtain ⟨rest, hmapped, ⟨⟩⟩ := bind_eq_ok.1 hrest
      obtain ⟨hdeclared, hcompiled⟩ := ih.1 hmapped
      exact ⟨congrArg (route.declared :: ·) hdeclared, List.forall_mem_cons.2 ⟨hpattern, hcompiled⟩⟩
    · rintro ⟨hdeclared, hcompiled⟩
      obtain ⟨first, rest, rfl, hfirst, hrest⟩ := List.map_eq_cons_iff.1 hdeclared
      obtain ⟨hpattern, hmore⟩ := List.forall_mem_cons.1 hcompiled
      obtain ⟨hrule, hdestination⟩ := Prod.mk.inj hfirst
      refine ⟨first, ?_, ?_⟩
      · rw [← hrule, hpattern, ← hdestination]
        rfl
      · rw [ih.2 ⟨hrest, hmore⟩]
        rfl

theorem withSetting_eq_ok {setting : CategorySetting} :
    table.withSetting setting = .ok table' ↔
      table' = { table with routes := table'.routes, setting } ∧
        table'.routes.map Route.declared = table.routes.map Route.declared ∧ table'.Current := by
  rw [withSetting, bind_eq_ok]
  constructor
  · rintro ⟨routes, hroutes, ⟨⟩⟩
    exact ⟨rfl, recompile_eq_ok.1 hroutes⟩
  · rintro ⟨htable, hdeclared, hcurrent⟩
    refine ⟨table'.routes, recompile_eq_ok.2 ⟨hdeclared, ?_⟩, congrArg Except.ok htable.symm⟩
    rw [htable] at hcurrent
    exact hcurrent

theorem Current.edit {e : Edit} (hcurrent : table.Current) (h : table.edit e = .ok table') :
    table'.Current := by
  cases e with
  | add rule destination =>
    obtain ⟨pattern, hpattern, rfl⟩ := add_eq_ok.1 h
    intro route hroute
    rcases List.mem_append.1 hroute with hroute | hroute
    · exact hcurrent route hroute
    · rw [List.mem_singleton.1 hroute]
      exact hpattern
  | setting value => exact (withSetting_eq_ok.1 h).2.2
  | charset | before =>
    cases h
    exact hcurrent

/-! ## Many edits -/

/-- The edits that made one table of another, in their order. -/
structure Edited (table table' : RouteTable) (made : List Edit) : Prop where
  pages : table'.pages = table.pages
  routes : table'.routes.map Route.declared =
    table.routes.map Route.declared ++ made.filterMap Edit.declared?
  setting : table'.setting = (made.filterMap Edit.setting?).getLast?.getD table.setting
  charset : table'.charset? = (made.filterMap Edit.charset?).getLast?.or table.charset?
  before : table'.before = (made.filterMap Edit.before?).getLast?.or table.before

theorem Edited.refl (table : RouteTable) : Edited table table [] where
  pages := rfl
  routes := (List.append_nil _).symm
  setting := rfl
  charset := rfl
  before := rfl

theorem Edited.trans {mid : RouteTable} {made later : List Edit} (h : Edited table mid made)
    (hlater : Edited mid table' later) : Edited table table' (made ++ later) where
  pages := hlater.pages.trans h.pages
  routes := by rw [hlater.routes, h.routes, List.filterMap_append, List.append_assoc]
  setting := by
    rw [hlater.setting, h.setting, List.filterMap_append, List.getLast?_append, Option.getD_or]
  charset := by
    rw [hlater.charset, h.charset, List.filterMap_append, List.getLast?_append, Option.or_assoc]
  before := by
    rw [hlater.before, h.before, List.filterMap_append, List.getLast?_append, Option.or_assoc]

theorem edited_edit {e : Edit} (h : table.edit e = .ok table') : Edited table table' [e] := by
  cases e with
  | add rule destination =>
    obtain ⟨pattern, -, rfl⟩ := add_eq_ok.1 h
    exact ⟨rfl, List.map_append, rfl, rfl, rfl⟩
  | setting value =>
    obtain ⟨htable, hdeclared, -⟩ := withSetting_eq_ok.1 h
    rw [htable]
    exact ⟨rfl, hdeclared.trans (List.append_nil _).symm, rfl, rfl, rfl⟩
  | charset | before =>
    cases h
    exact ⟨rfl, (List.append_nil _).symm, rfl, rfl, rfl⟩

/-- The table after edits; one that fails leaves it as it is. -/
def editAll (table : RouteTable) (edits : List Edit) : RouteTable :=
  edits.foldl (fun table e => (table.edit e).toOption.getD table) table

/-- The edits that succeed. -/
def accepted (table : RouteTable) : List Edit → List Edit
  | [] => []
  | e :: edits =>
    match table.edit e with
    | .ok table' => e :: table'.accepted edits
    | .error _ => table.accepted edits

theorem edited_editAll (table : RouteTable) (edits : List Edit) :
    Edited table (table.editAll edits) (table.accepted edits) := by
  induction edits generalizing table with
  | nil => exact .refl table
  | cons e edits ih =>
    rw [accepted]
    cases hedit : table.edit e with
    | error _ =>
      rw [editAll, List.foldl_cons, hedit]
      exact ih table
    | ok table' =>
      rw [editAll, List.foldl_cons, hedit]
      exact (edited_edit hedit).trans (ih table')

theorem Current.editAll (hcurrent : table.Current) (edits : List Edit) :
    (table.editAll edits).Current := by
  induction edits generalizing table with
  | nil => exact hcurrent
  | cons e edits ih =>
    rw [RouteTable.editAll, List.foldl_cons]
    cases hedit : table.edit e with
    | error _ => exact ih hcurrent
    | ok table' => exact ih (hcurrent.edit hedit)

/-! ## Building the table anew -/

theorem addAll_declared {routes : List Route}
    (h : ∀ route ∈ routes, compile table.pages table.setting route.rule = .ok route.pattern) :
    table.addAll (routes.map Route.declared) =
      .ok { table with routes := table.routes ++ routes } := by
  induction routes generalizing table with
  | nil => simp [addAll, List.foldlM_nil, pure, Except.pure]
  | cons route routes ih =>
    obtain ⟨hroute, hroutes⟩ := List.forall_mem_cons.1 h
    have hadd : table.add route.rule route.destination =
        .ok { table with routes := table.routes ++ [route] } := add_eq_ok.2 ⟨_, hroute, rfl⟩
    have hrest := @ih { table with routes := table.routes ++ [route] } hroutes
    rw [List.append_assoc] at hrest
    exact bind_eq_ok.2 ⟨_, hadd, hrest⟩

/-- A table after any edits: its rules are those that were added, in their order, each compiled under
the settings that were made last. It is the table that has these settings first and gets the rules
then. -/
theorem editAll_current (pages : Pages) (edits : List Edit) :
    let table := (withPages pages).editAll edits
    let made := (withPages pages).accepted edits
    table.pages = pages ∧
      table.routes.map Route.declared = made.filterMap Edit.declared? ∧
      table.setting = (made.filterMap Edit.setting?).getLast?.getD {} ∧
      table.charset? = (made.filterMap Edit.charset?).getLast? ∧
      table.before = (made.filterMap Edit.before?).getLast? ∧
      (∀ route ∈ table.routes,
        compile pages table.setting route.rule = .ok route.pattern) ∧
      ({ withPages pages with charset? := table.charset?, before := table.before }.withSetting
          table.setting >>= fun fresh => fresh.addAll (made.filterMap Edit.declared?)) =
        .ok table := by
  intro table made
  have hedited : Edited (withPages pages) table made := edited_editAll _ edits
  have hcurrent : table.Current := (current_of_routes_eq_nil rfl).editAll edits
  have hroutes : table.routes.map Route.declared = made.filterMap Edit.declared? := hedited.routes
  have hpages : table.pages = pages := hedited.pages
  rw [Current, hpages] at hcurrent
  refine ⟨hpages, hroutes, hedited.setting, ?_, ?_, hcurrent, ?_⟩
  · exact hedited.charset.trans (Option.or_none ..)
  · exact hedited.before.trans (Option.or_none ..)
  · let fresh : RouteTable :=
      { withPages pages with
        charset? := table.charset?
        before := table.before
        setting := table.setting }
    have hfresh : { withPages pages with
        charset? := table.charset?, before := table.before }.withSetting table.setting = .ok fresh :=
      withSetting_eq_ok.2 ⟨rfl, rfl, current_of_routes_eq_nil rfl⟩
    have hadded : fresh.addAll (table.routes.map Route.declared) =
        .ok { fresh with routes := table.routes } := addAll_declared hcurrent
    rw [← hroutes, hfresh, ok_bind, hadded]
    exact congrArg (fun pages => Except.ok { table with pages }) hpages.symm

end RouteTable

end Signpost
