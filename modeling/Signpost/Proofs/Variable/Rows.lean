import Signpost.Proofs.Dict
import Signpost.Proofs.Text.Replacing
import Signpost.Variable

/-!
# Rows in one pass

A row is filled in column by column, each with a pass over the whole text. Read from left to right
instead, the template is a row of slots: characters to copy, and placeholders of columns. Both give
the same as long as no pass reads what a value has brought in, alone or with what stands next to it,
as a placeholder. The order of the columns matters only where that happens.
-/

namespace Signpost.Variable

variable {row : Names String} {es done pending : List (String × String)} {d e : String × String}
  {tagdata : String}

/-! ## Reading a template in one pass -/

/-- The placeholder of a column, given with its value. -/
def hole (e : String × String) : List Char := (placeholder e.1).toList

/-- A character to copy, or the placeholder of a column. -/
inductive Slot
  | copied (c : Char)
  | filled (e : String × String)
  deriving DecidableEq, Repr

/-- Passes over `skip` characters, then reads the slots from left to right. -/
def slotsFrom (es : List (String × String)) : (skip : Nat) → List Char → List Slot
  | _, [] => []
  | skip + 1, _ :: cs => slotsFrom es skip cs
  | 0, c :: cs =>
    match es.find? fun e => (hole e).isPrefixOf (c :: cs) with
    | some e => .filled e :: slotsFrom es ((hole e).length - 1) cs
    | none => .copied c :: slotsFrom es 0 cs

def slots (row : Names String) (tagdata : String) : List Slot :=
  slotsFrom row.entries 0 tagdata.toList

/-- What a slot is as long as some columns are still to be filled in. -/
def Slot.written (pending : List (String × String)) : Slot → List Char
  | copied c => [c]
  | filled e => if e ∈ pending then hole e else e.2.toList

/-- The text of some slots as long as some columns are still to be filled in. -/
def stage (pending : List (String × String)) (ss : List Slot) : List Char :=
  ss.flatMap (Slot.written pending)

/-- The template with every column of the row filled in, in one pass. -/
def fillOnce (tagdata : String) (row : Names String) : String :=
  String.ofList (stage [] (slots row tagdata))

/-! ## The passes of a row -/

/-- Fills in some columns one after the other, each in the whole text. -/
def passes (tagdata : String) (es : List (String × String)) : String :=
  es.foldl (fun text (column, value) => Text.replace (placeholder column) value text) tagdata

/-- After each pass the text is the template with the columns so far filled in, and nothing else. -/
def Simultaneous (row : Names String) (tagdata : String) (es : List (String × String)) : Prop :=
  ∀ done pending, es = done ++ pending →
    passes tagdata done = String.ofList (stage pending (slots row tagdata))

/-- At its turn the placeholder of a column stands only where the template has it, unless the value
of the column is that placeholder. -/
def Inert (row : Names String) (tagdata : String) (es : List (String × String)) : Prop :=
  ∀ done e pending, es = done ++ e :: pending → e.2 = placeholder e.1 ∨
    Text.OnlyAt (hole e) (Slot.written (e :: pending)) (· = .filled e) (slots row tagdata)

/-- The template with every column filled in holds no placeholder of the row. -/
def Clean (row : Names String) (tagdata : String) : Prop :=
  ∀ e ∈ row.entries, ¬hole e <:+: (fillOnce tagdata row).toList

/-- No name of a column has a brace. -/
def Braceless (row : Names String) : Prop :=
  ∀ column ∈ row.keys, '{' ∉ column.toList ∧ '}' ∉ column.toList

/-! ## Placeholders -/

theorem hole_eq (e : String × String) : hole e = '{' :: (e.1.toList ++ ['}']) := by
  rw [hole, placeholder, String.toList_append, String.toList_append]
  rfl

theorem hole_ne_nil (e : String × String) : hole e ≠ [] := by
  rw [hole_eq]
  exact List.cons_ne_nil _ _

theorem Braceless.notMem (h : Braceless row) (he : e ∈ row.entries) :
    '{' ∉ e.1.toList ∧ '}' ∉ e.1.toList :=
  h e.1 (List.mem_map_of_mem he)

theorem Braceless.open_notMem (h : Braceless row) (he : e ∈ row.entries) :
    '{' ∉ e.1.toList ++ ['}'] := by
  simpa using (h.notMem he).1

theorem eq_of_mem_entries (hd : d ∈ row.entries) (he : e ∈ row.entries) (h : d.1 = e.1) :
    d = e := by
  have hvalue : some d.2 = some e.2 := by
    rw [← Dict.get?_eq_some_of_mem hd, ← Dict.get?_eq_some_of_mem he, h]
  exact Prod.ext h (Option.some.inj hvalue)

theorem Braceless.eq_of_hole (h : Braceless row) (hd : d ∈ row.entries) (he : e ∈ row.entries)
    {front back : List Char} (hholes : hole d ++ front = hole e ++ back) : d = e := by
  refine eq_of_mem_entries hd he (String.toList_inj.1 ?_)
  simp only [hole_eq, List.cons_append, List.append_assoc, List.nil_append, List.cons.injEq,
    true_and] at hholes
  have hde := Text.prefix_of_notMem (h.notMem hd).2 ⟨_, hholes⟩
  have hed := Text.prefix_of_notMem (h.notMem he).2 ⟨_, hholes.symm⟩
  exact hde.eq_of_length_le hed.length_le

/-! ## What reading finds -/

theorem stage_slotsFrom (es : List (String × String)) (skip : Nat) (cs : List Char) :
    stage es (slotsFrom es skip cs) = cs.drop skip := by
  induction cs generalizing skip with
  | nil => cases skip <;> rfl
  | cons c cs ih =>
    cases skip with
    | succ skip => exact ih skip
    | zero =>
      rw [slotsFrom]
      split
      · next e hfind =>
        have hstart := List.find?_some hfind
        have hwritten : (Slot.filled e).written es = hole e :=
          if_pos (List.mem_of_find?_eq_some hfind)
        rw [stage, List.flatMap_cons, ← stage, ih, hwritten]
        exact (Text.eq_append_drop (hole_ne_nil e) hstart).symm
      · exact congrArg (c :: ·) (ih 0)

theorem stage_slots (hes : es.Perm row.entries) (tagdata : String) :
    stage es (slots row tagdata) = tagdata.toList := by
  have hwritten : Slot.written es = Slot.written row.entries := by
    funext s
    cases s with
    | copied c => rfl
    | filled e => simp only [Slot.written, hes.mem_iff]
  rw [stage, hwritten]
  exact stage_slotsFrom row.entries 0 tagdata.toList

/-! ## The passes -/

variable {s : Slot} {ss : List Slot}

theorem written_of_ne (h : s ≠ .filled e) :
    s.written (e :: pending) = s.written pending := by
  cases s with
  | copied c => rfl
  | filled d =>
    have hd : d ≠ e := fun heq => h (heq ▸ rfl)
    simp only [Slot.written, List.mem_cons, hd, false_or]

theorem replaceFrom_stage_iff (hname : '{' ∉ e.1.toList) (he : e ∉ pending) :
    Text.replaceFrom (hole e) e.2.toList 0 (stage (e :: pending) ss) = stage pending ss ↔
      e.2 = placeholder e.1 ∨
        Text.OnlyAt (hole e) (Slot.written (e :: pending)) (· = .filled e) ss := by
  have hown : ∀ s ∈ ss, s = .filled e → s.written (e :: pending) = '{' :: (e.1.toList ++ ['}']) ∧
      s.written pending = e.2.toList := by
    rintro _ - rfl
    exact ⟨(if_pos List.mem_cons_self).trans (hole_eq e), if_neg he⟩
  rw [← String.toList_inj, ← hole, hole_eq]
  exact Text.replaceFrom_flatMap_iff (by simpa using hname) hown fun s _ => written_of_ne

theorem nodup_of_perm (hes : es.Perm row.entries) : es.Nodup := by
  refine hes.nodup_iff.2 (row.ascending.imp ?_)
  rintro d _ hlt rfl
  have hself : compare d.1 d.1 = .eq := Std.ReflCmp.compare_self
  exact Ordering.noConfusion (hself.symm.trans hlt)

theorem passes_concat (tagdata : String) (done : List (String × String)) (e : String × String) :
    passes tagdata (done ++ [e]) = Text.replace (placeholder e.1) e.2 (passes tagdata done) :=
  List.foldl_append

theorem notMem_of_perm (hes : es.Perm row.entries) (hcut : es = done ++ e :: pending) :
    e ∉ pending := by
  have hnodup := (List.nodup_append.1 (hcut ▸ nodup_of_perm hes)).2.1
  exact (List.nodup_cons.1 hnodup).1

theorem simultaneous_iff (hrow : Braceless row) (hes : es.Perm row.entries) (tagdata : String) :
    Simultaneous row tagdata es ↔ Inert row tagdata es := by
  have hpass : ∀ {done e pending}, es = done ++ e :: pending →
      passes tagdata done = String.ofList (stage (e :: pending) (slots row tagdata)) →
      (passes tagdata (done ++ [e]) = String.ofList (stage pending (slots row tagdata)) ↔
        e.2 = placeholder e.1 ∨ Text.OnlyAt (hole e) (Slot.written (e :: pending)) (· = .filled e)
          (slots row tagdata)) := by
    intro done e pending hcut hdone
    have he : e ∈ row.entries := hes.mem_iff.1 (by simp [hcut])
    rw [passes_concat, hdone, Text.replace, String.toList_ofList, String.ofList_inj]
    exact replaceFrom_stage_iff (hrow.notMem he).1 (notMem_of_perm hes hcut)
  constructor
  · intro h done e pending hcut
    exact (hpass hcut (h done _ hcut)).1 (h (done ++ [e]) pending (by simp [hcut]))
  · intro h done
    induction done using List.reverseRecOn with
    | nil =>
      rintro pending rfl
      rw [stage_slots hes, String.ofList_toList]
      rfl
    | append_singleton done e ih =>
      intro pending hcut
      rw [List.append_assoc, List.singleton_append] at hcut
      exact (hpass hcut (ih _ hcut)).2 (h done e pending hcut)

theorem Simultaneous.passes (h : Simultaneous row tagdata es) :
    passes tagdata es = fillOnce tagdata row :=
  h es [] (List.append_nil es).symm

/-! ## Clean rows -/

theorem written_cases (pending : List (String × String)) (s : Slot) :
    s.written pending = s.written [] ∨ ∃ d ∈ pending, s = .filled d ∧ s.written pending = hole d := by
  cases s with
  | copied c => exact .inl rfl
  | filled d =>
    by_cases hd : d ∈ pending
    · exact .inr ⟨d, hd, rfl, if_pos hd⟩
    · exact .inl (by simp [Slot.written, hd])

theorem prefix_stage_nil {w front : List Char} (hw : '{' ∉ w) (h : w <+: front ++ stage pending ss) :
    w <+: front ++ stage [] ss :=
  Text.prefix_flatMap hw (fun s _ => (written_cases pending s).imp_right fun ⟨d, _, _, hhole⟩ =>
    ⟨_, hhole.trans (hole_eq d)⟩) h

theorem onlyAt_of_clean (hrow : Braceless row) (he : e ∈ row.entries)
    (hpending : ∀ d ∈ pending, d ∈ row.entries) (h : ¬hole e <:+: stage [] ss) :
    Text.OnlyAt (hole e) (Slot.written pending) (· = .filled e) ss := by
  -- A placeholder that is none of the template is still there when all columns are filled in.
  induction ss with
  | nil => exact .nil (hole_ne_nil e)
  | cons s ss ih =>
    rw [stage, List.flatMap_cons, ← stage] at h
    have htail := ih fun hwithin => h (hwithin.trans (List.suffix_append ..).isInfix)
    rcases written_cases pending s with hsame | ⟨d, hd, rfl, hhole⟩
    -- The slot does not change any more, so what begins in it stays.
    · refine htail.cons_of_absent fun front back hcut hback hstart => h ?_
      obtain ⟨c, back, rfl⟩ := List.exists_cons_of_ne_nil hback
      rw [hole_eq, List.cons_append, List.cons_prefix_cons] at hstart
      have hlater := prefix_stage_nil (hrow.open_notMem he) hstart.2
      rw [← hsame, hcut, List.append_assoc, hole_eq, hstart.1, List.cons_append]
      exact (List.cons_prefix_cons.2 ⟨rfl, hlater⟩).isInfix.trans (List.suffix_append ..).isInfix
    · refine htail.cons_of_opens (by rw [hole_eq]; rfl) (hhole.trans (hole_eq d))
        (hrow.open_notMem (hpending d hd)) fun back hrest => congrArg _ ?_
      rw [hhole] at hrest
      exact hrow.eq_of_hole (hpending d hd) he hrest.symm

theorem inert_of_clean (hrow : Braceless row) (hes : es.Perm row.entries)
    (h : Clean row tagdata) : Inert row tagdata es := by
  intro done e pending hcut
  have hmem : ∀ d ∈ e :: pending, d ∈ row.entries := fun d hd =>
    hes.mem_iff.1 (hcut ▸ List.mem_append_right done hd)
  have he := hmem e List.mem_cons_self
  refine .inr (onlyAt_of_clean hrow he hmem fun hwithin => h e he ?_)
  rwa [fillOnce, String.toList_ofList]

/-! ## Rendering -/

instance : Decidable (Braceless row) :=
  inferInstanceAs (Decidable (∀ column ∈ row.keys, '{' ∉ column.toList ∧ '}' ∉ column.toList))

instance : Decidable (Clean row tagdata) :=
  inferInstanceAs (Decidable (∀ e ∈ row.entries, ¬hole e <:+: (fillOnce tagdata row).toList))

/-- Rows are rendered in one pass each, unless a pass reads as a placeholder what is not one in the
template; if the outcome holds no placeholder of the row, none does in any order of the columns. -/
theorem render_rows {rows : List (Names String)} (hrows : rows ≠ [])
    (hnames : ∀ row ∈ rows, Braceless row) (tagdata : String) :
    ((∀ row ∈ rows, Inert row tagdata row.entries) →
      (Variable.rows rows).render? tagdata = some (String.join (rows.map (fillOnce tagdata)))) ∧
    ∀ row ∈ rows, ∀ es, es.Perm row.entries →
      (Inert row tagdata es → passes tagdata es = fillOnce tagdata row) ∧
      (Simultaneous row tagdata es ↔ Inert row tagdata es) ∧
      (Clean row tagdata → Inert row tagdata es) := by
  have hpasses : ∀ row ∈ rows, ∀ es, es.Perm row.entries → Inert row tagdata es →
      passes tagdata es = fillOnce tagdata row := fun row hrow es hes hinert =>
    ((simultaneous_iff (hnames row hrow) hes tagdata).2 hinert).passes
  constructor
  · intro h
    have hrender : (Variable.rows rows).render? tagdata =
        some (String.join (rows.map (fillRow tagdata))) := by
      rw [render?, if_neg (by simpa [isEmpty] using hrows)]
    have hfill : rows.map (fillRow tagdata) = rows.map (fillOnce tagdata) :=
      List.map_congr_left fun row hrow => hpasses row hrow row.entries (.refl _) (h row hrow)
    rw [hrender, hfill]
  · intro row hrow es hes
    exact ⟨hpasses row hrow es hes, simultaneous_iff (hnames row hrow) hes tagdata,
      inert_of_clean (hnames row hrow) hes⟩

def braceRows : List (Names String) :=
  [Dict.ofList [("bar", "\x7bbaz"), ("baz", "2")], Dict.ofList [("bar", "\x7d"), ("x", "")]]

theorem render_rows_braces : braceRows ≠ [] ∧ (∀ row ∈ braceRows, Braceless row) ∧
    (Variable.rows braceRows).render? "\x7bbar\x7d-\x7bbaz\x7d|" =
      some "\x7bbaz-2|\x7d-\x7bbaz\x7d|" ∧
    ∀ row ∈ braceRows, passes "\x7bbar\x7d-\x7bbaz\x7d|" row.entries.reverse =
      fillOnce "\x7bbar\x7d-\x7bbaz\x7d|" row := by
  have hrows : braceRows ≠ [] := List.cons_ne_nil _ _
  have hnames : ∀ row ∈ braceRows, Braceless row := by decide +kernel
  have hclean : ∀ row ∈ braceRows, Clean row "\x7bbar\x7d-\x7bbaz\x7d|" := by decide +kernel
  obtain ⟨hrender, horders⟩ := render_rows hrows hnames "\x7bbar\x7d-\x7bbaz\x7d|"
  refine ⟨hrows, hnames, (hrender fun row hrow => ?_).trans (by decide +kernel), fun row hrow => ?_⟩
  · exact (horders row hrow _ (.refl _)).2.2 (hclean row hrow)
  · obtain ⟨hpasses, -, hinert⟩ := horders row hrow _ (List.reverse_perm _)
    exact hpasses (hinert (hclean row hrow))

/-- A column whose value is the placeholder of another one is read twice, or not, as the order of
the columns has it. -/
theorem render_ne_fillOnce :
    ¬∀ (rows : List (Names String)) (tagdata : String), rows ≠ [] →
      (∀ row ∈ rows, Braceless row) →
      (Variable.rows rows).render? tagdata = some (String.join (rows.map (fillOnce tagdata))) := by
  intro h
  have htwice : (Variable.rows [Dict.ofList [("a", "\x7bb\x7d"), ("b", "x")]]).render? "\x7ba\x7d" =
      some "x" := by
    decide +kernel
  have honce : [Dict.ofList [("a", "\x7bb\x7d"), ("b", "x")]].map (fillOnce "\x7ba\x7d") =
      ["\x7bb\x7d"] := by
    decide +kernel
  have hequal := h [Dict.ofList [("a", "\x7bb\x7d"), ("b", "x")]] "\x7ba\x7d"
    (List.cons_ne_nil _ _) (by decide +kernel)
  rw [htwice, honce] at hequal
  exact absurd hequal (by decide +kernel)

end Signpost.Variable
