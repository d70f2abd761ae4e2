import Mathlib.Data.List.Basic
import Signpost.Proofs.Store.Filters

/-!
# Finding entries

A filter on entries may ask for their channel by the name `channel`, which stands for the column
with the name of the channel. The entries found are the stored ones that meet the filter, each cut
down to the columns of an answer. If a filter asks for the channel by both names, what it asks of the
column itself is not heeded.
-/

namespace Signpost

/-- The column of a stored row that a filter means by a name. -/
def storedColumn (name : String) : String := if name = "channel" then "channel_name" else name

namespace Where

variable {w w' : Where} {row : Row} {name : String} {c : Constraint}

/-! ## Meeting a filter -/

/-- Whether an entry meets every constraint of a filter. -/
def meets (w : Where) (row : Row) : Bool :=
  w.columns.entries.all fun (name, c) => (row.get? (storedColumn name)).any c.accepts

theorem meets_iff : w.meets row = true ↔
    ∀ name c, w.get? name = some c → (row.get? (storedColumn name)).any c.accepts = true :=
  w.all_iff fun name c => (row.get? (storedColumn name)).any c.accepts

theorem accepts_iff_of_stored {asks : String → Constraint → Prop}
    (h : ∀ column c, w.get? column = some c ↔ ∃ name, storedColumn name = column ∧ asks name c) :
    w.accepts row = true ↔
      ∀ name c, asks name c → (row.get? (storedColumn name)).any c.accepts = true := by
  rw [accepts_iff]
  constructor
  · intro hall name c hasks
    exact hall _ c ((h _ c).2 ⟨name, rfl, hasks⟩)
  · intro hall column c hc
    obtain ⟨name, rfl, hasks⟩ := (h column c).1 hc
    exact hall name c hasks

/-- Every constraint of the first filter is one of the second. -/
def Within (w w' : Where) : Prop := ∀ name c, w.get? name = some c → w'.get? name = some c

theorem Within.meets (h : w.Within w') (hrow : w'.meets row = true) : w.meets row = true :=
  meets_iff.2 fun name c hc => meets_iff.1 hrow name c (h name c hc)

theorem within_insert (h : w.get? name = none) (c : Constraint) : w.Within (w.insert name c) := by
  intro other d hd
  rw [get?_insert, if_neg]
  · exact hd
  · rintro rfl
    rw [h] at hd
    cases hd

theorem erase_within (w : Where) (name : String) : (w.erase name).Within w := by
  intro other d hd
  rw [get?_erase] at hd
  split at hd
  · cases hd
  · exact hd

theorem Within.erase (h : w.Within w') (name : String) :
    (w.erase name).Within (w'.erase name) := by
  intro other d hd
  rw [get?_erase] at hd ⊢
  split at hd
  · cases hd
  · next hother => rw [if_neg hother, h other d hd]

/-! ## What is heeded -/

/-- What is heeded of a filter on entries: a constraint on the channel takes the place of one on the
column with its name. -/
def heeded (w : Where) : Where := if w.contains "channel" then w.erase "channel_name" else w

theorem heeded_within (w : Where) : w.heeded.Within w := by
  rw [heeded]
  split
  · exact erase_within w "channel_name"
  · exact fun _ _ hc => hc

theorem heeded_within_insert (h : w.get? name = none) (hname : name ≠ "channel") (c : Constraint) :
    w.heeded.Within (w.insert name c).heeded := by
  have hcontains : (w.insert name c).contains "channel" = w.contains "channel" :=
    congrArg Option.isSome (get?_insert_ne (Ne.symm hname) w c)
  rw [heeded, heeded, hcontains]
  split
  · exact (within_insert h c).erase "channel_name"
  · exact within_insert h c

theorem meets_iff_heeded : w.meets row = true ↔ w.heeded.meets row = true ∧
    (w.contains "channel" = true → ∀ own, w.get? "channel_name" = some own →
      (row.get? "channel_name").any own.accepts = true) := by
  refine ⟨fun h => ⟨w.heeded_within.meets h, fun _ own hown => meets_iff.1 h _ own hown⟩, ?_⟩
  rintro ⟨hheeded, hown⟩
  rw [heeded] at hheeded
  split at hheeded
  · next hchannel =>
    refine meets_iff.2 fun name c hc => ?_
    by_cases hname : name = "channel_name"
    · subst hname
      exact hown hchannel c hc
    · exact meets_iff.1 hheeded name c ((get?_erase_ne hname w).trans hc)
  · exact hheeded

end Where

namespace MemoryStore

variable {m : MemoryStore} {filter : Where}

theorem get?_nameChannel_iff (filter : Where) (column : String) (c : Constraint) :
    (nameChannel filter).get? column = some c ↔
      ∃ name, storedColumn name = column ∧ filter.heeded.get? name = some c := by
  rw [Where.heeded, Where.contains_eq]
  cases hchannel : filter.get? "channel" with
  | none =>
    rw [nameChannel_eq_self hchannel, Option.isSome_none, if_neg Bool.false_ne_true]
    have hstored : ∀ name c, filter.get? name = some c → storedColumn name = name := by
      intro name c hc
      refine if_neg fun hname => ?_
      rw [hname, hchannel] at hc
      cases hc
    constructor
    · exact fun hc => ⟨column, hstored column c hc, hc⟩
    · rintro ⟨name, rfl, hc⟩
      rw [hstored name c hc, hc]
  | some channel =>
    rw [nameChannel, Where.take, hchannel, Option.isSome_some, if_pos rfl]
    simp only [Where.get?_insert, Where.get?_erase]
    constructor
    · intro hc
      by_cases hcolumn : column = "channel_name"
      · exact ⟨"channel", hcolumn.symm, by simpa [hcolumn, hchannel] using hc⟩
      · rw [if_neg hcolumn] at hc
        split at hc
        · cases hc
        · next hother => exact ⟨column, if_neg hother, (if_neg hcolumn).trans hc⟩
    · rintro ⟨name, rfl, hc⟩
      by_cases hname : name = "channel"
      · subst hname
        simpa [storedColumn, hchannel] using hc
      · have hstored : storedColumn name = name := if_neg hname
        rw [hstored]
        split at hc
        · cases hc
        · next hother => rw [if_neg hother, if_neg hname, hc]

theorem accepts_nameChannel (filter : Where) (row : Row) :
    (nameChannel filter).accepts row = filter.heeded.meets row := by
  rw [Bool.eq_iff_iff, Where.meets_iff]
  exact Where.accepts_iff_of_stored (get?_nameChannel_iff filter)

theorem findEntries_eq (m : MemoryStore) (filter : Where) :
    m.findEntries filter = (m.entries.filter filter.heeded.meets).map (project entryColumns) := by
  rw [findEntries, select, funext (accepts_nameChannel filter)]

/-! ## Honouring a filter -/

/-- Whether the entries found are those that meet every constraint of the filter: in their order,
and one for each row. -/
def Honours (m : MemoryStore) (filter : Where) : Prop :=
  m.toStore.entries filter = .ok ((m.entries.filter filter.meets).map (project entryColumns))

theorem honours_iff_heeded : m.Honours filter ↔
    ∀ row ∈ m.entries, filter.heeded.meets row = true → filter.meets row = true := by
  have hfound : m.toStore.entries filter = .ok (m.findEntries filter) := rfl
  rw [Honours, hfound, Except.ok.injEq, findEntries_eq]
  constructor
  · intro h row hrow hheeded
    have hlength := congrArg List.length h
    rw [List.length_map, List.length_map] at hlength
    have hsublist : (m.entries.filter filter.meets).Sublist (m.entries.filter filter.heeded.meets) :=
      List.monotone_filter_right _ fun _ => filter.heeded_within.meets
    have hsame := hsublist.eq_of_length hlength.symm
    have hmem : row ∈ m.entries.filter filter.meets :=
      hsame ▸ List.mem_filter.2 ⟨hrow, hheeded⟩
    exact (List.mem_filter.1 hmem).2
  · intro h
    congr 1
    exact List.filter_congr fun row hrow =>
      Bool.eq_iff_iff.2 ⟨h row hrow, filter.heeded_within.meets⟩

theorem findEntries_sublist {filter' : Where}
    (h : ∀ row ∈ m.entries, filter'.heeded.meets row = true → filter.heeded.meets row = true) :
    (m.findEntries filter').Sublist (m.findEntries filter) := by
  rw [findEntries_eq, findEntries_eq]
  refine List.Sublist.map _ ?_
  have hboth : m.entries.filter filter'.heeded.meets =
      (m.entries.filter filter.heeded.meets).filter filter'.heeded.meets := by
    rw [List.filter_filter]
    refine List.filter_congr fun row hrow => ?_
    cases hmeets : filter'.heeded.meets row with
    | false => rfl
    | true => rw [h row hrow hmeets, Bool.true_and]
  rw [hboth]
  exact List.filter_sublist

/-- The entries found are those that meet what is heeded of the filter. So the whole filter is
honoured, unless an entry of the channel asked for misses what the filter asks of the column with the
name of the channel; and another constraint adds no entry where the filter with it is honoured. -/
theorem honours_iff (m : MemoryStore) (filter : Where) :
    m.toStore.entries filter =
        .ok ((m.entries.filter filter.heeded.meets).map (project entryColumns)) ∧
      (m.Honours filter ↔ (filter.contains "channel" = true → ∀ own,
        filter.get? "channel_name" = some own → ∀ row ∈ m.entries,
          (filter.erase "channel_name").meets row = true →
            (row.get? "channel_name").any own.accepts = true)) ∧
      ∀ name c, filter.get? name = none →
        (name = "channel" → m.Honours (filter.insert name c)) →
          (m.findEntries (filter.insert name c)).Sublist (m.findEntries filter) := by
  refine ⟨congrArg Except.ok (m.findEntries_eq filter), ?_, fun name c hname hhonours => ?_⟩
  · rw [honours_iff_heeded]
    constructor
    · intro h hchannel own hown row hrow hmeets
      have hheeded : filter.heeded = filter.erase "channel_name" := if_pos hchannel
      exact (Where.meets_iff_heeded.1 (h row hrow (hheeded ▸ hmeets))).2 hchannel own hown
    · intro h row hrow hmeets
      refine Where.meets_iff_heeded.2 ⟨hmeets, fun hchannel own hown => ?_⟩
      have hheeded : filter.heeded = filter.erase "channel_name" := if_pos hchannel
      exact h hchannel own hown row hrow (hheeded ▸ hmeets)
  · refine findEntries_sublist fun row hrow hmeets => ?_
    by_cases hchannel : name = "channel"
    · have hwhole := honours_iff_heeded.1 (hhonours hchannel) row hrow hmeets
      exact filter.heeded_within.meets ((Where.within_insert hname c).meets hwhole)
    · exact (Where.heeded_within_insert hname hchannel c).meets hmeets

theorem honours_iff_blog :
    let m : MemoryStore :=
      { entries :=
          [.ofList [("entry_id", "7"), ("channel_name", "blog"), ("status", "open")],
           .ofList [("entry_id", "8"), ("channel_name", "talk")],
           .ofList [("entry_id", "9"), ("channel_name", "blog")]] }
    let filter : Where :=
      (Where.empty.insert "channel_name" (.among ["blog", "talk"])).insert "channel" (.is "blog")
    m.Honours filter ∧ filter.get? "status" = none ∧
      (m.findEntries (filter.insert "status" (.is "open"))).Sublist (m.findEntries filter) := by
  intro m filter
  have hown : filter.get? "channel_name" = some (.among ["blog", "talk"]) := by decide +kernel
  have hstatus : filter.get? "status" = none := by decide +kernel
  have hrows : ∀ row ∈ m.entries, (filter.erase "channel_name").meets row = true →
      (row.get? "channel_name").any (Constraint.among ["blog", "talk"]).accepts = true := by
    decide +kernel
  obtain ⟨-, hhonours, hsublist⟩ := m.honours_iff filter
  refine ⟨hhonours.2 fun _ own h => ?_, hstatus,
    hsublist "status" (.is "open") hstatus fun h => absurd h (by decide)⟩
  obtain rfl := Option.some.inj (hown.symm.trans h)
  exact hrows

/-- An entry of one channel is found although the filter asks for the name of another; without the
constraint on the channel nothing is found. -/
theorem not_honours_renamed :
    let m : MemoryStore := { entries := [.ofList [("entry_id", "7"), ("channel_name", "blog")]] }
    let named : Where := Where.empty.insert "channel_name" (.is "news")
    let filter : Where := named.insert "channel" (.is "blog")
    ¬ m.Honours filter ∧ named.get? "channel" = none ∧ m.findEntries named = [] ∧
      m.findEntries filter =
        [.ofList [("entry_id", "7"), ("title", ""), ("url_title", ""), ("channel_id", "")]] := by
  intro m named filter
  refine ⟨fun h => ?_, by decide +kernel, by decide +kernel, by decide +kernel⟩
  have hfound : m.findEntries filter = (m.entries.filter filter.meets).map (project entryColumns) :=
    Except.ok.inj h
  have hlength : (m.findEntries filter).length = 1 := by decide +kernel
  have hnone : m.entries.filter filter.meets = [] := by decide +kernel
  rw [hfound, hnone] at hlength
  cases hlength

end MemoryStore

end Signpost
