import Signpost.Text

/-!
# Replacing in a text of slots

A text is put together from slots, some of which hold what is to be replaced. One pass over it puts
the new text in just these slots, as long as what is to be replaced stands nowhere else: neither
within another slot nor across the end of one.
-/

namespace Signpost.Text

variable {old new cs rest : List Char}

theorem replaceFrom_drop (old new : List Char) (skip : Nat) (cs : List Char) :
    replaceFrom old new skip cs = replaceFrom old new 0 (cs.drop skip) := by
  induction cs generalizing skip with
  | nil => cases skip <;> rfl
  | cons c cs ih =>
    cases skip with
    | zero => rfl
    | succ skip => exact ih skip

theorem replaceFrom_self (hold : old ≠ []) :
    replaceFrom old new 0 (old ++ rest) = new ++ replaceFrom old new 0 rest := by
  obtain ⟨c, cs, rfl⟩ := List.exists_cons_of_ne_nil hold
  have hstart : (c :: cs).isPrefixOf (c :: (cs ++ rest)) = true :=
    List.isPrefixOf_iff_prefix.2 ⟨rest, rfl⟩
  rw [List.cons_append, replaceFrom, if_pos hstart, replaceFrom_drop]
  simp

theorem eq_append_drop {c : Char} (hold : old ≠ []) (hstart : old.isPrefixOf (c :: cs) = true) :
    c :: cs = old ++ cs.drop (old.length - 1) := by
  obtain ⟨first, old, rfl⟩ := List.exists_cons_of_ne_nil hold
  obtain ⟨rest, hrest⟩ := List.isPrefixOf_iff_prefix.1 hstart
  rw [← hrest]
  obtain ⟨-, rfl⟩ := List.cons.inj hrest
  simp

theorem mem_replaceFrom {c first : Char} (hold : c ∉ first :: old) (skip : Nat)
    (hc : c ∈ cs.drop skip) : c ∈ replaceFrom (first :: old) new skip cs := by
  induction cs generalizing skip with
  | nil => simp at hc
  | cons x cs ih =>
    cases skip with
    | succ skip => exact ih skip hc
    | zero =>
      rw [replaceFrom]
      split
      · next hstart =>
        obtain ⟨rest, hrest⟩ := List.isPrefixOf_iff_prefix.1 hstart
        have hmem : c ∈ rest := by
          rw [List.drop_zero, ← hrest] at hc
          exact (List.mem_append.1 hc).resolve_left hold
        obtain ⟨-, rfl⟩ := List.cons.inj hrest
        exact List.mem_append_right _ (ih old.length (by simpa using hmem))
      · rcases List.mem_cons.1 hc with rfl | hc
        · exact List.mem_cons_self
        · exact List.mem_cons_of_mem _ (ih 0 hc)

theorem replaceFrom_ne_nil (hnew : new ≠ []) (hcs : cs ≠ []) : replaceFrom old new 0 cs ≠ [] := by
  obtain ⟨c, cs, rfl⟩ := List.exists_cons_of_ne_nil hcs
  rw [replaceFrom]
  split
  · exact List.append_ne_nil_of_left_ne_nil hnew _
  · exact List.cons_ne_nil _ _

/-- Nothing to replace begins within a stretch of a text. -/
def Absent (old cs rest : List Char) : Prop :=
  ∀ front back, cs = front ++ back → back ≠ [] → ¬old <+: back ++ rest

theorem absent_nil (old rest : List Char) : Absent old [] rest := fun _ _ hcut hback =>
  absurd (List.append_eq_nil_iff.1 hcut.symm).2 hback

theorem absent_cons {c : Char} :
    Absent old (c :: cs) rest ↔ ¬old <+: c :: (cs ++ rest) ∧ Absent old cs rest := by
  constructor
  · intro h
    exact ⟨h [] (c :: cs) rfl (List.cons_ne_nil c cs),
      fun front back hcs => h (c :: front) back (hcs ▸ rfl)⟩
  · rintro ⟨hhere, hlater⟩ front back hcs hback
    rcases List.cons_eq_append_iff.1 hcs with ⟨-, rfl⟩ | ⟨front, -, hcs⟩
    · exact hhere
    · exact hlater front back hcs hback

theorem replaceFrom_append (h : Absent old cs rest) :
    replaceFrom old new 0 (cs ++ rest) = cs ++ replaceFrom old new 0 rest := by
  induction cs with
  | nil => rfl
  | cons c cs ih =>
    obtain ⟨hhere, hlater⟩ := absent_cons.1 h
    rw [List.cons_append, replaceFrom, if_neg (by rwa [List.isPrefixOf_iff_prefix]), ih hlater]
    rfl

/-! ## Slots -/

/-- In the text of the slots `old` stands nowhere but at the slots of its own. -/
def OnlyAt {α : Type} (old : List Char) (now : α → List Char) (own : α → Prop) (ss : List α) :
    Prop :=
  ∀ front back, ss.flatMap now = front ++ (old ++ back) →
    ∃ before s after, ss = before ++ s :: after ∧ own s ∧ before.flatMap now = front

variable {α : Type} {now next : α → List Char} {own : α → Prop} {s : α} {ss : List α}

theorem OnlyAt.tail (h : OnlyAt old now own (s :: ss)) (hown : own s → now s ≠ []) :
    OnlyAt old now own ss := by
  intro front back hss
  obtain ⟨before, s', after, heq, hs', hbefore⟩ := h (now s ++ front) back (by
    rw [List.flatMap_cons, hss, List.append_assoc])
  cases before with
  | nil =>
    obtain ⟨rfl, -⟩ := List.cons.inj heq
    exact absurd (List.append_eq_nil_iff.1 hbefore.symm).1 (hown hs')
  | cons s'' before =>
    obtain ⟨rfl, rfl⟩ := List.cons.inj heq
    rw [List.flatMap_cons] at hbefore
    exact ⟨before, s', after, rfl, hs', List.append_cancel_left hbefore⟩

theorem OnlyAt.absent (h : OnlyAt old now own (s :: ss)) (hs : ¬own s) :
    Absent old (now s) (ss.flatMap now) := by
  rintro front back hcut hback ⟨rest, hrest⟩
  obtain ⟨before, s', after, heq, hs', hbefore⟩ := h front rest (by
    rw [List.flatMap_cons, hcut, List.append_assoc, hrest])
  cases before with
  | nil => exact hs ((List.cons.inj heq).1 ▸ hs')
  | cons s'' before =>
    obtain ⟨rfl, -⟩ := List.cons.inj heq
    rw [List.flatMap_cons, hcut, List.append_assoc] at hbefore
    have hlength := congrArg List.length hbefore
    have hpos := List.length_pos_iff.2 hback
    simp only [List.length_append] at hlength
    omega

theorem OnlyAt.nil (hold : old ≠ []) : OnlyAt old now own [] := by
  intro front back hstage
  exact absurd (List.append_eq_nil_iff.1 (List.append_eq_nil_iff.1 hstage.symm).2).1 hold

theorem OnlyAt.cons (htail : OnlyAt old now own ss)
    (hhere : ∀ front stretch back, now s = front ++ stretch → stretch ≠ [] →
      old ++ back = stretch ++ ss.flatMap now → own s ∧ front = []) :
    OnlyAt old now own (s :: ss) := by
  have hlater : ∀ front back, ss.flatMap now = front ++ (old ++ back) →
      ∃ before s' after, s :: ss = before ++ s' :: after ∧ own s' ∧
        before.flatMap now = now s ++ front := by
    intro front back hstage
    obtain ⟨before, s', after, rfl, hs', rfl⟩ := htail front back hstage
    exact ⟨s :: before, s', after, rfl, hs', List.flatMap_cons⟩
  intro front back hstage
  rw [List.flatMap_cons] at hstage
  -- What is to be replaced begins behind the slot, or within it.
  rcases List.append_eq_append_iff.1 hstage with ⟨between, rfl, hss⟩ | ⟨stretch, hs, hrest⟩
  · exact hlater between back hss
  · by_cases hstretch : stretch = []
    · obtain ⟨before, s', after, heq, hs', hbefore⟩ := hlater [] back (by
        rw [hrest, hstretch, List.nil_append, List.nil_append])
      rw [hs, hstretch, List.append_nil, List.append_nil] at hbefore
      exact ⟨before, s', after, heq, hs', hbefore⟩
    · obtain ⟨hown, rfl⟩ := hhere front stretch back hs hstretch hrest
      exact ⟨[], s, ss, rfl, hown, rfl⟩

theorem OnlyAt.cons_of_absent (htail : OnlyAt old now own ss)
    (h : Absent old (now s) (ss.flatMap now)) : OnlyAt old now own (s :: ss) :=
  htail.cons fun front stretch back hs hstretch hrest =>
    absurd ⟨back, hrest⟩ (h front stretch hs hstretch)

theorem OnlyAt.cons_of_opens {first : Char} {w : List Char} (htail : OnlyAt old now own ss)
    (hold : old.head? = some first) (hs : now s = first :: w) (hw : first ∉ w)
    (hstart : ∀ back, old ++ back = now s ++ ss.flatMap now → own s) :
    OnlyAt old now own (s :: ss) := by
  refine htail.cons fun front stretch back hcut hstretch hrest => ?_
  obtain ⟨c, stretch, rfl⟩ := List.exists_cons_of_ne_nil hstretch
  obtain ⟨old, rfl⟩ := List.head?_eq_some_iff.1 hold
  obtain ⟨rfl, -⟩ := List.cons.inj hrest
  rcases List.cons_eq_append_iff.1 (hs.symm.trans hcut) with ⟨rfl, -⟩ | ⟨front, -, hlater⟩
  · rw [List.nil_append] at hcut
    exact ⟨hstart back (hcut ▸ hrest), rfl⟩
  · exact absurd (by simp [hlater]) hw

theorem replaceFrom_flatMap (hold : old ≠ []) (hown : ∀ s ∈ ss, own s → now s = old ∧ next s = new)
    (hother : ∀ s ∈ ss, ¬own s → now s = next s) (h : OnlyAt old now own ss) :
    replaceFrom old new 0 (ss.flatMap now) = ss.flatMap next := by
  induction ss with
  | nil => rfl
  | cons s ss ih =>
    have htail : OnlyAt old now own ss :=
      h.tail fun hs => (hown s List.mem_cons_self hs).1 ▸ hold
    rw [List.flatMap_cons, List.flatMap_cons,
      ← ih (fun s hs => hown s (List.mem_cons_of_mem _ hs))
        (fun s hs => hother s (List.mem_cons_of_mem _ hs)) htail]
    by_cases hs : own s
    · obtain ⟨hnow, hnext⟩ := hown s List.mem_cons_self hs
      rw [hnow, hnext]
      exact replaceFrom_self hold
    · rw [← hother s List.mem_cons_self hs]
      exact replaceFrom_append (h.absent hs)

/-! ## Passes that go astray -/

theorem replaceFrom_same (hold : old ≠ []) (skip : Nat) (cs : List Char) :
    replaceFrom old old skip cs = cs.drop skip := by
  induction cs generalizing skip with
  | nil => cases skip <;> rfl
  | cons c cs ih =>
    cases skip with
    | succ skip => exact ih skip
    | zero =>
      rw [replaceFrom]
      split
      · next hstart => exact (ih _).symm ▸ (eq_append_drop hold hstart).symm
      · exact congrArg (c :: ·) (ih 0)

/-- The first text is the second one with `new` in place of `old` at `n` places. -/
inductive Filled (old new : List Char) : Nat → List Char → List Char → Prop
  | nil : Filled old new 0 [] []
  | same {n : Nat} {cs ds : List Char} (w : List Char) (h : Filled old new n cs ds) :
    Filled old new n (w ++ cs) (w ++ ds)
  | filled {n : Nat} {cs ds : List Char} (h : Filled old new n cs ds) :
    Filled old new (n + 1) (new ++ cs) (old ++ ds)

variable {ds : List Char} {n : Nat}

theorem Filled.length (h : Filled old new n cs ds) :
    cs.length + n * old.length = ds.length + n * new.length := by
  induction h with
  | nil => simp
  | same w _ ih => simp only [List.length_append]; omega
  | filled _ ih => simp only [List.length_append, Nat.succ_mul]; omega

theorem Filled.eq_zero_of_length (hlength : new.length = old.length) (hne : new ≠ old)
    (h : Filled old new n cs ds) (heq : cs = ds) : n = 0 := by
  induction h with
  | nil => rfl
  | same w _ ih => exact ih (List.append_cancel_left heq)
  | filled _ _ => exact absurd (List.append_inj heq hlength).1 hne

theorem Filled.eq_zero (hne : new ≠ old) (h : Filled old new n cs cs) : n = 0 := by
  rcases Nat.eq_zero_or_pos n with hzero | hpos
  · exact hzero
  · have hlength : old.length = new.length :=
      Nat.eq_of_mul_eq_mul_left hpos (Nat.add_left_cancel h.length)
    exact h.eq_zero_of_length hlength.symm hne rfl

theorem prefix_of_notMem {c : Char} {w front back : List Char} (hc : c ∉ w)
    (h : w <+: front ++ c :: back) : w <+: front := by
  have hfront : front ++ [c] <+: front ++ c :: back := ⟨back, by simp⟩
  rcases List.prefix_or_prefix_of_prefix h hfront with hw | ⟨rest, rfl⟩
  · rcases List.prefix_concat_iff.1 hw with rfl | hw
    · simp at hc
    · exact hw
  · simp at hc

theorem prefix_flatMap {c : Char} {w front : List Char} (hc : c ∉ w)
    (hss : ∀ s ∈ ss, now s = next s ∨ ∃ cs, now s = c :: cs)
    (h : w <+: front ++ ss.flatMap now) : w <+: front ++ ss.flatMap next := by
  -- What stands there reaches into no slot that opens with a character it does not have.
  induction ss generalizing front with
  | nil => exact h
  | cons s ss ih =>
    rw [List.flatMap_cons] at h ⊢
    rcases hss s List.mem_cons_self with hsame | ⟨cs, hopens⟩
    · rw [hsame, ← List.append_assoc] at h
      rw [← List.append_assoc]
      exact ih (fun s hs => hss s (List.mem_cons_of_mem _ hs)) h
    · rw [hopens, List.cons_append] at h
      exact (prefix_of_notMem hc h).trans (List.prefix_append ..)

/-- A pass over a stretch and the slots behind it, told against the text in which just the slots of
its own are filled in. -/
def Tally (old new : List Char) (now next : α → List Char) (own : α → Prop) (ss : List α)
    (skip : Nat) (cs : List Char) : Prop :=
  ∃ n, Filled old new n (replaceFrom old new skip (cs ++ ss.flatMap now))
      ((cs ++ ss.flatMap next).drop skip) ∧
    (n = 0 → Absent old cs (ss.flatMap now) ∧ OnlyAt old now own ss)

variable {first : Char}

theorem tally_append (hfirst : first ∉ old)
    (hss : ∀ s ∈ ss, now s = next s ∨ ∃ cs, now s = first :: cs)
    (hslots : ∀ skip, first ∉ (ss.flatMap now).take skip →
      Tally (first :: old) new now next own ss skip [])
    (cs : List Char) (skip : Nat) (hskip : first ∉ (cs ++ ss.flatMap now).take skip) :
    Tally (first :: old) new now next own ss skip cs := by
  induction cs generalizing skip with
  | nil => exact hslots skip hskip
  | cons c cs ih =>
    cases skip with
    | succ skip =>
      rw [List.cons_append, List.take_succ_cons, List.mem_cons, not_or] at hskip
      obtain ⟨n, hfilled, hzero⟩ := ih skip hskip.2
      refine ⟨n, hfilled, fun hn => ⟨absent_cons.2 ⟨fun hstart => ?_, (hzero hn).1⟩, (hzero hn).2⟩⟩
      exact hskip.1 (List.cons_prefix_cons.1 hstart).1
    | zero =>
      by_cases hstart : (first :: old).isPrefixOf (c :: (cs ++ ss.flatMap now)) = true
      · have hprefix := List.isPrefixOf_iff_prefix.1 hstart
        obtain ⟨rfl, hold⟩ := List.cons_prefix_cons.1 hprefix
        have hlater : (first :: old).isPrefixOf (first :: (cs ++ ss.flatMap next)) = true :=
          List.isPrefixOf_iff_prefix.2
            (List.cons_prefix_cons.2 ⟨rfl, prefix_flatMap hfirst hss hold⟩)
        have htake : first ∉ (cs ++ ss.flatMap now).take old.length := by
          rwa [← List.prefix_iff_eq_take.1 hold]
        obtain ⟨n, hfilled, -⟩ := ih _ htake
        refine ⟨n + 1, ?_, nofun⟩
        rw [List.cons_append, List.cons_append, replaceFrom, if_pos hstart, List.drop_zero,
          eq_append_drop (List.cons_ne_nil first old) hlater]
        exact hfilled.filled
      · obtain ⟨n, hfilled, hzero⟩ := ih 0 (List.take_zero ▸ List.not_mem_nil)
        refine ⟨n, ?_, fun hn => ⟨absent_cons.2 ⟨?_, (hzero hn).1⟩, (hzero hn).2⟩⟩
        · rw [List.cons_append, List.cons_append, replaceFrom, if_neg hstart]
          exact hfilled.same [c]
        · rwa [← List.isPrefixOf_iff_prefix]

theorem tally (hfirst : first ∉ old)
    (hown : ∀ s ∈ ss, own s → now s = first :: old ∧ next s = new)
    (hother : ∀ s ∈ ss, ¬own s → now s = next s) (skip : Nat)
    (hskip : first ∉ (ss.flatMap now).take skip) :
    Tally (first :: old) new now next own ss skip [] := by
  induction ss generalizing skip with
  | nil =>
    refine ⟨0, ?_, fun _ => ⟨absent_nil _ _, .nil (List.cons_ne_nil _ _)⟩⟩
    cases skip <;> exact .nil
  | cons s ss ih =>
    rw [List.forall_mem_cons] at hown hother
    have hslots := ih hown.2 hother.2
    by_cases hs : own s
    · obtain ⟨hnow, hnext⟩ := hown.1 hs
      cases skip with
      | succ skip => simp [hnow] at hskip
      | zero =>
        obtain ⟨n, hfilled, hzero⟩ := hslots 0 (List.take_zero ▸ List.not_mem_nil)
        refine ⟨n, ?_, fun hn => ⟨absent_nil _ _, ?_⟩⟩
        · rw [List.flatMap_cons, List.flatMap_cons, hnow, hnext, List.nil_append, List.nil_append,
            replaceFrom_self (List.cons_ne_nil _ _)]
          exact hfilled.same new
        · exact (hzero hn).2.cons_of_opens rfl hnow hfirst fun _ _ => hs
    · have hss : ∀ s ∈ ss, now s = next s ∨ ∃ cs, now s = first :: cs := fun s hs =>
        (Classical.em (own s)).symm.imp (hother.2 s hs) fun hs' => ⟨old, (hown.2 s hs hs').1⟩
      obtain ⟨n, hfilled, hzero⟩ := tally_append hfirst hss hslots (now s) skip hskip
      refine ⟨n, ?_, fun hn => ⟨absent_nil _ _, (hzero hn).2.cons_of_absent (hzero hn).1⟩⟩
      rwa [List.flatMap_cons, List.flatMap_cons, ← hother.1 hs, List.nil_append, List.nil_append]

/-- A pass does just its own slots exactly where what it replaces stands nowhere else, unless it
puts the same text back. -/
theorem replaceFrom_flatMap_iff (hfirst : first ∉ old)
    (hown : ∀ s ∈ ss, own s → now s = first :: old ∧ next s = new)
    (hother : ∀ s ∈ ss, ¬own s → now s = next s) :
    replaceFrom (first :: old) new 0 (ss.flatMap now) = ss.flatMap next ↔
      new = first :: old ∨ OnlyAt (first :: old) now own ss := by
  have hold : first :: old ≠ [] := List.cons_ne_nil _ _
  constructor
  · intro hpass
    obtain ⟨n, hfilled, hzero⟩ := tally hfirst hown hother 0 (by simp)
    rw [List.nil_append, List.nil_append, hpass] at hfilled
    exact (Classical.em (new = first :: old)).imp_right fun hne => (hzero (hfilled.eq_zero hne)).2
  · rintro (rfl | h)
    · rw [replaceFrom_same hold, List.drop_zero]
      refine congrArg List.flatten (List.map_congr_left fun s hs => ?_)
      by_cases hs' : own s
      · exact (hown s hs hs').1.trans (hown s hs hs').2.symm
      · exact hother s hs hs'
    · exact replaceFrom_flatMap hold hown hother h

end Signpost.Text
