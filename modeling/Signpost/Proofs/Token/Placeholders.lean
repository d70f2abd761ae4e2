import Mathlib.Data.List.Chain
import Signpost.Proofs.Text.Replacing
import Signpost.Token.Capture

/-!
# Placeholders in one pass

Substitution goes over the text once for each token, from the largest number down. Read from left to
right instead, a text is a row of slots: characters to copy, and placeholders, each with the largest
number that is written there. Both give the same as long as no pass reads the text of a token,
alone or with what stands next to it, as a placeholder.
-/

namespace Signpost.Token

variable {ts : List Token} {k m n : Nat}

/-! ## Numerals -/

def numeral (n : Nat) : List Char := (toString n).toList

theorem numeral_eq (n : Nat) : numeral n = Nat.toDigits 10 n := by
  rw [numeral, Nat.toString_eq_ofList_toDigits, String.toList_ofList]

theorem numeral_ne_nil (n : Nat) : numeral n ≠ [] := numeral_eq n ▸ Nat.toDigits_ne_nil

theorem isDigit_of_mem_numeral {c : Char} (h : c ∈ numeral n) : c.isDigit = true :=
  Nat.isDigit_of_mem_toDigits (by decide) (by decide) (numeral_eq n ▸ h)

theorem numeral_inj (h : numeral m = numeral n) : m = n := by
  rw [numeral_eq, numeral_eq] at h
  rw [← Nat.ofDigitChars_ten_toDigits (n := m), h, Nat.ofDigitChars_ten_toDigits]

theorem numeral_of_lt (h : n < 10) : ∃ c, numeral n = [c] :=
  ⟨_, (numeral_eq n).trans (Nat.toDigits_of_lt_base h)⟩

theorem eq_numeral_of_prefix {cs : List Char} (hn : 1 ≤ n) (hcs : cs ≠ [])
    (h : cs <+: numeral n) : ∃ m, 1 ≤ m ∧ m ≤ n ∧ cs = numeral m := by
  induction n using Nat.strongRecOn with
  | ind n ih =>
    rcases Nat.lt_or_ge n 10 with hsmall | hlarge
    · obtain ⟨c, hc⟩ := numeral_of_lt hsmall
      refine ⟨n, hn, Nat.le_refl n, ?_⟩
      rw [hc] at h ⊢
      rcases List.prefix_cons_iff.1 h with hnil | ⟨rest, rfl, hrest⟩
      · exact absurd hnil hcs
      · rw [List.prefix_nil.1 hrest]
    · have hdigits : numeral n = numeral (n / 10) ++ [(n % 10).digitChar] := by
        rw [numeral_eq, numeral_eq, Nat.toDigits_of_base_le (by decide) hlarge]
      rcases List.prefix_concat_iff.1 (hdigits ▸ h) with hwhole | hpart
      · exact ⟨n, hn, Nat.le_refl n, hwhole.trans hdigits.symm⟩
      · obtain ⟨m, hm, hle, heq⟩ := ih (n / 10) (by omega) (by omega) hpart
        exact ⟨m, hm, by omega, heq⟩

theorem le_of_numeral_prefix (hn : 1 ≤ n) (h : numeral m <+: numeral n) : m ≤ n := by
  obtain ⟨i, -, hle, heq⟩ := eq_numeral_of_prefix hn (numeral_ne_nil m) h
  exact numeral_inj heq ▸ hle

theorem ten_le_of_numeral_append {cs : List Char} (hcs : cs ≠ [])
    (h : numeral k = numeral n ++ cs) : 10 ≤ k := by
  rcases Nat.lt_or_ge k 10 with hsmall | hlarge
  · obtain ⟨c, hc⟩ := numeral_of_lt hsmall
    have hlength := congrArg List.length (hc.symm.trans h)
    have hfirst := List.length_pos_iff.2 (numeral_ne_nil n)
    have hrest := List.length_pos_iff.2 hcs
    simp only [List.length_append, List.length_cons, List.length_nil] at hlength
    omega
  · exact hlarge

/-! ## Reading a text in one pass -/

/-- The tokens have the numbers from 1 on, in any order. -/
def Numbered (ts : List Token) : Prop := (ts.map index).Perm (List.range' 1 ts.length)

instance : Decidable (Numbered ts) := inferInstanceAs (Decidable (List.Perm ..))

theorem numbered_ofCaptures (p : Pattern) (captures : List (Option String)) :
    Numbered (ofCaptures p captures) := by
  have hnumber : ∀ parts : List (Option Kind × Option String),
      (number parts).map index = List.range' 1 parts.length := by
    intro parts
    calc (number parts).map index
      _ = (parts.zipIdx.map Prod.snd).map (1 + ·) := by
        rw [number, List.map_map, List.map_map]
        exact List.map_congr_left fun part _ => Nat.add_comm part.2 1
      _ = List.range' 1 parts.length := by rw [List.zipIdx_map_snd, List.map_add_range']
  rw [Numbered, ofCaptures, hnumber, number, List.length_map, List.length_zipIdx]

def textAt (ts : List Token) (n : Nat) : List Char :=
  ((ts.find? (·.index == n)).map (·.text.toList)).getD []

/-- The largest number of a token whose numeral stands at the start of a text. -/
def largest? (ts : List Token) (cs : List Char) : Option Nat :=
  ((ts.map index).filter fun n => (numeral n).isPrefixOf cs).max?

/-- A character to copy, or the placeholder of a token. -/
inductive Slot
  | copied (c : Char)
  | filled (n : Nat)
  deriving DecidableEq, Repr

/-- Passes over `skip` characters, then reads the slots from left to right. -/
def slotsFrom (ts : List Token) : (skip : Nat) → List Char → List Slot
  | _, [] => []
  | skip + 1, _ :: cs => slotsFrom ts skip cs
  | 0, c :: cs =>
    match if c = '$' then largest? ts cs else none with
    | some n => .filled n :: slotsFrom ts (numeral n).length cs
    | none => .copied c :: slotsFrom ts 0 cs

def slots (ts : List Token) (text : String) : List Slot := slotsFrom ts 0 text.toList

def Slot.fill (ts : List Token) : Slot → List Char
  | copied c => [c]
  | filled n => textAt ts n

/-- The text with every placeholder filled in, in one pass. -/
def fillOnce (ts : List Token) (text : String) : String :=
  String.ofList ((slots ts text).flatMap (Slot.fill ts))

/-! ## The passes of a substitution -/

/-- What a slot is once the placeholders above `k` are filled in. -/
def Slot.written (ts : List Token) (k : Nat) : Slot → List Char
  | copied c => [c]
  | filled n => if n ≤ k then '$' :: numeral n else textAt ts n

/-- The text of some slots once the placeholders above `k` are filled in. -/
def stage (ts : List Token) (k : Nat) (ss : List Slot) : List Char := ss.flatMap (Slot.written ts k)

/-- The placeholder `k` stands nowhere but in its own slots when its turn comes. -/
def InertAt (ts : List Token) (ss : List Slot) (k : Nat) : Prop :=
  ∀ front back, stage ts k ss = front ++ ('$' :: numeral k ++ back) →
    ∃ before after, ss = before ++ .filled k :: after ∧ stage ts k before = front

/-- No pass reads as a placeholder what is not one in the text itself. -/
def Inert (ts : List Token) (text : String) : Prop :=
  ∀ k, 1 ≤ k → k ≤ ts.length → InertAt ts (slots ts text) k

variable {ss : List Slot} {cs : List Char} {text : String}

theorem stage_cons (ts : List Token) (k : Nat) (s : Slot) (ss : List Slot) :
    stage ts k (s :: ss) = s.written ts k ++ stage ts k ss := List.flatMap_cons

/-! ### What reading finds -/

theorem Numbered.mem_index_iff (h : Numbered ts) :
    n ∈ ts.map index ↔ 1 ≤ n ∧ n ≤ ts.length := by
  rw [List.Perm.mem_iff h, List.mem_range'_1]
  omega

theorem largest?_eq_some_iff : largest? ts cs = some n ↔
    (n ∈ ts.map index ∧ numeral n <+: cs) ∧
      ∀ m ∈ ts.map index, numeral m <+: cs → m ≤ n := by
  simp only [largest?, List.max?_eq_some_iff, List.mem_filter, List.isPrefixOf_iff_prefix, and_imp]

theorem largest?_eq_none_iff :
    largest? ts cs = none ↔ ∀ m ∈ ts.map index, ¬numeral m <+: cs := by
  simp only [largest?, List.max?_eq_none_iff, List.filter_eq_nil_iff, List.isPrefixOf_iff_prefix]

/-- Slots as reading finds them: a `$` is copied only where no numeral follows, and a placeholder has
the largest number that is written there. -/
inductive Reading (ts : List Token) : List Slot → Prop
  | nil : Reading ts []
  | copied {c : Char} {ss : List Slot}
    (hc : c = '$' → largest? ts (stage ts ts.length ss) = none) (hss : Reading ts ss) :
    Reading ts (.copied c :: ss)
  | filled {n : Nat} {ss : List Slot}
    (hn : largest? ts (numeral n ++ stage ts ts.length ss) = some n) (hss : Reading ts ss) :
    Reading ts (.filled n :: ss)

theorem reading_slotsFrom (hts : Numbered ts) (skip : Nat) (cs : List Char) :
    Reading ts (slotsFrom ts skip cs) ∧
      stage ts ts.length (slotsFrom ts skip cs) = cs.drop skip := by
  induction cs generalizing skip with
  | nil => cases skip <;> exact ⟨.nil, rfl⟩
  | cons c cs ih =>
    cases skip with
    | succ skip => exact ih skip
    | zero =>
      rw [slotsFrom]
      cases hread : if c = '$' then largest? ts cs else none with
      | none =>
        obtain ⟨hss, hstage⟩ := ih 0
        refine ⟨.copied (fun hc => ?_) hss, congrArg (c :: ·) hstage⟩
        rw [if_pos hc] at hread
        exact (congrArg (largest? ts) hstage).trans hread
      | some n =>
        obtain ⟨hss, hstage⟩ := ih (numeral n).length
        obtain ⟨hc, hn⟩ : c = '$' ∧ largest? ts cs = some n := by
          split at hread
          · exact ⟨‹_›, hread⟩
          · cases hread
        obtain ⟨⟨hmem, hstart⟩, -⟩ := largest?_eq_some_iff.1 hn
        have hrest : numeral n ++ stage ts ts.length (slotsFrom ts (numeral n).length cs) = cs := by
          rw [hstage, ← List.prefix_iff_eq_append]
          exact hstart
        refine ⟨.filled (hrest.symm ▸ hn) hss, ?_⟩
        rw [stage_cons, Slot.written, if_pos (hts.mem_index_iff.1 hmem).2, List.cons_append, hrest, hc]
        rfl

theorem reading_slots (hts : Numbered ts) (text : String) :
    Reading ts (slots ts text) ∧ stage ts ts.length (slots ts text) = text.toList :=
  reading_slotsFrom hts 0 text.toList

theorem Reading.mem (h : Reading ts ss) (hn : .filled n ∈ ss) : n ∈ ts.map index := by
  induction h with
  | nil => cases hn
  | copied _ _ ih =>
    rcases List.mem_cons.1 hn with heq | hmem
    · cases heq
    · exact ih hmem
  | filled hread _ ih =>
    rcases List.mem_cons.1 hn with heq | hmem
    · cases heq
      exact (largest?_eq_some_iff.1 hread).1.1
    · exact ih hmem

theorem stage_zero (hts : Numbered ts) (h : Reading ts ss) :
    stage ts 0 ss = ss.flatMap (Slot.fill ts) := by
  refine congrArg List.flatten (List.map_congr_left fun s hs => ?_)
  cases s with
  | copied c => rfl
  | filled n =>
    have hpos := (hts.mem_index_iff.1 (h.mem hs)).1
    exact if_neg (by omega)

/-! ### One pass -/

theorem written_succ {s : Slot} (hs : s ≠ .filled (k + 1)) :
    s.written ts (k + 1) = s.written ts k := by
  cases s with
  | copied c => rfl
  | filled n =>
    have hn : n ≠ k + 1 := fun h => hs (h ▸ rfl)
    have hiff : n ≤ k + 1 ↔ n ≤ k := by omega
    simp only [Slot.written, hiff]

theorem inertAt_iff :
    InertAt ts ss k ↔ Text.OnlyAt ('$' :: numeral k) (Slot.written ts k) (· = .filled k) ss := by
  constructor
  · intro h front back hss
    obtain ⟨before, after, rfl, hbefore⟩ := h front back hss
    exact ⟨before, _, after, rfl, rfl, hbefore⟩
  · intro h front back hss
    obtain ⟨before, s, after, rfl, rfl, hbefore⟩ := h front back hss
    exact ⟨before, after, rfl, hbefore⟩

theorem replaceFrom_stage (h : InertAt ts ss (k + 1)) :
    Text.replaceFrom ('$' :: numeral (k + 1)) (textAt ts (k + 1)) 0 (stage ts (k + 1) ss) =
      stage ts k ss := by
  refine Text.replaceFrom_flatMap (List.cons_ne_nil _ _) ?_ (fun s _ => written_succ)
    (inertAt_iff.1 h)
  rintro _ - rfl
  exact ⟨if_pos (Nat.le_refl _), if_neg (by omega)⟩

/-! ### All passes -/

theorem toList_placeholder (t : Token) : t.placeholder.toList = '$' :: numeral t.index := by
  rw [placeholder, String.toList_append]
  rfl

theorem find?_index (hts : (ts.map index).Nodup) {t : Token} (ht : t ∈ ts) :
    ts.find? (·.index == t.index) = some t := by
  induction ts with
  | nil => cases ht
  | cons u ts ih =>
    obtain ⟨hu, hts⟩ := List.nodup_cons.1 hts
    rcases List.mem_cons.1 ht with rfl | ht
    · exact List.find?_cons_of_pos (beq_self_eq_true _)
    · have hne : u.index ≠ t.index := fun heq => hu (heq ▸ List.mem_map_of_mem ht)
      rw [List.find?_cons_of_neg (by simpa using hne)]
      exact ih hts ht

theorem textAt_index (hts : Numbered ts) {t : Token} (ht : t ∈ ts) :
    textAt ts t.index = t.text.toList := by
  have hnodup : (ts.map index).Nodup := (List.Perm.nodup_iff hts).2 List.nodup_range'
  rw [textAt, find?_index hnodup ht]
  rfl

theorem foldl_replace (hts : Numbered ts) {ordered : List Token} (hmem : ∀ t ∈ ordered, t ∈ ts)
    (hindices : ordered.map index = (List.range' 1 k).reverse)
    (h : ∀ i, 1 ≤ i → i ≤ k → InertAt ts ss i) :
    ordered.foldl (fun text t => Text.replace t.placeholder t.text text)
      (String.ofList (stage ts k ss)) = String.ofList (stage ts 0 ss) := by
  induction k generalizing ordered with
  | zero =>
    rw [List.map_eq_nil_iff.1 hindices]
    rfl
  | succ k ih =>
    rw [List.range'_1_concat, List.reverse_append] at hindices
    obtain ⟨t, rest, rfl, ht, hrest⟩ := List.map_eq_cons_iff.1 hindices
    have hindex : t.index = k + 1 := ht.trans (Nat.add_comm 1 k)
    have hpass : Text.replace t.placeholder t.text (String.ofList (stage ts (k + 1) ss)) =
        String.ofList (stage ts k ss) := by
      rw [Text.replace, toList_placeholder, ← textAt_index hts (hmem t List.mem_cons_self), hindex,
        String.toList_ofList, replaceFrom_stage (h (k + 1) (by omega) (Nat.le_refl _))]
    rw [List.foldl_cons, hpass]
    exact ih (fun t ht => hmem t (List.mem_cons_of_mem _ ht)) hrest
      fun i hi hik => h i hi (by omega)

theorem map_index_mergeSort (hts : Numbered ts) :
    (ts.mergeSort fun a b => decide (b.index ≤ a.index)).map index =
      (List.range' 1 ts.length).reverse := by
  have hsorted : ((ts.mergeSort fun a b => decide (b.index ≤ a.index)).map index).Pairwise
      (fun a b => b ≤ a) := by
    have h : (ts.mergeSort fun a b => decide (b.index ≤ a.index)).Pairwise
        (fun a b => decide (b.index ≤ a.index) = true) :=
      List.pairwise_mergeSort (by simp; omega) (by simp; omega) ts
    simpa [List.pairwise_map] using h
  have hrange : (List.range' 1 ts.length).reverse.Pairwise (fun a b => b ≤ a) :=
    List.pairwise_reverse.2 ((List.pairwise_lt_range' 1).imp Nat.le_of_lt)
  have hperm := ((List.mergeSort_perm ts fun a b => decide (b.index ≤ a.index)).map index).trans
    (hts.trans (List.reverse_perm _).symm)
  exact hperm.eq_of_pairwise (fun a b _ _ hab hba => Nat.le_antisymm hba hab) hsorted hrange

theorem substitute_of_descending (h : ts.Pairwise fun a b => b.index ≤ a.index) (text : String) :
    substitute ts text = ts.foldl (fun text t => Text.replace t.placeholder t.text text) text := by
  rw [substitute, List.mergeSort_of_pairwise (by simpa using h)]

theorem substitute_of_inert (hts : Numbered ts) (h : Inert ts text) :
    substitute ts text = fillOnce ts text := by
  obtain ⟨hreading, hstage⟩ := reading_slots hts text
  have hpasses := foldl_replace hts
    (fun t ht => (List.mergeSort_perm ts _).mem_iff.1 ht) (map_index_mergeSort hts) h
  rw [hstage, String.ofList_toList] at hpasses
  rw [substitute, hpasses, stage_zero hts hreading, fillOnce]

/-! ## Texts that are not emptied -/

theorem substitute_invariant {P : String → Prop} (h : P text)
    (hpass : ∀ t ∈ ts, ∀ text, P text → P (Text.replace t.placeholder t.text text)) :
    P (substitute ts text) :=
  List.foldlRecOn _ _ h fun text htext t ht =>
    hpass t ((List.mergeSort_perm ts _).mem_iff.1 ht) text htext

/-- Whether a text is not emptied by substitution: no token is blank, or the text holds something
that cannot be part of a placeholder. -/
def Lasts (ts : List Token) (text : String) : Prop :=
  (text ≠ "" ∧ ∀ t ∈ ts, t.text ≠ "") ∨ ∃ c ∈ text.toList, c ≠ '$' ∧ c.isDigit = false

theorem substitute_ne_empty (h : Lasts ts text) : substitute ts text ≠ "" := by
  rcases h with ⟨htext, hts⟩ | ⟨c, hmem, hdollar, hdigit⟩
  · refine substitute_invariant (P := (· ≠ "")) htext fun t ht text htext hempty => ?_
    have hnil := congrArg String.toList hempty
    rw [Text.replace, String.toList_ofList] at hnil
    exact Text.replaceFrom_ne_nil (by simpa using hts t ht) (by simpa using htext) hnil
  · have hkept : c ∈ (substitute ts text).toList := by
      refine substitute_invariant (P := fun text => c ∈ text.toList) hmem fun t _ text hmem => ?_
      rw [Text.replace, String.toList_ofList, toList_placeholder]
      refine Text.mem_replaceFrom (fun hc => ?_) 0 hmem
      rcases List.mem_cons.1 hc with hc | hc
      · exact hdollar hc
      · exact Bool.noConfusion (hdigit.symm.trans (isDigit_of_mem_numeral hc))
    intro hempty
    rw [hempty] at hkept
    cases hkept

/-- The text is made of the placeholders of blank tokens. -/
def Blank (ts : List Token) (text : String) : Prop := ∀ s ∈ slots ts text, s.fill ts = []

theorem substitute_eq_empty_iff (hts : Numbered ts) (h : Inert ts text) :
    substitute ts text = "" ↔ Blank ts text := by
  rw [substitute_of_inert hts h, fillOnce, ← String.toList_inj, String.toList_ofList]
  exact List.flatMap_eq_nil_iff

/-! ## Texts that stay apart -/

/-- Whether the text of a token begins with something that is no digit. -/
def opensPlain (ts : List Token) (n : Nat) : Bool := (textAt ts n).head?.any (!·.isDigit)

/-- Whether what is filled in for a slot makes no numeral with the slot before it. Two numerals in a
row make a longer one only where there are ten tokens. -/
def Slot.apart (ts : List Token) : Slot → Slot → Bool
  | copied c, filled n => c != '$' || opensPlain ts n
  | filled _, filled n => ts.length < 10 || opensPlain ts n
  | _, copied _ => true

theorem exists_copied_of_digit {d : Char} {ds : List Char} (hd : d.isDigit = true)
    (hstart : d :: ds <+: stage ts k ss)
    (hopens : ∀ n, ss.head? = some (.filled n) → opensPlain ts n = true) :
    ∃ rest, ss = .copied d :: rest := by
  -- The digit stands in the text itself, unless a token opens with it.
  cases ss with
  | nil => cases List.prefix_nil.1 hstart
  | cons s rest =>
    rw [stage_cons] at hstart
    cases s with
    | copied c =>
      obtain ⟨rfl, -⟩ := List.cons_prefix_cons.1 hstart
      exact ⟨rest, rfl⟩
    | filled n =>
      have hplain := hopens n rfl
      rw [Slot.written] at hstart
      split at hstart
      · obtain ⟨rfl, -⟩ := List.cons_prefix_cons.1 hstart
        cases hd
      · unfold opensPlain at hplain
        cases htext : textAt ts n with
        | nil => simp [htext] at hplain
        | cons c cs =>
          rw [htext, List.cons_append] at hstart
          obtain ⟨rfl, -⟩ := List.cons_prefix_cons.1 hstart
          simp [htext, hd] at hplain

theorem InertAt.cons {s : Slot} (htail : InertAt ts ss k)
    (hhere : ∀ front stretch back, s.written ts k = front ++ '$' :: stretch →
      numeral k ++ back = stretch ++ stage ts k ss → s = .filled k ∧ front = []) :
    InertAt ts (s :: ss) k := by
  refine inertAt_iff.2 ((inertAt_iff.1 htail).cons fun front stretch back hs hstretch hrest => ?_)
  obtain ⟨c, stretch, rfl⟩ := List.exists_cons_of_ne_nil hstretch
  obtain ⟨rfl, hnumeral⟩ := List.cons.inj hrest
  exact hhere front stretch back hs hnumeral

theorem not_prefix_of_copied (hts : Numbered ts) (hk : 1 ≤ k) (hlast : k ≤ ts.length)
    (hread : largest? ts (stage ts ts.length ss) = none)
    (hopens : ∀ n, ss.head? = some (.filled n) → opensPlain ts n = true) :
    ¬numeral k <+: stage ts k ss := by
  intro hstart
  obtain ⟨d, ds, hnumeral⟩ := List.exists_cons_of_ne_nil (numeral_ne_nil k)
  have hd : d.isDigit = true := isDigit_of_mem_numeral (hnumeral ▸ List.mem_cons_self)
  obtain ⟨rest, rfl⟩ := exists_copied_of_digit hd (hnumeral ▸ hstart) hopens
  obtain ⟨m, hm, hmk, heq⟩ := eq_numeral_of_prefix hk (List.cons_ne_nil d [])
    (hnumeral ▸ List.cons_prefix_cons.2 ⟨rfl, List.nil_prefix⟩)
  refine largest?_eq_none_iff.1 hread m (hts.mem_index_iff.2 ⟨hm, by omega⟩) ?_
  rw [← heq, stage_cons]
  exact List.prefix_append ..

theorem eq_of_filled (hts : Numbered ts) (hk : 1 ≤ k) (hlast : k ≤ ts.length) (hnk : n ≤ k)
    {back : List Char} (hread : largest? ts (numeral n ++ stage ts ts.length ss) = some n)
    (hopens : ∀ i, ss.head? = some (.filled i) → 10 ≤ ts.length → opensPlain ts i = true)
    (hstage : numeral k ++ back = numeral n ++ stage ts k ss) : n = k := by
  obtain ⟨⟨hn, -⟩, hlargest⟩ := largest?_eq_some_iff.1 hread
  have hpos := (hts.mem_index_iff.1 hn).1
  rcases List.append_eq_append_iff.1 hstage with ⟨extra, hlonger, -⟩ | ⟨extra, hlonger, hrest⟩
  · have hle := le_of_numeral_prefix hpos ⟨extra, hlonger.symm⟩
    omega
  · cases extra with
    | nil => exact numeral_inj (hlonger.trans (List.append_nil _)).symm
    | cons d ds =>
      have hd : d.isDigit = true := isDigit_of_mem_numeral (n := k) (by simp [hlonger])
      have hten := ten_le_of_numeral_append (List.cons_ne_nil d ds) hlonger
      -- The next digit stands in the text itself, so reading would have taken the longer numeral.
      obtain ⟨rest, rfl⟩ := exists_copied_of_digit hd ⟨back, hrest.symm⟩
        fun i hi => hopens i hi (by omega)
      have hlonger' : numeral n ++ [d] <+: numeral k :=
        ⟨ds, by rw [hlonger, List.append_assoc]; rfl⟩
      obtain ⟨m, hm, hmk, heq⟩ := eq_numeral_of_prefix hk (by simp) hlonger'
      have hmn : m ≤ n := by
        refine hlargest m (hts.mem_index_iff.2 ⟨hm, by omega⟩) ⟨stage ts ts.length rest, ?_⟩
        rw [← heq, List.append_assoc]
        rfl
      have hnm : n ≤ m := le_of_numeral_prefix hm ⟨[d], heq⟩
      have hsame : m = n := Nat.le_antisymm hmn hnm
      rw [hsame] at heq
      exact absurd heq (by simp)

theorem inertAt_of_apart (hts : Numbered ts) (hdollar : ∀ t ∈ ts, '$' ∉ t.text.toList)
    (hss : Reading ts ss) (hapart : ss.IsChain fun s s' => s.apart ts s' = true) (hk : 1 ≤ k)
    (hlast : k ≤ ts.length) : InertAt ts ss k := by
  induction hss with
  | nil =>
    intro front back hstage
    exact absurd hstage.symm (by simp [stage])
  | @copied c ss hread hss ih =>
    refine (ih hapart.tail).cons fun front stretch back hs hrest => ?_
    rcases List.cons_eq_append_iff.1 hs with ⟨-, hs⟩ | ⟨front, -, hs⟩
    · obtain ⟨rfl, rfl⟩ := List.cons.inj hs
      refine absurd ⟨back, hrest⟩ (not_prefix_of_copied hts hk hlast (hread rfl) fun n hn => ?_)
      obtain ⟨rest, rfl⟩ := List.head?_eq_some_iff.1 hn
      simpa [Slot.apart] using (List.isChain_cons_cons.1 hapart).1
    · exact absurd hs (by simp)
  | @filled n ss hread hss ih =>
    refine (ih hapart.tail).cons fun front stretch back hs hrest => ?_
    rw [Slot.written] at hs
    split at hs
    -- The slot is still written out, so the `$` is its own.
    · next hnk =>
      rcases List.cons_eq_append_iff.1 hs with ⟨rfl, hs⟩ | ⟨front, -, hs⟩
      · obtain ⟨-, rfl⟩ := List.cons.inj hs
        refine ⟨congrArg _ (eq_of_filled hts hk hlast hnk hread (fun i hi hten => ?_) hrest), rfl⟩
        obtain ⟨rest, rfl⟩ := List.head?_eq_some_iff.1 hi
        have hhead := (List.isChain_cons_cons.1 hapart).1
        simpa [Slot.apart, Nat.not_lt.2 hten] using hhead
      · have hdigit : '$'.isDigit = true := isDigit_of_mem_numeral (n := n) (by simp [hs])
        cases hdigit
    · obtain ⟨t, ht, rfl⟩ := List.mem_map.1 (largest?_eq_some_iff.1 hread).1.1
      rw [textAt_index hts ht] at hs
      exact absurd (by simp [hs]) (hdollar t ht)

/-- Substitution is the single pass wherever no text of a token is read as a placeholder. That is so
if no text holds a `$`, and a placeholder that follows a bare `$`, or another placeholder where there
are ten tokens, is filled in with a text that opens with something else than a digit. -/
theorem substitute_eq_fillOnce (hts : Numbered ts) (text : String) :
    (Inert ts text → substitute ts text = fillOnce ts text) ∧
      ((∀ t ∈ ts, '$' ∉ t.text.toList) →
        (slots ts text).IsChain (fun s s' => s.apart ts s' = true) → Inert ts text) :=
  ⟨substitute_of_inert hts, fun hdollar hapart _ hk hlast =>
    inertAt_of_apart hts hdollar (reading_slots hts text).1 hapart hk hlast⟩

def pageTokens : List Token := [.new 2 (some "2024") (some .num), .new 1 (some "news") none]

theorem substitute_eq_fillOnce_page :
    Numbered pageTokens ∧ substitute pageTokens "$1/$2-$3" = "news/2024-$3" := by
  have hts : Numbered pageTokens := by decide
  have hdollar : ∀ t ∈ pageTokens, '$' ∉ t.text.toList := by decide
  have hapart : (slots pageTokens "$1/$2-$3").IsChain
      fun s s' => s.apart pageTokens s' = true := by
    decide +kernel
  obtain ⟨hpass, hinert⟩ := substitute_eq_fillOnce hts "$1/$2-$3"
  exact ⟨hts, (hpass (hinert hdollar hapart)).trans (by decide +kernel)⟩

/-- A token whose text is the placeholder of another one is read twice. -/
theorem substitute_ne_fillOnce :
    ¬∀ (ts : List Token) (text : String), Numbered ts → substitute ts text = fillOnce ts text := by
  intro h
  have htwice : substitute [.new 2 (some "$1") none, .new 1 (some "x") none] "$2" = "x" := by
    rw [substitute_of_descending (by decide)]
    decide +kernel
  have honce : fillOnce [.new 2 (some "$1") none, .new 1 (some "x") none] "$2" = "$1" := by
    decide +kernel
  have hequal := h [.new 2 (some "$1") none, .new 1 (some "x") none] "$2" (by decide)
  rw [htwice, honce] at hequal
  exact absurd hequal (by decide)

end Signpost.Token
