import Mathlib.Data.List.Infix
import Zeroboot.Lib.Text

/-!
# Searching a Text

What a line-oriented parser may conclude from three searches: for the first
occurrence of a word, for the end of a leading run of characters, and for the
places of a separator.

Each search is given twice, as the scan that computes it and as the relation
it decides. `FirstSplit` says where the first occurrence of a word is without
saying how it was found, and `splitOnceStrChars_eq_some_iff` ties the two
together. `LeadingRun` does the same for `List.takeWhile`.

A word found in a text one has put together oneself may still start earlier
than where it was put, half in the part before it. `firstSplit_append` rules
that out for a word whose first character does not come back in it, which is
the usual case for a marker.

`Groups` is the shape of an identifier written in groups of fixed lengths. A
parser that counts characters and looks at the class of each sees only the
total length; `groups_iff_places` says what it would have to look at besides.

## Main definitions

* `FirstSplit`: A text cut around the first occurrence of a word.
* `LeadingRun`: A text cut at the end of its leading run.
* `Groups`: Groups of fixed lengths with a separator between them.
* `groupsLength`, `places`: How long those are, and where the separators stand.

## Theorems

* `FirstSplit.unique`: There is one first occurrence.
* `splitOnceStrChars_eq_some_iff`, `splitOnceStrChars_eq_none_iff`: What
  splitting at a word finds.
* `firstSplit_append`: A word is found where it was put.
* `LeadingRun.eq_takeWhile`, `leadingRun_takeWhile`: A leading run is what
  `takeWhile` takes.
* `groups_iff_places`: Groups are a length and the places of the separators.
-/

namespace Text

variable {α : Type}

/-! ## The first occurrence of a word -/

/-- A text cut around the first occurrence of a word. -/
structure FirstSplit (pat s before rest : List α) : Prop where
  eq : s = before ++ pat ++ rest
  first : ∀ b r, s = b ++ pat ++ r → before.length ≤ b.length

theorem FirstSplit.unique {pat s b b' r r' : List α} (h : FirstSplit pat s b r)
    (h' : FirstSplit pat s b' r') : b = b' ∧ r = r' := by
  have hlen : b.length = b'.length :=
    Nat.le_antisymm (h.first b' r' h'.eq) (h'.first b r h.eq)
  have heq : b ++ (pat ++ r) = b' ++ (pat ++ r') := by
    rw [← List.append_assoc, ← List.append_assoc, ← h.eq, ← h'.eq]
  rcases List.append_inj heq hlen with ⟨hb, hr⟩
  exact ⟨hb, List.append_cancel_left hr⟩

/-- A text that starts with the word has it there first. -/
theorem firstSplit_nil (pat rest : List α) : FirstSplit pat (pat ++ rest) [] rest where
  eq := rfl
  first := fun _ _ _ => Nat.zero_le _

/-- A text that does not start with the word has it where its tail has it. -/
theorem firstSplit_cons_iff {pat xs b r : List α} {x : α} (hne : ¬ pat <+: x :: xs) :
    FirstSplit pat (x :: xs) b r ↔ ∃ b', b = x :: b' ∧ FirstSplit pat xs b' r := by
  -- An occurrence with nothing before it would be a prefix.
  have hcons (b r : List α) (h : x :: xs = b ++ pat ++ r) :
      ∃ b', b = x :: b' ∧ xs = b' ++ pat ++ r := by
    cases b with
    | nil => exact absurd ⟨r, h.symm⟩ hne
    | cons y b' =>
        rcases List.cons.inj h with ⟨rfl, hxs⟩
        exact ⟨b', rfl, hxs⟩
  constructor
  · intro h
    rcases hcons b r h.eq with ⟨b', rfl, hxs⟩
    refine ⟨b', rfl, hxs, ?_⟩
    intro c q hq
    have hle := h.first (x :: c) q (by rw [hq]; rfl)
    rw [List.length_cons, List.length_cons] at hle
    exact Nat.le_of_succ_le_succ hle
  · intro ⟨b', hb, h⟩
    refine ⟨by rw [hb, h.eq]; rfl, ?_⟩
    intro c q hq
    rcases hcons c q hq with ⟨c', rfl, hxs⟩
    rw [hb, List.length_cons, List.length_cons]
    exact Nat.succ_le_succ (h.first c' q hxs)

theorem splitOnceStrChars_eq_some_iff {pat s b r : List Char} :
    splitOnceStrChars pat s = some (b, r) ↔ FirstSplit pat s b r := by
  -- One character of the text at a time, as the search goes.
  induction s generalizing b with
  | nil =>
      by_cases hpre : pat = []
      · rw [splitOnceStrChars, hpre, if_pos List.isPrefixOf_nil_left]
        constructor
        · intro h
          rcases Prod.mk.inj (Option.some.inj h) with ⟨rfl, rfl⟩
          exact firstSplit_nil [] []
        · intro h
          rcases h.unique (firstSplit_nil [] []) with ⟨rfl, rfl⟩
          rfl
      · rw [splitOnceStrChars, if_neg]
        · refine ⟨fun h => absurd h (by simp only [reduceCtorEq, not_false_eq_true]), ?_⟩
          intro h
          have hnil := h.eq.symm
          simp only [List.append_eq_nil_iff] at hnil
          exact absurd hnil.1.2 hpre
        · intro h
          exact hpre (List.prefix_nil.mp (List.isPrefixOf_iff_prefix.mp h))
  | cons x xs ih =>
      by_cases hpre : pat <+: x :: xs
      · rw [splitOnceStrChars, if_pos (List.isPrefixOf_iff_prefix.mpr hpre)]
        rcases hpre with ⟨rest, hrest⟩
        rw [← hrest, List.drop_left]
        constructor
        · intro h
          rcases Prod.mk.inj (Option.some.inj h) with ⟨rfl, rfl⟩
          exact firstSplit_nil pat rest
        · intro h
          rcases h.unique (firstSplit_nil pat rest) with ⟨rfl, rfl⟩
          rfl
      · rw [splitOnceStrChars, if_neg (mt List.isPrefixOf_iff_prefix.mp hpre),
          firstSplit_cons_iff hpre, Option.map_eq_some_iff]
        constructor
        · intro ⟨p, hp, heq⟩
          rcases Prod.mk.inj heq with ⟨rfl, rfl⟩
          exact ⟨p.1, rfl, ih.mp hp⟩
        · intro ⟨b', hb, h⟩
          exact ⟨(b', r), ih.mpr h, by rw [hb]⟩

theorem splitOnceStrChars_eq_none_iff {pat s : List Char} :
    splitOnceStrChars pat s = none ↔ ¬ pat <:+: s := by
  induction s with
  | nil =>
      rw [splitOnceStrChars, List.infix_nil, ite_eq_right_iff, List.isPrefixOf_iff_prefix,
        List.prefix_nil]
      simp only [reduceCtorEq, imp_false]
  | cons x xs ih =>
      rw [splitOnceStrChars, List.infix_cons_iff, not_or, ← ih]
      by_cases hpre : pat <+: x :: xs
      · simp only [List.isPrefixOf_iff_prefix, hpre, if_true, reduceCtorEq, not_true, false_and]
      · simp only [List.isPrefixOf_iff_prefix, hpre, if_false, Option.map_eq_none_iff,
          not_false_eq_true, true_and]

/-- A text contains a character where it lists it. -/
theorem contains_iff_mem {pat : String} {c : Char} (hpat : pat.toList = [c]) (s : String) :
    contains s pat = true ↔ c ∈ s.toList := by
  unfold contains splitOnceStr
  rw [Option.isSome_map, hpat, Option.isSome_iff_ne_none, ne_eq, splitOnceStrChars_eq_none_iff,
    List.singleton_infix_iff, not_not]

theorem splitOnceStr_eq_some {pat : String} {s b r : List Char}
    (h : FirstSplit pat.toList s b r) :
    splitOnceStr pat (String.ofList s) = some (String.ofList b, String.ofList r) := by
  rw [splitOnceStr, String.toList_ofList, splitOnceStrChars_eq_some_iff.mpr h, Option.map_some]

theorem splitOnceStr_eq_none {pat : String} {s : List Char} (h : ¬ pat.toList <:+: s) :
    splitOnceStr pat (String.ofList s) = none := by
  rw [splitOnceStr, String.toList_ofList, splitOnceStrChars_eq_none_iff.mpr h, Option.map_none]

/-- A word is either found first somewhere or not there. -/
theorem exists_firstSplit {pat s : List Char} (h : pat <:+: s) : ∃ b r, FirstSplit pat s b r := by
  rcases hsplit : splitOnceStrChars pat s with _ | ⟨b, r⟩
  · exact absurd h (splitOnceStrChars_eq_none_iff.mp hsplit)
  · exact ⟨b, r, splitOnceStrChars_eq_some_iff.mp hsplit⟩

/-- A word is found where it was put, when it is not in front of that already
    and its first character does not come back in it. -/
theorem firstSplit_append {p : α} {ps before : List α} (rest : List α) (hp : p ∉ ps)
    (hbefore : ¬ p :: ps <:+: before) :
    FirstSplit (p :: ps) (before ++ p :: ps ++ rest) before rest := by
  induction before with
  | nil => exact firstSplit_nil _ _
  | cons x xs ih =>
      rw [List.infix_cons_iff, not_or] at hbefore
      refine (firstSplit_cons_iff ?_).mpr ⟨xs, rfl, ih hbefore.2⟩
      -- Starting with the word, the text would end what precedes it inside the word,
      -- and the word that was put there would start in the middle of itself.
      intro hpre
      have hword : p :: ps <+: x :: xs ++ (p :: ps ++ rest) := by
        rw [← List.append_assoc]
        exact hpre
      rcases List.prefix_or_prefix_of_prefix hword (List.prefix_append _ _) with h | h
      · exact hbefore.1 h
      · rcases h with ⟨t, ht⟩
        rcases List.cons.inj ht with ⟨-, hps⟩
        have hrest : t <+: p :: ps ++ rest := by
          rcases hword with ⟨q, hq⟩
          rw [← ht, List.append_assoc, ht] at hq
          exact ⟨q, List.append_cancel_left hq⟩
        cases t with
        | nil => exact hbefore.1 ⟨[], by rw [← ht, List.append_nil, List.append_nil]⟩
        | cons y ys =>
            rcases hrest with ⟨q, hq⟩
            rcases List.cons.inj hq with ⟨rfl, -⟩
            exact hp (by rw [← hps]; exact List.mem_append_right _ List.mem_cons_self)

/-! ## The leading run -/

/-- A text cut at the end of its leading run of characters with a property. -/
structure LeadingRun (p : α → Bool) (s run behind : List α) : Prop where
  eq : s = run ++ behind
  all : ∀ c ∈ run, p c = true
  stops : ∀ c ∈ behind.head?, p c = false

theorem leadingRun_takeWhile (p : α → Bool) (s : List α) :
    LeadingRun p s (s.takeWhile p) (s.dropWhile p) where
  eq := List.takeWhile_append_dropWhile.symm
  all := fun _ hc => List.mem_takeWhile_imp hc
  stops := by
    intro c hc
    have hnot := List.head?_dropWhile_not p s
    rw [Option.mem_def.mp hc] at hnot
    simpa only [Bool.not_eq_true] using hnot

theorem LeadingRun.eq_takeWhile {p : α → Bool} {s run behind : List α}
    (h : LeadingRun p s run behind) : run = s.takeWhile p := by
  have htail : behind.takeWhile p = [] := by
    cases hb : behind with
    | nil => rfl
    | cons c cs =>
        have hc := h.stops c (by rw [hb]; rfl)
        rw [List.takeWhile_cons, hc, if_neg Bool.false_ne_true]
  rw [h.eq, List.takeWhile_append_of_pos h.all, htail, List.append_nil]

/-! ## Groups of fixed lengths -/

/-- Groups of fixed lengths, with a separator between each and the next. -/
inductive Groups (p : α → Bool) (sep : α) : List Nat → List α → Prop
  | last {cs : List α} (all : ∀ c ∈ cs, p c = true) : Groups p sep [cs.length] cs
  | cons {b cs : List α} {n : Nat} {ns : List Nat} (all : ∀ c ∈ b, p c = true)
      (rest : Groups p sep (n :: ns) cs) : Groups p sep (b.length :: n :: ns) (b ++ sep :: cs)

/-- How long groups and separators are together. -/
def groupsLength (n : Nat) : List Nat → Nat
  | [] => n
  | m :: ns => n + 1 + groupsLength m ns

/-- Where the separators stand. -/
def places (n : Nat) : List Nat → List Nat
  | [] => []
  | m :: ns => n :: (places m ns).map (· + (n + 1))

theorem groups_cons_iff {p : α → Bool} {sep : α} {n m : Nat} {ns : List Nat} {cs : List α} :
    Groups p sep (n :: m :: ns) cs ↔ ∃ b tail, cs = b ++ sep :: tail ∧ b.length = n ∧
      (∀ c ∈ b, p c = true) ∧ Groups p sep (m :: ns) tail := by
  constructor
  · intro h
    cases h with
    | cons all rest => exact ⟨_, _, rfl, rfl, all, rest⟩
  · intro ⟨b, tail, hcs, hb, hall, hrest⟩
    rw [hcs, ← hb]
    exact Groups.cons hall hrest

theorem groups_last_iff {p : α → Bool} {sep : α} {n : Nat} {cs : List α} :
    Groups p sep [n] cs ↔ cs.length = n ∧ ∀ c ∈ cs, p c = true := by
  constructor
  · intro h
    cases h with
    | last all => exact ⟨rfl, all⟩
  · intro ⟨hlen, hall⟩
    rw [← hlen]
    exact Groups.last hall

/-- Everything in the groups is of the class or a separator. -/
theorem Groups.mem {p : α → Bool} {sep : α} {ns : List Nat} {cs : List α}
    (h : Groups p sep ns cs) : ∀ c ∈ cs, p c = true ∨ c = sep := by
  induction h with
  | last all => exact fun c hc => Or.inl (all c hc)
  | cons all _ ih =>
      intro c hc
      rw [List.mem_append, List.mem_cons] at hc
      rcases hc with hb | rfl | hcs
      · exact Or.inl (all c hb)
      · exact Or.inr rfl
      · exact ih c hcs

/-- Characters of the class and separators are groups when there are as many
    as the groups need, and the separators stand in their places and nowhere
    else. -/
theorem groups_iff_places {p : α → Bool} {sep : α} (hsep : p sep = false) (ns : List Nat) :
    ∀ {n : Nat} {cs : List α}, (∀ c ∈ cs, p c = true ∨ c = sep) →
      (Groups p sep (n :: ns) cs ↔ cs.length = groupsLength n ns ∧
        ∀ i, cs[i]? = some sep ↔ i ∈ places n ns) := by
  -- Along the groups; what is left behind a separator is groups again, and the places
  -- in it are counted from there.
  induction ns with
  | nil =>
      intro n cs hcs
      rw [groups_last_iff, groupsLength, places]
      refine and_congr_right fun _ => ⟨?_, ?_⟩
      · intro hall i
        simp only [List.not_mem_nil, iff_false]
        intro hi
        have hp := hall sep (List.mem_of_getElem? hi)
        rw [hsep] at hp
        exact Bool.false_ne_true hp
      · intro hnone c hc
        rcases List.getElem?_of_mem hc with ⟨i, hi⟩
        refine (hcs c hc).resolve_right ?_
        intro heq
        rw [heq] at hi
        exact absurd ((hnone i).mp hi) List.not_mem_nil
  | cons m ns ih =>
      intro n cs hcs
      rw [groups_cons_iff, groupsLength, places]
      constructor
      · intro ⟨b, tail, heq, hb, hall, hrest⟩
        have htail : ∀ c ∈ tail, p c = true ∨ c = sep := hrest.mem
        rcases (ih htail).mp hrest with ⟨hlen, hplaces⟩
        refine ⟨by rw [heq, List.length_append, List.length_cons, hb, hlen]; omega, ?_⟩
        intro i
        rw [List.mem_cons, List.mem_map, heq]
        rcases Nat.lt_trichotomy i b.length with hi | hi | hi
        · -- In front of the separator everything is of the class.
          rw [List.getElem?_append_left hi]
          constructor
          · intro hget
            have hp := hall sep (List.mem_of_getElem? hget)
            rw [hsep] at hp
            exact absurd hp Bool.false_ne_true
          · rintro (rfl | ⟨j, -, rfl⟩) <;> omega
        · rw [hi, List.getElem?_append_right (Nat.le_refl _), Nat.sub_self]
          exact ⟨fun _ => Or.inl hb, fun _ => rfl⟩
        · rw [List.getElem?_append_right (Nat.le_of_lt hi)]
          rcases Nat.exists_eq_add_of_lt hi with ⟨k, hk⟩
          rw [show i - b.length = k + 1 by omega, List.getElem?_cons_succ, hplaces]
          constructor
          · intro hk'
            exact Or.inr ⟨k, hk', by omega⟩
          · rintro (h | ⟨j, hj, hij⟩)
            · omega
            · rw [show k = j by omega]
              exact hj
      · intro ⟨hlen, hplaces⟩
        have hat : cs[n]? = some sep := (hplaces n).mpr List.mem_cons_self
        have hn : n < cs.length := by omega
        have hcut : cs = cs.take n ++ sep :: cs.drop (n + 1) := by
          rw [List.getElem?_eq_getElem hn, Option.some.injEq] at hat
          rw [← hat, List.getElem_cons_drop, List.take_append_drop]
        have htail : ∀ c ∈ cs.drop (n + 1), p c = true ∨ c = sep :=
          fun c hc => hcs c (List.mem_of_mem_drop hc)
        refine ⟨cs.take n, cs.drop (n + 1), hcut, List.length_take_of_le (Nat.le_of_lt hn), ?_,
          (ih htail).mpr ⟨by rw [List.length_drop]; omega, ?_⟩⟩
        · -- A separator before the first place would be at a place of its own.
          intro c hc
          rcases List.getElem?_of_mem hc with ⟨i, hi⟩
          have hin : i < n := by
            have hlt := (List.getElem?_eq_some_iff.mp hi).1
            rw [List.length_take] at hlt
            omega
          rw [List.getElem?_take_of_lt hin] at hi
          refine (hcs c (List.mem_of_mem_take hc)).resolve_right ?_
          intro heq
          rw [heq, hplaces, List.mem_cons, List.mem_map] at hi
          rcases hi with h | ⟨j, -, hj⟩ <;> omega
        · intro i
          rw [List.getElem?_drop, hplaces, List.mem_cons, List.mem_map]
          constructor
          · rintro (h | ⟨j, hj, hij⟩)
            · omega
            · rw [show i = j by omega]
              exact hj
          · intro hi
            exact Or.inr ⟨i, hi, by omega⟩

end Text
