import Mathlib.Algebra.Ring.Nat
import Mathlib.Data.List.DropRight
import Mathlib.Tactic.Common

/-!
# Text Operations

The handful of string operations a line-oriented program is built from, with
the meaning Rust's `str` gives them: trimming by the Unicode `White_Space`
property, lines that drop one carriage return before the line feed, splitting
at the first or the last occurrence of a character, splitting into words, and
stripping a prefix.

Everything is computed on the list of characters. A string is only the
packaging: `ofList` and `toList` are inverse, so each fact is proved once, on
lists, where the recursion is visible, and carried over.

`lineChars_cons` is the lemma the round trips rest on. A text that is one line, a
line feed, and the rest has that line first and the lines of the rest after
it, so the lines of a rendered file are read off one at a time without ever
unfolding the recursion.

## Main definitions

* `isWhitespace`: The Unicode `White_Space` property.
* `trim`: A string without leading and trailing white space.
* `lines`: The lines of a text, each without its line ending.
* `splitOnce`, `splitOnceStr`, `rsplitOnce`: Splitting at one occurrence.
* `words`: The non-empty runs between white space.
* `IsWord`, `withBlanks`: One word, and several in front of a text.
* `firstLine`: A text up to its first line feed.
* `path`: Parts with a separator in front of each.
* `stripPrefix`: The rest of a string after a prefix.
* `parseU64`: A decimal 64-bit number.

## Theorems

* `trimChars_trimChars`: Trimming is idempotent.
* `stripCr_append_trimmed`, `stripCr_append_cons`: What a line ending leaves.
* `lineChars_cons`: The first line of a text is what precedes its first line
  feed.
* `newline_not_mem_lineChars`: No line holds a line feed.
* `trimChars_stripCr`: Trimming takes a carriage return along.
* `lineChars_last`: A text without a line feed is one line.
* `words_trim`, `words_withBlanks`: The words of a text.
* `solid_of_mem_words`: A word holds no white space.
* `splitOnceChars_append`: Splitting at a character the first half lacks.
* `rsplitOnceChars_append`: Splitting at a character the second half lacks.
* `words_of_head_lines`: The words of the first line.
* `path_inj`: A path has its parts back.
-/

namespace Text

/-- The Unicode `White_Space` property, which is what `str::trim` and
    `str::split_whitespace` go by. -/
def isWhitespace (c : Char) : Bool :=
  (0x09 ≤ c.toNat && c.toNat ≤ 0x0d) || c.toNat == 0x20 || c.toNat == 0x85 ||
    c.toNat == 0xa0 || c.toNat == 0x1680 || (0x2000 ≤ c.toNat && c.toNat ≤ 0x200a) ||
    c.toNat == 0x2028 || c.toNat == 0x2029 || c.toNat == 0x202f || c.toNat == 0x205f ||
    c.toNat == 0x3000

/-- Drop white space from both ends. -/
def trimChars (cs : List Char) : List Char :=
  (cs.dropWhile isWhitespace).rdropWhile isWhitespace

/-- `str::trim`. -/
def trim (s : String) : String :=
  String.ofList (trimChars s.toList)

/-- One carriage return before a line feed belongs to the line ending. -/
def stripCr (cs : List Char) : List Char :=
  if cs.getLast? = some '\r' then cs.dropLast else cs

/-- The lines of a text, `acc` holding the current line backwards. A last
    line without a line feed keeps its carriage return, and nothing follows a
    final line feed. -/
def linesFrom (acc : List Char) : List Char → List (List Char)
  | [] => if acc = [] then [] else [acc.reverse]
  | c :: cs => if c = '\n' then stripCr acc.reverse :: linesFrom [] cs
      else linesFrom (c :: acc) cs

/-- The lines of a list of characters. -/
def lineChars (cs : List Char) : List (List Char) :=
  linesFrom [] cs

/-- `str::lines`. -/
def lines (s : String) : List String :=
  (lineChars s.toList).map String.ofList

/-- Split at the first occurrence of a character. -/
def splitOnceChars (c : Char) : List Char → Option (List Char × List Char)
  | [] => none
  | x :: xs => if x = c then some ([], xs)
      else (splitOnceChars c xs).map (fun p => (x :: p.1, p.2))

/-- `str::split_once` with a character. -/
def splitOnce (c : Char) (s : String) : Option (String × String) :=
  (splitOnceChars c s.toList).map (fun p => (String.ofList p.1, String.ofList p.2))

/-- Split at the last occurrence of a character. -/
def rsplitOnceChars (c : Char) (cs : List Char) : Option (List Char × List Char) :=
  (splitOnceChars c cs.reverse).map (fun p => (p.2.reverse, p.1.reverse))

/-- `str::rsplit_once` with a character. -/
def rsplitOnce (c : Char) (s : String) : Option (String × String) :=
  (rsplitOnceChars c s.toList).map (fun p => (String.ofList p.1, String.ofList p.2))

/-- The rest of a list after a prefix. -/
def stripPrefixChars (p cs : List Char) : Option (List Char) :=
  if p.isPrefixOf cs then some (cs.drop p.length) else none

/-- `str::strip_prefix`. -/
def stripPrefix (p s : String) : Option String :=
  (stripPrefixChars p.toList s.toList).map String.ofList

/-- Split at the first occurrence of a word. -/
def splitOnceStrChars (pat : List Char) : List Char → Option (List Char × List Char)
  | [] => if pat.isPrefixOf [] then some ([], []) else none
  | x :: xs => if pat.isPrefixOf (x :: xs) then some ([], (x :: xs).drop pat.length)
      else (splitOnceStrChars pat xs).map (fun p => (x :: p.1, p.2))

/-- `str::split_once` with a string. -/
def splitOnceStr (pat s : String) : Option (String × String) :=
  (splitOnceStrChars pat.toList s.toList).map
    (fun p => (String.ofList p.1, String.ofList p.2))

/-- `str::contains` with a string. -/
def contains (s pat : String) : Bool :=
  (splitOnceStr pat s).isSome

/-- The words of a list of characters, `acc` holding the current word
    backwards. -/
def wordsFrom (acc : List Char) : List Char → List (List Char)
  | [] => if acc = [] then [] else [acc.reverse]
  | c :: cs => if isWhitespace c then
        (if acc = [] then wordsFrom [] cs else acc.reverse :: wordsFrom [] cs)
      else wordsFrom (c :: acc) cs

/-- `str::split_whitespace`. -/
def words (s : String) : List String :=
  (wordsFrom [] s.toList).map String.ofList

/-- A text that is one word: not empty, and without white space. -/
structure IsWord (s : String) : Prop where
  ne_empty : s ≠ ""
  solid : ∀ c ∈ s.toList, isWhitespace c = false

instance (s : String) : Decidable (IsWord s) :=
  decidable_of_iff (s ≠ "" ∧ s.toList.all (isWhitespace · == false) = true)
    ⟨fun h => ⟨h.1, fun c hc => beq_iff_eq.mp (List.all_eq_true.mp h.2 c hc)⟩,
      fun h => ⟨h.ne_empty, List.all_eq_true.mpr fun c hc => beq_iff_eq.mpr (h.solid c hc)⟩⟩

/-- Words with a blank behind each, and then some more characters. -/
def withBlanks : List String → List Char → List Char
  | [], tail => tail
  | w :: ws, tail => w.toList ++ ' ' :: withBlanks ws tail

/-- A path: the parts, with a separator in front of each. -/
def path (sep : Char) (parts : List String) : List Char :=
  parts.flatMap fun s => sep :: s.toList

/-- `str::trim_start_matches` with a character. -/
def trimStartMatches (c : Char) (s : String) : String :=
  String.ofList (s.toList.dropWhile (· == c))

/-- `str::to_ascii_lowercase`. -/
def toAsciiLowercase (s : String) : String :=
  String.ofList (s.toList.map Char.toLower)

/-- `str::starts_with` with a string. -/
def startsWith (s p : String) : Bool :=
  p.toList.isPrefixOf s.toList

/-- `str::ends_with` with a string. -/
def endsWith (s p : String) : Bool :=
  p.toList.isSuffixOf s.toList

/-- `[String]::join`. -/
def join (sep : String) : List String → String
  | [] => ""
  | [s] => s
  | s :: t :: rest => s ++ sep ++ join sep (t :: rest)

/-- A text up to its first line feed. -/
def firstLine (s : String) : String :=
  String.ofList (s.toList.takeWhile (· ≠ '\n'))

/-- The value of a list of decimal digits, most significant first. -/
def digitsValue (acc : Nat) : List Char → Option Nat
  | [] => some acc
  | c :: cs => if c.isDigit then digitsValue (10 * acc + (c.toNat - 48)) cs else none

/-- `u64::from_str`: an optional plus sign and at least one digit, no more
    than 64 bits. -/
def parseU64 (s : String) : Option UInt64 :=
  let cs := match s.toList with
    | '+' :: rest => rest
    | cs => cs
  if cs = [] then none else
    (digitsValue 0 cs).bind (fun n => if n < 2 ^ 64 then some (UInt64.ofNat n) else none)

/-- `String::from_utf8` on a vector of bytes. -/
def fromUtf8 (bs : List UInt8) : Option String :=
  String.fromUTF8? ⟨bs.toArray⟩

/-- `str::as_bytes`. -/
def asBytes (s : String) : List UInt8 :=
  s.toUTF8.data.toList

theorem fromUtf8_asBytes (s : String) : fromUtf8 (asBytes s) = some s := by
  unfold fromUtf8 asBytes String.fromUTF8?
  rw [Array.toArray_toList]
  exact dif_pos s.isValidUTF8

theorem asBytes_append (s t : String) : asBytes (s ++ t) = asBytes s ++ asBytes t := by
  unfold asBytes
  rw [String.toUTF8_eq_toByteArray, String.toByteArray_append, ByteArray.data_append,
    Array.toList_append]
  rfl

/-! ## Trimming -/

/-- What is left after dropping from the end is a prefix, so its first
    character is the one the drop from the front stopped at. -/
theorem dropWhile_trimChars (cs : List Char) :
    (trimChars cs).dropWhile isWhitespace = trimChars cs := by
  unfold trimChars
  -- Only a first character can be dropped, so an empty result needs nothing.
  rcases h : (cs.dropWhile isWhitespace).rdropWhile isWhitespace with _ | ⟨c, rest⟩
  · rfl
  · have hpre : c :: rest <+: cs.dropWhile isWhitespace := by
      rw [← h]
      exact List.rdropWhile_prefix isWhitespace _
    -- The prefix starts where the drop from the front stopped.
    have hhead : (cs.dropWhile isWhitespace).head? = some c := by
      rcases hpre with ⟨t, ht⟩
      rw [← ht]
      rfl
    have hc := List.head?_dropWhile_not isWhitespace cs
    rw [hhead] at hc
    rw [List.dropWhile_cons_of_neg (by simpa only [Bool.not_eq_true] using hc)]

theorem trimChars_trimChars (cs : List Char) : trimChars (trimChars cs) = trimChars cs := by
  calc trimChars (trimChars cs)
      = (trimChars cs).rdropWhile isWhitespace := by
        rw [trimChars, dropWhile_trimChars]
    _ = trimChars cs := List.rdropWhile_idempotent isWhitespace _

theorem trim_trim (s : String) : trim (trim s) = trim s := by
  simp only [trim, String.toList_ofList, trimChars_trimChars]

theorem mem_of_mem_trimChars {c : Char} {cs : List Char} (h : c ∈ trimChars cs) : c ∈ cs :=
  (List.dropWhile_sublist _).mem ((List.rdropWhile_prefix isWhitespace _).mem h)

theorem trim_solid {s : String} (h : ∀ c ∈ s.toList, isWhitespace c = false) : trim s = s := by
  have hfront : s.toList.dropWhile isWhitespace = s.toList := by
    rw [List.dropWhile_eq_self_iff]
    intro hpos
    rw [h _ (List.getElem_mem hpos)]
    exact Bool.false_ne_true
  have hback : s.toList.rdropWhile isWhitespace = s.toList := by
    rw [List.rdropWhile_eq_self_iff]
    intro hne
    rw [h _ (List.getLast_mem hne)]
    exact Bool.false_ne_true
  rw [trim, trimChars, hfront, hback, String.ofList_toList]

/-- A trimmed list does not end in white space. -/
theorem isWhitespace_getLast_of_trimmed {cs : List Char} {c : Char} (h : trimChars cs = cs)
    (hc : cs.getLast? = some c) : isWhitespace c = false := by
  rw [← h] at hc
  unfold trimChars at hc
  have hne : (cs.dropWhile isWhitespace).rdropWhile isWhitespace ≠ [] := by
    intro hnil
    rw [hnil] at hc
    simp only [List.getLast?_nil, reduceCtorEq] at hc
  rw [List.getLast?_eq_some_getLast hne, Option.some.injEq] at hc
  rw [← hc]
  simpa only [Bool.not_eq_true] using List.rdropWhile_last_not isWhitespace _ hne

theorem trimChars_cons_whitespace {c : Char} (hc : isWhitespace c = true) (cs : List Char) :
    trimChars (c :: cs) = trimChars cs := by
  rw [trimChars, List.dropWhile_cons_of_pos hc]
  rfl

theorem trimChars_concat_whitespace (cs : List Char) {c : Char} (hc : isWhitespace c = true) :
    trimChars (cs ++ [c]) = trimChars cs := by
  unfold trimChars
  rw [List.dropWhile_append]
  rcases hd : cs.dropWhile isWhitespace with _ | ⟨d, ds⟩
  · rw [List.isEmpty_nil, if_pos rfl, List.dropWhile_cons_of_pos hc, List.dropWhile_nil]
  · rw [List.isEmpty_cons, if_neg Bool.false_ne_true, List.rdropWhile_concat_pos _ _ _ hc]

/-! ## Lines -/

theorem stripCr_subset {c : Char} {cs : List Char} (h : c ∈ stripCr cs) : c ∈ cs := by
  unfold stripCr at h
  by_cases hcr : cs.getLast? = some '\r'
  · rw [if_pos hcr] at h
    exact (List.dropLast_sublist cs).mem h
  · rw [if_neg hcr] at h
    exact h

/-- What is stripped is taken off the last part of a line. -/
theorem stripCr_append {k : List Char} (hk : k.getLast? ≠ some '\r') (v : List Char) :
    stripCr (k ++ v) = k ++ stripCr v := by
  rcases List.eq_nil_or_concat' v with rfl | ⟨w, c, rfl⟩
  · rw [List.append_nil, stripCr, if_neg hk]
    exact (List.append_nil k).symm
  · unfold stripCr
    rw [← List.append_assoc, List.getLast?_concat, List.getLast?_concat, List.dropLast_concat,
      List.dropLast_concat]
    by_cases hc : some c = some '\r'
    · rw [if_pos hc, if_pos hc]
    · rw [if_neg hc, if_neg hc, List.append_assoc]

/-- A carriage return is white space, so a trimmed line has none to strip. -/
theorem stripCr_trimmed {v : List Char} (hv : trimChars v = v) : stripCr v = v := by
  rw [stripCr, if_neg]
  intro hlast
  exact absurd (isWhitespace_getLast_of_trimmed hv hlast) (by decide)

theorem stripCr_append_trimmed {k v : List Char} (hv : trimChars v = v)
    (hk : k.getLast? ≠ some '\r') : stripCr (k ++ v) = k ++ v := by
  rw [stripCr_append hk, stripCr_trimmed hv]

/-- What precedes another character is not stripped. -/
theorem stripCr_append_cons (a b : List Char) {c : Char} (hc : c ≠ '\r') :
    stripCr (a ++ c :: b) = a ++ c :: stripCr b := by
  have hlast : (a ++ [c]).getLast? ≠ some '\r' := by
    rw [List.getLast?_concat, ne_eq, Option.some_inj]
    exact hc
  rw [List.append_cons, stripCr_append hlast, ← List.append_cons]

/-- Trimming takes the carriage return along. -/
theorem trimChars_stripCr (cs : List Char) : trimChars (stripCr cs) = trimChars cs := by
  rcases List.eq_nil_or_concat' cs with rfl | ⟨w, c, rfl⟩
  · rfl
  · unfold stripCr
    rw [List.getLast?_concat, List.dropLast_concat]
    by_cases hc : some c = some '\r'
    · rw [if_pos hc, Option.some.inj hc, trimChars_concat_whitespace w (by decide)]
    · rw [if_neg hc]

theorem linesFrom_append {l : List Char} (acc rest : List Char) (h : '\n' ∉ l) :
    linesFrom acc (l ++ '\n' :: rest) = stripCr (acc.reverse ++ l) :: linesFrom [] rest := by
  -- The line is read character by character into the accumulator, which therefore
  -- varies in the induction.
  induction l generalizing acc with
  | nil => simp only [List.nil_append, linesFrom, if_pos, List.append_nil]
  | cons c cs ih =>
      have hc : c ≠ '\n' := fun hc => h (hc ▸ List.mem_cons_self)
      have hcs : '\n' ∉ cs := fun hm => h (List.mem_cons_of_mem _ hm)
      rw [List.cons_append, linesFrom, if_neg hc, ih (c :: acc) hcs, List.reverse_cons,
        List.append_assoc, List.singleton_append]

/-- The first line of a text is what precedes its first line feed. -/
theorem lineChars_cons {l : List Char} (rest : List Char) (h : '\n' ∉ l) :
    lineChars (l ++ '\n' :: rest) = stripCr l :: lineChars rest := by
  unfold lineChars
  rw [linesFrom_append [] rest h, List.reverse_nil, List.nil_append]

/-- A text without a line feed is one line, unless it is empty. -/
theorem lineChars_last {l : List Char} (h : '\n' ∉ l) (hne : l ≠ []) : lineChars l = [l] := by
  have hfrom (acc : List Char) : ∀ l : List Char, '\n' ∉ l → acc.reverse ++ l ≠ [] →
      linesFrom acc l = [acc.reverse ++ l] := by
    intro l
    induction l generalizing acc with
    | nil =>
        intro _ hne
        rw [List.append_nil] at hne ⊢
        rw [linesFrom, if_neg (fun hacc => hne (by rw [hacc]; rfl))]
    | cons c cs ih =>
        intro h _
        have hc : c ≠ '\n' := fun hc => h (hc ▸ List.mem_cons_self)
        rw [linesFrom, if_neg hc, ih (c :: acc) (fun hm => h (List.mem_cons_of_mem _ hm)),
          List.reverse_cons, List.append_assoc, List.singleton_append]
        rw [List.reverse_cons, List.append_assoc]
        exact List.append_ne_nil_of_right_ne_nil _ (List.cons_ne_nil _ _)
  rw [lineChars, hfrom [] l h hne]
  rfl

theorem newline_not_mem_linesFrom (acc cs : List Char) (hacc : '\n' ∉ acc) :
    ∀ l ∈ linesFrom acc cs, '\n' ∉ l := by
  induction cs generalizing acc with
  | nil =>
      intro l hl
      by_cases hnil : acc = []
      · simp only [linesFrom, if_pos hnil, List.not_mem_nil] at hl
      · simp only [linesFrom, if_neg hnil, List.mem_singleton] at hl
        rw [hl, List.mem_reverse]
        exact hacc
  | cons c cs ih =>
      intro l hl
      by_cases hc : c = '\n'
      · rw [linesFrom, if_pos hc, List.mem_cons] at hl
        -- The line just ended is the accumulator, up to a carriage return.
        rcases hl with rfl | hl
        · exact fun hm => hacc (List.mem_reverse.mp (stripCr_subset hm))
        · exact ih [] List.not_mem_nil l hl
      · rw [linesFrom, if_neg hc] at hl
        refine ih (c :: acc) ?_ l hl
        intro hm
        rcases List.mem_cons.mp hm with rfl | hm
        · exact hc rfl
        · exact hacc hm

theorem newline_not_mem_lineChars (cs : List Char) : ∀ l ∈ lineChars cs, '\n' ∉ l :=
  newline_not_mem_linesFrom [] cs List.not_mem_nil

/-! ## Splitting -/

theorem splitOnceChars_append {c : Char} {a : List Char} (b : List Char) (h : c ∉ a) :
    splitOnceChars c (a ++ c :: b) = some (a, b) := by
  induction a with
  | nil => simp only [List.nil_append, splitOnceChars, if_pos]
  | cons x xs ih =>
      have hx : x ≠ c := fun hx => h (hx ▸ List.mem_cons_self)
      rw [List.cons_append, splitOnceChars, if_neg hx,
        ih (fun hm => h (List.mem_cons_of_mem _ hm)), Option.map_some]

/-- A split gives back the list it was made from. -/
theorem eq_of_splitOnceChars {c : Char} {cs a b : List Char}
    (h : splitOnceChars c cs = some (a, b)) : cs = a ++ c :: b ∧ c ∉ a := by
  induction cs generalizing a with
  | nil => simp only [splitOnceChars, reduceCtorEq] at h
  | cons x xs ih =>
      rw [splitOnceChars] at h
      by_cases hx : x = c
      · rw [if_pos hx, Option.some.injEq, Prod.mk.injEq] at h
        rcases h with ⟨rfl, rfl⟩
        exact ⟨by rw [hx, List.nil_append], List.not_mem_nil⟩
      · rw [if_neg hx, Option.map_eq_some_iff] at h
        rcases h with ⟨⟨a', b'⟩, hrec, heq⟩
        simp only [Prod.mk.injEq] at heq
        rcases heq with ⟨rfl, rfl⟩
        rcases ih hrec with ⟨rfl, hnm⟩
        refine ⟨List.cons_append.symm, ?_⟩
        intro hm
        rcases List.mem_cons.mp hm with rfl | hm
        · exact hx rfl
        · exact hnm hm

theorem splitOnceChars_eq_none_iff {c : Char} {cs : List Char} :
    splitOnceChars c cs = none ↔ c ∉ cs := by
  constructor
  · intro h hm
    rcases List.append_of_mem hm with ⟨s, t, rfl⟩
    clear hm
    -- The walk meets the occurrence at the latest after the characters before it.
    induction s with
    | nil => simp only [List.nil_append, splitOnceChars, if_pos, reduceCtorEq] at h
    | cons x xs ih =>
        rw [List.cons_append, splitOnceChars] at h
        by_cases hx : x = c
        · simp only [if_pos hx, reduceCtorEq] at h
        · rw [if_neg hx, Option.map_eq_none_iff] at h
          exact ih h
  · intro h
    rcases hs : splitOnceChars c cs with _ | ⟨a, b⟩
    · rfl
    · rcases eq_of_splitOnceChars hs with ⟨rfl, _⟩
      exact absurd (List.mem_append_right a List.mem_cons_self) h

theorem rsplitOnceChars_append {c : Char} (a : List Char) {b : List Char} (h : c ∉ b) :
    rsplitOnceChars c (a ++ c :: b) = some (a, b) := by
  -- The last occurrence is the first one of the list read backwards.
  unfold rsplitOnceChars
  rw [List.reverse_append, List.reverse_cons, List.append_assoc, List.singleton_append,
    splitOnceChars_append _ (by rwa [List.mem_reverse]), Option.map_some, List.reverse_reverse,
    List.reverse_reverse]

/-- A split gives back the text it was made from. -/
theorem eq_of_splitOnce {c : Char} {s a b : String} (h : splitOnce c s = some (a, b)) :
    s = a ++ String.singleton c ++ b := by
  rcases Option.map_eq_some_iff.mp h with ⟨⟨as, bs⟩, hsplit, hparts⟩
  rcases Prod.mk.inj hparts with ⟨rfl, rfl⟩
  refine String.toList_inj.mp ?_
  rw [(eq_of_splitOnceChars hsplit).1, String.toList_append, String.toList_append,
    String.toList_ofList, String.toList_ofList, String.toList_singleton, List.append_assoc,
    List.singleton_append]

/-! ## Words -/

theorem wordsFrom_append {w : List Char} (acc rest : List Char)
    (hw : ∀ c ∈ w, isWhitespace c = false) :
    wordsFrom acc (w ++ rest) = wordsFrom (w.reverse ++ acc) rest := by
  induction w generalizing acc with
  | nil => rfl
  | cons c cs ih =>
      have hc : ¬ isWhitespace c = true := by
        rw [hw c List.mem_cons_self]
        decide
      rw [List.cons_append, wordsFrom, if_neg hc, ih (c :: acc) fun x hx =>
        hw x (List.mem_cons_of_mem c hx), List.reverse_cons, List.append_assoc]
      rfl

/-- The first word of a text is what precedes its first white space. -/
theorem wordsFrom_cons {w : List Char} (rest : List Char) {c : Char} (hne : w ≠ [])
    (hw : ∀ c ∈ w, isWhitespace c = false) (hc : isWhitespace c = true) :
    wordsFrom [] (w ++ c :: rest) = w :: wordsFrom [] rest := by
  have hacc : w.reverse ++ [] ≠ [] := by
    rw [List.append_nil]
    exact fun h => hne (List.reverse_eq_nil_iff.mp h)
  rw [wordsFrom_append [] _ hw, wordsFrom, if_pos hc, if_neg hacc, List.append_nil,
    List.reverse_reverse]

theorem wordsFrom_concat_whitespace (cs : List Char) {c : Char} (hc : isWhitespace c = true) :
    ∀ acc, wordsFrom acc (cs ++ [c]) = wordsFrom acc cs := by
  induction cs with
  | nil =>
      intro acc
      simp only [List.nil_append, wordsFrom, if_pos hc, if_true]
  | cons d cs ih =>
      intro acc
      rw [List.cons_append, wordsFrom, wordsFrom, ih, ih]

/-- White space around a text is no part of its words. -/
theorem words_trim (s : String) : words (trim s) = words s := by
  have hfront (cs : List Char) :
      wordsFrom [] (cs.dropWhile isWhitespace) = wordsFrom [] cs := by
    induction cs with
    | nil => rfl
    | cons c cs ih =>
        by_cases hc : isWhitespace c = true
        · rw [List.dropWhile_cons_of_pos hc, ih, wordsFrom, if_pos hc, if_pos rfl]
        · rw [List.dropWhile_cons_of_neg hc]
  have hend (cs : List Char) :
      wordsFrom [] (cs.rdropWhile isWhitespace) = wordsFrom [] cs := by
    induction cs using List.reverseRecOn with
    | nil => rw [List.rdropWhile_nil]
    | append_singleton cs c ih =>
        by_cases hc : isWhitespace c = true
        · rw [List.rdropWhile_concat_pos _ _ _ hc, ih, wordsFrom_concat_whitespace cs hc]
        · rw [List.rdropWhile_concat_neg _ _ _ hc]
  unfold words trim trimChars
  rw [String.toList_ofList, hend, hfront]

theorem solid_of_mem_wordsFrom {cs : List Char} (acc : List Char)
    (hacc : ∀ c ∈ acc, isWhitespace c = false) :
    ∀ w ∈ wordsFrom acc cs, ∀ c ∈ w, isWhitespace c = false := by
  induction cs generalizing acc with
  | nil =>
      intro w hw
      by_cases hnil : acc = []
      · simp only [wordsFrom, if_pos hnil, List.not_mem_nil] at hw
      · rw [wordsFrom, if_neg hnil, List.mem_singleton] at hw
        rw [hw]
        exact fun c hc => hacc c (List.mem_reverse.mp hc)
  | cons d cs ih =>
      intro w hw
      have hrest := ih [] fun c hc => absurd hc List.not_mem_nil
      by_cases hd : isWhitespace d = true
      · by_cases hnil : acc = []
        · rw [wordsFrom, if_pos hd, if_pos hnil] at hw
          exact hrest w hw
        · rw [wordsFrom, if_pos hd, if_neg hnil] at hw
          rcases List.mem_cons.mp hw with rfl | hw
          · exact fun c hc => hacc c (List.mem_reverse.mp hc)
          · exact hrest w hw
      · rw [wordsFrom, if_neg hd] at hw
        refine ih (d :: acc) (fun c hc => ?_) w hw
        rcases List.mem_cons.mp hc with rfl | hc
        · exact Bool.eq_false_iff.mpr hd
        · exact hacc c hc

/-- There is no white space in a word. -/
theorem solid_of_mem_words {s w : String} (h : w ∈ words s) :
    ∀ c ∈ w.toList, isWhitespace c = false := by
  rcases List.mem_map.mp h with ⟨cs, hcs, rfl⟩
  rw [String.toList_ofList]
  exact solid_of_mem_wordsFrom [] (fun c hc => absurd hc List.not_mem_nil) cs hcs

theorem IsWord.append {s t : String} (hs : IsWord s) (ht : IsWord t) : IsWord (s ++ t) where
  ne_empty := by
    intro h
    have hlist := congrArg String.toList h
    rw [String.toList_append] at hlist
    exact hs.ne_empty (String.toList_inj.mp (List.append_eq_nil_iff.mp hlist).1)
  solid := by
    intro c hc
    rw [String.toList_append, List.mem_append] at hc
    exact hc.elim (hs.solid c) (ht.solid c)

theorem IsWord.newline_not_mem {s : String} (h : IsWord s) : '\n' ∉ s.toList :=
  fun hm => absurd (h.solid _ hm) (by decide)

theorem withBlanks_append (ws : List String) (a b : List Char) :
    withBlanks ws a ++ b = withBlanks ws (a ++ b) := by
  induction ws with
  | nil => rfl
  | cons w ws ih => rw [withBlanks, withBlanks, List.append_assoc, List.cons_append, ih]

theorem withBlanks_ne_nil {ws : List String} (hne : ws ≠ []) (a : List Char) :
    withBlanks ws a ≠ [] := by
  cases ws with
  | nil => exact absurd rfl hne
  | cons w ws => exact List.append_ne_nil_of_right_ne_nil _ (List.cons_ne_nil _ _)

theorem newline_not_mem_withBlanks {ws : List String} (hws : ∀ w ∈ ws, IsWord w) {a : List Char}
    (ha : '\n' ∉ a) : '\n' ∉ withBlanks ws a := by
  induction ws with
  | nil => exact ha
  | cons w ws ih =>
      rw [withBlanks, List.mem_append, List.mem_cons]
      rintro (hm | hm | hm)
      · exact (hws w List.mem_cons_self).newline_not_mem hm
      · exact absurd hm (by decide)
      · exact ih (fun x hx => hws x (List.mem_cons_of_mem w hx)) hm

/-- Words in front of a text are its first words. -/
theorem words_withBlanks {ws : List String} (hws : ∀ w ∈ ws, IsWord w) (a : List Char) :
    words (String.ofList (withBlanks ws a)) = ws ++ words (String.ofList a) := by
  induction ws with
  | nil => rfl
  | cons w ws ih =>
      have hw := hws w List.mem_cons_self
      have hne : w.toList ≠ [] := fun h => hw.ne_empty (String.toList_inj.mp h)
      have hrest := ih fun x hx => hws x (List.mem_cons_of_mem w hx)
      unfold words at hrest ⊢
      rw [String.toList_ofList] at hrest ⊢
      rw [withBlanks, wordsFrom_cons _ hne hw.solid (by decide), List.map_cons, hrest,
        String.ofList_toList]
      rfl

/-- Words up to the first line feed are what is in front of it. -/
theorem firstLine_withBlanks {ws : List String} (hws : ∀ w ∈ ws, IsWord w) (a : List Char) :
    (withBlanks ws a).takeWhile (· ≠ '\n') = withBlanks ws (a.takeWhile (· ≠ '\n')) := by
  induction ws with
  | nil => rfl
  | cons w ws ih =>
      have hw : ∀ c ∈ w.toList, decide (c ≠ '\n') = true := by
        intro c hc
        refine decide_eq_true fun hnl => ?_
        exact (hws w List.mem_cons_self).newline_not_mem (hnl ▸ hc)
      rw [withBlanks, withBlanks, List.takeWhile_append_of_pos hw,
        List.takeWhile_cons_of_pos (by decide), ih fun x hx => hws x (List.mem_cons_of_mem w hx)]

/-- The first line has the words up to the first line feed, whatever becomes of
    a carriage return. -/
theorem words_of_head_lines {s l : String} (h : (lines s).head? = some l) :
    words l = words (firstLine s) := by
  unfold firstLine
  rcases hsplit : splitOnceChars '\n' s.toList with _ | ⟨front, after⟩
  · have hnone := splitOnceChars_eq_none_iff.mp hsplit
    have hall : ∀ c ∈ s.toList, decide (c ≠ '\n') = true :=
      fun c hc => decide_eq_true fun hnl => hnone (hnl ▸ hc)
    by_cases hempty : s.toList = []
    · have hnil : lineChars [] = [] := rfl
      rw [lines, hempty, hnil] at h
      exact absurd h (Option.some_ne_none l).symm
    · rw [lines, lineChars_last hnone hempty] at h
      rw [List.takeWhile_eq_self_iff.mpr hall, String.ofList_toList, ← Option.some.inj h,
        String.ofList_toList]
  · rcases eq_of_splitOnceChars hsplit with ⟨heq, hfront⟩
    have hall : ∀ c ∈ front, decide (c ≠ '\n') = true :=
      fun c hc => decide_eq_true fun hnl => hfront (hnl ▸ hc)
    rw [lines, heq, lineChars_cons after hfront] at h
    rw [heq, List.takeWhile_append_of_pos hall, List.takeWhile_cons_of_neg (by decide),
      List.append_nil, ← Option.some.inj h, ← words_trim, ← words_trim (String.ofList front)]
    unfold trim
    rw [String.toList_ofList, String.toList_ofList, trimChars_stripCr]

/-- Words joined by a word are one word. -/
theorem IsWord.join {sep : String} (hsep : IsWord sep) {ws : List String} (hne : ws ≠ [])
    (hws : ∀ w ∈ ws, IsWord w) : IsWord (Text.join sep ws) := by
  induction ws with
  | nil => exact absurd rfl hne
  | cons w ws ih =>
      have hw := hws w List.mem_cons_self
      cases ws with
      | nil => exact hw
      | cons v ws =>
          have hrest := ih (List.cons_ne_nil v ws) fun x hx => hws x (List.mem_cons_of_mem w hx)
          exact (hw.append hsep).append hrest

/-! ## Prefixes -/

theorem stripPrefix_append (p s : String) : stripPrefix p (p ++ s) = some s := by
  have hpre : p.toList.isPrefixOf (p.toList ++ s.toList) = true :=
    List.isPrefixOf_iff_prefix.mpr (List.prefix_append _ _)
  unfold stripPrefix stripPrefixChars
  rw [String.toList_append, if_pos hpre, List.drop_left, Option.map_some, String.ofList_toList]

/-- The rest after a prefix ends the text it was stripped from. -/
theorem eq_of_stripPrefix {p s t : String} (h : stripPrefix p s = some t) : s = p ++ t := by
  rcases Option.map_eq_some_iff.mp h with ⟨cs, hcs, rfl⟩
  unfold stripPrefixChars at hcs
  split_ifs at hcs with hpre
  refine String.toList_inj.mp ?_
  rw [String.toList_append, String.toList_ofList, ← Option.some.inj hcs]
  rcases List.isPrefixOf_iff_prefix.mp hpre with ⟨rest, hrest⟩
  rw [← hrest, List.drop_left]

/-- A text that starts differently lacks the prefix. -/
theorem stripPrefix_head_ne {p s : String} {a b : Char} (hp : p.toList.head? = some a)
    (hs : s.toList.head? = some b) (hne : a ≠ b) : stripPrefix p s = none := by
  rcases List.head?_eq_some_iff.mp hp with ⟨as, has⟩
  rcases List.head?_eq_some_iff.mp hs with ⟨bs, hbs⟩
  unfold stripPrefix stripPrefixChars
  rw [has, hbs, List.isPrefixOf, beq_false_of_ne hne, Bool.false_and, if_neg Bool.false_ne_true]
  rfl

/-- Two keys apart from each other stay apart, whatever follows. -/
theorem stripPrefix_apart {p q : String} (hpq : p.toList.isPrefixOf q.toList = false)
    (hqp : q.toList.isPrefixOf p.toList = false) (s : String) : stripPrefix p (q ++ s) = none := by
  have hnot : ¬ p.toList.isPrefixOf (q.toList ++ s.toList) = true := by
    intro hp
    rcases List.prefix_or_prefix_of_prefix (List.isPrefixOf_iff_prefix.mp hp)
      (List.prefix_append q.toList s.toList) with h | h
    · exact Bool.false_ne_true (hpq.symm.trans (List.isPrefixOf_iff_prefix.mpr h))
    · exact Bool.false_ne_true (hqp.symm.trans (List.isPrefixOf_iff_prefix.mpr h))
  unfold stripPrefix stripPrefixChars
  rw [String.toList_append, if_neg hnot]
  rfl

/-! ## Paths -/

theorem path_nil (sep : Char) : path sep [] = [] :=
  rfl

theorem path_cons (sep : Char) (s : String) (parts : List String) :
    path sep (s :: parts) = sep :: (s.toList ++ path sep parts) :=
  rfl

theorem path_append (sep : Char) (parts parts' : List String) :
    path sep (parts ++ parts') = path sep parts ++ path sep parts' :=
  List.flatMap_append

/-- What comes before the first separator of a path that something stands in
    front of. -/
theorem takeWhile_path {sep : Char} {front : List Char} (h : sep ∉ front) (parts : List String) :
    (front ++ path sep parts).takeWhile (· ≠ sep) = front := by
  have hall : ∀ c ∈ front, decide (c ≠ sep) = true :=
    fun c hc => decide_eq_true fun hsep => h (hsep ▸ hc)
  rw [List.takeWhile_append_of_pos hall]
  cases parts with
  | nil => rw [path_nil, List.takeWhile_nil, List.append_nil]
  | cons s parts =>
      rw [path_cons, List.takeWhile_cons_of_neg (by simp only [ne_eq, not_true_eq_false,
        decide_false, Bool.false_eq_true, not_false_eq_true]), List.append_nil]

/-- A path has its parts back, unless the separator is in one of them. -/
theorem path_inj {sep : Char} {ss ts : List String} (hss : ∀ s ∈ ss, sep ∉ s.toList)
    (hts : ∀ t ∈ ts, sep ∉ t.toList) (h : path sep ss = path sep ts) : ss = ts := by
  induction ss generalizing ts with
  | nil =>
      cases ts with
      | nil => rfl
      | cons t ts => exact absurd h (List.cons_ne_nil _ _).symm
  | cons s ss ih =>
      cases ts with
      | nil => exact absurd h (List.cons_ne_nil _ _)
      | cons t ts =>
          rw [path_cons, path_cons] at h
          have htail := (List.cons.inj h).2
          have hhead : s.toList = t.toList := by
            rw [← takeWhile_path (hss s List.mem_cons_self) ss, htail,
              takeWhile_path (hts t List.mem_cons_self)]
          rw [hhead] at htail
          rw [String.toList_inj.mp hhead,
            ih (fun x hx => hss x (List.mem_cons_of_mem s hx))
              (fun x hx => hts x (List.mem_cons_of_mem t hx)) (List.append_cancel_left htail)]

end Text
