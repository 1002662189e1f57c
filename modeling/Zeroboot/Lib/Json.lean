import Zeroboot.Lib.Text

/-!
# JSON, Written and Read

JSON values, a reader of the grammar, and what is asked of a printer.

A printer is lawful when what it prints of a value is a text of that value, as
the grammar has it: the reader reads the value back. Which blanks it puts in and
what it escapes is its own affair. `pretty` is one of them. It puts every item
and every field on a line of its own, two blanks deeper than the bracket around
it, and escapes no more than it has to: quotes, backslashes and control
characters.

The reader takes any white space between tokens and every escape but pairs of
surrogates. Of the numbers it takes the natural ones, and refuses leading
zeros, as the grammar does. It recurses on a fuel; `read` starts it with the
length of the text, which is enough, as a value costs no more than the
characters it is written with.

`value_write` is the lemma the round trip rests on. A value that was written
and is followed by something that cannot go on a number is read back, and what
follows it is left. It is proved with its two companions for items and fields
by induction on the value, one case for each constructor.

## Main definitions

* `Value`: JSON values.
* `readString`, `number`, `value`, `read`: The reader.
* `Printer`, `Printer.Lawful`: What prints values, and what is asked of it.
* `quote`, `write`, `pretty`: A printer.
* `Value.get`, `Value.nullable`: Taking a value apart.

## Theorems

* `readString_quote`: A string that was written is read back.
* `number_toDigits`: And so is a number.
* `value_write`: And so is a value, in front of anything.
* `pretty_lawful`: What it prints reads back as it was.
-/

namespace Json

/-- JSON values, numbers being natural ones. -/
inductive Value where
  | null
  | bool (b : Bool)
  | num (n : Nat)
  | str (s : String)
  | arr (vs : List Value)
  | obj (fields : List (String × Value))

/-! ## A printer -/

/-- A character inside a string. -/
def escape (c : Char) : List Char :=
  if c = '"' then ['\\', '"']
  else if c = '\\' then ['\\', '\\']
  else if c = '\x08' then ['\\', 'b']
  else if c = '\t' then ['\\', 't']
  else if c = '\n' then ['\\', 'n']
  else if c = '\x0c' then ['\\', 'f']
  else if c = '\r' then ['\\', 'r']
  else if c.toNat < 0x20 then
    ['\\', 'u', '0', '0', Nat.digitChar (c.toNat / 16), Nat.digitChar (c.toNat % 16)]
  else [c]

/-- A string in quotes. -/
def quote (s : String) : List Char :=
  '"' :: s.toList.flatMap escape ++ ['"']

/-- A new line, indented. -/
def newline (n : Nat) : List Char :=
  '\n' :: List.replicate (2 * n) ' '

/-- What stands in front of an item: nothing but the new line for the first,
    a comma as well for the others. -/
def separator (n : Nat) (first : Bool) : List Char :=
  if first then newline n else ',' :: newline n

/-- What stands behind the last item, when there is one. -/
def closing (n : Nat) (empty : Bool) : List Char :=
  if empty then [] else newline n

theorem separator_pos (n : Nat) (first : Bool) : 0 < (separator n first).length := by
  cases first <;> exact Nat.succ_pos _

mutual

/-- A value, at a depth. -/
def write (n : Nat) : Value → List Char
  | .null => ['n', 'u', 'l', 'l']
  | .bool true => ['t', 'r', 'u', 'e']
  | .bool false => ['f', 'a', 'l', 's', 'e']
  | .num k => Nat.toDigits 10 k
  | .str s => quote s
  | .arr vs => '[' :: (writeItems (n + 1) true vs ++ (closing n vs.isEmpty ++ [']']))
  | .obj fields => '{' :: (writeFields (n + 1) true fields ++ (closing n fields.isEmpty ++ ['}']))

def writeItems (n : Nat) (first : Bool) : List Value → List Char
  | [] => []
  | v :: vs => separator n first ++ (write n v ++ writeItems n false vs)

def writeFields (n : Nat) (first : Bool) : List (String × Value) → List Char
  | [] => []
  | (k, v) :: fields =>
      separator n first ++ (quote k ++ (':' :: ' ' :: (write n v ++ writeFields n false fields)))

end

/-- What makes a text of a value. -/
abbrev Printer := Value → String

def pretty : Printer := fun v =>
  String.ofList (write 0 v)

/-! ## The reader -/

def isBlank (c : Char) : Bool :=
  c == ' ' || c == '\n' || c == '\r' || c == '\t'

def skipBlanks (cs : List Char) : List Char :=
  cs.dropWhile isBlank

def hexValue (c : Char) : Option Nat :=
  if c.isDigit then some (c.toNat - 48)
  else if 0x41 ≤ c.toNat ∧ c.toNat ≤ 0x46 then some (c.toNat - 55)
  else if 0x61 ≤ c.toNat ∧ c.toNat ≤ 0x66 then some (c.toNat - 87)
  else none

/-- The character with this code, unless it is half of a pair. -/
def charOfHex (a b c d : Char) : Option Char := do
  let a ← hexValue a
  let b ← hexValue b
  let c ← hexValue c
  let d ← hexValue d
  let n := ((16 * a + b) * 16 + c) * 16 + d
  if n.isValidChar then some (Char.ofNat n) else none

/-- What a single letter behind a backslash stands for. -/
def unescape (c : Char) : Option Char :=
  if c = '"' ∨ c = '\\' ∨ c = '/' then some c
  else if c = 'b' then some '\x08'
  else if c = 't' then some '\t'
  else if c = 'n' then some '\n'
  else if c = 'f' then some '\x0c'
  else if c = 'r' then some '\r'
  else none

/-- The rest of a string behind its opening quote, and what follows it. -/
def readString : List Char → Option (List Char × List Char)
  | [] => none
  | c :: cs =>
      if c = '"' then some ([], cs)
      else if c = '\\' then
        match cs with
        | [] => none
        | 'u' :: a :: b :: c :: d :: cs =>
            (charOfHex a b c d).bind (fun e => (readString cs).map (fun p => (e :: p.1, p.2)))
        | e :: cs => (unescape e).bind (fun e => (readString cs).map (fun p => (e :: p.1, p.2)))
      else if c.toNat < 0x20 then none
      else (readString cs).map (fun p => (c :: p.1, p.2))
termination_by structural cs => cs

/-- A natural number without leading zeros, and what follows it. -/
def number (cs : List Char) : Option (Nat × List Char) :=
  let ds := cs.takeWhile Char.isDigit
  if ds = [] ∨ (ds.head? = some '0' ∧ ds ≠ ['0']) then none
  else some (Nat.ofDigitChars 10 ds 0, cs.dropWhile Char.isDigit)

def literal (cs : List Char) : Option (Value × List Char) :=
  match cs with
  | 'n' :: 'u' :: 'l' :: 'l' :: cs => some (.null, cs)
  | 't' :: 'r' :: 'u' :: 'e' :: cs => some (.bool true, cs)
  | 'f' :: 'a' :: 'l' :: 's' :: 'e' :: cs => some (.bool false, cs)
  | _ => none

/-- A field name with the colon behind it. -/
def fieldName (cs : List Char) : Option (String × List Char) :=
  match skipBlanks cs with
  | '"' :: cs =>
      (readString cs).bind (fun p =>
        match skipBlanks p.2 with
        | ':' :: cs => some (String.ofList p.1, cs)
        | _ => none)
  | _ => none

/-- What is between brackets: nothing, or what the reader handed in makes of
    it. -/
def bracketed {α : Type} (close : Char) (empty : α)
    (more : List Char → Option (α × List Char)) (cs : List Char) : Option (α × List Char) :=
  match skipBlanks cs with
  | [] => none
  | c :: cs => if c = close then some (empty, cs) else more (c :: cs)

mutual

/-- A value, and what follows it. -/
def value : Nat → List Char → Option (Value × List Char)
  | 0, _ => none
  | k + 1, cs =>
      match skipBlanks cs with
      | [] => none
      | c :: cs =>
          if c = '"' then (readString cs).map (fun p => (.str (String.ofList p.1), p.2))
          else if c = '[' then (bracketed ']' [] (items k) cs).map (fun p => (.arr p.1, p.2))
          else if c = '{' then (bracketed '}' [] (fields k) cs).map (fun p => (.obj p.1, p.2))
          else if c.isDigit then (number (c :: cs)).map (fun p => (.num p.1, p.2))
          else literal (c :: cs)

/-- The items up to the bracket that closes them. -/
def items : Nat → List Char → Option (List Value × List Char)
  | 0, _ => none
  | k + 1, cs =>
      (value k cs).bind (fun (v, cs) =>
        match skipBlanks cs with
        | ',' :: cs => (items k cs).map (fun p => (v :: p.1, p.2))
        | ']' :: cs => some ([v], cs)
        | _ => none)

/-- The fields up to the brace that closes them. -/
def fields : Nat → List Char → Option (List (String × Value) × List Char)
  | 0, _ => none
  | k + 1, cs =>
      (fieldName cs).bind (fun (name, cs) => (value k cs).bind (fun (v, cs) =>
        match skipBlanks cs with
        | ',' :: cs => (fields k cs).map (fun p => ((name, v) :: p.1, p.2))
        | '}' :: cs => some ([(name, v)], cs)
        | _ => none))

end

/-- A text that is one value. -/
def read (text : String) : Option Value :=
  match value (text.toList.length + 1) text.toList with
  | some (v, cs) => if skipBlanks cs = [] then some v else none
  | none => none

/-- What was printed is a text of its value. -/
def Printer.Lawful (J : Printer) : Prop :=
  ∀ v, read (J v) = some v

/-! ## Strings -/

theorem hexValue_digitChar {n : Nat} (h : n < 16) : hexValue (Nat.digitChar n) = some n := by
  have hall : ∀ n < 16, hexValue (Nat.digitChar n) = some n := by decide
  exact hall n h

/-- A control character is read back from its code. -/
theorem charOfHex_code {c : Char} (h : c.toNat < 0x20) :
    charOfHex '0' '0' (Nat.digitChar (c.toNat / 16)) (Nat.digitChar (c.toNat % 16)) = some c := by
  have hzero : hexValue '0' = some 0 := by decide
  have hcode : ((16 * 0 + 0) * 16 + c.toNat / 16) * 16 + c.toNat % 16 = c.toNat := by omega
  unfold charOfHex
  rw [hzero, hexValue_digitChar (by omega), hexValue_digitChar (by omega)]
  simp only [Option.bind_eq_bind, Option.bind_some]
  have hvalid : c.toNat.isValidChar := c.valid
  rw [hcode, if_pos hvalid, Char.ofNat_toNat]

/-- A character that was escaped is read back, whatever follows. -/
theorem readString_escape (c : Char) (rest : List Char) :
    readString (escape c ++ rest) = (readString rest).map (fun p => (c :: p.1, p.2)) := by
  unfold escape
  split_ifs with hquote hslash hb ht hn hf hr hcontrol
  · rw [hquote]
    rfl
  · rw [hslash]
    rfl
  · rw [hb]
    rfl
  · rw [ht]
    rfl
  · rw [hn]
    rfl
  · rw [hf]
    rfl
  · rw [hr]
    rfl
  · -- Its code, of which two digits are zero.
    have hne : ¬ '\\' = '"' := by decide
    simp only [List.cons_append, List.nil_append]
    rw [readString.eq_def]
    simp only [if_neg hne, if_true, charOfHex_code hcontrol, Option.bind_some]
  · rw [List.singleton_append, readString.eq_def]
    simp only [if_neg hquote, if_neg hslash, if_neg hcontrol]

/-- A string that was written is read back behind its opening quote. -/
theorem readString_quote (cs rest : List Char) :
    readString (cs.flatMap escape ++ '"' :: rest) = some (cs, rest) := by
  induction cs with
  | nil =>
      rw [List.flatMap_nil, List.nil_append, readString.eq_def]
      simp only [if_true]
  | cons c cs ih =>
      rw [List.flatMap_cons, List.append_assoc, readString_escape, ih, Option.map_some]

/-! ## Numbers -/

/-- What may stand behind a number: no further digit. -/
def Stops (rest : List Char) : Prop :=
  ∀ c ∈ rest.head?, c.isDigit = false

theorem stops_cons {c : Char} (h : c.isDigit = false) (rest : List Char) : Stops (c :: rest) := by
  intro d hd
  rw [List.head?_cons, Option.mem_some_iff] at hd
  rw [← hd]
  exact h

/-- The digits in front of what stops a number are all of them. -/
theorem takeWhile_digits {ds rest : List Char} (hds : ∀ c ∈ ds, c.isDigit = true)
    (hrest : Stops rest) :
    (ds ++ rest).takeWhile Char.isDigit = ds ∧ (ds ++ rest).dropWhile Char.isDigit = rest := by
  rw [List.takeWhile_append_of_pos hds, List.dropWhile_append_of_pos hds]
  cases rest with
  | nil => exact ⟨List.append_nil ds, rfl⟩
  | cons c cs =>
      have hc : c.isDigit = false := hrest c rfl
      rw [List.takeWhile_cons_of_neg (by rw [hc]; exact Bool.false_ne_true),
        List.dropWhile_cons_of_neg (by rw [hc]; exact Bool.false_ne_true), List.append_nil]
      exact ⟨rfl, rfl⟩

/-- Only zero is written with a leading zero. -/
theorem head?_toDigits {n : Nat} (h : n ≠ 0) : (Nat.toDigits 10 n).head? ≠ some '0' := by
  -- The last digit is split off; what is in front of it is a smaller number.
  induction n using Nat.strong_induction_on with
  | _ n ih =>
      by_cases hsmall : n < 10
      · have hdigit : ∀ k < 10, k ≠ 0 → Nat.digitChar k ≠ '0' := by decide
        rw [Nat.toDigits_of_lt_base hsmall, List.head?_cons, ne_eq, Option.some_inj]
        exact hdigit n hsmall h
      · have hne : Nat.toDigits 10 (n / 10) ≠ [] := Nat.toDigits_ne_nil
        rw [Nat.toDigits_of_base_le (by decide) (by omega), List.head?_append_of_ne_nil _ hne]
        exact ih (n / 10) (by omega) (by omega)

theorem number_toDigits (n : Nat) {rest : List Char} (hrest : Stops rest) :
    number (Nat.toDigits 10 n ++ rest) = some (n, rest) := by
  have hds : ∀ c ∈ Nat.toDigits 10 n, c.isDigit = true := fun c hc =>
    Nat.isDigit_of_mem_toDigits (by decide) (Nat.le_refl 10) hc
  rcases takeWhile_digits hds hrest with ⟨htake, hdrop⟩
  have hgood : ¬ (Nat.toDigits 10 n = [] ∨
      ((Nat.toDigits 10 n).head? = some '0' ∧ Nat.toDigits 10 n ≠ ['0'])) := by
    rintro (hnil | ⟨hhead, hne⟩)
    · exact Nat.toDigits_ne_nil hnil
    · by_cases hzero : n = 0
      · rw [hzero] at hne
        exact hne (Nat.toDigits_zero 10)
      · exact head?_toDigits hzero hhead
  unfold number
  simp only [htake, hdrop]
  rw [if_neg hgood, Nat.ofDigitChars_ten_toDigits]

/-! ## Blanks -/

theorem skipBlanks_cons {c : Char} (h : isBlank c = false) (cs : List Char) :
    skipBlanks (c :: cs) = c :: cs :=
  List.dropWhile_cons_of_neg (by rw [h]; exact Bool.false_ne_true)

theorem skipBlanks_newline (n : Nat) (cs : List Char) :
    skipBlanks (newline n ++ cs) = skipBlanks cs := by
  have hall : ∀ c ∈ newline n, isBlank c = true := by
    intro c hc
    rcases List.mem_cons.mp hc with rfl | hc
    · rfl
    · rw [List.eq_of_mem_replicate hc]
      rfl
  exact List.dropWhile_append_of_pos hall

theorem skipBlanks_skipBlanks (cs : List Char) : skipBlanks (skipBlanks cs) = skipBlanks cs :=
  List.dropWhile_idempotent isBlank cs

/-- The reader does not look at the blanks in front of a value. -/
theorem value_skipBlanks (k : Nat) (cs : List Char) : value k (skipBlanks cs) = value k cs := by
  cases k with
  | zero => rfl
  | succ k => simp only [value, skipBlanks_skipBlanks]

/-- Nor at those in front of a field. -/
theorem fieldName_skipBlanks (cs : List Char) : fieldName (skipBlanks cs) = fieldName cs := by
  simp only [fieldName, skipBlanks_skipBlanks]

theorem isDigit_ne {c d : Char} (hc : c.isDigit = true) (hd : d.isDigit = false) : c ≠ d := by
  rintro rfl
  rw [hd] at hc
  exact Bool.false_ne_true hc

theorem isBlank_of_isDigit {c : Char} (h : c.isDigit = true) : isBlank c = false := by
  simp only [isBlank, Bool.or_eq_false_iff, beq_eq_false_iff_ne]
  exact ⟨⟨⟨isDigit_ne h rfl, isDigit_ne h rfl⟩, isDigit_ne h rfl⟩, isDigit_ne h rfl⟩

/-- A number is written with a digit first. -/
theorem exists_toDigits (n : Nat) : ∃ c cs, Nat.toDigits 10 n = c :: cs ∧ c.isDigit = true := by
  rcases hds : Nat.toDigits 10 n with _ | ⟨c, cs⟩
  · exact absurd hds Nat.toDigits_ne_nil
  · refine ⟨c, cs, rfl, Nat.isDigit_of_mem_toDigits (n := n) (by decide) (Nat.le_refl 10) ?_⟩
    rw [hds]
    exact List.mem_cons_self

/-- A value that was written starts with a character that is no blank and
    closes nothing. -/
theorem exists_write (n : Nat) (v : Value) :
    ∃ c cs, write n v = c :: cs ∧ isBlank c = false ∧ c ≠ ']' := by
  cases v with
  | null => exact ⟨_, _, by rw [write], by decide, by decide⟩
  | bool b =>
      cases b with
      | true => exact ⟨_, _, by rw [write], by decide, by decide⟩
      | false => exact ⟨_, _, by rw [write], by decide, by decide⟩
  | num k =>
      rcases exists_toDigits k with ⟨c, cs, hds, hdigit⟩
      exact ⟨c, cs, by rw [write, hds], isBlank_of_isDigit hdigit, isDigit_ne hdigit rfl⟩
  | str s => exact ⟨_, _, by rw [write, quote, List.cons_append], by decide, by decide⟩
  | arr vs => exact ⟨_, _, by rw [write], by decide, by decide⟩
  | obj fields => exact ⟨_, _, by rw [write], by decide, by decide⟩

theorem skipBlanks_write (n : Nat) (v : Value) (rest : List Char) :
    skipBlanks (write n v ++ rest) = write n v ++ rest := by
  rcases exists_write n v with ⟨c, cs, hv, hc, _⟩
  rw [hv, List.cons_append]
  exact skipBlanks_cons hc _

/-! ## Values -/

mutual

/-- The fuel a value is read with. -/
def Value.cost : Value → Nat
  | .null | .bool _ | .num _ | .str _ => 1
  | .arr vs => itemsCost vs + 1
  | .obj fields => fieldsCost fields + 1

def itemsCost : List Value → Nat
  | [] => 0
  | v :: vs => v.cost + itemsCost vs + 1

def fieldsCost : List (String × Value) → Nat
  | [] => 0
  | (_, v) :: fields => v.cost + fieldsCost fields + 1

end

/-- What stands behind an item stops a number. -/
theorem stops_items (n m : Nat) (vs : List Value) (rest : List Char) :
    Stops (writeItems n false vs ++ (newline m ++ rest)) := by
  cases vs with
  | nil =>
      rw [writeItems, List.nil_append]
      exact stops_cons (by decide) _
  | cons w ws =>
      rw [writeItems]
      exact stops_cons (by decide) _

theorem stops_fields (n m : Nat) (fs : List (String × Value)) (rest : List Char) :
    Stops (writeFields n false fs ++ (newline m ++ rest)) := by
  cases fs with
  | nil =>
      rw [writeFields, List.nil_append]
      exact stops_cons (by decide) _
  | cons f fs =>
      rw [writeFields]
      exact stops_cons (by decide) _

/-- A field name that was written is read back with its colon. -/
theorem fieldName_quote (name : String) (rest : List Char) :
    fieldName (quote name ++ ':' :: rest) = some (name, rest) := by
  have hquote : isBlank '"' = false := by decide
  have hcolon : isBlank ':' = false := by decide
  unfold fieldName quote
  rw [List.cons_append, List.cons_append, List.append_assoc, List.singleton_append,
    skipBlanks_cons hquote]
  simp only [readString_quote, Option.bind_some, skipBlanks_cons hcolon, String.ofList_toList]

/-- With this fuel everything is read back that costs no more. -/
structure Reads (k : Nat) : Prop where
  value : ∀ {v : Value} {n : Nat} {rest : List Char}, v.cost ≤ k → Stops rest →
    value k (write n v ++ rest) = some (v, rest)
  items : ∀ (v : Value) (vs : List Value) {n m : Nat} {lead rest : List Char},
    itemsCost (v :: vs) ≤ k →
    skipBlanks lead = write n v ++ (writeItems n false vs ++ (newline m ++ ']' :: rest)) →
    items k lead = some (v :: vs, rest)
  fields : ∀ (name : String) (v : Value) (fs : List (String × Value)) {n m : Nat}
    {lead rest : List Char}, fieldsCost ((name, v) :: fs) ≤ k →
    skipBlanks lead = quote name ++ ':' :: ' ' ::
      (write n v ++ (writeFields n false fs ++ (newline m ++ '}' :: rest))) →
    fields k lead = some ((name, v) :: fs, rest)

theorem bracketed_open {α : Type} {close c : Char} {empty : α}
    {more : List Char → Option (α × List Char)} {cs t : List Char} (hskip : skipBlanks cs = t)
    (ht : t.head? = some c) (hne : c ≠ close) : bracketed close empty more cs = more t := by
  cases t with
  | nil => exact absurd ht (by simp only [List.head?_nil, reduceCtorEq, not_false_eq_true])
  | cons d ds =>
      rw [List.head?_cons, Option.some_inj] at ht
      unfold bracketed
      simp only [hskip]
      rw [if_neg (by rw [ht]; exact hne)]

theorem value_cons {c : Char} (hc : isBlank c = false) (k : Nat) (cs : List Char) :
    value (k + 1) (c :: cs) =
      if c = '"' then (readString cs).map (fun p => (.str (String.ofList p.1), p.2))
      else if c = '[' then (bracketed ']' [] (items k) cs).map (fun p => (.arr p.1, p.2))
      else if c = '{' then (bracketed '}' [] (fields k) cs).map (fun p => (.obj p.1, p.2))
      else if c.isDigit then (number (c :: cs)).map (fun p => (.num p.1, p.2))
      else literal (c :: cs) := by
  simp only [value, skipBlanks_cons hc]

section Step

variable {k : Nat}

/-- One more unit of fuel, for a value: its constructor decides. -/
theorem Reads.value_succ (h : Reads k) {v : Value} {n : Nat} {rest : List Char}
    (hk : v.cost ≤ k + 1) (hrest : Stops rest) :
    Json.value (k + 1) (write n v ++ rest) = some (v, rest) := by
  cases v with
  | null => rfl
  | bool b => cases b <;> rfl
  | num j =>
      -- A digit comes first, so it is none of the other kinds of value.
      have hnumber := number_toDigits j hrest
      rcases exists_toDigits j with ⟨c, cs, hds, hdigit⟩
      rw [hds, List.cons_append] at hnumber
      rw [write, hds, List.cons_append, value_cons (isBlank_of_isDigit hdigit),
        if_neg (isDigit_ne hdigit rfl), if_neg (isDigit_ne hdigit rfl),
        if_neg (isDigit_ne hdigit rfl), if_pos hdigit, hnumber, Option.map_some]
  | str s =>
      rw [write, quote, List.cons_append, List.cons_append, List.append_assoc,
        List.singleton_append, value_cons (by decide), if_pos rfl, readString_quote,
        Option.map_some, String.ofList_toList]
  | arr vs =>
      rw [write, List.cons_append, value_cons (by decide), if_neg (by decide), if_pos rfl]
      cases vs with
      | nil => rfl
      | cons w ws =>
          rw [Value.cost] at hk
          -- Behind the bracket there is a new line, and then the first item.
          have hskip : skipBlanks ((writeItems (n + 1) true (w :: ws) ++
              (closing n (w :: ws).isEmpty ++ [']'])) ++ rest) =
                write (n + 1) w ++ (writeItems (n + 1) false ws ++ (newline n ++ ']' :: rest)) := by
            simp only [writeItems, separator, closing, List.isEmpty_cons, Bool.false_eq_true,
              if_true, if_false, List.append_assoc, List.singleton_append]
            rw [skipBlanks_newline, skipBlanks_write]
          -- A value does not begin with a closing bracket.
          rcases exists_write (n + 1) w with ⟨c, cs, hw, _, hclose⟩
          have hitems := h.items w ws (show itemsCost (w :: ws) ≤ k by omega)
            ((congrArg skipBlanks hskip).symm.trans ((skipBlanks_skipBlanks _).trans hskip))
          rw [bracketed_open hskip (by rw [hw]; rfl) hclose, hitems, Option.map_some]
  | obj fs =>
      rw [write, List.cons_append, value_cons (by decide), if_neg (by decide),
        if_neg (by decide), if_pos rfl]
      cases fs with
      | nil => rfl
      | cons f fs =>
          rcases f with ⟨name, w⟩
          rw [Value.cost] at hk
          -- Or the name of the first field.
          have hskip : skipBlanks ((writeFields (n + 1) true ((name, w) :: fs) ++
              (closing n ((name, w) :: fs).isEmpty ++ ['}'])) ++ rest) =
                quote name ++ ':' :: ' ' :: (write (n + 1) w ++
                  (writeFields (n + 1) false fs ++ (newline n ++ '}' :: rest))) := by
            simp only [writeFields, separator, closing, List.isEmpty_cons, Bool.false_eq_true,
              if_true, if_false, List.append_assoc, List.cons_append]
            rw [skipBlanks_newline]
            exact skipBlanks_cons (by decide) _
          have hfields := h.fields name w fs (show fieldsCost ((name, w) :: fs) ≤ k by omega)
            ((congrArg skipBlanks hskip).symm.trans ((skipBlanks_skipBlanks _).trans hskip))
          rw [bracketed_open hskip rfl (by decide), hfields, Option.map_some]

/-- For items: the first is a value, and the others are items again. -/
theorem Reads.items_succ (h : Reads k) (v : Value) (vs : List Value) {n m : Nat}
    {lead rest : List Char} (hk : itemsCost (v :: vs) ≤ k + 1)
    (hlead : skipBlanks lead =
      write n v ++ (writeItems n false vs ++ (newline m ++ ']' :: rest))) :
    Json.items (k + 1) lead = some (v :: vs, rest) := by
  rw [itemsCost] at hk
  have hv := h.value (n := n) (show v.cost ≤ k by omega) (stops_items n m vs (']' :: rest))
  rw [Json.items, ← value_skipBlanks, hlead, hv, Option.bind_some]
  cases vs with
  | nil =>
      have hclose : skipBlanks (writeItems n false [] ++ (newline m ++ ']' :: rest)) =
          ']' :: rest := by
        rw [writeItems, List.nil_append, skipBlanks_newline]
        exact skipBlanks_cons (by decide) _
      simp only [hclose]
  | cons w ws =>
      have hcomma : skipBlanks (writeItems n false (w :: ws) ++ (newline m ++ ']' :: rest)) =
          ',' :: (newline n ++ (write n w ++ (writeItems n false ws ++
            (newline m ++ ']' :: rest)))) := by
        simp only [writeItems, separator, Bool.false_eq_true, if_false, List.append_assoc,
          List.cons_append]
        exact skipBlanks_cons (by decide) _
      -- The others stand behind a comma, which pays for itself.
      have hmore : Json.items k (newline n ++ (write n w ++ (writeItems n false ws ++
          (newline m ++ ']' :: rest)))) = some (w :: ws, rest) :=
        h.items w ws (by omega) ((skipBlanks_newline n _).trans (skipBlanks_write n w _))
      simp only [hcomma, hmore, Option.map_some]

/-- For fields, which have a name in front. -/
theorem Reads.fields_succ (h : Reads k) (name : String) (v : Value)
    (fs : List (String × Value)) {n m : Nat} {lead rest : List Char}
    (hk : fieldsCost ((name, v) :: fs) ≤ k + 1)
    (hlead : skipBlanks lead = quote name ++ ':' :: ' ' ::
      (write n v ++ (writeFields n false fs ++ (newline m ++ '}' :: rest)))) :
    Json.fields (k + 1) lead = some ((name, v) :: fs, rest) := by
  rw [fieldsCost] at hk
  have hv := h.value (n := n) (show v.cost ≤ k by omega) (stops_fields n m fs ('}' :: rest))
  -- There is one blank between the colon and the value.
  have hblank : ∀ cs : List Char, Json.value k (' ' :: cs) = Json.value k cs := by
    intro cs
    rw [← value_skipBlanks k (' ' :: cs), ← value_skipBlanks k cs]
    rfl
  rw [Json.fields, ← fieldName_skipBlanks, hlead, fieldName_quote]
  simp only [Option.bind_some]
  rw [hblank, hv, Option.bind_some]
  cases fs with
  | nil =>
      have hclose : skipBlanks (writeFields n false [] ++ (newline m ++ '}' :: rest)) =
          '}' :: rest := by
        rw [writeFields, List.nil_append, skipBlanks_newline]
        exact skipBlanks_cons (by decide) _
      simp only [hclose]
  | cons f fs =>
      rcases f with ⟨name', w⟩
      have hcomma : skipBlanks (writeFields n false ((name', w) :: fs) ++
          (newline m ++ '}' :: rest)) =
            ',' :: (newline n ++ (quote name' ++ ':' :: ' ' :: (write n w ++
              (writeFields n false fs ++ (newline m ++ '}' :: rest))))) := by
        simp only [writeFields, separator, Bool.false_eq_true, if_false, List.append_assoc,
          List.cons_append]
        exact skipBlanks_cons (by decide) _
      have hskip : skipBlanks (quote name' ++ ':' :: ' ' :: (write n w ++
          (writeFields n false fs ++ (newline m ++ '}' :: rest)))) =
            quote name' ++ ':' :: ' ' :: (write n w ++
              (writeFields n false fs ++ (newline m ++ '}' :: rest))) :=
        skipBlanks_cons (by decide) _
      have hmore : Json.fields k (newline n ++ (quote name' ++ ':' :: ' ' :: (write n w ++
          (writeFields n false fs ++ (newline m ++ '}' :: rest))))) =
            some ((name', w) :: fs, rest) :=
        h.fields name' w fs (by omega) ((skipBlanks_newline n _).trans hskip)
      simp only [hcomma, hmore, Option.map_some]

end Step

/-- Any fuel reads back what costs no more, by induction on the fuel. -/
theorem reads (k : Nat) : Reads k := by
  induction k with
  | zero =>
      refine ⟨?_, ?_, ?_⟩
      · intro v n rest hk
        cases v <;> exact absurd hk (by simp only [Value.cost]; omega)
      · intro v vs n m lead rest hk
        exact absurd hk (by simp only [itemsCost]; omega)
      · intro name v fs n m lead rest hk
        exact absurd hk (by simp only [fieldsCost]; omega)
  | succ k ih => exact ⟨ih.value_succ, ih.items_succ, ih.fields_succ⟩

/-- A value that was written is read back in front of anything that does not go
    on a number. -/
theorem value_write {v : Value} {n k : Nat} {rest : List Char} (hk : v.cost ≤ k)
    (hrest : Stops rest) : value k (write n v ++ rest) = some (v, rest) :=
  (reads k).value hk hrest

/-! ## Texts -/

mutual

/-- A value costs no more than the characters it is written with. -/
theorem cost_le (n : Nat) : ∀ v : Value, v.cost ≤ (write n v).length
  | .null => Nat.succ_pos 3
  | .bool true => Nat.succ_pos 3
  | .bool false => Nat.succ_pos 4
  | .num k => by
      rw [Value.cost, write]
      exact Nat.length_toDigits_pos
  | .str s => by
      rw [Value.cost, write, quote, List.cons_append, List.length_cons]
      omega
  | .arr vs => by
      have hvs := itemsCost_le (n + 1) true vs
      rw [Value.cost, write, List.length_cons, List.length_append]
      omega
  | .obj fields => by
      have hfields := fieldsCost_le (n + 1) true fields
      rw [Value.cost, write, List.length_cons, List.length_append]
      omega

theorem itemsCost_le (n : Nat) (first : Bool) : ∀ vs : List Value,
    itemsCost vs ≤ (writeItems n first vs).length
  | [] => Nat.le_refl 0
  | v :: vs => by
      have hv := cost_le n v
      have hvs := itemsCost_le n false vs
      have hsep := separator_pos n first
      rw [itemsCost, writeItems, List.length_append, List.length_append]
      omega

theorem fieldsCost_le (n : Nat) (first : Bool) : ∀ fields : List (String × Value),
    fieldsCost fields ≤ (writeFields n first fields).length
  | [] => Nat.le_refl 0
  | (name, v) :: fields => by
      have hv := cost_le n v
      have hfields := fieldsCost_le n false fields
      have hsep := separator_pos n first
      rw [fieldsCost, writeFields, List.length_append, List.length_append, List.length_cons,
        List.length_cons, List.length_append]
      omega

end

theorem pretty_lawful : Printer.Lawful pretty := by
  intro v
  have hcost : v.cost ≤ (write 0 v).length + 1 := Nat.le_succ_of_le (cost_le 0 v)
  have hstops : Stops [] := fun c hc => absurd hc (by simp only [List.head?_nil, Option.mem_def,
    reduceCtorEq, not_false_eq_true])
  have hvalue := value_write (n := 0) hcost hstops
  rw [List.append_nil] at hvalue
  unfold read pretty
  rw [String.toList_ofList, hvalue]
  rfl

/-! ## Taking values apart -/

namespace Value

/-- The field of an object with this name. -/
def get (name : String) : Value → Option Value
  | .obj fields => fields.lookup name
  | _ => none

def asStr : Value → Option String
  | .str s => some s
  | _ => none

def asNat : Value → Option Nat
  | .num n => some n
  | _ => none

def asBool : Value → Option Bool
  | .bool b => some b
  | _ => none

/-- The items of an array, each read. -/
def asList {α : Type} (item : Value → Option α) : Value → Option (List α)
  | .arr vs => vs.mapM item
  | _ => none

/-- What may be absent, and then is `null`. -/
def asOption {α : Type} (item : Value → Option α) : Value → Option (Option α)
  | .null => some none
  | v => (item v).map some

/-- The other direction of `asOption`. -/
def nullable {α : Type} (value : α → Value) : Option α → Value
  | none => .null
  | some a => value a

theorem asList_map {α : Type} {item : Value → Option α} {value : α → Value}
    (h : ∀ a, item (value a) = some a) (l : List α) :
    asList item (.arr (l.map value)) = some l := by
  show (l.map value).mapM item = some l
  induction l with
  | nil => rfl
  | cons a as ih =>
      rw [List.map_cons, List.mapM_cons, h, ih]
      rfl

theorem asOption_nullable {α : Type} {item : Value → Option α} {value : α → Value}
    (h : ∀ a, item (value a) = some a) (hnull : ∀ a, value a ≠ .null) (o : Option α) :
    asOption item (nullable value o) = some o := by
  cases o with
  | none => rfl
  | some a =>
      unfold nullable asOption
      split
      · next hv => exact absurd hv (hnull a)
      · rw [h, Option.map_some]

end Value

end Json
