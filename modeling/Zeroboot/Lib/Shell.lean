import Mathlib.Data.List.Basic
import Mathlib.Tactic.Common

/-!
# Evaluating Text in a Shell

What a POSIX shell does with a text it evaluates, as far as the quoting rules
alone decide it. `scan` takes the text apart one character at a time, in one
of five quoting states, into commands made of words, each character of a word
marked as quoted or not. `effects` then says what a command does: assign, when
every word is an assignment, and run something otherwise.

`eval` answers `none` as soon as the text does anything the quoting rules do
not settle: an expansion, a redirection, a pipeline, a pattern, a quote left
open, or a character no text can hold. An answer is therefore complete. If it
is a list of assignments, then evaluating the text assigns those values in
that order and does nothing else.

The way to make one word of any text is `spliced`: single quotes around it,
each quote inside it closing them, standing alone behind a backslash, and
opening them again. `scan_spliced` follows a spliced text through the three
states this passes through, and `eval_assignments` evaluates a list of lines
built that way.

## Main definitions

* `Mode`: The quoting states.
* `scan`: A text, taken apart into commands.
* `Effect`, `effects`: What a command does.
* `eval`: What evaluating a text does.
* `valueOf`: The value a variable is left with.
* `spliced`, `quoted`: A text made into one word.
* `IsName`: A name that can be assigned to.

## Theorems

* `scan_plain`: Plain characters extend the word.
* `scan_spliced`: A spliced text is literal inside single quotes.
* `scan_assignment`: One line that assigns one quoted value.
* `effects_assignment`: Such a line assigns and does nothing else.
* `eval_assignments`: A list of such lines.
-/

namespace Shell

/-- Where in a text the scan is: between words, inside a word, behind a
    backslash, or inside quotes of either kind. -/
inductive Mode where
  | between
  | bare
  | escape (inWord : Bool)
  | single
  | double
  | doubleEscape
  deriving DecidableEq

/-- A word: its characters, and which of them were quoted. -/
abbrev Word := List (Char × Bool)

/-- Characters that stand for themselves outside quotes, wherever they are in
    a word. -/
def isPlain (c : Char) : Bool :=
  c.isAlphanum || c == '_' || c == '=' || c == '-' || c == '.' || c == '/' || c == ':' ||
    c == ',' || c == '+' || c == '@' || c == '%'

/-- Take a text apart into commands. `word` and `cmd` are what has been read
    of the current word and command, backwards. -/
def scan : Mode → Word → List Word → List Char → Option (List (List Word))
  | .between, _, cmd, [] => some [cmd.reverse]
  | .bare, word, cmd, [] => some [(word.reverse :: cmd).reverse]
  | _, _, _, [] => none
  | .between, _, cmd, c :: cs =>
      if c = ' ' ∨ c = '\t' then scan .between [] cmd cs
      else if c = '\n' then (scan .between [] [] cs).map (cmd.reverse :: ·)
      else if c = '\'' then scan .single [] cmd cs
      else if c = '"' then scan .double [] cmd cs
      else if c = '\\' then scan (.escape false) [] cmd cs
      else if isPlain c then scan .bare [(c, false)] cmd cs
      else none
  | .bare, word, cmd, c :: cs =>
      if c = ' ' ∨ c = '\t' then scan .between [] (word.reverse :: cmd) cs
      else if c = '\n' then
        (scan .between [] [] cs).map ((word.reverse :: cmd).reverse :: ·)
      else if c = '\'' then scan .single word cmd cs
      else if c = '"' then scan .double word cmd cs
      else if c = '\\' then scan (.escape true) word cmd cs
      else if isPlain c then scan .bare ((c, false) :: word) cmd cs
      else none
  | .escape inWord, word, cmd, c :: cs =>
      if c = '\x00' then none
      else if c = '\n' then scan (if inWord then .bare else .between) word cmd cs
      else scan .bare ((c, true) :: word) cmd cs
  | .single, word, cmd, c :: cs =>
      if c = '\x00' then none
      else if c = '\'' then scan .bare word cmd cs
      else scan .single ((c, true) :: word) cmd cs
  | .double, word, cmd, c :: cs =>
      if c = '\x00' ∨ c = '$' ∨ c = (Char.ofNat 0x60) then none
      else if c = '"' then scan .bare word cmd cs
      else if c = '\\' then scan .doubleEscape word cmd cs
      else scan .double ((c, true) :: word) cmd cs
  | .doubleEscape, word, cmd, c :: cs =>
      if c = '\x00' then none
      else if c = '\n' then scan .double word cmd cs
      else if c = '$' ∨ c = (Char.ofNat 0x60) ∨ c = '"' ∨ c = '\\' then
        scan .double ((c, true) :: word) cmd cs
      else scan .double ((c, true) :: ('\\', true) :: word) cmd cs

/-- What a command does. -/
inductive Effect where
  | assign (name value : String)
  | run (words : List String)
  deriving DecidableEq

def isNameStart (c : Char) : Bool :=
  c.isAlpha || c == '_'

def isNameChar (c : Char) : Bool :=
  c.isAlphanum || c == '_'

/-- The text of a word, once its quotes are gone. -/
def text (w : Word) : String :=
  String.ofList (w.map Prod.fst)

/-- The characters a word starts with that could be part of a name. -/
def namePart (w : Word) : Word :=
  w.takeWhile (fun p => !p.2 && isNameChar p.1)

/-- A word is an assignment when it starts with an unquoted name and an
    unquoted equals sign. -/
def assignment (w : Word) : Option (String × String) :=
  match namePart w, w.drop (namePart w).length with
  | (c, b) :: name, ('=', false) :: value =>
      if isNameStart c then some (text ((c, b) :: name), text value) else none
  | _, _ => none

/-- What a command does: it assigns when every word is an assignment. -/
def effects (cmd : List Word) : List Effect :=
  if cmd.all (fun w => (assignment w).isSome) then
    (cmd.filterMap assignment).map (fun p => .assign p.1 p.2)
  else [.run (cmd.map text)]

/-- What evaluating a text does, when the quoting rules settle it. -/
def eval (s : String) : Option (List Effect) :=
  (scan .between [] [] s.toList).map (fun cmds => cmds.flatMap effects)

/-- The value a variable is left with. -/
def valueOf (name : String) (es : List Effect) : Option String :=
  es.foldl (fun v e => match e with
    | .assign n value => if n = name then some value else v
    | .run _ => v) none

/-- A text with each single quote closed around, escaped and reopened. -/
def spliced (cs : List Char) : List Char :=
  cs.flatMap (fun c => if c = '\'' then ['\'', '\\', '\'', '\''] else [c])

/-- A text made into one word. -/
def quoted (cs : List Char) : List Char :=
  '\'' :: spliced cs ++ ['\'']

/-- A name that can be assigned to. -/
def IsName (cs : List Char) : Bool :=
  (cs.head?.any isNameStart) && cs.all isNameChar

theorem isPlain_of_isNameChar {c : Char} (h : isNameChar c = true) : isPlain c = true := by
  unfold isNameChar at h
  unfold isPlain
  simp only [Bool.or_eq_true] at h
  rcases h with h | h
  · simp only [h, Bool.true_or]
  · simp only [h, Bool.or_true, Bool.true_or]

/-- A plain character is none of the characters the scan looks for. -/
theorem isPlain_ne {c : Char} (h : isPlain c = true) :
    c ≠ ' ' ∧ c ≠ '\t' ∧ c ≠ '\n' ∧ c ≠ '\'' ∧ c ≠ '"' ∧ c ≠ '\\' := by
  refine ⟨?_, ?_, ?_, ?_, ?_, ?_⟩ <;>
  · rintro rfl
    exact absurd h (by decide)

theorem scan_between_plain {c : Char} (h : isPlain c = true) (cmd : List Word) (cs : List Char) :
    scan .between [] cmd (c :: cs) = scan .bare [(c, false)] cmd cs := by
  rcases isPlain_ne h with ⟨h1, h2, h3, h4, h5, h6⟩
  rw [scan, if_neg (by simp only [h1, h2, or_self, not_false_eq_true]), if_neg h3, if_neg h4,
    if_neg h5, if_neg h6, if_pos h]

theorem scan_bare_plain {c : Char} (h : isPlain c = true) (word : Word) (cmd : List Word)
    (cs : List Char) :
    scan .bare word cmd (c :: cs) = scan .bare ((c, false) :: word) cmd cs := by
  rcases isPlain_ne h with ⟨h1, h2, h3, h4, h5, h6⟩
  rw [scan, if_neg (by simp only [h1, h2, or_self, not_false_eq_true]), if_neg h3, if_neg h4,
    if_neg h5, if_neg h6, if_pos h]

/-- Plain characters extend the word they stand in. -/
theorem scan_plain {pre : List Char} (h : ∀ c ∈ pre, isPlain c = true) (word : Word)
    (cmd : List Word) (cs : List Char) :
    scan .bare word cmd (pre ++ cs) =
      scan .bare ((pre.map (·, false)).reverse ++ word) cmd cs := by
  induction pre generalizing word with
  | nil => rfl
  | cons c pre ih =>
      rw [List.cons_append, scan_bare_plain (h c List.mem_cons_self),
        ih (fun d hd => h d (List.mem_cons_of_mem c hd)), List.map_cons, List.reverse_cons,
        List.append_assoc, List.singleton_append]

/-- A spliced text adds itself to the word, every character quoted. A quote
    in it passes through the bare and the escaped state and comes back. -/
theorem scan_spliced {v : List Char} (h : '\x00' ∉ v) (word : Word) (cmd : List Word)
    (cs : List Char) :
    scan .single word cmd (spliced v ++ cs) =
      scan .single ((v.map (·, true)).reverse ++ word) cmd cs := by
  induction v generalizing word with
  | nil => rfl
  | cons c v ih =>
      have hc : c ≠ '\x00' := fun hc => h (hc ▸ List.mem_cons_self)
      have hv : '\x00' ∉ v := fun hm => h (List.mem_cons_of_mem c hm)
      -- The new character joins the word first, which the induction is general in.
      have hword : (((c :: v).map (·, true)).reverse ++ word : Word) =
          (v.map (·, true)).reverse ++ (c, true) :: word := by
        rw [List.map_cons, List.reverse_cons, List.append_assoc, List.singleton_append]
      rw [hword, ← ih hv]
      by_cases hq : c = '\''
      · -- Close, escape, reopen: back inside the quotes with the quote added.
        subst hq
        simp only [spliced, List.flatMap_cons, if_true, List.cons_append, List.nil_append, scan,
          Char.reduceEq, if_false, or_self]
      · simp only [spliced, List.flatMap_cons, if_neg hq, List.cons_append, List.nil_append, scan,
          if_neg hc]

/-- The word of a line that assigns a quoted value to a name. -/
def assignWord (name value : List Char) : Word :=
  name.map (·, false) ++ ('=', false) :: value.map (·, true)

/-- One line that assigns one quoted value is one command of one word. -/
theorem scan_assignment {name value : List Char} (hn : IsName name = true) (hv : '\x00' ∉ value)
    (rest : List Char) :
    scan .between [] [] (name ++ '=' :: quoted value ++ '\n' :: rest) =
      (scan .between [] [] rest).map ([assignWord name value] :: ·) := by
  rw [IsName, Bool.and_eq_true, List.all_eq_true] at hn
  have hplain : ∀ c ∈ name, isPlain c = true := fun c hc => isPlain_of_isNameChar (hn.2 c hc)
  rcases name with _ | ⟨c, name⟩
  · simp only [List.head?_nil, Option.any_none, Bool.false_eq_true, false_and] at hn
  · -- The name and the equals sign are plain; the value is spliced.
    have hrest : ∀ d ∈ name ++ ['='], isPlain d = true := by
      intro d hd
      rcases List.mem_append.mp hd with hd | hd
      · exact hplain d (List.mem_cons_of_mem c hd)
      · rw [List.mem_singleton.mp hd]
        decide
    have hsplit : c :: name ++ '=' :: quoted value ++ '\n' :: rest =
        c :: ((name ++ ['=']) ++ ('\'' :: (spliced value ++ ('\'' :: '\n' :: rest)))) := by
      simp only [quoted, List.cons_append, List.append_assoc, List.nil_append]
    rw [hsplit, scan_between_plain (hplain c List.mem_cons_self), scan_plain hrest]
    simp only [scan, Char.reduceEq, or_self, if_false, if_true]
    rw [scan_spliced hv]
    simp only [scan, Char.reduceEq, or_self, if_false, if_true]
    have hword : (((value.map (·, true)).reverse ++
        (((name ++ ['=']).map (·, false)).reverse ++ [(c, false)])).reverse : Word) =
        assignWord (c :: name) value := by
      simp only [assignWord, List.map_append, List.map_cons, List.map_nil, List.reverse_append,
        List.reverse_cons, List.reverse_nil, List.nil_append, List.reverse_reverse,
        List.append_assoc, List.cons_append]
    rw [hword]
    rfl

theorem namePart_assignWord {name : List Char} (h : ∀ c ∈ name, isNameChar c = true)
    (value : List Char) : namePart (assignWord name value) = name.map (·, false) := by
  unfold namePart assignWord
  rw [List.takeWhile_append_of_pos]
  -- The equals sign is no name character, so the name stops there.
  · rw [List.takeWhile_cons_of_neg (by decide), List.append_nil]
  · intro p hp
    rcases List.mem_map.mp hp with ⟨c, hc, rfl⟩
    simp only [Bool.not_false, Bool.true_and, h c hc]

theorem text_map (b : Bool) (cs : List Char) : text (cs.map (·, b)) = String.ofList cs := by
  simp only [text, List.map_map, Function.comp_def, List.map_id']

theorem assignment_assignWord {name value : List Char} (hn : IsName name = true) :
    assignment (assignWord name value) = some (String.ofList name, String.ofList value) := by
  rw [IsName, Bool.and_eq_true, List.all_eq_true] at hn
  have hname := namePart_assignWord hn.2 value
  have hdrop : (assignWord name value).drop (namePart (assignWord name value)).length =
      ('=', false) :: value.map (·, true) := by
    rw [hname, assignWord, List.drop_left]
  unfold assignment
  rw [hdrop, hname]
  rcases name with _ | ⟨c, name⟩
  · simp only [List.head?_nil, Option.any_none, Bool.false_eq_true, false_and] at hn
  · have hc : isNameStart c = true := by
      simpa only [List.head?_cons, Option.any_some] using hn.1
    simp only [List.map_cons, if_pos hc]
    rw [text_map, ← List.map_cons (f := fun d => (d, false)), text_map]

/-- Such a line assigns its value and does nothing else. -/
theorem effects_assignment {name value : List Char} (hn : IsName name = true) :
    effects [assignWord name value] =
      [.assign (String.ofList name) (String.ofList value)] := by
  simp only [effects, List.all_cons, List.all_nil, assignment_assignWord hn, Option.isSome_some,
    Bool.and_true, if_true, List.filterMap_cons, List.filterMap_nil, List.map_cons, List.map_nil]

/-- The lines that assign a list of quoted values. -/
def assignLines (ps : List (List Char × List Char)) : List Char :=
  ps.flatMap (fun p => p.1 ++ '=' :: quoted p.2 ++ ['\n'])

/-- Evaluating such lines assigns the values in order and does nothing
    else. -/
theorem eval_assignments {ps : List (List Char × List Char)}
    (hn : ∀ p ∈ ps, IsName p.1 = true) (hv : ∀ p ∈ ps, '\x00' ∉ p.2) :
    eval (String.ofList (assignLines ps)) =
      some (ps.map (fun p => .assign (String.ofList p.1) (String.ofList p.2))) := by
  unfold eval
  rw [String.toList_ofList]
  -- Each line is a command of its own, and the text ends with an empty one.
  have hscan : scan .between [] [] (assignLines ps) =
      some (ps.map (fun p => [assignWord p.1 p.2]) ++ [[]]) := by
    induction ps with
    | nil => rfl
    | cons p ps ih =>
        have hrec := ih (fun q hq => hn q (List.mem_cons_of_mem p hq))
          (fun q hq => hv q (List.mem_cons_of_mem p hq))
        have hline : assignLines (p :: ps) =
            p.1 ++ '=' :: quoted p.2 ++ '\n' :: assignLines ps := by
          simp only [assignLines, List.flatMap_cons, List.append_assoc, List.cons_append,
            List.nil_append]
        rw [hline, scan_assignment (hn p List.mem_cons_self) (hv p List.mem_cons_self), hrec]
        rfl
  rw [hscan, Option.map_some, List.flatMap_append]
  -- The empty command at the end has no effect.
  have heffects : (ps.map (fun p => [assignWord p.1 p.2])).flatMap effects =
      ps.map (fun p => .assign (String.ofList p.1) (String.ofList p.2)) := by
    clear hscan hv
    induction ps with
    | nil => rfl
    | cons p ps ih =>
        rw [List.map_cons, List.flatMap_cons, effects_assignment (hn p List.mem_cons_self),
          ih (fun q hq => hn q (List.mem_cons_of_mem p hq)), List.map_cons, List.singleton_append]
  rw [heffects]
  simp only [List.flatMap_cons, List.flatMap_nil, effects, List.all_nil, if_true,
    List.filterMap_nil, List.map_nil, List.append_nil]

end Shell
