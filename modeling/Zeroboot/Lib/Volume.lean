import Zeroboot.Lib.Text

/-!
# Mounted File Volumes

A FAT-like volume as a program sees it through a driver: paths are opened,
directories are listed, files are created, cut, written and flushed. The
driver itself is a parameter. `Ops` is what can be called and `Lawful` is what
its documentation promises about calls that succeed, so nothing here depends
on how a volume is laid out on its medium.

The one subtle point is naming. A volume may know one file under several
paths: names compare without regard to case, and a long name has a short form
beside it. `openFile` therefore answers with a node, and two paths name one
file when they answer with the same node. A program that writes one path and
reads another has to know the two are different files, and `Apart` is when
that is certain: both paths are plain and differ in more than case, or they
lie in different plain directories.

`Replaced` is the effect of the usual way to replace a small file: open it or
create it, cut it to nothing, write the new text, flush. Every other path
keeps its node, every other node keeps its bytes, and the listing of every
other directory is the same. `Holds` and `Absent` are the two facts a sequence
of creations carries along.

`Memory` is a volume kept as a list of paths and their bytes. It satisfies
every law, so the laws can be met, and it can be evaluated.

## Main definitions

* `Entry`: One entry of a directory listing.
* `Ops`: The calls a driver offers.
* `Apart`, `ApartDir`: Paths that cannot name one file or directory.
* `Untouched`: A call that changed the bytes of at most one node.
* `Ops.Lawful`: What the driver promises.
* `Ops.OpensExisting`: And that creating a file that is there adds no name.
* `Replaced`: A file replaced, and nothing else.
* `contentOf`: What a path reads as.
* `Memory`: A volume in memory.

## Theorems

* `replaced_of_calls`: Create, cut, write and flush replace a file.
* `Replaced.contentOf_apart`: A path apart from the replaced one reads as it
  did.
* `memory_lawful`, `memory_opensExisting`: The volume in memory is lawful.
-/

namespace Volume

/-- One entry of a directory listing. A name is one path component. -/
structure Entry where
  fileName : String
  isDir : Bool
  noSlash : '/' ∉ fileName.toList

/-- The calls a driver offers on a volume of type `V` with files of type
    `N`. Reading calls answer `none` when they fail; a call that may write
    answers with the volume it leaves behind, whether it succeeds or not. -/
structure Ops (V N : Type) where
  format : UInt64 → Except String V
  openFile : V → String → Option N
  readToEnd : V → N → Option (List UInt8)
  openDir : V → String → Option (List (Option Entry))
  createDir : V → String → V × Except String Unit
  createFile : V → String → V × Except String N
  truncate : V → N → Nat → V × Except String Unit
  writeAll : V → N → Nat → List UInt8 → V × Except String Unit
  flush : V → N → V × Except String Unit

/-- The directory part of a path, empty for the root. -/
def dirOf (p : String) : String :=
  match Text.rsplitOnce '/' p with
  | some (d, _) => d
  | none => ""

/-- The last component of a path. -/
def nameOf (p : String) : String :=
  match Text.rsplitOnce '/' p with
  | some (_, n) => n
  | none => p

/-- A character that stands for itself in a name, whatever the code page. -/
def plainChar (c : Char) : Bool :=
  c.isAlphanum || c == '.' || c == '-' || c == '_'

/-- A component with no short form other than its own upper case: plain
    characters only, and no dot at either end. -/
def plainName (cs : List Char) : Bool :=
  cs.all plainChar && cs.head? != none && cs.head? != some '.' && cs.getLast? != some '.'

/-- A path all of whose components are plain. -/
def plainPath (p : String) : Bool :=
  (p.toList.splitOn '/').all plainName

/-- Directories that cannot be one directory. -/
def ApartDir (d e : String) : Bool :=
  (d == "" || plainPath d) && (e == "" || plainPath e) &&
    Text.toAsciiLowercase d != Text.toAsciiLowercase e

/-- Paths that cannot name one file. -/
def Apart (p q : String) : Bool :=
  (plainPath p && plainPath q && Text.toAsciiLowercase p != Text.toAsciiLowercase q) ||
    ApartDir (dirOf p) (dirOf q)

variable {V N : Type}

/-- A call that changed the bytes of at most one node and no name. -/
structure Untouched (F : Ops V N) (v v' : V) (n : N) : Prop where
  openFile : ∀ q, F.openFile v' q = F.openFile v q
  openDir : ∀ d, F.openDir v' d = F.openDir v d
  readToEnd : ∀ m, m ≠ n → F.readToEnd v' m = F.readToEnd v m

/-- What the driver promises about the calls that succeed. -/
structure Ops.Lawful (F : Ops V N) : Prop where
  /-- A freshly formatted volume has a root and nothing in it. -/
  format_openFile : ∀ {size v}, F.format size = .ok v → ∀ q, F.openFile v q = none
  format_openDir : ∀ {size v}, F.format size = .ok v → ∀ d, d ≠ "" → F.openDir v d = none
  /-- Paths that cannot name one file do not. -/
  apart : ∀ {v p q n m}, Apart p q = true → F.openFile v p = some n →
    F.openFile v q = some m → n ≠ m
  /-- Creating a directory is about that directory and its parent's listing. -/
  createDir_openFile : ∀ v d q, F.openFile (F.createDir v d).1 q = F.openFile v q
  createDir_readToEnd : ∀ v d m, F.readToEnd (F.createDir v d).1 m = F.readToEnd v m
  createDir_openDir : ∀ v d q, ApartDir q d = true → ApartDir q (dirOf d) = true →
    F.openDir (F.createDir v d).1 q = F.openDir v q
  /-- A new directory lists itself and its parent at most. -/
  createDir_new : ∀ {v d v'}, F.openDir v d = none → F.createDir v d = (v', .ok ()) →
    ∃ es, F.openDir v' d = some es ∧ ∀ e, some e ∈ es → e.isDir = true
  /-- Creating a file opens it when it is there and makes it when it is not. -/
  createFile_self : ∀ {v p v' n}, F.createFile v p = (v', .ok n) → F.openFile v' p = some n
  createFile_openFile : ∀ {v p v' n}, F.createFile v p = (v', .ok n) → ∀ q,
    F.openFile v' q = F.openFile v q ∨ F.openFile v q = none ∧ F.openFile v' q = some n
  createFile_old : ∀ {v p v' n m}, F.openFile v p = some m → F.createFile v p = (v', .ok n) →
    n = m ∧ ∀ k, F.readToEnd v' k = F.readToEnd v k
  createFile_new : ∀ {v p v' n}, F.openFile v p = none → F.createFile v p = (v', .ok n) →
    F.readToEnd v' n = some [] ∧
      ∀ q m, F.openFile v q = some m → m ≠ n ∧ F.readToEnd v' m = F.readToEnd v m
  createFile_openDir : ∀ {v p v' n d}, F.createFile v p = (v', .ok n) →
    ApartDir d (dirOf p) = true → F.openDir v' d = F.openDir v d
  createFile_entry : ∀ {v p v' n es}, F.openFile v p = none → F.createFile v p = (v', .ok n) →
    F.openDir v (dirOf p) = some es → ∃ es', F.openDir v' (dirOf p) = some es' ∧
      ∀ e, some e ∈ es' ↔ some e ∈ es ∨ e.fileName = nameOf p ∧ e.isDir = false
  /-- Cutting keeps what precedes the position. -/
  truncate_untouched : ∀ {v n k v'}, F.truncate v n k = (v', .ok ()) → Untouched F v v' n
  truncate_readToEnd : ∀ {v n v'}, F.truncate v n 0 = (v', .ok ()) → F.readToEnd v' n = some []
  /-- Writing replaces bytes from the position on. -/
  writeAll_untouched : ∀ {v n k bs v'}, F.writeAll v n k bs = (v', .ok ()) → Untouched F v v' n
  writeAll_readToEnd : ∀ {v n k bs v' old}, F.writeAll v n k bs = (v', .ok ()) →
    F.readToEnd v n = some old → k ≤ old.length →
      F.readToEnd v' n = some (old.take k ++ bs ++ old.drop (k + bs.length))
  /-- Flushing changes nothing that can be read. -/
  flush_untouched : ∀ {v n v'}, F.flush v n = (v', .ok ()) → Untouched F v v' n
  flush_readToEnd : ∀ {v n v'}, F.flush v n = (v', .ok ()) → F.readToEnd v' n = F.readToEnd v n

/-- Creating a file that is there opens it: every path names what it did. -/
def Ops.OpensExisting (F : Ops V N) : Prop :=
  ∀ v p n, F.openFile v p = some n → ∀ q, F.openFile (F.createFile v p).1 q = F.openFile v q

theorem Untouched.trans {F : Ops V N} {a b c : V} {n : N} (h1 : Untouched F a b n)
    (h2 : Untouched F b c n) : Untouched F a c n where
  openFile q := (h2.openFile q).trans (h1.openFile q)
  openDir d := (h2.openDir d).trans (h1.openDir d)
  readToEnd m hm := (h2.readToEnd m hm).trans (h1.readToEnd m hm)

/-! ## Replacing one file -/

/-- One file replaced: it reads back as `bs`, every path that named something
    names the same node, the other nodes keep their bytes, and the listings
    of other directories are the same. -/
structure Replaced (F : Ops V N) (v v' : V) (p : String) (bs : List UInt8) : Prop where
  self : ∃ n, F.openFile v' p = some n ∧ F.readToEnd v' n = some bs
  others : ∀ q m, F.openFile v q = some m → F.openFile v' q = some m ∧
    (F.openFile v' p = some m ∨ F.readToEnd v' m = F.readToEnd v m)
  fresh : ∀ q, F.openFile v q = none → F.openFile v' q = none ∨
    F.openFile v' q = F.openFile v' p
  openDir : ∀ d, ApartDir d (dirOf p) = true → F.openDir v' d = F.openDir v d

theorem replaced_of_calls {F : Ops V N} (hF : F.Lawful) {v v1 v2 v3 v4 : V} {p : String} {n : N}
    {bs : List UInt8} (h1 : F.createFile v p = (v1, .ok n)) (h2 : F.truncate v1 n 0 = (v2, .ok ()))
    (h3 : F.writeAll v2 n 0 bs = (v3, .ok ())) (h4 : F.flush v3 n = (v4, .ok ())) :
    Replaced F v v4 p bs := by
  -- From the creation on, only the bytes of the node change.
  have hunt : Untouched F v1 v4 n :=
    (hF.truncate_untouched h2).trans ((hF.writeAll_untouched h3).trans (hF.flush_untouched h4))
  have hself : F.openFile v4 p = some n := by
    rw [hunt.openFile, hF.createFile_self h1]
  have hread : F.readToEnd v4 n = some bs := by
    rw [hF.flush_readToEnd h4,
      hF.writeAll_readToEnd h3 (hF.truncate_readToEnd h2) (Nat.zero_le _)]
    simp only [List.take_nil, List.nil_append, List.drop_nil, List.append_nil]
  refine ⟨⟨n, hself, hread⟩, ?_, ?_, ?_⟩
  -- A path that named a file names it still, and its bytes are the old ones unless
  -- it names the replaced file.
  · intro q m hq
    have hq1 : F.openFile v1 q = some m := by
      rcases hF.createFile_openFile h1 q with h | ⟨hnone, _⟩
      · rw [h, hq]
      · rw [hq] at hnone
        exact absurd hnone (by simp only [reduceCtorEq, not_false_eq_true])
    refine ⟨by rw [hunt.openFile, hq1], ?_⟩
    by_cases hmn : m = n
    · exact Or.inl (by rw [hmn, hself])
    · refine Or.inr ?_
      rw [hunt.readToEnd m hmn]
      rcases hp : F.openFile v p with _ | k
      · exact ((hF.createFile_new hp h1).2 q m hq).2
      · exact (hF.createFile_old hp h1).2 m
  -- A path that named nothing can have come to name the new file only.
  · intro q hq
    rw [hunt.openFile, hself]
    rcases hF.createFile_openFile h1 q with h | ⟨_, h⟩
    · exact Or.inl (by rw [h, hq])
    · exact Or.inr h
  · intro d hd
    rw [hunt.openDir, hF.createFile_openDir h1 hd]

/-- What a path reads as. -/
def contentOf (F : Ops V N) (v : V) (p : String) : Option (List UInt8) :=
  (F.openFile v p).bind (F.readToEnd v)

theorem contentOf_createDir {F : Ops V N} (hF : F.Lawful) (v : V) (d p : String) :
    contentOf F (F.createDir v d).1 p = contentOf F v p := by
  unfold contentOf
  rw [hF.createDir_openFile]
  congr 1
  funext n
  exact hF.createDir_readToEnd v d n

theorem Replaced.contentOf_self {F : Ops V N} {v v' : V} {p : String} {bs : List UInt8}
    (hr : Replaced F v v' p bs) : contentOf F v' p = some bs := by
  rcases hr.self with ⟨n, ho, hb⟩
  unfold contentOf
  rw [ho, Option.bind_some, hb]

/-- A path apart from the replaced one reads as it did. -/
theorem Replaced.contentOf_apart {F : Ops V N} (hF : F.Lawful) {v v' : V} {p q : String}
    {bs : List UInt8} (hr : Replaced F v v' p bs) (hqp : Apart q p = true) :
    contentOf F v' q = contentOf F v q := by
  rcases hr.self with ⟨n, hself, _⟩
  unfold contentOf
  rcases hq : F.openFile v q with _ | m
  · rcases hr.fresh q hq with hnone | hsame
    · rw [hnone, Option.bind_none, Option.bind_none]
    · -- A new name of the replaced file is not apart from it.
      rw [hself] at hsame
      exact absurd rfl (hF.apart hqp hsame hself)
  · rcases hr.others q m hq with ⟨hq', hp | hkeep⟩
    · exact absurd rfl (hF.apart hqp hq' hp)
    · rw [hq', Option.bind_some, Option.bind_some, hkeep]

/-- Any path that read as something still does: as it did, or as the
    replacement. -/
theorem Replaced.contentOf_old {F : Ops V N} {v v' : V} {p q : String} {bs old : List UInt8}
    (hr : Replaced F v v' p bs) (hq : contentOf F v q = some old) :
    contentOf F v' q = some old ∨ contentOf F v' q = some bs := by
  rcases Option.bind_eq_some_iff.mp hq with ⟨m, hopen, hread⟩
  rcases hr.others q m hopen with ⟨hq', hp | hkeep⟩
  -- The path is another name of the replaced file.
  · refine Or.inr ?_
    have hself := hr.contentOf_self
    unfold contentOf at hself ⊢
    rwa [hp, ← hq'] at hself
  · refine Or.inl ?_
    unfold contentOf
    rw [hq', Option.bind_some, hkeep, hread]

/-! ## A volume in memory -/

theorem nameOf_noSlash (p : String) : '/' ∉ (nameOf p).toList := by
  unfold nameOf Text.rsplitOnce Text.rsplitOnceChars
  rcases hs : Text.splitOnceChars '/' p.toList.reverse with _ | ⟨a, b⟩
  · simp only [Option.map_none]
    exact fun hm => Text.splitOnceChars_eq_none_iff.mp hs (List.mem_reverse.mpr hm)
  -- The part behind the last slash is the part before the first one, backwards.
  · simp only [Option.map_some, String.toList_ofList, List.mem_reverse]
    exact (Text.eq_of_splitOnceChars hs).2

/-- A volume kept as its directories, its files and their bytes. Every file
    lies in the root or in a directory that is there. -/
structure Memory where
  dirs : List String
  files : List String
  data : String → List UInt8
  rooted : ∀ p ∈ files, dirOf p = "" ∨ dirOf p ∈ dirs

namespace Memory

def empty : Memory where
  dirs := []
  files := []
  data := fun _ => []
  rooted := fun _ hp => absurd hp List.not_mem_nil

/-- The bytes of one file replaced. -/
def setData (v : Memory) (n : String) (bs : List UInt8) : Memory :=
  { v with data := fun q => if q = n then bs else v.data q }

def addDir (v : Memory) (d : String) : Memory where
  dirs := d :: v.dirs
  files := v.files
  data := v.data
  rooted := fun p hp => (v.rooted p hp).imp id (List.mem_cons_of_mem d)

def addFile (v : Memory) (p : String) (h : dirOf p = "" ∨ dirOf p ∈ v.dirs) : Memory where
  dirs := v.dirs
  files := v.files ++ [p]
  data := fun q => if q = p then [] else v.data q
  rooted := by
    intro q hq
    rcases List.mem_append.mp hq with hq | hq
    · exact v.rooted q hq
    · rw [List.mem_singleton.mp hq]
      exact h

def openFile (v : Memory) (p : String) : Option String :=
  if p ∈ v.files then some p else none

def openDir (v : Memory) (d : String) : Option (List (Option Entry)) :=
  if d = "" ∨ d ∈ v.dirs then
    some ((v.files.filter (dirOf · = d)).map (fun p => some ⟨nameOf p, false, nameOf_noSlash p⟩))
  else none

def createFile (v : Memory) (p : String) : Memory × Except String String :=
  if p ∈ v.files then (v, .ok p)
  else if h : dirOf p = "" ∨ dirOf p ∈ v.dirs then (v.addFile p h, .ok p)
  else (v, .error "no such directory")

end Memory

/-- The volume in memory, as a driver. -/
def memory : Ops Memory String where
  format _ := .ok Memory.empty
  openFile := Memory.openFile
  readToEnd v n := some (v.data n)
  openDir := Memory.openDir
  createDir v d := (if d ∈ v.dirs then v else v.addDir d, .ok ())
  createFile := Memory.createFile
  truncate v n k := (v.setData n ((v.data n).take k), .ok ())
  writeAll v n k bs :=
    (v.setData n ((v.data n).take k ++ bs ++ (v.data n).drop (k + bs.length)), .ok ())
  flush v _ := (v, .ok ())

namespace Memory

theorem openFile_eq_some_iff {v : Memory} {p n : String} :
    v.openFile p = some n ↔ p ∈ v.files ∧ n = p := by
  unfold openFile
  by_cases hp : p ∈ v.files
  · rw [if_pos hp, Option.some.injEq]
    exact ⟨fun h => ⟨hp, h.symm⟩, fun h => h.2.symm⟩
  · rw [if_neg hp]
    exact ⟨fun h => absurd h (by simp only [reduceCtorEq, not_false_eq_true]),
      fun h => absurd h.1 hp⟩

theorem setData_untouched (v : Memory) (n : String) (bs : List UInt8) :
    Untouched memory v (v.setData n bs) n where
  openFile _ := rfl
  openDir _ := rfl
  readToEnd m hm := by
    simp only [memory, setData, if_neg hm]

/-- Creating a file either finds it, changing nothing, or adds it. -/
theorem createFile_cases {v v' : Memory} {p n : String} (h : v.createFile p = (v', .ok n)) :
    n = p ∧ (p ∈ v.files ∧ v' = v ∨
      p ∉ v.files ∧ ∃ hd : dirOf p = "" ∨ dirOf p ∈ v.dirs, v' = v.addFile p hd) := by
  unfold createFile at h
  by_cases hp : p ∈ v.files
  · rw [if_pos hp, Prod.mk.injEq, Except.ok.injEq] at h
    exact ⟨h.2.symm, Or.inl ⟨hp, h.1.symm⟩⟩
  · rw [if_neg hp] at h
    by_cases hd : dirOf p = "" ∨ dirOf p ∈ v.dirs
    · rw [dif_pos hd, Prod.mk.injEq, Except.ok.injEq] at h
      exact ⟨h.2.symm, Or.inr ⟨hp, hd, h.1.symm⟩⟩
    · rw [dif_neg hd, Prod.mk.injEq] at h
      exact absurd h.2 (by simp only [reduceCtorEq, not_false_eq_true])

theorem openDir_addFile (v : Memory) (p d : String) (h : dirOf p = "" ∨ dirOf p ∈ v.dirs)
    (hd : dirOf p ≠ d) : (v.addFile p h).openDir d = v.openDir d := by
  simp only [openDir, addFile, List.filter_append, List.filter_singleton, hd, decide_false,
    cond_false, List.append_nil]

/-- The new file is listed in its own directory, behind what was listed
    there. -/
theorem openDir_addFile_self (v : Memory) (p : String) (h : dirOf p = "" ∨ dirOf p ∈ v.dirs) :
    (v.addFile p h).openDir (dirOf p) =
      (v.openDir (dirOf p)).map (· ++ [some ⟨nameOf p, false, nameOf_noSlash p⟩]) := by
  simp only [openDir, addFile, if_pos h, Option.map_some, List.filter_append,
    List.filter_singleton, decide_true, cond_true, List.map_append, List.map_cons, List.map_nil]

/-- A directory that was not there holds nothing: no file can lie in one that
    is not there. -/
theorem openDir_addDir_new (v : Memory) {d : String} (h : ¬ (d = "" ∨ d ∈ v.dirs)) :
    (v.addDir d).openDir d = some [] := by
  have hfiles : v.files.filter (dirOf · = d) = [] := by
    rw [List.filter_eq_nil_iff]
    intro p hp hdp
    rw [decide_eq_true_eq] at hdp
    exact h (hdp ▸ v.rooted p hp)
  simp only [openDir, addDir, List.mem_cons, true_or, or_true, if_true, hfiles, List.map_nil]

/-- A path that names no file is none of the files. -/
theorem not_mem_of_openFile_none {v : Memory} {p : String} (h : memory.openFile v p = none) :
    p ∉ v.files := by
  intro hp
  rw [show memory.openFile v p = some p from if_pos hp] at h
  exact absurd h (by simp only [reduceCtorEq, not_false_eq_true])

theorem ne_of_apart {p q : String} (h : Apart p q = true) : p ≠ q := by
  rintro rfl
  simp only [Apart, ApartDir, bne_self_eq_false, Bool.and_false, Bool.or_self,
    Bool.false_eq_true] at h

theorem ne_of_apartDir {d e : String} (h : ApartDir d e = true) : d ≠ e := by
  rintro rfl
  simp only [ApartDir, bne_self_eq_false, Bool.and_false, Bool.false_eq_true] at h

end Memory

open Memory in
theorem memory_lawful : memory.Lawful where
  format_openFile := by
    intro size v h q
    rw [← Except.ok.inj h]
    rfl
  format_openDir := by
    intro size v h d hd
    rw [← Except.ok.inj h]
    simp only [memory, openDir, empty, List.not_mem_nil, or_false, if_neg hd]
  apart := by
    intro v p q n m hpq hp hq
    rw [(openFile_eq_some_iff.mp hp).2, (openFile_eq_some_iff.mp hq).2]
    exact ne_of_apart hpq
  createDir_openFile := by
    intro v d q
    by_cases hd : d ∈ v.dirs
    · simp only [memory, if_pos hd]
    · simp only [memory, if_neg hd]
      rfl
  createDir_readToEnd := by
    intro v d m
    by_cases hd : d ∈ v.dirs
    · simp only [memory, if_pos hd]
    · simp only [memory, if_neg hd]
      rfl
  createDir_openDir := by
    intro v d q hq _
    by_cases hd : d ∈ v.dirs
    · simp only [memory, if_pos hd]
    · simp only [memory, if_neg hd, openDir, addDir, List.mem_cons, ne_of_apartDir hq, false_or]
  createDir_new := by
    intro v d v' hnone h
    simp only [memory, Prod.mk.injEq, and_true] at h
    have hd : ¬ (d = "" ∨ d ∈ v.dirs) := by
      intro hd
      simp only [memory, openDir, if_pos hd, reduceCtorEq] at hnone
    rw [if_neg (fun hm => hd (Or.inr hm))] at h
    rw [← h]
    exact ⟨[], openDir_addDir_new v hd, fun e he => absurd he List.not_mem_nil⟩
  createFile_self := by
    intro v p v' n h
    rcases createFile_cases h with ⟨rfl, ⟨hp, rfl⟩ | ⟨hp, hd, rfl⟩⟩
    · exact openFile_eq_some_iff.mpr ⟨hp, rfl⟩
    · exact openFile_eq_some_iff.mpr ⟨List.mem_append_right _ (List.mem_singleton_self _), rfl⟩
  createFile_openFile := by
    intro v p v' n h q
    rcases createFile_cases h with ⟨rfl, ⟨hp, rfl⟩ | ⟨hp, hd, rfl⟩⟩
    · exact Or.inl rfl
    · by_cases hq : q = n
      · rw [hq]
        exact Or.inr ⟨if_neg hp, if_pos (List.mem_append_right _ (List.mem_singleton_self _))⟩
      · refine Or.inl ?_
        simp only [memory, openFile, addFile, List.mem_append, List.mem_singleton, hq, or_false]
  createFile_old := by
    intro v p v' n m hm h
    rcases openFile_eq_some_iff.mp hm with ⟨hp, rfl⟩
    rcases createFile_cases h with ⟨rfl, ⟨_, rfl⟩ | ⟨hp', _⟩⟩
    · exact ⟨rfl, fun _ => rfl⟩
    · exact absurd hp hp'
  createFile_new := by
    intro v p v' n hnone h
    rcases createFile_cases h with ⟨rfl, ⟨hp, rfl⟩ | ⟨hp, hd, rfl⟩⟩
    · exact absurd hp (not_mem_of_openFile_none hnone)
    · refine ⟨by simp only [memory, addFile, if_true], ?_⟩
      intro q m hq
      rcases openFile_eq_some_iff.mp hq with ⟨hqf, rfl⟩
      have hmn : m ≠ n := fun hmn => hp (hmn ▸ hqf)
      exact ⟨hmn, by simp only [memory, addFile, if_neg hmn]⟩
  createFile_openDir := by
    intro v p v' n d h hd
    rcases createFile_cases h with ⟨rfl, ⟨_, rfl⟩ | ⟨_, hdir, rfl⟩⟩
    · rfl
    · exact openDir_addFile v n d hdir (ne_of_apartDir hd).symm
  createFile_entry := by
    intro v p v' n es hnone h hes
    rcases createFile_cases h with ⟨rfl, ⟨hp, rfl⟩ | ⟨hp, hd, rfl⟩⟩
    · exact absurd hp (not_mem_of_openFile_none hnone)
    · refine ⟨es ++ [some ⟨nameOf n, false, nameOf_noSlash n⟩], ?_, ?_⟩
      · exact (openDir_addFile_self v n hd).trans
          (congrArg (Option.map (· ++ [some ⟨nameOf n, false, nameOf_noSlash n⟩])) hes)
      · intro e
        rw [List.mem_append, List.mem_singleton, Option.some.injEq]
        refine or_congr Iff.rfl ⟨?_, ?_⟩
        · rintro rfl
          exact ⟨rfl, rfl⟩
        · rcases e with ⟨name, isDir, hns⟩
          rintro ⟨hname, hdir⟩
          simp only at hname hdir
          subst hname hdir
          rfl
  truncate_untouched := by
    intro v n k v' h
    rw [← (Prod.mk.inj h).1]
    exact setData_untouched v n _
  truncate_readToEnd := by
    intro v n v' h
    rw [← (Prod.mk.inj h).1]
    simp only [memory, setData, List.take_zero, if_true]
  writeAll_untouched := by
    intro v n k bs v' h
    rw [← (Prod.mk.inj h).1]
    exact setData_untouched v n _
  writeAll_readToEnd := by
    intro v n k bs v' old h hold _
    rw [← (Prod.mk.inj h).1, ← Option.some.inj hold]
    simp only [memory, setData, if_true]
  flush_untouched := by
    intro v n v' h
    rw [← (Prod.mk.inj h).1]
    exact ⟨fun _ => rfl, fun _ => rfl, fun _ _ => rfl⟩
  flush_readToEnd := by
    intro v n v' h
    rw [← (Prod.mk.inj h).1]

open Memory in
theorem memory_opensExisting : memory.OpensExisting := by
  intro v p n hopen q
  have hcreate : v.createFile p = (v, .ok p) := if_pos (openFile_eq_some_iff.mp hopen).1
  exact congrArg (fun r : Memory × Except String String => r.1.openFile q) hcreate

end Volume
