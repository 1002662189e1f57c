import Zeroboot.Lib.Search
import Zeroboot.Core.Probe

/-!
# The Lines Stormblock Answers With

`parseSlabLine` is all that stands between a line on somebody else's stdout
and a drive being taken for ours, so it is compared with what such a line is
supposed to look like.

`NamesSlab` says that without a parser: where the marker is, what identifier
stands behind it, and which role the rest gives. The identifier is a UUID, in
its groups. The code never looks at the groups. It takes the leading run of
hexadecimal digits and dashes and counts it, so the two agree on a line exactly
when a run of the right length has its dashes where a UUID has them, which is
`DashesInPlace`. A run of thirty-six dashes does not.

`SlabLine` is a line as stormblock prints it, with everything that makes it
readable as a field. Those are read back whole.

## Main definitions

* `isIdChar`, `uuidGroups`: What an identifier is made of.
* `RoleOf`, `NamesSlab`: A line that names a slab.
* `DashesInPlace`: The run behind the marker is no impostor.
* `SlabLine`: A line as stormblock prints it.

## Theorems

* `roleIn_eq_iff`: The role is read as it should be.
* `parseSlabLine_eq_some_iff`: What the parser accepts.
* `namesSlab_iff`: What it should accept, in the same words.
* `parseSlabLine_iff_names`: The two agree when the dashes are in place, and
  on every line that stormblock prints.
* `parseSlabLine_dashes`: Thirty-six dashes pass for an identity.
-/

namespace Zeroboot

open Text

/-- What the scan for an identifier takes: a hexadecimal digit or a dash. -/
def isIdChar (c : Char) : Bool :=
  isAsciiHexdigit c || c == '-'

/-- The groups of a UUID. -/
def uuidGroups : List Nat :=
  [8, 4, 4, 4, 12]

/-- A UUID: groups of hexadecimal digits with dashes between them. -/
def IsUuid (cs : List Char) : Prop :=
  Groups isAsciiHexdigit '-' uuidGroups cs

/-- What ends a role. -/
def isRoleChar (c : Char) : Bool :=
  c != ',' && c != ')'

/-- The role a text gives: what stands behind the first `role=`, up to a comma
    or a closing parenthesis and without the white space around it. -/
inductive RoleOf (rest : List Char) : String → Prop
  | named {before r v behind : List Char} (split : FirstSplit "role=".toList rest before r)
      (run : LeadingRun isRoleChar r v behind) (ne : trimChars v ≠ []) :
      RoleOf rest (String.ofList (trimChars v))
  | empty {before r v behind : List Char} (split : FirstSplit "role=".toList rest before r)
      (run : LeadingRun isRoleChar r v behind) (nil : trimChars v = []) : RoleOf rest "unknown"
  | absent (none : ¬ "role=".toList <:+: rest) : RoleOf rest "unknown"

/-- A line that names a slab: behind the first marker stands a UUID that does
    not go on. -/
def NamesSlab (line id role : String) : Prop :=
  ∃ before rest behind, FirstSplit ": slab ".toList line.toList before rest ∧
    rest = id.toList ++ behind ∧ IsUuid id.toList ∧ (∀ c ∈ behind.head?, isIdChar c = false) ∧
    RoleOf rest role

/-- The run of hexadecimal digits and dashes behind the first marker, when it
    is as long as a UUID, has its dashes where a UUID has them. -/
def DashesInPlace (line : String) : Prop :=
  ∀ before rest, FirstSplit ": slab ".toList line.toList before rest →
    (rest.takeWhile isIdChar).length = 36 →
      ∀ i, (rest.takeWhile isIdChar)[i]? = some '-' ↔ i ∈ [8, 13, 18, 23]

/-! ## The role -/

/-- The role as the code computes it. -/
def roleIn (rest : String) : String :=
  (((splitOnceStr "role=" rest).map (fun (_, r) =>
    trim (String.ofList (r.toList.takeWhile (fun c => c != ',' && c != ')'))))).filter
      (· ≠ "")).getD "unknown"

theorem ofList_eq_empty_iff {cs : List Char} : String.ofList cs = "" ↔ cs = [] := by
  constructor
  · intro h
    have hlist := congrArg String.toList h
    rwa [String.toList_ofList] at hlist
  · intro h
    rw [h]

theorem roleIn_absent {rest : List Char} (h : ¬ "role=".toList <:+: rest) :
    roleIn (String.ofList rest) = "unknown" := by
  rw [roleIn, splitOnceStr_eq_none h]
  rfl

theorem roleIn_split {rest before r : List Char}
    (h : FirstSplit "role=".toList rest before r) :
    roleIn (String.ofList rest) = if trimChars (r.takeWhile isRoleChar) = [] then "unknown"
      else String.ofList (trimChars (r.takeWhile isRoleChar)) := by
  have htrim : trim (String.ofList ((String.ofList r).toList.takeWhile
      (fun c => c != ',' && c != ')'))) = String.ofList (trimChars (r.takeWhile isRoleChar)) := by
    rw [trim, String.toList_ofList, String.toList_ofList]
    rfl
  rw [roleIn, splitOnceStr_eq_some h, Option.map_some]
  simp only [htrim]
  by_cases hnil : trimChars (r.takeWhile isRoleChar) = []
  · rw [if_pos hnil, hnil]
    rfl
  · rw [if_neg hnil, Option.filter_some, if_pos]
    · rfl
    · exact decide_eq_true fun hempty => hnil (ofList_eq_empty_iff.mp hempty)

/-- The role is read as it should be. -/
theorem roleIn_eq_iff {rest : List Char} {role : String} :
    roleIn (String.ofList rest) = role ↔ RoleOf rest role := by
  constructor
  · intro h
    rw [← h]
    by_cases habsent : "role=".toList <:+: rest
    · rcases exists_firstSplit habsent with ⟨before, r, hfirst⟩
      have hrun := leadingRun_takeWhile isRoleChar r
      rw [roleIn_split hfirst]
      by_cases hnil : trimChars (r.takeWhile isRoleChar) = []
      · rw [if_pos hnil]
        exact RoleOf.empty hfirst hrun hnil
      · rw [if_neg hnil]
        exact RoleOf.named hfirst hrun hnil
    · rw [roleIn_absent habsent]
      exact RoleOf.absent habsent
  · intro h
    cases h with
    | named split run ne =>
        rw [run.eq_takeWhile] at ne ⊢
        rw [roleIn_split split, if_neg ne]
    | empty split run nil =>
        rw [run.eq_takeWhile] at nil
        rw [roleIn_split split, if_pos nil]
    | absent none => exact roleIn_absent none

/-! ## The identifier -/

theorem parseSlabLine_unmarked {line : List Char} (h : ¬ ": slab ".toList <:+: line) :
    parseSlabLine (String.ofList line) = none := by
  rw [parseSlabLine, splitOnceStr_eq_none h]
  rfl

/-- Behind the marker the run is counted, and nothing more is asked of it. -/
theorem parseSlabLine_marked {line before rest : List Char}
    (h : FirstSplit ": slab ".toList line before rest) :
    parseSlabLine (String.ofList line) = if (rest.takeWhile isIdChar).length = 36 then
      some (String.ofList (rest.takeWhile isIdChar), roleIn (String.ofList rest)) else none := by
  have hrun : (String.ofList rest).toList.takeWhile (fun c => isAsciiHexdigit c || c == '-') =
      rest.takeWhile isIdChar := by
    rw [String.toList_ofList]
    rfl
  rw [parseSlabLine, splitOnceStr_eq_some h, Option.bind_some]
  simp only [hrun, ne_eq, ite_not]
  rfl

/-- What the parser accepts: a marker, and a run of the right length. -/
theorem parseSlabLine_eq_some_iff {line id role : String} :
    parseSlabLine line = some (id, role) ↔
      ∃ before rest, FirstSplit ": slab ".toList line.toList before rest ∧
        id.toList = rest.takeWhile isIdChar ∧ (rest.takeWhile isIdChar).length = 36 ∧
          RoleOf rest role := by
  have hline : parseSlabLine line = parseSlabLine (String.ofList line.toList) := by
    rw [String.ofList_toList]
  rw [hline]
  constructor
  · intro h
    by_cases hmarked : ": slab ".toList <:+: line.toList
    · rcases exists_firstSplit hmarked with ⟨before, rest, hfirst⟩
      rw [parseSlabLine_marked hfirst] at h
      by_cases hlen : (rest.takeWhile isIdChar).length = 36
      · rw [if_pos hlen] at h
        rcases Prod.mk.inj (Option.some.inj h) with ⟨hid, hrole⟩
        exact ⟨before, rest, hfirst, by rw [← hid, String.toList_ofList], hlen,
          roleIn_eq_iff.mp hrole⟩
      · rw [if_neg hlen] at h
        exact absurd h (by simp only [reduceCtorEq, not_false_eq_true])
    · rw [parseSlabLine_unmarked hmarked] at h
      exact absurd h (by simp only [reduceCtorEq, not_false_eq_true])
  · intro ⟨before, rest, hfirst, hid, hlen, hrole⟩
    rw [parseSlabLine_marked hfirst, if_pos hlen, roleIn_eq_iff.mpr hrole, ← hid,
      String.ofList_toList]

theorem isIdChar_of_uuid {cs : List Char} (h : IsUuid cs) : ∀ c ∈ cs, isIdChar c = true := by
  intro c hc
  unfold isIdChar
  rcases h.mem c hc with hp | heq
  · rw [hp, Bool.true_or]
  · rw [heq]
    rfl

/-- A UUID is thirty-six of these characters with its dashes in four places. -/
theorem isUuid_iff {cs : List Char} (hcs : ∀ c ∈ cs, isIdChar c = true) :
    IsUuid cs ↔ cs.length = 36 ∧ ∀ i, cs[i]? = some '-' ↔ i ∈ [8, 13, 18, 23] := by
  refine groups_iff_places (by decide) [4, 4, 4, 12] fun c hc => ?_
  have hid := hcs c hc
  rw [isIdChar, Bool.or_eq_true, beq_iff_eq] at hid
  exact hid

/-- Whether a text is a UUID can be computed. -/
instance (cs : List Char) : Decidable (IsUuid cs) :=
  decidable_of_iff (cs.all isIdChar = true ∧ cs.length = 36 ∧
      ∀ i < 36, cs[i]? = some '-' ↔ i ∈ [8, 13, 18, 23]) (by
    constructor
    · intro ⟨hall, hlen, hplaces⟩
      refine (isUuid_iff (List.all_eq_true.mp hall)).mpr ⟨hlen, fun i => ?_⟩
      by_cases hi : i < 36
      · exact hplaces i hi
      · rw [List.getElem?_eq_none (by omega)]
        simp only [reduceCtorEq, List.mem_cons, List.not_mem_nil, or_false, false_iff]
        omega
    · intro h
      have hall := isIdChar_of_uuid h
      rcases (isUuid_iff hall).mp h with ⟨hlen, hplaces⟩
      exact ⟨List.all_eq_true.mpr hall, hlen, fun i _ => hplaces i⟩)

/-- What the parser should accept: a marker, and a run that is a UUID. -/
theorem namesSlab_iff {line id role : String} :
    NamesSlab line id role ↔
      ∃ before rest, FirstSplit ": slab ".toList line.toList before rest ∧
        id.toList = rest.takeWhile isIdChar ∧ IsUuid (rest.takeWhile isIdChar) ∧
          RoleOf rest role := by
  constructor
  · intro ⟨before, rest, behind, hsplit, heq, huuid, hstops, hrole⟩
    have hrun : LeadingRun isIdChar rest id.toList behind :=
      ⟨heq, isIdChar_of_uuid huuid, hstops⟩
    refine ⟨before, rest, hsplit, hrun.eq_takeWhile, ?_, hrole⟩
    rw [← hrun.eq_takeWhile]
    exact huuid
  · intro ⟨before, rest, hsplit, hid, huuid, hrole⟩
    have hrun := leadingRun_takeWhile isIdChar rest
    refine ⟨before, rest, rest.dropWhile isIdChar, hsplit, ?_, ?_, hrun.stops, hrole⟩
    · rw [hid]
      exact hrun.eq
    · rw [hid]
      exact huuid

/-! ## Lines as stormblock prints them -/

/-- A line as stormblock prints it, with what makes it readable. -/
structure SlabLine where
  dev : String
  id : String
  role : String
  more : String
  unmarked : ¬ ": slab ".toList <:+: dev.toList
  uuid : IsUuid id.toList
  ne : role ≠ ""
  trimmed : trim role = role
  plain : ∀ c ∈ role.toList, isRoleChar c = true

/-- The line itself. -/
def SlabLine.text (l : SlabLine) : String :=
  l.dev ++ ": slab " ++ l.id ++ " (role=" ++ l.role ++ ", " ++ l.more ++ ")"

/-- A line of a machine with one slab. -/
def dataLine : SlabLine where
  dev := "/dev/sdb"
  id := "7661cf8b-1c4f-4a2e-9f11-7d3b5a2c8e60"
  role := "data"
  more := "tier=hot, 4096 slots, 3900 free"
  unmarked := by decide +kernel
  uuid := by decide
  ne := by decide
  trimmed := by decide
  plain := List.all_eq_true.mp (by decide)

example : dataLine.text = "/dev/sdb: slab 7661cf8b-1c4f-4a2e-9f11-7d3b5a2c8e60 " ++
    "(role=data, tier=hot, 4096 slots, 3900 free)" := by decide

/-- What stands behind the marker of a printed line. -/
def SlabLine.rest (l : SlabLine) : List Char :=
  l.id.toList ++ " (".toList ++ "role=".toList ++ (l.role.toList ++ ", ".toList ++
    l.more.toList ++ ")".toList)

/-- The marker is found where it was printed, whatever the device is called. -/
theorem SlabLine.firstSplit (l : SlabLine) :
    FirstSplit ": slab ".toList l.text.toList l.dev.toList l.rest := by
  have htext : l.text.toList = l.dev.toList ++ ": slab ".toList ++ l.rest := by
    unfold SlabLine.text SlabLine.rest
    simp only [String.toList_append, List.append_assoc]
    rfl
  have hword : ": slab ".toList = ':' :: " slab ".toList := rfl
  rw [htext, hword]
  exact firstSplit_append l.rest (by decide) l.unmarked

/-- Neither the identifier nor what stands behind it can start the word for
    the role, so the role is read where it was printed. -/
theorem SlabLine.firstSplit_role (l : SlabLine) :
    FirstSplit "role=".toList l.rest (l.id.toList ++ " (".toList)
      (l.role.toList ++ ", ".toList ++ l.more.toList ++ ")".toList) := by
  have hword : "role=".toList = 'r' :: "ole=".toList := rfl
  rw [SlabLine.rest, hword]
  refine firstSplit_append _ (by decide) ?_
  intro h
  have hr : 'r' ∈ l.id.toList ++ " (".toList := h.subset List.mem_cons_self
  rcases List.mem_append.mp hr with hr | hr
  · exact absurd (isIdChar_of_uuid l.uuid _ hr) (by decide)
  · exact absurd hr (by decide)

theorem SlabLine.roleOf (l : SlabLine) : RoleOf l.rest l.role := by
  have hrun : LeadingRun isRoleChar (l.role.toList ++ ", ".toList ++ l.more.toList ++ ")".toList)
      l.role.toList (", ".toList ++ l.more.toList ++ ")".toList) := by
    refine ⟨by simp only [List.append_assoc], l.plain, ?_⟩
    intro c hc
    rw [← Option.some.inj hc]
    rfl
  have htrim : String.ofList (trimChars l.role.toList) = l.role := l.trimmed
  rw [← htrim]
  refine RoleOf.named l.firstSplit_role hrun ?_
  intro hnil
  rw [hnil] at htrim
  exact l.ne htrim.symm

/-- A printed line names its slab. -/
theorem SlabLine.names (l : SlabLine) : NamesSlab l.text l.id l.role := by
  refine ⟨l.dev.toList, l.rest, " (".toList ++ "role=".toList ++ (l.role.toList ++ ", ".toList ++
    l.more.toList ++ ")".toList), l.firstSplit, ?_, l.uuid, ?_, l.roleOf⟩
  · unfold SlabLine.rest
    simp only [List.append_assoc]
  · intro c hc
    rw [← Option.some.inj hc]
    rfl

/-! ## What passes for an identity -/

/-- A line names a slab when the parser accepts it and the run it accepted is
    a UUID. -/
theorem names_of_parse {line id role : String} (h : parseSlabLine line = some (id, role))
    (hin : DashesInPlace line) : NamesSlab line id role := by
  rcases parseSlabLine_eq_some_iff.mp h with ⟨before, rest, hfirst, hid, hlen, hrole⟩
  have hrun := (leadingRun_takeWhile isIdChar rest).all
  exact namesSlab_iff.mpr ⟨before, rest, hfirst, hid,
    (isUuid_iff hrun).mpr ⟨hlen, hin before rest hfirst hlen⟩, hrole⟩

/-- What names a slab is accepted, always. -/
theorem parse_of_names {line id role : String} (h : NamesSlab line id role) :
    parseSlabLine line = some (id, role) := by
  rcases namesSlab_iff.mp h with ⟨before, rest, hfirst, hid, huuid, hrole⟩
  have hrun := (leadingRun_takeWhile isIdChar rest).all
  exact parseSlabLine_eq_some_iff.mpr ⟨before, rest, hfirst, hid,
    ((isUuid_iff hrun).mp huuid).1, hrole⟩

/-- The parser accepts the lines that name a slab and no others, for as long
    as a run of thirty-six has its dashes in place; and every line stormblock
    prints is read back. -/
theorem parseSlabLine_iff_names (line : String) :
    ((∀ id role, parseSlabLine line = some (id, role) ↔ NamesSlab line id role) ↔
      DashesInPlace line) ∧
    ∀ l : SlabLine, parseSlabLine l.text = some (l.id, l.role) := by
  refine ⟨⟨?_, ?_⟩, fun l => parse_of_names l.names⟩
  · intro hiff before rest hfirst hlen
    -- A run of the right length is accepted, so it names a slab, so it is a UUID.
    have hparse : parseSlabLine line = some (String.ofList (rest.takeWhile isIdChar),
        roleIn (String.ofList rest)) :=
      parseSlabLine_eq_some_iff.mpr ⟨before, rest, hfirst, by rw [String.toList_ofList], hlen,
        roleIn_eq_iff.mp rfl⟩
    rcases namesSlab_iff.mp ((hiff _ _).mp hparse) with ⟨before', rest', hfirst', -, huuid, -⟩
    rcases hfirst'.unique hfirst with ⟨-, rfl⟩
    exact ((isUuid_iff (leadingRun_takeWhile isIdChar rest').all).mp huuid).2
  · intro hin id role
    exact ⟨fun h => names_of_parse h hin, parse_of_names⟩

/-- Thirty-six dashes pass for an identity. -/
theorem parseSlabLine_dashes :
    parseSlabLine "/dev/sdb: slab ------------------------------------ (role=system)" =
        some ("------------------------------------", "system") ∧
      ¬ NamesSlab "/dev/sdb: slab ------------------------------------ (role=system)"
        "------------------------------------" "system" := by
  refine ⟨by decide, ?_⟩
  intro h
  rcases namesSlab_iff.mp h with ⟨_, _, _, hid, huuid, _⟩
  rw [← hid] at huuid
  exact absurd huuid (by decide)

end Zeroboot
