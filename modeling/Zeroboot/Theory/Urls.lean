import Zeroboot.Lib.Search
import Zeroboot.Theory.Script

/-!
# The URLs of Objects

Which manifests are about one object.

The script has no notion of an object but its URL, which it strings together
from five places of the manifest and a table. What a cluster means by an object
is the five things themselves: group, version, kind, namespace and name. That
two manifests of different objects never meet in one URL has to be shown, since
one group is written with the version in one field, a kind may have a namespace
or not, and a namespace can be called `clusterroles`.

It is shown in two steps. The URL is a path whose parts have no separator in
them, so it has its parts back. And the parts have what they stand for back:
core objects and others differ in the first, objects in a namespace and others
in how many there are, and the table names no two kinds alike.

## Main definitions

* `Ident`: What an object is known by.
* `Ident.parts`: The parts of its URL.
* `Identifies`: A manifest of that object.

## Theorems

* `Identifies.target`: Where the script looks for the object.
* `Ident.parts_inj`: The parts are those of one object only.
* `apart_iff_nodup`: Manifests are apart if no two are about one object.
-/

namespace Zeroboot.Manifests

/-- One part of a path. -/
@[ext]
structure Part where
  text : String
  whole : '/' ∉ text.toList

/-- What an object is known by: the group, unless it is the core group, the
    version, the kind with its entry in the table, the namespace if the kind has
    one, and the name. -/
structure Ident where
  group : Option Part
  version : Part
  kind : String
  plural : String
  ns : Option Part
  name : Part
  listed : plurals.lookup kind = some (plural, ns.isSome)

namespace Ident

variable {i j : Ident}

/-- The group and the version as a manifest has them. -/
def apiVersion (i : Ident) : String :=
  match i.group with
  | some group => group.text ++ "/" ++ i.version.text
  | none => i.version.text

def root (i : Ident) : List String :=
  match i.group with
  | some group => ["apis", group.text, i.version.text]
  | none => ["api", i.version.text]

def scope (i : Ident) : List String :=
  match i.ns with
  | some ns => ["namespaces", ns.text]
  | none => []

/-- The parts of the URL, behind the server's. -/
def parts (i : Ident) : List String :=
  i.root ++ (i.scope ++ [i.plural, i.name.text])

/-- The table has no two kinds of one plural. -/
theorem kind_inj {k k' p : String} {b b' : Bool} (h : plurals.lookup k = some (p, b))
    (h' : plurals.lookup k' = some (p, b')) : k = k' ∧ b = b' := by
  have hnodup : (plurals.map fun entry => entry.2.1).Nodup := by decide +kernel
  -- Both are entries of the table, which has no plural twice.
  rcases List.lookup_eq_some_iff.mp h with ⟨before, after, heq, _⟩
  rcases List.lookup_eq_some_iff.mp h' with ⟨before', after', heq', _⟩
  have hm : (k, p, b) ∈ plurals := heq ▸ List.mem_append_right before List.mem_cons_self
  have hm' : (k', p, b') ∈ plurals := heq' ▸ List.mem_append_right before' List.mem_cons_self
  have hsame := List.inj_on_of_nodup_map hnodup hm hm' rfl
  exact ⟨(Prod.mk.inj hsame).1, (Prod.mk.inj (Prod.mk.inj hsame).2).2⟩

theorem root_inj (h : i.root = j.root) : i.group = j.group ∧ i.version = j.version := by
  -- The two roots are of different lengths, so a group is not taken for none.
  unfold root at h
  rcases hi : i.group with _ | group
  · rcases hj : j.group with _ | group'
    · rw [hi, hj] at h
      exact ⟨rfl, Part.ext (List.cons.inj (List.cons.inj h).2).1⟩
    · rw [hi, hj] at h
      exact absurd (congrArg List.length h)
        (by simp only [List.length_cons, List.length_nil]; omega)
  · rcases hj : j.group with _ | group'
    · rw [hi, hj] at h
      exact absurd (congrArg List.length h)
        (by simp only [List.length_cons, List.length_nil]; omega)
    · rw [hi, hj] at h
      have htail := List.cons.inj (List.cons.inj h).2
      exact ⟨congrArg some (Part.ext htail.1), Part.ext (List.cons.inj htail.2).1⟩

theorem scope_inj (h : i.scope = j.scope) : i.ns = j.ns := by
  unfold scope at h
  rcases hi : i.ns with _ | ns
  · rcases hj : j.ns with _ | ns'
    · rfl
    · rw [hi, hj] at h
      exact absurd h (List.cons_ne_nil _ _).symm
  · rcases hj : j.ns with _ | ns'
    · rw [hi, hj] at h
      exact absurd h (List.cons_ne_nil _ _)
    · rw [hi, hj] at h
      exact congrArg some (Part.ext (List.cons.inj (List.cons.inj h).2).1)

/-- How long the part of the namespace is, the table says. -/
theorem length_scope (i : Ident) : i.scope.length = if i.ns.isSome then 2 else 0 := by
  unfold scope
  rcases i.ns with _ | ns <;> rfl

/-- The parts are those of one object only. -/
theorem parts_inj (h : i.parts = j.parts) : i = j := by
  unfold parts at h
  rw [← List.append_assoc, ← List.append_assoc] at h
  -- The plural and the name come off the end, and with the plural the kind.
  rcases List.append_inj' h rfl with ⟨hfront, hend⟩
  have hplural := (List.cons.inj hend).1
  have hname : i.name = j.name := Part.ext (List.cons.inj (List.cons.inj hend).2).1
  rcases kind_inj i.listed (hplural ▸ j.listed) with ⟨hkind, hscoped⟩
  -- The kind has a namespace or not, so what is left comes apart as well.
  have hlength : i.scope.length = j.scope.length := by
    rw [length_scope, length_scope, hscoped]
  rcases List.append_inj' hfront hlength with ⟨hroot, hscope⟩
  rcases root_inj hroot with ⟨hgroup, hversion⟩
  have hns := scope_inj hscope
  cases i
  cases j
  simp only [Ident.mk.injEq]
  exact ⟨hgroup, hversion, hkind, hplural, hns, hname⟩

/-- No part has the separator in it. -/
theorem slash_not_mem (i : Ident) : ∀ s ∈ i.parts, '/' ∉ s.toList := by
  have hroot : ∀ s ∈ i.root, '/' ∉ s.toList := by
    intro s hs
    unfold root at hs
    rcases hgroup : i.group with _ | group
    · rw [hgroup] at hs
      simp only [List.mem_cons, List.not_mem_nil, or_false] at hs
      rcases hs with rfl | rfl
      · decide
      · exact i.version.whole
    · rw [hgroup] at hs
      simp only [List.mem_cons, List.not_mem_nil, or_false] at hs
      rcases hs with rfl | rfl | rfl
      · decide
      · exact group.whole
      · exact i.version.whole
  have hscope : ∀ s ∈ i.scope, '/' ∉ s.toList := by
    intro s hs
    unfold scope at hs
    rcases hns : i.ns with _ | ns
    · rw [hns] at hs
      exact absurd hs List.not_mem_nil
    · rw [hns] at hs
      simp only [List.mem_cons, List.not_mem_nil, or_false] at hs
      rcases hs with rfl | rfl
      · decide
      · exact ns.whole
  -- The plurals are the ones of the table.
  have hplural : '/' ∉ i.plural.toList := by
    have hall : ∀ entry ∈ plurals, '/' ∉ entry.2.1.toList := by decide +kernel
    rcases List.lookup_eq_some_iff.mp i.listed with ⟨before, after, heq, _⟩
    exact hall _ (heq ▸ List.mem_append_right before List.mem_cons_self)
  intro s hs
  unfold parts at hs
  rcases List.mem_append.mp hs with hs | hs
  · exact hroot s hs
  rcases List.mem_append.mp hs with hs | hs
  · exact hscope s hs
  simp only [List.mem_cons, List.not_mem_nil, or_false] at hs
  rcases hs with rfl | rfl
  · exact hplural
  · exact i.name.whole

/-- The URL of the object, on the server at `base`. -/
def url (base : String) (i : Ident) : String :=
  base ++ String.ofList (Text.path '/' i.parts)

theorem url_inj {base : String} (h : i.url base = j.url base) : i = j := by
  have hpath := String.toList_inj.mpr h
  unfold url at hpath
  rw [String.toList_append, String.toList_append, String.toList_ofList,
    String.toList_ofList] at hpath
  exact parts_inj (Text.path_inj i.slash_not_mem j.slash_not_mem (List.append_cancel_left hpath))

end Ident

/-! ## The manifests -/

/-- A manifest of that object. The namespace may be left out when it is
    `default`. -/
structure Identifies (obj : Py) (i : Ident) : Prop where
  apiVersion : obj.item "apiVersion" = .ok (.str i.apiVersion)
  kind : obj.item "kind" = .ok (.str i.kind)
  metadata : ∃ m, obj.get "metadata" (.dict []) = .ok m ∧
    m.get "name" (.str "<unnamed>") = .ok (.str i.name.text) ∧
    ∀ ns, i.ns = some ns → m.get "namespace" (.str "default") = .ok (.str ns.text)

variable {P : Python} {base : String} {obj obj' : Py} {i j : Ident}

/-- A group is told by the separator behind it. -/
theorem Ident.grouped (i : Ident) : Text.contains i.apiVersion "/" = i.group.isSome := by
  unfold Ident.apiVersion
  rcases i.group with _ | group
  · -- Without a group there is the version only, and no separator in it.
    have hnot := i.version.whole
    rw [← Text.contains_iff_mem (by decide : "/".toList = ['/']), Bool.not_eq_true] at hnot
    exact hnot
  · refine (Text.contains_iff_mem (by decide : "/".toList = ['/']) _).mpr ?_
    rw [String.toList_append, String.toList_append]
    exact List.mem_append_left _ (List.mem_append_right _ (by decide))

/-- The root of the collections of a group. -/
theorem Ident.path_root (i : Ident) :
    ((if i.group.isSome then "/apis/" else "/api/") ++ i.apiVersion).toList =
      Text.path '/' i.root := by
  have hapis : "/apis/".toList = '/' :: ("apis".toList ++ ['/']) := by decide
  have hapi : "/api/".toList = '/' :: ("api".toList ++ ['/']) := by decide
  have hslash : "/".toList = ['/'] := by decide
  unfold Ident.apiVersion Ident.root
  rcases i.group with _ | group
  all_goals
    simp only [Option.isSome_none, Option.isSome_some, Bool.false_eq_true, if_false, if_true,
      String.toList_append, hapis, hapi, hslash, Text.path_cons, Text.path_nil,
      List.append_nil, List.cons_append, List.nil_append, List.append_assoc]

theorem Ident.path_parts (i : Ident) : Text.path '/' i.parts =
    Text.path '/' i.root ++ Text.path '/' (i.scope ++ [i.plural]) ++ '/' :: i.name.text.toList := by
  have hparts : i.parts = (i.root ++ (i.scope ++ [i.plural])) ++ [i.name.text] := by
    unfold Ident.parts
    rw [List.append_assoc, List.append_assoc, List.cons_append, List.nil_append]
  rw [hparts, Text.path_append, Text.path_append, Text.path_cons, Text.path_nil, List.append_nil]

/-- The collection of the object is where its URL says. -/
theorem Identifies.resourcePath (h : Identifies obj i) (P : Python) (base : String) :
    resourcePath P base obj = .ok (base ++ String.ofList (Text.path '/' i.root ++
      Text.path '/' (i.scope ++ [i.plural]))) := by
  rcases h.metadata with ⟨m, hm, _, hns⟩
  have hplural : pluralOf P (.str i.kind) = .ok (i.plural, i.ns.isSome) := by
    unfold pluralOf
    simp only [i.listed]
    rfl
  have hcontains : (Py.str i.apiVersion).contains "/" = .ok i.group.isSome :=
    congrArg Except.ok i.grouped
  have hspaces : "/namespaces/".toList = '/' :: ("namespaces".toList ++ ['/']) := by decide
  have hslash : "/".toList = ['/'] := by decide
  unfold Manifests.resourcePath
  simp only [h.apiVersion, h.kind, hplural, hcontains, hm, bind, Except.bind, pure, Except.pure,
    Python.format]
  unfold Ident.scope
  rcases hn : i.ns with _ | ns
  · simp only [Option.isSome_none, Bool.false_eq_true, if_false]
    refine congrArg Except.ok (String.toList_inj.mp ?_)
    rw [← i.path_root]
    simp only [String.toList_append, String.toList_ofList, hslash, Text.path_cons,
      Text.path_nil, List.append_nil, List.cons_append, List.nil_append, List.append_assoc]
  · -- The namespace is in the manifest, or is the default.
    simp only [hns ns hn, Option.isSome_some, if_true]
    refine congrArg Except.ok (String.toList_inj.mp ?_)
    rw [← i.path_root]
    simp only [String.toList_append, String.toList_ofList, hslash, hspaces, Text.path_cons,
      Text.path_nil, List.append_nil, List.cons_append, List.nil_append,
      List.append_assoc]

theorem Identifies.target (h : Identifies obj i) (P : Python) (base : String) :
    ∃ t, target P base obj = .ok t ∧ t.url = i.url base := by
  rcases h.metadata with ⟨m, hm, hname, _⟩
  have hslash : "/".toList = ['/'] := by decide
  unfold Manifests.target
  simp only [h.kind, hm, hname, h.resourcePath P base, bind, Except.bind, pure, Except.pure,
    Python.format]
  refine ⟨_, rfl, String.toList_inj.mp ?_⟩
  unfold Target.url Ident.url
  rw [i.path_parts]
  simp only [String.toList_append, String.toList_ofList, hslash, List.append_assoc,
    List.cons_append, List.nil_append]

/-- Two manifests are apart exactly if they are about two objects. -/
theorem apart_iff (h : Identifies obj i) (h' : Identifies obj' j) :
    Apart P base (.ok obj) (.ok obj') ↔ i ≠ j := by
  rcases h.target P base with ⟨t, ht, hurl⟩
  rcases h'.target P base with ⟨t', ht', hurl'⟩
  constructor
  · rintro hapart rfl
    exact hapart obj obj' t t' rfl rfl ht ht' (hurl.trans hurl'.symm)
  · intro hne o o' u u' ho ho' hu hu' heq
    rw [Except.ok.injEq] at ho ho'
    rw [← ho, ht, Except.ok.injEq] at hu
    rw [← ho', ht', Except.ok.injEq] at hu'
    rw [← hu, ← hu', hurl, hurl'] at heq
    exact hne (Ident.url_inj heq)

section Documents

variable {documents : List (Except Ended Py)} {objects : List Ident}

/-- Each of the documents is a manifest of its object. -/
def About (documents : List (Except Ended Py)) (objects : List Ident) : Prop :=
  List.Forall₂ (fun d i => ∃ obj, d = .ok obj ∧ Identifies obj i) documents objects

/-- A manifest is apart from others if its object is none of theirs. -/
theorem apart_iff_not_mem (hobj : Identifies obj i) (h : About documents objects) :
    (∀ d ∈ documents, Apart P base (.ok obj) d) ↔ i ∉ objects := by
  induction h with
  | nil => exact ⟨fun _ => List.not_mem_nil, fun _ d hd => absurd hd List.not_mem_nil⟩
  | @cons d j documents objects hd hrest ih =>
      rcases hd with ⟨obj', rfl, hobj'⟩
      rw [List.forall_mem_cons, ih, apart_iff hobj hobj', List.mem_cons, not_or]

/-- No two manifests meet in one URL exactly if no two of them are about one
    object. -/
theorem apart_iff_nodup (h : About documents objects) (P : Python) (base : String) :
    documents.Pairwise (Apart P base) ↔ objects.Nodup := by
  induction h with
  | nil => exact ⟨fun _ => List.nodup_nil, fun _ => List.Pairwise.nil⟩
  | @cons d i documents objects hd hrest ih =>
      rcases hd with ⟨obj, rfl, hobj⟩
      rw [List.pairwise_cons, List.nodup_cons, ih, apart_iff_not_mem hobj hrest]

end Documents

def part (text : String) (whole : '/' ∉ text.toList) : Part where
  text := text
  whole := whole

def stormIdent : Ident where
  group := none
  version := part "v1" (by decide)
  kind := "Namespace"
  plural := "namespaces"
  ns := none
  name := part "storm" (by decide)
  listed := rfl

def accountIdent : Ident where
  group := none
  version := part "v1" (by decide)
  kind := "ServiceAccount"
  plural := "serviceaccounts"
  ns := some (part "default" (by decide))
  name := part "storm" (by decide)
  listed := rfl

def roleIdent : Ident where
  group := some (part "rbac.authorization.k8s.io" (by decide))
  version := part "v1" (by decide)
  kind := "ClusterRole"
  plural := "clusterroles"
  ns := none
  name := part "storm" (by decide)
  listed := rfl

theorem about_storm : About [.ok storm, .ok account, .ok clusterRole]
    [stormIdent, accountIdent, roleIdent] := by
  refine .cons ?_ (.cons ?_ (.cons ?_ .nil))
  · exact ⟨storm, rfl, rfl, rfl, _, rfl, rfl,
      fun ns hns => absurd hns (Option.some_ne_none ns).symm⟩
  · refine ⟨account, rfl, rfl, rfl, _, rfl, rfl, fun ns hns => ?_⟩
    rw [← Option.some.inj hns]
    rfl
  · exact ⟨clusterRole, rfl, rfl, rfl, _, rfl, rfl,
      fun ns hns => absurd hns (Option.some_ne_none ns).symm⟩

theorem apart_iff_nodup_storm :
    [Except.ok storm, .ok account, .ok clusterRole].Pairwise
      (Apart python (rstripSlash apiUrl)) := by
  refine (apart_iff_nodup about_storm _ _).mpr ?_
  -- They are of three kinds.
  refine List.Nodup.of_map Ident.kind ?_
  decide

end Zeroboot.Manifests
